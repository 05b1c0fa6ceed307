import RouteDocs.Text.Surrogate
import RouteDocs.Yaml.Token

/-!
# RouteDocs.Yaml.Token.Scalar — quoted, block and plain scalars

The three ways to write a text.  In quotes and in plain scalars a single line break stands for a
space and more breaks for one less; block scalars keep their lines or fold them, and their end is kept,
clipped or stripped as their header says.
-/

namespace RouteDocs.Yaml

namespace Cursor

/-! ### Quoted scalars -/

/-- The character that a letter after a backslash stands for. -/
def namedEscape? (c : Char) : Option Char :=
  match c with
  | '0' => some '\x00' | 'a' => some '\x07' | 'b' => some '\x08' | 't' => some '\t'
  | '\t' => some '\t' | 'n' => some '\n' | 'v' => some '\x0b' | 'f' => some '\x0c'
  | 'r' => some '\r' | 'e' => some '\x1b' | ' ' => some ' ' | '"' => some '"'
  | '\\' => some '\\' | '/' => some '/' | 'N' => some '\x85' | '_' => some '\xa0'
  | 'L' => some '\u2028' | 'P' => some '\u2029' | _ => none

/-- The number of hexadecimal digits after a letter that announces a code point. -/
def codeDigits? (c : Char) : Option Nat :=
  match c with
  | 'x' => some 2 | 'u' => some 4 | 'U' => some 8 | _ => none

/-- The breaks of empty lines ahead, with the spaces of the line after them skipped.  The mark of a
document may not be inside quotes. -/
def readBlankLines : (fuel : Nat) → (acc : List Char) → Cursor → Except Fault (List Char × Cursor)
  | 0, acc, c => .ok (acc, c)
  | fuel + 1, acc, c =>
    if c.atDocumentMark then .error .unterminated
    else
      let c := (c.span fun a => a == ' ' || a == '\t').2
      match c.rest with
      | a :: _ => if isBreak a then readBlankLines fuel (acc ++ [breakText a]) c.next else .ok (acc, c)
      | [] => .ok (acc, c)

/-- A character that stands for itself in both kinds of quotes. -/
def isQuotedPlain (c : Char) : Bool :=
  !(c == '\'' || c == '"' || c == '\\' || c == ' ' || c == '\t' || isBreak c)

/-- What a backslash in double quotes stands for, and the cursor after it. -/
def readEscape (c : Cursor) : Except Fault (List Char × Cursor) :=
  match c.next.rest with
  | [] => .error .escape
  | a :: r =>
    match namedEscape? a, codeDigits? a with
    | some d, _ => .ok ([d], c.next.next)
    | none, some count =>
      match takeHex? count 0 r with
      | none => .error .escape
      | some (n, _) =>
        if 0x10FFFF < n then .error (.codePoint (0x80000000 ≤ n))
        else
          let c := (List.range (count + 2)).foldl (fun c _ => c.next) c
          .ok ([Text.charOfCode n], c)
    | none, none =>
      if isBreak a then readBlankLines (r.length + 1) [] c.next.next else .error .escape

/-- The text ahead up to the next white space or the closing quote. -/
def readQuotedWord (double : Bool) : (fuel : Nat) → (acc : List Char) → Cursor →
    Except Fault (List Char × Cursor)
  | 0, acc, c => .ok (acc, c)
  | fuel + 1, acc, c =>
    let (part, c) := c.span isQuotedPlain
    let acc := acc ++ part
    match c.rest with
    | '\'' :: '\'' :: _ =>
      if double then readQuotedWord double fuel (acc ++ ['\'']) c.next
      else readQuotedWord double fuel (acc ++ ['\'']) c.next.next
    | '\'' :: _ => if double then readQuotedWord double fuel (acc ++ ['\'']) c.next else .ok (acc, c)
    | '"' :: _ => if double then .ok (acc, c) else readQuotedWord double fuel (acc ++ ['"']) c.next
    | '\\' :: _ =>
      if double then do
        let (part, c) ← c.readEscape
        readQuotedWord double fuel (acc ++ part) c
      else readQuotedWord double fuel (acc ++ ['\\']) c.next
    | _ => .ok (acc, c)

/-- A break and the breaks of the empty lines after it, folded. -/
def fold (first : List Char) (blank : List Char) : List Char :=
  if first != ['\n'] then first ++ blank else if blank.isEmpty then [' '] else blank

/-- The white space ahead inside quotes, folded. -/
def readQuotedGap (c : Cursor) : Except Fault (List Char × Cursor) :=
  let (spaces, c) := c.span fun a => a == ' ' || a == '\t'
  match c.rest with
  | [] => .error .unterminated
  | a :: r =>
    if isBreak a then do
      let (first, c) := c.takeBreak
      let (blank, c) ← readBlankLines (r.length + 1) [] c
      return (fold first blank, c)
    else .ok (spaces, c)

/-- The text inside quotes up to the closing quote. -/
def readQuotedRest (double : Bool) : (fuel : Nat) → (acc : List Char) → Cursor →
    Except Fault (List Char × Cursor)
  | 0, _, _ => .error .unterminated
  | fuel + 1, acc, c => do
    let (word, c) ← readQuotedWord double (c.rest.length + 1) [] c
    let acc := acc ++ word
    match c.rest with
    | a :: _ =>
      if a == (if double then '"' else '\'') then return (acc, c.next)
      else
        let (gap, c) ← c.readQuotedGap
        readQuotedRest double fuel (acc ++ gap) c
    | [] => .error .unterminated

/-- A quoted scalar, from its quote on. -/
def readQuoted (double : Bool) (c : Cursor) : Except Fault (String × Cursor) := do
  let (text, c) ← readQuotedRest double (c.rest.length + 1) [] c.next
  return (String.ofList text, c)

/-! ### Block scalars -/

/-- What happens to the breaks at the end of a block scalar: one is kept, none, or all. -/
inductive Chomping where
  | clip | strip | keep
deriving DecidableEq

/-- The sign in the header of a block scalar. -/
def chomping? (c : Char) : Option Chomping :=
  if c == '+' then some .keep else if c == '-' then some .strip else none

/-- The header of a block scalar: chomping and indentation in either order. -/
def readBlockHeader (c : Cursor) : Except Fault (Chomping × Option Nat × Cursor) := do
  let digit? (a : Char) : Option Nat := if '0' ≤ a && a ≤ '9' then some (a.toNat - 48) else none
  let (chomp, increment, c) := match c.rest with
    | a :: b :: _ =>
      match chomping? a, digit? a, chomping? b, digit? b with
      | some k, _, _, some n => (k, some n, c.next.next)
      | some k, _, _, none => (k, none, c.next)
      | none, some n, some k, _ => (k, some n, c.next.next)
      | none, some n, none, _ => (.clip, some n, c.next)
      | none, none, _, _ => (.clip, none, c)
    | [a] =>
      match chomping? a, digit? a with
      | some k, _ => (k, none, c.next)
      | none, some n => (.clip, some n, c.next)
      | none, none => (.clip, none, c)
    | [] => (.clip, none, c)
  if increment = some 0 || !atSpace c.rest then .error .blockHeader
  else return (chomp, increment, ← c.skipHeaderEnd .blockHeader)

/-- The breaks of the lines of spaces at the start of a block scalar, and the greatest column in
them. -/
def readLeadingBreaks (m : Mark) (widest : Nat) (acc : List Char) : List Char →
    List Char × Nat × Cursor
  | [] => (acc, widest, ⟨m, []⟩)
  | a :: r =>
    if a == ' ' then readLeadingBreaks (m.step a) (max widest (m.step a).column) acc r
    else if isBreak a then readLeadingBreaks (m.step a) widest (acc ++ [breakText a]) r
    else (acc, widest, ⟨m, a :: r⟩)

/-- The breaks of empty lines in a block scalar with the indentation of the next line skipped. -/
def readIndentedBreaks (indent : Nat) (m : Mark) (acc : List Char) : List Char →
    List Char × Cursor
  | [] => (acc, ⟨m, []⟩)
  | a :: r =>
    if a == ' ' && m.column < indent then readIndentedBreaks indent (m.step a) acc r
    else if isBreak a then readIndentedBreaks indent (m.step a) (acc ++ [breakText a]) r
    else (acc, ⟨m, a :: r⟩)

/-- A line that starts with a space or a tab. -/
def startsBlank (s : List Char) : Bool :=
  match s with
  | a :: _ => a == ' ' || a == '\t'
  | [] => false

/-- The lines of a block scalar: the text, the break after the last line, and the breaks of the empty
lines after that. -/
def readBlockLines (folded : Bool) (indent : Nat) : (fuel : Nat) → (acc breaks : List Char) →
    Cursor → List Char × List Char × List Char × Cursor
  | 0, acc, breaks, c => (acc, [], breaks, c)
  | fuel + 1, acc, breaks, c =>
    if c.mark.column != indent || c.rest.isEmpty then (acc, [], breaks, c)
    else
      let acc := acc ++ breaks
      let blankStart := startsBlank c.rest
      let (line, c) := c.span fun a => !isBreak a
      let acc := acc ++ line
      let (lineBreak, c) := c.takeBreak
      let (breaks, c) := readIndentedBreaks indent c.mark [] c.rest
      if c.mark.column == indent && !c.rest.isEmpty then
        let joined :=
          if folded && lineBreak == ['\n'] && !blankStart && !startsBlank c.rest then
            if breaks.isEmpty then [' '] else []
          else lineBreak
        readBlockLines folded indent fuel (acc ++ joined) breaks c
      else (acc, lineBreak, breaks, c)

/-- A block scalar, from its indicator on, inside blocks of the given indentation. -/
def readBlock (folded : Bool) (parent : Int) (c : Cursor) : Except Fault (String × Cursor) := do
  let (chomp, increment, c) ← c.next.readBlockHeader
  let least := max 1 (parent + 1).toNat
  let (breaks, indent, c) := match increment with
    | none =>
      let (breaks, widest, c) := readLeadingBreaks c.mark 0 [] c.rest
      (breaks, max least widest, c)
    | some n =>
      let indent := least + n - 1
      let (breaks, c) := readIndentedBreaks indent c.mark [] c.rest
      (breaks, indent, c)
  let (text, lineBreak, breaks, c) := readBlockLines folded indent (c.rest.length + 1) [] breaks c
  let tail := match chomp with
    | .strip => []
    | .clip => lineBreak
    | .keep => lineBreak ++ breaks
  return (String.ofList (text ++ tail), c)

/-! ### Plain scalars -/

/-- A character that separates items of flow collections. -/
def isFlowIndicator (c : Char) : Bool := ",[]\x7b\x7d".toList.contains c

/-- Whether a plain scalar ends before the text. -/
def plainStops (inFlow : Bool) : List Char → Bool
  | [] => true
  | a :: r =>
    atGap (a :: r) ||
      (a == ':' && (atGap r || (inFlow && (r.head?.map isFlowIndicator).getD false))) ||
      (inFlow && (a == '?' || isFlowIndicator a))

/-- The characters of a plain scalar up to white space or its end. -/
def readPlainWord (inFlow : Bool) (m : Mark) : List Char → List Char × Cursor
  | [] => ([], ⟨m, []⟩)
  | a :: r =>
    if plainStops inFlow (a :: r) then ([], ⟨m, a :: r⟩)
    else
      let (word, c) := readPlainWord inFlow (m.step a) r
      (a :: word, c)

/-- The breaks of empty lines and the spaces after a break in a plain scalar.  Stops with `false` at
the mark of a document. -/
def readPlainBreaks (acc : List Char) (m : Mark) : List Char → Bool × List Char × Cursor
  | [] => (true, acc, ⟨m, []⟩)
  | a :: r =>
    if a == ' ' then readPlainBreaks acc (m.step a) r
    else if isBreak a then
      if (⟨m.step a, r⟩ : Cursor).atDocumentMark then (false, [], ⟨m.step a, r⟩)
      else readPlainBreaks (acc ++ [breakText a]) (m.step a) r
    else (true, acc, ⟨m, a :: r⟩)

/-- The white space ahead in a plain scalar, folded, empty if the scalar ends there; and whether a line
has ended. -/
def readPlainGap (c : Cursor) : List Char × Bool × Cursor :=
  let (spaces, c) := c.span (· == ' ')
  match c.rest with
  | [] => (spaces, false, c)
  | a :: _ =>
    if isBreak a then
      let (first, c) := c.takeBreak
      if c.atDocumentMark then ([], true, c)
      else
        let (inside, blank, c) := readPlainBreaks [] c.mark c.rest
        (if inside then fold first blank else [], true, c)
    else (spaces, false, c)

/-- A plain scalar inside blocks of the given indentation, and whether a simple key may follow. -/
def readPlainRest (inFlow : Bool) (indent : Int) : (fuel : Nat) → (acc gap : List Char) →
    (lineEnded : Bool) → Cursor → List Char × Bool × Cursor
  | 0, acc, _, lineEnded, c => (acc, lineEnded, c)
  | fuel + 1, acc, gap, lineEnded, c =>
    if c.rest.head? == some '#' then (acc, lineEnded, c)
    else
      let (word, c') := readPlainWord inFlow c.mark c.rest
      if word.isEmpty then (acc, lineEnded, c)
      else
        let acc := acc ++ gap ++ word
        let (gap, ended, c) := readPlainGap c'
        if gap.isEmpty || c.rest.head? == some '#' || (!inFlow && (c.mark.column : Int) < indent)
        then (acc, ended, c)
        else readPlainRest inFlow indent fuel acc gap ended c

/-- A plain scalar inside blocks of the given indentation, and whether it ended at the start of a
line. -/
def readPlain (inFlow : Bool) (parent : Int) (c : Cursor) : String × Bool × Cursor :=
  let (text, ended, c) := readPlainRest inFlow (parent + 1) (c.rest.length + 1) [] [] false c
  (String.ofList text, ended, c)

end Cursor

end RouteDocs.Yaml
