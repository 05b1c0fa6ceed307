import RouteDocs.Decimal.Numeral
import RouteDocs.Pattern.Basic
import RouteDocs.Text.Identifier
import RouteDocs.Text.Surrogate

/-!
# RouteDocs.Pattern.Reader — from the text of a pattern to its tree

The text is first cut into tokens, a character by itself or a character after a backslash.  The
reader then goes through the tokens once.  Groups nest, so it calls itself for the inside of a group;
the number of tokens bounds the depth.  Look-behinds are checked when the whole tree is there.
-/

namespace RouteDocs.Pattern

open RouteDocs.Text RouteDocs.Decimal

/-- A character of the text of a pattern, by itself or after a backslash. -/
inductive Token where
  | plain (c : Char)
  | escaped (c : Char)
  /-- A backslash at the end of the text. -/
  | stray
deriving Repr, DecidableEq

/-- The characters that a token stands for in the text. -/
def Token.chars : Token → List Char
  | .plain c => [c]
  | .escaped c => ['\\', c]
  | .stray => ['\\']

/-- The tokens of a text.  A backslash at the end shows as soon as the token before it is passed, and so
it takes the place of that token; but a closing parenthesis may be where reading ends. -/
def tokens : List Char → List Token
  | [] => []
  | ['\\'] | ['\\', _, '\\'] => [.stray]
  | '\\' :: c :: r => .escaped c :: tokens r
  | [')', '\\'] => [.plain ')', .stray]
  | [_, '\\'] => [.stray]
  | c :: r => .plain c :: tokens r

/-- What the reader knows about groups, and the options of the whole pattern. -/
structure Progress where
  opened : Nat := 0
  names : List (String × Nat) := []
  widths : List (Nat × Width) := []
  /-- The number of groups at the start of the outermost look-behind that is being read. -/
  behind : Option Nat := none
  /-- Groups that conditions name by number. -/
  asked : List Nat := []
  options : Options := {}
  unicode : Bool := false
deriving Inhabited

/-- What the last piece of a sequence is, for the loop that may follow. -/
inductive PieceKind where
  | anchor | loop | other
deriving DecidableEq

/-- A node with what it is. -/
structure Piece where
  node : Node
  kind : PieceKind := .other

/-- The nodes one after the other; the last comes first in the list. -/
def sequenceOf : List Piece → Node
  | [] => .empty
  | p :: rest => rest.foldl (fun node q => .seq q.node node) p.node

/-- The number in the first `count` tokens, all of them hexadecimal digits. -/
def hexNumber? : (count : Nat) → (acc : Nat) → List Token → Option (Nat × List Token)
  | 0, acc, r => some (acc, r)
  | n + 1, acc, .plain c :: r =>
    match hexDigit? c with
    | some d => hexNumber? n (acc * 16 + d) r
    | none => none
  | _, _, _ => none

/-- A digit of `0` to `7`. -/
def isOctal (c : Char) : Bool := '0' ≤ c && c ≤ '7'

/-- Up to `count` octal digits at the start of the tokens, and the number that they continue. -/
def octalDigits : (count : Nat) → (acc : Nat) → List Token → Nat × List Token
  | n + 1, acc, .plain c :: r =>
    if isOctal c then octalDigits n (acc * 8 + (c.toNat - 48)) r else (acc, .plain c :: r)
  | _, acc, r => (acc, r)

/-- The control characters that have a letter of their own. -/
def controlCode? (c : Char) : Option Nat :=
  match c with
  | 'a' => some 7 | 'f' => some 12 | 'n' => some 10 | 'r' => some 13 | 't' => some 9
  | 'v' => some 11 | '\\' => some 92 | _ => none

/-- The class of characters that a letter names. -/
def category? (c : Char) : Option Item :=
  match c with
  | 'd' => some (.category .digit false) | 'D' => some (.category .digit true)
  | 's' => some (.category .blank false) | 'S' => some (.category .blank true)
  | 'w' => some (.category .word false) | 'W' => some (.category .word true)
  | _ => none

/-- A code point given by two, four or eight hexadecimal digits after `x`, `u` or `U`. -/
def codeEscape? (c : Char) (r : List Token) : Option (Except Error (Nat × List Token)) :=
  let read (count : Nat) : Except Error (Nat × List Token) :=
    match hexNumber? count 0 r with
    | none => .error .badEscape
    | some (n, rest) =>
      if 0x80000000 ≤ n then .error .numberTooLarge
      else if 0x10FFFF < n then .error .badEscape
      else .ok (n, rest)
  match c with
  | 'x' => some (read 2)
  | 'u' => some (read 4)
  | 'U' => some (read 8)
  | 'N' => some (.error .badEscape)
  | _ => none

/-- An escape inside a character class. -/
def classEscape (c : Char) (r : List Token) : Except Error (Item × List Token) :=
  if c == 'b' then .ok (.code 8, r)
  else match controlCode? c, category? c, codeEscape? c r with
  | some n, _, _ => .ok (.code n, r)
  | _, some item, _ => .ok (item, r)
  | _, _, some read => do
    let (n, rest) ← read
    return (.code n, rest)
  | none, none, none =>
    if isOctal c then
      let (n, rest) := octalDigits 2 (c.toNat - 48) r
      if 255 < n then .error .badEscape else .ok (.code n, rest)
    else if isAsciiDigit c || isAsciiLetter c then .error .badEscape
    else .ok (.code (codeOf c), r)

/-- One end of a range, or a member by itself. -/
def classItem (t : Token) (r : List Token) : Except Error (Item × List Token) :=
  match t with
  | .plain c => .ok (.code (codeOf c), r)
  | .escaped c => classEscape c r
  | .stray => .error .badEscape

/-- The members of a character class up to its closing bracket.  A bracket in the first place is a
member, and so is a hyphen in the last. -/
def classItems : (fuel : Nat) → (items : List Item) → List Token →
    Except Error (List Item × List Token)
  | 0, _, _ => .error .unterminated
  | _, _, [] => .error .unterminated
  | fuel + 1, items, t :: r =>
    if t = .plain ']' && !items.isEmpty then .ok (items.reverse, r)
    else do
      let (low, rest) ← classItem t r
      match rest with
      | .plain '-' :: .plain ']' :: rest' => return ((.code 45 :: low :: items).reverse, rest')
      | [.plain '-'] => .error .unterminated
      | .plain '-' :: t' :: rest' =>
        let (high, rest'') ← classItem t' rest'
        match low, high with
        | .code a, .code b =>
          if b < a then .error .badRange else classItems fuel (.range a b :: items) rest''
        | _, _ => .error .badRange
      | _ => classItems fuel (low :: items) rest

/-- The digits at the start of the tokens. -/
def digitChars : List Token → List Char × List Token
  | .plain c :: r =>
    if isAsciiDigit c then
      let (ds, rest) := digitChars r
      (c :: ds, rest)
    else ([], .plain c :: r)
  | r => ([], r)

/-- The number of rounds that is too large. -/
def maxRounds : Nat := 4294967295

/-- A number of rounds in digits. -/
def roundsNumber (ds : List Char) : Except Error Nat :=
  if maxDigits < ds.length then .error .numberTooLong
  else if maxRounds ≤ digitsNumber ds then .error .numberTooLarge
  else .ok (digitsNumber ds)

/-- The numbers of rounds between braces, after the opening brace.  `none` if the brace is an
ordinary character. -/
def braceBounds? (r : List Token) : Except Error (Option (Nat × Option Nat × List Token)) :=
  let (low, rest) := digitChars r
  let (high, rest) := match rest with
    | .plain ',' :: rest' => digitChars rest'
    | _ => (low, rest)
  match r, rest with
  | .plain '\x7d' :: _, _ => .ok none
  | _, .plain '\x7d' :: rest' => do
    let least ← roundsNumber low
    let most ← if high.isEmpty then pure none else (roundsNumber high).map some
    if most.any (· < least) then .error .badRepeat
    else return some (least, most, rest')
  | _, _ => .ok none

/-- The bounds of a loop at the start of the tokens. -/
def loopBounds? : List Token → Except Error (Option (Nat × Option Nat × List Token))
  | .plain '?' :: r => .ok (some (0, some 1, r))
  | .plain '*' :: r => .ok (some (0, none, r))
  | .plain '+' :: r => .ok (some (1, none, r))
  | .plain '\x7b' :: r => braceBounds? r
  | _ => .ok none

/-- The text up to `terminator`, which is not empty. -/
def textUntil (terminator : Char) (acc : List Char) : List Token →
    Except Error (List Char × List Token)
  | [] => .error .unterminated
  | t :: r =>
    if t = .plain terminator then
      if acc.isEmpty then .error .badGroupName else .ok (acc, r)
    else textUntil terminator (acc ++ t.chars) r

/-- The rest of the tokens after a comment in parentheses. -/
def skipComment : List Token → Except Error (List Token)
  | [] => .error .unterminated
  | t :: r => if t = .plain ')' then .ok r else skipComment r

/-- The rest of the tokens after a comment that goes to the end of the line. -/
def skipLine : List Token → List Token
  | [] => []
  | [.stray] => [.stray]
  | t :: r => if t = .plain '\n' then r else skipLine r

/-- The letters of options. -/
def isOptionLetter (c : Char) : Bool := "iLmsxatu".toList.contains c

/-- Options turned on and off. -/
structure OptionChange where
  turnedOn : List Char := []
  turnedOff : List Char := []

/-- Letters of options turned on, up to the character that ends them. -/
def optionLetters (acc : List Char) : List Token → Except Error (List Char × Char × List Token)
  | .plain c :: r =>
    if c == 'L' then .error .badOption
    else if isOptionLetter c then
      if (c == 'a' && acc.contains 'u') || (c == 'u' && acc.contains 'a') then .error .badOption
      else optionLetters (c :: acc) r
    else if c == ')' || c == '-' || c == ':' then
      if acc.isEmpty then .error .badOption else .ok (acc, c, r)
    else .error .badOption
  | _ => .error .badOption

/-- Letters of options turned off, up to the colon. -/
def optionLettersOff (acc : List Char) : List Token → Except Error (List Char × List Token)
  | .plain c :: r =>
    if c == ':' then if acc.isEmpty then .error .badOption else .ok (acc, r)
    else if "imsx".toList.contains c then optionLettersOff (c :: acc) r
    else .error .badOption
  | _ => .error .badOption

/-- Reads a change of options.  Without a closing parenthesis it holds for the group that follows;
with one (`none`) it is for the whole pattern. -/
def optionChange (first : Char) (r : List Token) :
    Except Error (OptionChange × Bool × List Token) := do
  let (on, stop, rest) ←
    if first == '-' then pure ([], '-', r) else optionLetters [] (.plain first :: r)
  if stop == ')' then return (⟨on, []⟩, true, rest)
  else if on.contains 't' then .error .badOption
  else if stop == ':' then return (⟨on, []⟩, false, rest)
  else
    let (off, rest') ← optionLettersOff [] rest
    if off.any on.contains then .error .badOption
    else return (⟨on, off⟩, false, rest')

/-- The options after a change. -/
def Options.change (o : Options) (d : OptionChange) : Options :=
  let after (c : Char) (was : Bool) : Bool :=
    (was || d.turnedOn.contains c) && !d.turnedOff.contains c
  { ignoreCase := after 'i' o.ignoreCase
    multiline := after 'm' o.multiline
    dotAll := after 's' o.dotAll
    verbose := after 'x' o.verbose
    ascii := if d.turnedOn.contains 'a' then true
      else if d.turnedOn.contains 'u' then false else o.ascii
    loopFree := after 't' o.loopFree }

/-- The condition that `^` stands for. -/
def startAnchor (o : Options) : Node := .anchor (if o.multiline then .lineStart else .textStart)

/-- The condition that `$` stands for. -/
def endAnchor (o : Options) : Node := .anchor (if o.multiline then .lineEnd else .lastLineEnd)

/-- One character of a class under the options. -/
def classNode (o : Options) (cls : CharClass) : Node := .one cls o.ignoreCase o.ascii

/-- Whether a group that is referred to is complete, and not defined in the look-behind that is being
read. -/
def Progress.checkReference (p : Progress) (index : Nat) : Except Error Unit :=
  if p.opened < index then .error .badReference
  else if (p.widths.lookup index).isNone then .error .openGroup
  else match p.behind with
    | some n => if n < index then .error .openGroup else .ok ()
    | none => .ok ()

/-- A reference by number, or a character in octal digits, after a backslash and a digit. -/
def numberEscape (o : Options) (p : Progress) (c : Char) (r : List Token) :
    Except Error (Node × List Token) :=
  let first := c.toNat - 48
  let reference (n : Nat) (rest : List Token) : Except Error (Node × List Token) := do
    p.checkReference n
    return (.again n o.ignoreCase o.ascii, rest)
  match r with
  | .plain d :: r' =>
    if !isAsciiDigit d then reference first r
    else
      let two := first * 10 + (d.toNat - 48)
      match r' with
      | .plain e :: r'' =>
        if isOctal c && isOctal d && isOctal e then
          let n := first * 64 + (d.toNat - 48) * 8 + (e.toNat - 48)
          if 255 < n then .error .badEscape
          else .ok (classNode o ⟨[.code n], false⟩, r'')
        else reference two r'
      | _ => reference two r'
  | _ => reference first r

/-- An escape outside a character class. -/
def escape (o : Options) (p : Progress) (c : Char) (r : List Token) :
    Except Error (Piece × List Token) :=
  let code (n : Nat) : Piece := ⟨classNode o ⟨[.code n], false⟩, .other⟩
  let anchor (a : Anchor) : Piece := ⟨.anchor a, .anchor⟩
  match c with
  | 'A' => .ok (anchor .textStart, r)
  | 'Z' => .ok (anchor .textEnd, r)
  | 'b' => .ok (anchor (.wordEdge o.ascii), r)
  | 'B' => .ok (anchor (.noWordEdge o.ascii), r)
  | _ =>
    match category? c, controlCode? c, codeEscape? c r with
    | some item, _, _ => .ok (⟨classNode o ⟨[item], false⟩, .other⟩, r)
    | _, some n, _ => .ok (code n, r)
    | _, _, some read => do
      let (n, rest) ← read
      return (code n, rest)
    | none, none, none =>
      if c == '0' then
        let (n, rest) := octalDigits 2 0 r
        .ok (code n, rest)
      else if isAsciiDigit c then do
        let (node, rest) ← numberEscape o p c r
        return (⟨node, .other⟩, rest)
      else if isAsciiLetter c then .error .badEscape
      else .ok (code (codeOf c), r)

/-- How a group opens. -/
inductive Opening where
  | capture (name : Option String)
  | plain (options : Options)
  | atomic
  | ahead (negated : Bool)
  | behind (negated : Bool)
  | ifGroup (index : Nat)
  /-- Nothing to read inside: a comment. -/
  | comment
  /-- A reference by name. -/
  | again (index : Nat)
  /-- Options of the whole pattern. -/
  | options (change : OptionChange)

/-- The number from which on no group is numbered. -/
def maxGroups : Nat := 1073741823

/-- The group that a condition names. -/
def conditionGroup (p : Progress) (name : List Char) : Except Error (Nat × Progress) :=
  if isIdentifier name then
    match p.names.lookup (String.ofList name) with
    | some index => .ok (index, p)
    | none => .error .badGroupName
  else match readInt? 10 name with
    | some (.ofNat 0) => .error .badGroupName
    | some (.ofNat index) =>
      if maxGroups ≤ index then .error .badReference
      else .ok (index, { p with asked := index :: p.asked })
    | _ => .error .badGroupName

/-- A condition may not name a group of the look-behind that is being read. -/
def Progress.checkCondition (p : Progress) (index : Nat) : Except Error Unit :=
  if p.behind.isSome then p.checkReference index else .ok ()

/-- Reads how a group opens, after its parenthesis. -/
def opening (o : Options) (p : Progress) : List Token →
    Except Error (Opening × Progress × List Token)
  | .plain '?' :: r =>
    match r with
    | .plain 'P' :: .plain '<' :: r' => do
      let (name, rest) ← textUntil '>' [] r'
      if isIdentifier name then return (.capture (some (String.ofList name)), p, rest)
      else .error .badGroupName
    | .plain 'P' :: .plain '=' :: r' => do
      let (name, rest) ← textUntil ')' [] r'
      match isIdentifier name, p.names.lookup (String.ofList name) with
      | true, some index => do
        p.checkReference index
        return (.again index, p, rest)
      | _, _ => .error .badGroupName
    | .plain ':' :: r' => .ok (.plain o, p, r')
    | .plain '#' :: r' => do return (.comment, p, ← skipComment r')
    | .plain '=' :: r' => .ok (.ahead false, p, r')
    | .plain '!' :: r' => .ok (.ahead true, p, r')
    | .plain '<' :: .plain '=' :: r' => .ok (.behind false, p, r')
    | .plain '<' :: .plain '!' :: r' => .ok (.behind true, p, r')
    | .plain '>' :: r' => .ok (.atomic, p, r')
    | .plain '(' :: r' => do
      let (name, rest) ← textUntil ')' [] r'
      let (index, p) ← conditionGroup p name
      p.checkCondition index
      return (.ifGroup index, p, rest)
    | .plain c :: r' =>
      if isOptionLetter c || c == '-' then do
        let (d, whole, rest) ← optionChange c r'
        return (if whole then .options d else .plain (o.change d), p, rest)
      else .error .unknownExtension
    | _ => .error .unknownExtension
  | r => .ok (.capture none, p, r)

/-- Opens the next group. -/
def Progress.openGroup (p : Progress) (name : Option String) : Except Error (Nat × Progress) :=
  let index := p.opened + 1
  match name with
  | none => .ok (index, { p with opened := index })
  | some n =>
    if (p.names.lookup n).isSome then .error .groupNameTwice
    else .ok (index, { p with opened := index, names := (n, index) :: p.names })

/-- The greed of a loop from the mark after its bounds. -/
def loopGreed : List Token → Greed × List Token
  | .plain '?' :: r => (.lazy, r)
  | .plain '+' :: r => (.possessive, r)
  | r => (.greedy, r)

/-- The last piece in a loop. -/
def loopPiece (least : Nat) (most : Option Nat) (greed : Greed) :
    List Piece → Except Error (List Piece)
  | [] => .error .nothingToRepeat
  | last :: rest =>
    match last.kind with
    | .anchor => .error .nothingToRepeat
    | .loop => .error .multipleRepeat
    | .other => .ok (⟨.loop greed least most last.node, .loop⟩ :: rest)

/-- Characters that verbose patterns pass over. -/
def isLayout (c : Char) : Bool := " \t\n\r\x0b\x0c".toList.contains c

/-- The rest of the tokens after the parenthesis that closes a group. -/
def closing : List Token → Except Error (List Token)
  | .plain ')' :: r => .ok r
  | _ => .error .unterminated

mutual

/-- Alternatives up to the end or a closing parenthesis.  At the top, options of the whole pattern may
come first, and alternatives after the first see them. -/
def alternatives : (fuel : Nat) → Options → (top first : Bool) → Progress → List Token →
    Except Error (Node × Progress × List Token)
  | 0, _, _, _, _, _ => .error .unterminated
  | fuel + 1, o, top, first, p, s => do
    let (node, p, rest) ← sequence fuel o (top && first) [] p s
    match rest with
    | .plain '|' :: rest' =>
      let (other, p, rest) ← alternatives fuel (if top then p.options else o) top false p rest'
      return (.alt node other, p, rest)
    | _ => return (node, p, rest)

/-- Pieces up to a bar, a closing parenthesis or the end. -/
def sequence : (fuel : Nat) → Options → (first : Bool) → List Piece → Progress → List Token →
    Except Error (Node × Progress × List Token)
  | 0, _, _, _, _, _ => .error .unterminated
  | _, _, _, pieces, p, [] => .ok (sequenceOf pieces, p, [])
  | fuel + 1, o, first, pieces, p, t :: r =>
    let literal (c : Char) : Piece := ⟨classNode o ⟨[.code (codeOf c)], false⟩, .other⟩
    match t with
    | .stray => .error .badEscape
    | .escaped c => do
      let (piece, rest) ← escape o p c r
      sequence fuel o first (piece :: pieces) p rest
    | .plain c =>
      if c == '|' || c == ')' then .ok (sequenceOf pieces, p, t :: r)
      else if o.verbose && isLayout c then sequence fuel o first pieces p r
      else if o.verbose && c == '#' then sequence fuel o first pieces p (skipLine r)
      else if c == '[' then do
        let (negated, r') := match r with
          | .plain '^' :: r' => (true, r')
          | _ => (false, r)
        let (items, rest) ← classItems (r'.length + 1) [] r'
        sequence fuel o first (⟨classNode o ⟨items, negated⟩, .other⟩ :: pieces) p rest
      else if c == '.' then sequence fuel o first (⟨.any o.dotAll, .other⟩ :: pieces) p r
      else if c == '^' then sequence fuel o first (⟨startAnchor o, .anchor⟩ :: pieces) p r
      else if c == '$' then sequence fuel o first (⟨endAnchor o, .anchor⟩ :: pieces) p r
      else if c == '(' then do
        let (kind, p, r') ← opening o p r
        match kind with
        | .comment => sequence fuel o first pieces p r'
        | .again index =>
          sequence fuel o first (⟨.again index o.ignoreCase o.ascii, .other⟩ :: pieces) p r'
        | .options d =>
          if !first || !pieces.isEmpty then .error .optionsNotFirst
          else
            let o' := p.options.change d
            let unicode := p.unicode || d.turnedOn.contains 'u'
            let o' := { o' with ascii := p.options.ascii || d.turnedOn.contains 'a' }
            sequence fuel o' first pieces { p with options := o', unicode := unicode } r'
        | .capture name => do
          let (index, p) ← p.openGroup name
          let (body, p, rest) ← alternatives fuel o false true p r'
          let rest ← closing rest
          let p := { p with widths := (index, body.width p.widths) :: p.widths }
          sequence fuel o first (⟨.group index body, .other⟩ :: pieces) p rest
        | .plain o' => do
          let (body, p, rest) ← alternatives fuel o' false true p r'
          let rest ← closing rest
          sequence fuel o first (⟨body, .other⟩ :: pieces) p rest
        | .atomic => do
          let (body, p, rest) ← alternatives fuel o false true p r'
          let rest ← closing rest
          sequence fuel o first (⟨.atomic body, .other⟩ :: pieces) p rest
        | .ahead negated => do
          let (body, p, rest) ← alternatives fuel o false true p r'
          let rest ← closing rest
          sequence fuel o first (⟨.ahead negated body, .other⟩ :: pieces) p rest
        | .behind negated => do
          let outer := p.behind
          let (body, p, rest) ←
            alternatives fuel o false true { p with behind := some (outer.getD p.opened) } r'
          let rest ← closing rest
          let node : Node := .behind (body.width p.widths).least negated body
          sequence fuel o first (⟨node, .other⟩ :: pieces) { p with behind := outer } rest
        | .ifGroup index => do
          let (yes, p, rest) ← sequence fuel o false [] p r'
          let (no, p, rest) ← match rest with
            | .plain '|' :: rest' => do
              let (no, p, rest) ← sequence fuel o false [] p rest'
              match rest with
              | .plain '|' :: _ => .error .threeBranches
              | _ => pure (no, p, rest)
            | _ => pure (.empty, p, rest)
          let rest ← closing rest
          sequence fuel o first (⟨.ifGroup index yes no, .other⟩ :: pieces) p rest
      else do
        match ← loopBounds? (t :: r) with
        | some (least, most, rest) =>
          let (greed, rest) := loopGreed rest
          let pieces ← loopPiece least most greed pieces
          sequence fuel o first pieces p rest
        | none => sequence fuel o first (literal c :: pieces) p r

end

/-- Reads the text of a pattern under options of the whole pattern. -/
def read (o : Options) (text : List Char) : Except Error Pattern := do
  let ts := tokens text
  let (root, p, rest) ← alternatives (2 * ts.length + 2) o true true { options := o } ts
  if p.options.ascii && p.unicode then .error .optionsClash
  else if !rest.isEmpty then .error .unbalanced
  else if p.asked.any (p.opened < ·) then .error .badReference
  else
    root.check p.widths p.options.loopFree
    return ⟨root, p.opened⟩

end RouteDocs.Pattern
