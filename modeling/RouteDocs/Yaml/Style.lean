import RouteDocs.Text.Quoted
import RouteDocs.Text.Surrogate
import RouteDocs.Yaml.Tag
import RouteDocs.Yaml.Basic

/-!
# RouteDocs.Yaml.Style — how a scalar is written

A scalar is written plain where its text says what it is, between single quotes where its characters
allow it, and otherwise between double quotes with escapes.  Long texts are broken at spaces.
-/

namespace RouteDocs.Yaml

open Text

/-- The number of columns after which a text is broken. -/
def lineWidth : Nat := 4096

/-- Spaces. -/
def spaces (n : Nat) : List Char := List.replicate n ' '

/-- A new line with its indentation. -/
def newLine (indent : Nat) : List Char := '\n' :: spaces indent

/-! ### What a text allows -/

/-- A character that can be written as it is. -/
def isWritable (c : Char) : Bool :=
  let n := codeOf c
  n == 10 || (0x20 ≤ n && n ≤ 0x7E) || n == 0x85 ||
    (((0xA0 ≤ n && n ≤ 0xD7FF) || (0xE000 ≤ n && n ≤ 0xFFFD) || (0x10000 ≤ n && n < 0x10FFFF)) &&
      c != byteOrderMark)

/-- A character after which an indicator is at the start of a word, and before which it is at the end
of one. -/
def isGap (c : Char) : Bool :=
  c == '\x00' || c == ' ' || c == '\t' || c == '\r' || isBreak c

/-- The first character is a gap, or there is none. -/
def startsWithGap : List Char → Bool
  | [] => true
  | c :: _ => isGap c

/-- A colon at the end of a word, or a number sign at the start of one, after `previous`. -/
def hasInnerIndicator : (previous : Char) → List Char → Bool
  | _, [] => false
  | previous, c :: r =>
    (c == ':' && startsWithGap r) || (c == '#' && isGap previous) || hasInnerIndicator c r

/-- A text that, written plain, would be taken for structure. -/
def hasIndicator (s : List Char) : Bool :=
  "---".toList.isPrefixOf s || "...".toList.isPrefixOf s ||
    match s with
    | [] => false
    | c :: r =>
      "#,[]\x7b\x7d&*!|>'\"%@\x60".toList.contains c ||
        ((c == '?' || c == ':' || c == '-') && startsWithGap r) || hasInnerIndicator c r

/-- Two neighbours of the given kinds. -/
def hasNeighbours (p q : Char → Bool) : List Char → Bool
  | c :: d :: r => (p c && q d) || hasNeighbours p q (d :: r)
  | _ => false

/-- A space. -/
def isSpace (c : Char) : Bool := c == ' '

/-- A text with a line break in it. -/
def isMultiline (s : List Char) : Bool := s.any isBreak

/-- A text that may stand between single quotes: all its characters can be written, and no space is
next to a line break. -/
def allowsSingle (s : List Char) : Bool :=
  s.all isWritable && !hasNeighbours isBreak isSpace s && !hasNeighbours isSpace isBreak s

/-- A text that may stand without quotes. -/
def allowsPlain (s : List Char) : Bool :=
  s.all isWritable && !isMultiline s && !hasIndicator s && s.head? != some ' ' &&
    s.getLast? != some ' '

/-! ### Texts -/

/-- What part of a text a character belongs to. -/
inductive RunKind where
  | space | lineBreak | word
deriving DecidableEq

/-- The kind of a character. -/
def runKind (c : Char) : RunKind :=
  if c == ' ' then .space else if isBreak c then .lineBreak else .word

/-- A text as runs of characters of one kind. -/
def runsOf (s : List Char) : List (List Char) := s.splitBy fun a b => runKind a = runKind b

/-- A word between single quotes: a quote is written twice. -/
def doubleQuotes (s : List Char) : List Char :=
  s.flatMap fun c => if c == '\'' then ['\'', '\''] else [c]

/-- Line breaks inside a text: a line feed has another line feed before it, lest it be a space. -/
def foldBreaks (indent : Nat) (s : List Char) : List Char :=
  (if s.head? = some '\n' then ['\n'] else []) ++ s ++ spaces indent

/-- Runs of a text from a column on.  A single space past the line width is a new line instead, if the
text may be `split` and the space is inside it. -/
def writeRuns (indent : Nat) (split : Bool) (word : List Char → List Char) :
    (column : Nat) → (first : Bool) → List (List Char) → List Char
  | _, _, [] => []
  | column, first, run :: rest =>
    match run.head?.map runKind with
    | some .lineBreak =>
      foldBreaks indent run ++ writeRuns indent split word indent false rest
    | some .space =>
      if run.length = 1 && lineWidth < column && split && !first && !rest.isEmpty then
        newLine indent ++ writeRuns indent split word indent false rest
      else run ++ writeRuns indent split word (column + run.length) false rest
    | _ =>
      let text := word run
      text ++ writeRuns indent split word (column + text.length) false rest

/-- The escape of a character between double quotes, if it needs one. -/
def escape? (c : Char) : Option (List Char) :=
  let n := codeOf c
  let named (d : Char) : Option (List Char) := some ['\\', d]
  if c == '"' || c == '\\' then named c
  else if n == 0x85 then named 'N'
  else if n == 0x2028 then named 'L'
  else if n == 0x2029 then named 'P'
  else if c != byteOrderMark && ((0x20 ≤ n && n ≤ 0x7E) || (0xA0 ≤ n && n ≤ 0xD7FF) ||
      (0xE000 ≤ n && n ≤ 0xFFFD)) then none
  else if n == 0 then named '0'
  else if n == 7 then named 'a'
  else if n == 8 then named 'b'
  else if n == 9 then named 't'
  else if n == 10 then named 'n'
  else if n == 11 then named 'v'
  else if n == 12 then named 'f'
  else if n == 13 then named 'r'
  else if n == 27 then named 'e'
  else
    let digits (width : Nat) : List Char := (hexPadded width n).map Char.toUpper
    if n ≤ 0xFF then some ('\\' :: 'x' :: digits 2)
    else if n ≤ 0xFFFF then some ('\\' :: 'u' :: digits 4)
    else some ('\\' :: 'U' :: digits 8)

/-- A break inside double quotes before `rest`, whose first space is kept by a backslash. -/
def splitDouble (indent : Nat) (rest : List Char) : List Char :=
  '\\' :: newLine indent ++ if rest.head? = some ' ' then ['\\'] else []

/-- A text between double quotes from a column on; `fresh` if an escape comes right before. -/
def writeDouble (indent : Nat) (split : Bool) :
    (column : Nat) → (fresh first : Bool) → List Char → List Char
  | _, _, _, [] => []
  | column, fresh, first, c :: r =>
    let inner := split && !first && !r.isEmpty
    match escape? c with
    | some e =>
      let column := column + e.length
      if inner && lineWidth + 1 < column then
        let gap := splitDouble indent r
        e ++ gap ++ writeDouble indent split (gap.length - 2) true false r
      else e ++ writeDouble indent split column true false r
    | none =>
      if inner && (c == ' ' || fresh) && lineWidth < column then
        let gap := splitDouble indent (c :: r)
        gap ++ c :: writeDouble indent split (gap.length - 1) false false r
      else c :: writeDouble indent split (column + 1) false false r

/-! ### Scalars -/

/-- Where a scalar is written: the column of its first character, the indentation of its further
lines, and whether it is a key on one line. -/
structure Place where
  column : Nat
  indent : Nat
  isKey : Bool := false

/-- A text between single quotes. -/
def writeSingle (p : Place) (s : List Char) : List Char :=
  '\'' :: writeRuns p.indent (!p.isKey) doubleQuotes (p.column + 1) true (runsOf s) ++ ['\'']

/-- A text without quotes. -/
def writePlain (p : Place) (s : List Char) : List Char :=
  writeRuns p.indent (!p.isKey) id p.column true (runsOf s)

/-- A text between quotes: single ones if it allows them. -/
def writeQuoted (p : Place) (s : List Char) : List Char :=
  if allowsSingle s && !(p.isKey && isMultiline s) then writeSingle p s
  else '"' :: writeDouble p.indent (!p.isKey) (p.column + 1) true true s ++ ['"']

/-- Lines of text as they are, below a mark. -/
def writeLines (p : Place) (s : List Char) : List Char :=
  '|' :: (splitAt '\n' s.dropLast).flatMap fun line => newLine p.indent ++ line

/-- The short form of the tag of a scalar. -/
def Tag.handle : Tag → List Char
  | .null => "!!null".toList
  | .bool => "!!bool".toList
  | .int => "!!int".toList
  | .float => "!!float".toList
  | .binary => "!!binary".toList
  | .timestamp => "!!timestamp".toList
  | _ => "!!str".toList

/-- A scalar: plain if its text by itself has its type, or else in quotes; with its tag if it is no
text. -/
def writeScalar (p : Place) (tag : Tag) (s : List Char) : List Char :=
  if plainTag s = tag && allowsPlain s then writePlain p s
  else if tag = .str then writeQuoted p s
  else
    let mark := tag.handle ++ [' ']
    let p := { p with column := p.column + mark.length }
    if tag = .binary then
      mark ++ if s.isEmpty then ['"', '"'] else writeLines p s
    else mark ++ writeQuoted p s

/-- A scalar that fits on one line as a key. -/
def isSimpleKey (tag : Tag) (s : List Char) : Bool :=
  tag.handle.length + s.length < 128 && !s.isEmpty && !isMultiline s

end RouteDocs.Yaml
