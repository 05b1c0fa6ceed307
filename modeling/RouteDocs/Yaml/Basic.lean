import RouteDocs.Text.Word

/-!
# RouteDocs.Yaml.Basic — characters, places and faults of YAML texts

The characters that a YAML text may hold and the ones that end its lines, the place of a character in
the text, and the reasons for which a text is refused.
-/

namespace RouteDocs.Yaml

/-- A line break: line feed, next line, line separator or paragraph separator.  Carriage returns are
line feeds before a text is read. -/
def isBreak (c : Char) : Bool := c == '\n' || c == '\x85' || c == '\u2028' || c == '\u2029'

/-- A line break, or the end of the text. -/
def atBreak : List Char → Bool
  | [] => true
  | c :: _ => isBreak c

/-- A space, a line break, or the end of the text. -/
def atSpace : List Char → Bool
  | [] => true
  | c :: _ => c == ' ' || isBreak c

/-- A space, a tab, a line break, or the end of the text. -/
def atGap : List Char → Bool
  | [] => true
  | c :: _ => c == ' ' || c == '\t' || isBreak c

/-- The mark that may stand at the start of a text. -/
def byteOrderMark : Char := '\ufeff'

/-- A character that a YAML text may hold. -/
def isAllowed (c : Char) : Bool :=
  let n := c.toNat
  n == 9 || n == 10 || n == 13 || (0x20 ≤ n && n ≤ 0x7E) || n == 0x85 ||
    (0xA0 ≤ n && n ≤ 0xD7FF) || (0xE000 ≤ n && n ≤ 0xFFFD) || (0x10000 ≤ n && n ≤ 0x10FFFF)

/-- The text of a line break in a scalar. -/
def breakText (c : Char) : Char := if c == '\x85' then '\n' else c

/-- The place of a character: its number in the text, its line, and its column, all from zero. -/
structure Mark where
  index : Nat := 0
  line : Nat := 0
  column : Nat := 0
deriving Repr, DecidableEq, Inhabited

/-- The place after a character. -/
def Mark.step (m : Mark) (c : Char) : Mark :=
  if isBreak c then ⟨m.index + 1, m.line + 1, 0⟩
  else ⟨m.index + 1, m.line, if c == byteOrderMark then m.column else m.column + 1⟩

/-- The place after several characters. -/
def Mark.steps (m : Mark) (cs : List Char) : Mark := cs.foldl Mark.step m

/-- Why a text is refused. -/
inductive Fault where
  | character
  | directive
  | tag
  | anchor
  | indicator
  | simpleKey
  | blockHeader
  | unterminated
  | escape
  /-- An escape for a number that is no code point; `huge` if it has more than 31 bits. -/
  | codePoint (huge : Bool)
  | content
  | documents
  | tagHandle
  | anchorTwice
  | unknownAlias
  | unknownTag
  | kind
  | keyKind
  | merge
  | binary
  /-- A scalar marked as an integer or a number that is none. -/
  | number
  /-- A scalar marked as a number that is empty. -/
  | emptyNumber
  | truth
  | timestamp
  /-- A date or a time of day that does not exist. -/
  | calendar
  /-- A number with a place of more weight than any double. -/
  | overflow
deriving Repr, DecidableEq, Inhabited

/-- Whether a fault is one of the text as YAML.  The others arise when a well-formed scalar has no
value. -/
def Fault.isSyntactic : Fault → Bool
  | .codePoint _ | .number | .emptyNumber | .truth | .timestamp | .calendar | .overflow => false
  | _ => true

/-- A character of `0` to `9`, `a` to `z`, `A` to `Z`, hyphen and underscore. -/
def isNameChar (c : Char) : Bool :=
  ('0' ≤ c && c ≤ '9') || ('A' ≤ c && c ≤ 'Z') || ('a' ≤ c && c ≤ 'z') || c == '-' || c == '_'

/-- The number in the first `count` characters, all of them hexadecimal digits, and the rest. -/
def takeHex? : (count : Nat) → (acc : Nat) → List Char → Option (Nat × List Char)
  | 0, acc, r => some (acc, r)
  | n + 1, acc, c :: r => (Text.hexDigit? c).bind fun d => takeHex? n (acc * 16 + d) r
  | _ + 1, _, [] => none

end RouteDocs.Yaml
