import RouteDocs.Text.Split
import RouteDocs.Text.Word
import RouteDocs.Value.Calendar

/-!
# RouteDocs.Yaml.Tag — the types of nodes, and the type of a plain scalar from its text

A scalar that is not quoted and has no tag is a truth value, a number, a date, null or a text as its
text says.
-/

namespace RouteDocs.Yaml

open Text

/-- The type of a node. -/
inductive Tag where
  | null | bool | int | float | binary | timestamp | str
  | seq | map | set | omap | pairs
  /-- The key that merges mappings. -/
  | merge
  /-- The key of a default value. -/
  | value
  /-- An indicator by itself. -/
  | indicator
  | other (name : String)
deriving Repr, DecidableEq, Inhabited

/-- The start of the tags of the language. -/
def Tag.start : String := "tag:yaml.org,2002:"

/-- The tag with a full name. -/
def Tag.ofName (name : String) : Tag :=
  let named : List (String × Tag) :=
    [("null", .null), ("bool", .bool), ("int", .int), ("float", .float), ("binary", .binary),
      ("timestamp", .timestamp), ("str", .str), ("seq", .seq), ("map", .map), ("set", .set),
      ("omap", .omap), ("pairs", .pairs), ("merge", .merge), ("value", .value),
      ("yaml", .indicator)]
  match named.find? fun n => Tag.start ++ n.1 == name with
  | some n => n.2
  | none => .other name

/-! ### Recognising plain scalars -/

/-- A digit or an underscore. -/
def isDigitOrBar (c : Char) : Bool := isAsciiDigit c || c == '_'

/-- The text without a sign. -/
def unsigned : List Char → List Char
  | '-' :: r => r
  | '+' :: r => r
  | s => s

/-- The words for truth values, lower-case with their values. -/
def truthWords : List (String × Bool) :=
  [("yes", true), ("no", false), ("true", true), ("false", false), ("on", true), ("off", false)]

/-- A word in one of the spellings `word`, `Word` and `WORD`. -/
def isSpelling (word text : List Char) : Bool :=
  match word with
  | [] => text.isEmpty
  | c :: r => text == c :: r || text == c.toUpper :: r || text == (c :: r).map Char.toUpper

/-- A truth value. -/
def isTruth (s : List Char) : Bool := truthWords.any fun w => isSpelling w.1.toList s

/-- Null. -/
def isNull (s : List Char) : Bool := s == ['~'] || isSpelling "null".toList s

/-- A sign, a digit or two and nothing else, as in minutes and seconds. -/
def isSixtieth : List Char → Bool
  | [a] => isAsciiDigit a
  | [a, b] => '0' ≤ a && a ≤ '5' && isAsciiDigit b
  | _ => false

/-- A digit and then digits and underscores. -/
def isDigits : List Char → Bool
  | [] => false
  | a :: r => isAsciiDigit a && r.all isDigitOrBar

/-- A digit that is not zero and then digits and underscores. -/
def isCounting : List Char → Bool
  | [] => false
  | a :: r => isAsciiDigit a && a != '0' && r.all isDigitOrBar

/-- A hexadecimal digit or an underscore. -/
def isHexOrBar (c : Char) : Bool :=
  isDigitOrBar c || ('a' ≤ c && c ≤ 'f') || ('A' ≤ c && c ≤ 'F')

/-- An integer in base two, eight, ten, sixteen or sixty. -/
def isInt (s : List Char) : Bool :=
  match unsigned s with
  | ['0'] => true
  | '0' :: 'b' :: r => !r.isEmpty && r.all fun c => c == '0' || c == '1' || c == '_'
  | '0' :: 'x' :: r => !r.isEmpty && r.all isHexOrBar
  | '0' :: r => r.all fun c => ('0' ≤ c && c ≤ '7') || c == '_'
  | s =>
    match splitAt ':' s with
    | whole :: rest => isCounting whole && rest.all isSixtieth
    | [] => false

/-- An exponent with its mark and sign, or nothing. -/
def isExponent : List Char → Bool
  | [] => true
  | e :: sign :: r =>
    (e == 'e' || e == 'E') && (sign == '-' || sign == '+') && !r.isEmpty && r.all isAsciiDigit
  | _ => false

/-- A number with a point: in base ten with an exponent or not, in base sixty, an infinity, or no
number. -/
def isFloat (s : List Char) : Bool :=
  let u := unsigned s
  let whole := u.takeWhile (· != '.')
  match u.dropWhile (· != '.') with
  | [] => false
  | _ :: fraction =>
    let rest := fraction.dropWhile isDigitOrBar
    match splitAt ':' whole with
    | [[]] =>
      isSpelling "inf".toList fraction ||
        (u == s && ((isDigits (fraction.takeWhile isDigitOrBar) && isExponent rest) ||
          fraction == "nan".toList || fraction == "NaN".toList || fraction == "NAN".toList))
    | [digits] => isDigits digits && isExponent rest
    | digits :: sixtieths => isDigits digits && sixtieths.all isSixtieth && rest.isEmpty
    | [] => false

/-! ### Dates and moments -/

/-- The parts of a date, and of a time of day if there is one. -/
structure TimestampParts where
  year : Nat
  month : Nat
  day : Nat
  time : Option (Nat × Nat × Nat) := none
  fraction : List Char := []
  /-- Seconds ahead of universal time. -/
  offset : Option Int := none
  /-- Month and day have two digits. -/
  padded : Bool := true

/-- One or two digits, with their number, and the rest. -/
def takeTwo? : List Char → Option (Nat × Nat × List Char)
  | a :: b :: r =>
    if !isAsciiDigit a then none
    else if isAsciiDigit b then some ((a.toNat - 48) * 10 + (b.toNat - 48), 2, r)
    else some (a.toNat - 48, 1, b :: r)
  | [a] => if isAsciiDigit a then some (a.toNat - 48, 1, []) else none
  | [] => none

/-- Exactly two digits, and the rest. -/
def takePair? (s : List Char) : Option (Nat × List Char) :=
  match takeTwo? s with
  | some (n, 2, r) => some (n, r)
  | _ => none

/-- The text after one character. -/
def after? (c : Char) : List Char → Option (List Char)
  | a :: r => if a == c then some r else none
  | [] => none

/-- The distance from universal time at the end of a moment. -/
def readOffset? (s : List Char) : Option (Option Int) :=
  match s, s.dropWhile fun c => c == ' ' || c == '\t' with
  | [], _ => some none
  | _, ['Z'] => some (some 0)
  | _, sign :: r =>
    if sign != '-' && sign != '+' then none
    else do
      let (hours, _, r) ← takeTwo? r
      let minutes ← match r with
        | [] => some 0
        | ':' :: r => do
          let (minutes, r) ← takePair? r
          if r.isEmpty then some minutes else none
        | _ => none
      let seconds : Int := (hours * 3600 + minutes * 60 : Nat)
      return some (if sign == '-' then -seconds else seconds)
  | _, [] => none

/-- The time of day after a date. -/
def readTime? (date : TimestampParts) (s : List Char) : Option TimestampParts := do
  let r ← match s with
    | 'T' :: r => some r
    | 't' :: r => some r
    | c :: _ => if c == ' ' || c == '\t' then
        some (s.dropWhile fun c => c == ' ' || c == '\t') else none
    | [] => none
  let (hour, _, r) ← takeTwo? r
  let (minute, r) ← (after? ':' r).bind takePair?
  let (second, r) ← (after? ':' r).bind takePair?
  let (fraction, r) := match r with
    | '.' :: r => (r.takeWhile isAsciiDigit, r.dropWhile isAsciiDigit)
    | r => ([], r)
  let offset ← readOffset? r
  return { date with time := some (hour, minute, second), fraction, offset }

/-- Reads the parts of a date or moment. -/
def readTimestamp? (s : List Char) : Option TimestampParts := do
  let (century, s) ← takePair? s
  let (year, s) ← takePair? s
  let (month, m, s) ← (after? '-' s).bind takeTwo?
  let (day, d, s) ← (after? '-' s).bind takeTwo?
  let date : TimestampParts :=
    { year := century * 100 + year, month, day, padded := m = 2 && d = 2 }
  if s.isEmpty then return date else readTime? date s

/-- A date with two digits for month and day, or a moment. -/
def isTimestamp (s : List Char) : Bool :=
  match readTimestamp? s with
  | some t => t.padded || t.time.isSome
  | none => false

/-- A text without a line feed at its end. -/
def dropFinalBreak (s : List Char) : List Char :=
  match s.getLast? with
  | some '\n' => s.dropLast
  | _ => s

/-- The type of a plain scalar. -/
def plainTag (text : List Char) : Tag :=
  let s := dropFinalBreak text
  if text.isEmpty then .null
  else if s.isEmpty then .str
  else if isTruth s then .bool
  else if isFloat s then .float
  else if isInt s then .int
  else if s == ['<', '<'] then .merge
  else if isNull s then .null
  else if isTimestamp s then .timestamp
  else if s == ['='] then .value
  else if s == ['!'] || s == ['&'] || s == ['*'] then .indicator
  else .str

end RouteDocs.Yaml
