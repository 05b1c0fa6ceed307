import RouteDocs.Decimal.Real64
import RouteDocs.Text.Blank
import RouteDocs.Text.Word

/-!
# RouteDocs.Decimal.Numeral — reading numbers

Integers may have a sign, single underscores between digits and white space around them, and in base
two, eight and sixteen the prefix of the base.  Digits of any script count.  In base ten at most
`maxDigits` digits are read.
-/

namespace RouteDocs.Decimal

open RouteDocs.Text

/-- The greatest number of digits of an integer in base ten, read or written. -/
def maxDigits : Nat := 4300

/-- The value of a digit or of a letter of `a` to `z` in either case. -/
def placeValue? (c : Char) : Option Nat :=
  match digitValue? c with
  | some d => some d
  | none =>
    if 'a' ≤ c && c ≤ 'z' then some (c.toNat - 87)
    else if 'A' ≤ c && c ≤ 'Z' then some (c.toNat - 55)
    else none

/-- The values of the digits of a text in a base, single underscores between digits left out. -/
def digitValues? (base : Nat) : List Char → Option (List Nat)
  | [] => none
  | [c] => (placeValue? c).bind fun d => if d < base then some [d] else none
  | c :: '_' :: r =>
    (placeValue? c).bind fun d => if d < base then (digitValues? base r).map (d :: ·) else none
  | c :: r =>
    (placeValue? c).bind fun d => if d < base then (digitValues? base r).map (d :: ·) else none

/-- The number with the given digits, most significant first. -/
def ofDigitValues (base : Nat) (ds : List Nat) : Nat := ds.foldl (fun n d => n * base + d) 0

/-- The number that the decimal digits of a text write, whatever else is in it. -/
def digitsNumber (s : List Char) : Nat := ofDigitValues 10 (s.filterMap digitValue?)

/-- A sign, if there is one, and the rest. -/
def takeSign : List Char → Bool × List Char
  | '-' :: r => (true, r)
  | '+' :: r => (false, r)
  | s => (false, s)

/-- The text after the prefix of a base; one underscore may follow the prefix. -/
def dropBaseMark (base : Nat) (s : List Char) : List Char :=
  let marked := match base, s with
    | 2, '0' :: c :: r => if c == 'b' || c == 'B' then some r else none
    | 8, '0' :: c :: r => if c == 'o' || c == 'O' then some r else none
    | 16, '0' :: c :: r => if c == 'x' || c == 'X' then some r else none
    | _, _ => none
  match marked with
  | some ('_' :: r) => r
  | some r => r
  | none => s

/-- Reads an integer in a base. -/
def readInt? (base : Nat) (s : List Char) : Option Int :=
  let (negative, s) := takeSign (trim s)
  (digitValues? base (dropBaseMark base s)).bind fun ds =>
    if base = 10 && maxDigits < ds.length then none
    else
      let n := ofDigitValues base ds
      some (if negative then -(n : Int) else n)

/-- The digits at the start of a text, single underscores between them left out, and the rest. -/
def spanDigits : List Char → List Nat × List Char
  | [] => ([], [])
  | c :: r =>
    match digitValue? c with
    | none => ([], c :: r)
    | some d =>
      match r with
      | '_' :: c' :: r' =>
        if isDecimalDigit c' then
          let (ds, rest) := spanDigits (c' :: r')
          (d :: ds, rest)
        else ([d], r)
      | r =>
        let (ds, rest) := spanDigits r
        (d :: ds, rest)

/-- Reads an exponent after its mark. -/
def readExponent? (s : List Char) : Option Int :=
  let (negative, s) := takeSign s
  match spanDigits s with
  | ([], _) => none
  | (ds, []) => some (if negative then -(ofDigitValues 10 ds : Int) else ofDigitValues 10 ds)
  | _ => none

/-- Reads a number with a point, an exponent or both, an infinity or a number that is none. -/
def readReal? (s : List Char) : Option Real64 :=
  let (negative, s) := takeSign (trim s)
  let lower := s.map Char.toLower
  if lower = "inf".toList || lower = "infinity".toList then some (.infinite negative)
  else if lower = "nan".toList then some .nan
  else
    let (whole, rest) := spanDigits s
    let (fraction, rest) := match rest with
      | '.' :: r => spanDigits r
      | r => ([], r)
    if whole.isEmpty && fraction.isEmpty then none
    else
      let exponent? : Option Int := match rest with
        | [] => some 0
        | c :: r => if c == 'e' || c == 'E' then readExponent? r else none
      exponent?.map fun e =>
        Real64.ofDecimal negative (ofDigitValues 10 (whole ++ fraction)) (e - fraction.length)

end RouteDocs.Decimal
