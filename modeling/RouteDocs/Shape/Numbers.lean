import RouteDocs.Decimal.Numeral
import RouteDocs.Shape.Basic

/-!
# RouteDocs.Shape.Numbers — numbers and truth values where a shape asks for them

Integers may be given as integers, truth values, numbers without a fraction or texts; truth values
also as the words for yes and no.
-/

namespace RouteDocs.Shape

open Text Decimal

/-- The digits of a text with single underscores between them. -/
def plainDigits? : List Char → Option (List Char)
  | [] => none
  | [c] => if isAsciiDigit c then some [c] else none
  | c :: '_' :: r => if isAsciiDigit c then (plainDigits? r).map (c :: ·) else none
  | c :: r => if isAsciiDigit c then (plainDigits? r).map (c :: ·) else none

/-- The text before a fraction of zeros. -/
def dropZeroFraction (s : List Char) : List Char :=
  match s.dropWhile (· != '.') with
  | _ :: fraction => if fraction.all (· == '0') then s.takeWhile (· != '.') else s
  | [] => s

/-- An integer as a text: digits with an optional sign, white space around it, and perhaps a fraction
of zeros. -/
def integerText (s : List Char) : Checked Int :=
  let (negative, unsigned) := takeSign (trim s)
  match plainDigits? (dropZeroFraction unsigned) with
  | none => unexpected .integerText
  | some ds =>
    if maxDigits < ds.length then unexpected .integerTextSize
    else
      let n := digitsNumber ds
      .ok (if negative then -(n : Int) else n)

/-- The integers of a machine word lie below this, and not below its opposite. -/
def wordBound : Int := 0x8000000000000000

/-- An integer. -/
def integer : Value → Checked Int
  | .int i => .ok i
  | .bool b => .ok (if b then 1 else 0)
  | .real x => match x with
    | .finite .. => match x.toInt? with
      | none => unexpected .noFraction
      | some i => if -wordBound < i && i < wordBound then .ok i else unexpected .integerTextSize
    | _ => unexpected .finite
  | .str s => integerText s.toList
  | .bytes bs => match String.fromUTF8? ⟨bs.toArray⟩ with
    | some s => integerText s.toList
    | none => unexpected .integerText
  | _ => unexpected .integer

/-- A pair of integers. -/
def integerPair (v : Value) : Checked (Int × Int) :=
  match items? v with
  | none => unexpected .tuple
  | some [] => .error [⟨["0"], .field⟩, ⟨["1"], .field⟩]
  | some [a] => both Prod.mk (under "0" (integer a)) (.error [⟨["1"], .field⟩])
  | some [a, b] => both Prod.mk (under "0" (integer a)) (under "1" (integer b))
  | some _ => unexpected .fewerItems

/-- A truth value as a word. -/
def truthWord? (s : String) : Option Bool :=
  let w := s.toList.map Char.toLower |> String.ofList
  if ["1", "on", "t", "true", "y", "yes"].contains w then some true
  else if ["0", "off", "f", "false", "n", "no"].contains w then some false
  else none

/-- A truth value: one, its words, or a number that is zero or one. -/
def truth : Value → Checked Bool
  | .bool b => .ok b
  | .str s => ofOption (truthWord? s)
  | .bytes bs => ofOption ((String.fromUTF8? ⟨bs.toArray⟩).bind truthWord?)
  | .int i => ofNumber i
  | .real x => match x.toInt? with
    | some i => if -wordBound < i && i < wordBound then ofNumber i else unexpected .truth
    | none => unexpected .truth
  | _ => unexpected .truth
where
  ofOption : Option Bool → Checked Bool
    | some b => .ok b
    | none => unexpected .truthReading
  ofNumber (i : Int) : Checked Bool :=
    if i = 0 then .ok false
    else if i = 1 then .ok true
    else if -wordBound ≤ i && i < wordBound then unexpected .truthReading
    else unexpected .truth

/-- A number with or without a fraction. -/
def real : Value → Checked Real64
  | .real x => .ok x
  | .int i => .ok (.ofInt i)
  | .bool b => .ok (.ofInt (if b then 1 else 0))
  | .str s => ofText s
  | .bytes bs => match String.fromUTF8? ⟨bs.toArray⟩ with
    | some s => ofText s
    | none => unexpected .realText
  | _ => unexpected .real
where
  ofText (s : String) : Checked Real64 :=
    match readReal? s.toList with
    | some x => .ok x
    | none => unexpected .realText

/-- An integer or a number with a fraction, as it is given. -/
def number : Value → Checked (Int ⊕ Real64)
  | .real x => .ok (.inr x)
  | v => either "int" (fun v => (integer v).map .inl) "float" (fun v => (real v).map .inr) v

end RouteDocs.Shape
