/-!
# RouteDocs.Decimal.Real64 — double-precision numbers in exact arithmetic

A finite number is `± significand · 2 ^ exponent`.  `Real64.nearest` rounds a quotient of natural
numbers to the nearest double, a tie to the even significand; all arithmetic is exact arithmetic
followed by that rounding, so the numbers can be compared and reasoned about as integers.
-/

namespace RouteDocs

/-- The least exponent. -/
def Real64.minExponent : Int := -1074

/-- The greatest exponent. -/
def Real64.maxExponent : Int := 971

/-- The significand and exponent of a finite double: the significand has at most 53 bits, and no fewer
unless the exponent is the least one. -/
def Real64.Fits (significand : Nat) (exponent : Int) : Prop :=
  significand < Nat.pow 2 53 ∧ minExponent ≤ exponent ∧ exponent ≤ maxExponent ∧
    (Nat.pow 2 52 ≤ significand ∨ exponent = minExponent)

instance (significand : Nat) (exponent : Int) : Decidable (Real64.Fits significand exponent) :=
  inferInstanceAs (Decidable (_ ∧ _ ∧ _ ∧ (_ ∨ _)))

/-- A double-precision number. -/
inductive Real64 where
  | nan
  | infinite (negative : Bool)
  | finite (negative : Bool) (significand : Nat) (exponent : Int)
      (fits : Real64.Fits significand exponent)
deriving Repr, DecidableEq, Inhabited

namespace Real64

/-- Zero of either sign. -/
def zero (negative : Bool) : Real64 := .finite negative 0 minExponent (by decide)

/-- The double of a significand and an exponent, infinite if there is none. -/
def ofParts (negative : Bool) (significand : Nat) (exponent : Int) : Real64 :=
  if h : Fits significand exponent then .finite negative significand exponent h
  else .infinite negative

/-- `a / b` rounded to the nearest integer, a tie to the even one. -/
def roundHalfEven (a b : Nat) : Nat :=
  let q := a / b
  let r := a % b
  if 2 * r < b then q else if b < 2 * r then q + 1 else q + q % 2

/-- The numerator and denominator of `(num / den) / 2 ^ exponent`. -/
def scaled (num den : Nat) (exponent : Int) : Nat × Nat :=
  if 0 ≤ exponent then (num, den * Nat.pow 2 exponent.toNat)
  else (num * Nat.pow 2 (-exponent).toNat, den)

/-- The exponent at which `num / den` has a significand of 53 bits, or the least exponent. -/
def exponentFor (num den : Nat) : Int :=
  let guess : Int := (num.log2 : Int) - den.log2 - 52
  let (a, b) := scaled num den guess
  max minExponent (if a < Nat.pow 2 52 * b then guess - 1 else guess)

/-- The double nearest to `num / den`, where `den` is positive. -/
def nearest (negative : Bool) (num den : Nat) : Real64 :=
  if num = 0 then zero negative
  else
    let exponent := exponentFor num den
    let (a, b) := scaled num den exponent
    let significand := roundHalfEven a b
    let (significand, exponent) :=
      if significand = Nat.pow 2 53 then (Nat.pow 2 52, exponent + 1) else (significand, exponent)
    ofParts negative significand exponent

/-- The double nearest to `± digits · 10 ^ exponent`. -/
def ofDecimal (negative : Bool) (digits : Nat) (exponent : Int) : Real64 :=
  let size : Int := (Nat.toDigits 10 digits).length + exponent
  if digits = 0 || size < -400 then zero negative
  else if 400 < size then .infinite negative
  else if 0 ≤ exponent then nearest negative (digits * Nat.pow 10 exponent.toNat) 1
  else nearest negative digits (Nat.pow 10 (-exponent).toNat)

/-- The double nearest to an integer. -/
def ofInt (i : Int) : Real64 := nearest (decide (i < 0)) i.natAbs 1

/-- The value of a finite number as a numerator and a positive denominator. -/
def toRatio? : Real64 → Option (Int × Nat)
  | .finite negative m e _ =>
    let (a, b) := scaled m 1 (-e)
    -- `scaled` divides by the power of two, so the negated exponent multiplies
    some (if negative then -(a : Int) else a, b)
  | _ => none

/-- The integer that a finite number is equal to. -/
def toInt? (x : Real64) : Option Int :=
  match x.toRatio? with
  | some (a, b) => if a % b = 0 then some (a / b) else none
  | none => none

/-- Rounded quotient of an integer and a positive natural number; `negative` is the sign of zero. -/
def ofRatio (a : Int) (b : Nat) (negative : Bool) : Real64 :=
  if a = 0 then zero negative else nearest (decide (a < 0)) a.natAbs b

/-- The number with the other sign. -/
def negate : Real64 → Real64
  | .nan => .nan
  | .infinite n => .infinite (!n)
  | .finite n m e h => .finite (!n) m e h

/-- The sum, rounded. -/
def add : Real64 → Real64 → Real64
  | .nan, _ => .nan
  | _, .nan => .nan
  | .infinite m, .infinite n => if m = n then .infinite m else .nan
  | .infinite m, .finite .. => .infinite m
  | .finite .., .infinite n => .infinite n
  | x@(.finite m _ _ _), y@(.finite n _ _ _) =>
    match x.toRatio?, y.toRatio? with
    | some (a, b), some (c, d) => ofRatio (a * d + c * b) (b * d) (m && n)
    | _, _ => .nan

/-- The product with a natural number above zero, rounded. -/
def scale (x : Real64) (k : Nat) : Real64 :=
  match x with
  | .finite n _ _ _ =>
    match x.toRatio? with
    | some (a, b) => ofRatio (a * k) b n
    | none => .nan
  | x => x

end Real64

end RouteDocs
