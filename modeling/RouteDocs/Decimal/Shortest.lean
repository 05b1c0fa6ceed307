import RouteDocs.Decimal.Real64

/-!
# RouteDocs.Decimal.Shortest — the fewest digits that read back

`shortest m q` is the decimal of fewest digits that lies in the interval of reals rounded to
`m · 2 ^ q`, and of those the one nearest to it.  The ends of the interval belong to it if `m` is
even.  If a decimal grid has a point in the interval, it has one next to the value, so each grid is
tried at two points.
-/

namespace RouteDocs.Decimal

/-- `digits · 10 ^ exponent`. -/
structure Scientific where
  digits : Nat
  exponent : Int
deriving Repr, DecidableEq

/-- A number `m · 2 ^ q` with the interval that rounds to it, over one denominator. -/
structure Rounding where
  low : Nat
  value : Nat
  high : Nat
  denominator : Nat
  closed : Bool

/-- The rounding interval of `m · 2 ^ q`.  Below a power of two the numbers are twice as dense. -/
def roundingInterval (m : Nat) (q : Int) : Rounding :=
  let below := if m = Nat.pow 2 52 && Real64.minExponent < q then 1 else 2
  let (num, den) :=
    if 2 ≤ q then (Nat.pow 2 (q - 2).toNat, 1) else (1, Nat.pow 2 (2 - q).toNat)
  { low := (4 * m - below) * num
    value := 4 * m * num
    high := (4 * m + 2) * num
    denominator := den
    closed := m % 2 = 0 }

/-- The greatest `e` with `10 ^ e ≤ num / den`, for a positive quotient. -/
def decimalExponent (num den : Nat) : Int :=
  if den ≤ num then (Nat.toDigits 10 (num / den)).length - 1
  else
    let d := (Nat.toDigits 10 (den / num)).length
    if num * Nat.pow 10 (d - 1) = den then -((d : Int) - 1) else -(d : Int)

/-- The point of the grid `10 ^ exponent` in the interval that is nearest to the value; a tie goes to
the even digit. -/
def gridPoint? (r : Rounding) (exponent : Int) : Option Nat :=
  let up := if 0 ≤ exponent then 1 else Nat.pow 10 (-exponent).toNat
  let unit := r.denominator * if 0 ≤ exponent then Nat.pow 10 exponent.toNat else 1
  let inside (c : Nat) : Bool :=
    if r.closed then r.low * up ≤ c * unit && c * unit ≤ r.high * up
    else r.low * up < c * unit && c * unit < r.high * up
  let c := r.value * up / unit
  let short := r.value * up - c * unit
  let excess := (c + 1) * unit - r.value * up
  match inside c, inside (c + 1) with
  | true, true => if short < excess || (short = excess && c % 2 = 0) then some c else some (c + 1)
  | true, false => some c
  | false, true => some (c + 1)
  | false, false => none

/-- The grid point with the fewest digits, trying `left` more digit counts from `count` on. -/
def firstGridPoint (r : Rounding) (top : Int) : (left : Nat) → (count : Nat) → Scientific
  | 0, _ => ⟨0, 0⟩
  | left + 1, count =>
    let exponent := top - count + 1
    match gridPoint? r exponent with
    | some c => ⟨c, exponent⟩
    | none => firstGridPoint r top left (count + 1)

/-- The decimal of fewest digits that reads back as `m · 2 ^ q`, where `m` is positive.  Seventeen
digits always suffice. -/
def shortest (m : Nat) (q : Int) : Scientific :=
  let r := roundingInterval m q
  firstGridPoint r (decimalExponent r.value r.denominator) 17 1

end RouteDocs.Decimal
