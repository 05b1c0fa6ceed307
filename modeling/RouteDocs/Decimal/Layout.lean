import RouteDocs.Decimal.Shortest

/-!
# RouteDocs.Decimal.Layout — numbers as text

Integers are written in base ten.  A double is written with the digits that `shortest` chooses, in a
layout given by one record: which exponents are written without an exponent mark, and the texts of
the numbers that are not finite.
-/

namespace RouteDocs.Decimal

/-- The digits of a natural number. -/
def natChars (n : Nat) : List Char := Nat.toDigits 10 n

/-- An integer as text. -/
def intChars : Int → List Char
  | .ofNat n => natChars n
  | .negSucc n => '-' :: natChars (n + 1)

/-- An integer as a string. -/
def intText (i : Int) : String := String.ofList (intChars i)

/-- A natural number filled with zeros on the left to `width` places. -/
def padded (width n : Nat) : List Char :=
  let digits := natChars n
  List.replicate (width - digits.length) '0' ++ digits

/-- How a double is laid out. -/
structure RealLayout where
  /-- Least decimal exponent written without an exponent mark. -/
  positionalFrom : Int
  /-- First decimal exponent written with an exponent mark. -/
  positionalBelow : Int
  /-- Least number of digits of the exponent. -/
  exponentWidth : Nat
  nan : String
  infinity : String

/-- Positional from `0.0001` up to sixteen digits before the point, and always with a fraction;
beyond that an exponent with its sign and at least two digits. -/
def standardLayout : RealLayout := ⟨-4, 16, 2, "nan", "inf"⟩

/-- Digits without the zeros at their end. -/
def stripZeros (s : List Char) : List Char :=
  (s.reverse.dropWhile (· == '0')).reverse

/-- Significant digits `ds`, the first of them at the place `10 ^ top`, in the given layout. -/
def layDigits (layout : RealLayout) (ds : List Char) (top : Int) : List Char :=
  if layout.positionalFrom ≤ top && top < layout.positionalBelow then
    if top < 0 then '0' :: '.' :: List.replicate (-top - 1).toNat '0' ++ ds
    else
      let whole := top.toNat + 1
      if ds.length ≤ whole then ds ++ List.replicate (whole - ds.length) '0' ++ ['.', '0']
      else ds.take whole ++ '.' :: ds.drop whole
  else
    let fraction := match ds.drop 1 with
      | [] => []
      | rest => '.' :: rest
    let sign := if top < 0 then '-' else '+'
    ds.take 1 ++ fraction ++ 'e' :: sign :: padded layout.exponentWidth top.natAbs

/-- A double in the given layout. -/
def realChars (layout : RealLayout) : Real64 → List Char
  | .nan => layout.nan.toList
  | .infinite negative => (if negative then ['-'] else []) ++ layout.infinity.toList
  | .finite negative m q _ =>
    let sign := if negative then ['-'] else []
    if m = 0 then sign ++ layDigits layout ['0'] 0
    else
      let d := shortest m q
      let ds := natChars d.digits
      sign ++ layDigits layout (stripZeros ds) (d.exponent + ds.length - 1)

/-- A double as a string in the standard layout. -/
def realText (x : Real64) : String := String.ofList (realChars standardLayout x)

end RouteDocs.Decimal
