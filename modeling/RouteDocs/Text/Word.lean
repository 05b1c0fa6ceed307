import RouteDocs.Text.Edges
import RouteDocs.Text.WordTable

/-!
# RouteDocs.Text.Word — word characters and decimal digits

A word character is a letter, a numeric character or the underscore.  A decimal digit has a value
from 0 to 9 in any script.
-/

namespace RouteDocs.Text

/-- A letter of `a` to `z` or `A` to `Z`. -/
def isAsciiLetter (c : Char) : Bool := ('a' ≤ c && c ≤ 'z') || ('A' ≤ c && c ≤ 'Z')

/-- A digit of `0` to `9`. -/
def isAsciiDigit (c : Char) : Bool := '0' ≤ c && c ≤ '9'

/-- The value of a hexadecimal digit. -/
def hexDigit? (c : Char) : Option Nat :=
  if '0' ≤ c && c ≤ '9' then some (c.toNat - 48)
  else if 'a' ≤ c && c ≤ 'f' then some (c.toNat - 87)
  else if 'A' ≤ c && c ≤ 'F' then some (c.toNat - 55)
  else none

/-- A letter or a numeric character of any script. -/
def isAlphanumeric (c : Char) : Bool :=
  if c.toNat < 128 then isAsciiLetter c || isAsciiDigit c else within alphanumericEdges c.toNat

/-- A letter, a numeric character or the underscore. -/
def isWordChar (c : Char) : Bool := c == '_' || isAlphanumeric c

/-- The place of `n` in the block of the edge list that holds it, counted from the block's start. -/
def offsetWithin : List Nat → Nat → Option Nat
  | first :: stop :: rest, n =>
    if n < first then none else if n < stop then some (n - first) else offsetWithin rest n
  | _, _ => none

/-- The value of a decimal digit of any script. -/
def digitValue? (c : Char) : Option Nat :=
  if c.toNat < 128 then
    if isAsciiDigit c then some (c.toNat - 48) else none
  else (offsetWithin decimalEdges c.toNat).map (· % 10)

/-- A decimal digit of any script. -/
def isDecimalDigit (c : Char) : Bool := (digitValue? c).isSome

end RouteDocs.Text
