/-!
# RouteDocs.Text.Surrogate — code points that are no characters

An escape may put a surrogate into a text, and a byte of a name that is no text stands there as one,
though a surrogate is no character and has no encoding.  Here it is the character of plane thirteen with
the same last four digits: nothing is assigned in that plane, so what the tables say of the character
holds of the surrogate.
-/

namespace RouteDocs.Text

/-- The first code point of the plane whose characters stand for surrogates. -/
def surrogatePlane : Nat := 0xD0000

/-- The code point of a surrogate. -/
def isSurrogateCode (n : Nat) : Bool := 0xD800 ≤ n && n ≤ 0xDFFF

/-- The character for a code point. -/
def charOfCode (n : Nat) : Char := Char.ofNat (if isSurrogateCode n then surrogatePlane + n else n)

/-- A character that stands for a surrogate. -/
def isSurrogate (c : Char) : Bool := surrogatePlane ≤ c.toNat && isSurrogateCode (c.toNat - surrogatePlane)

/-- The code point of a character. -/
def codeOf (c : Char) : Nat := if isSurrogate c then c.toNat - surrogatePlane else c.toNat

/-- A surrogate that stands for a byte of a name which is no text. -/
def isByteSurrogate (c : Char) : Bool := isSurrogate c && 0xDC80 ≤ codeOf c && codeOf c ≤ 0xDCFF

/-- A text with a surrogate, which has no encoding. -/
def hasSurrogate (s : String) : Bool := s.toList.any isSurrogate

end RouteDocs.Text
