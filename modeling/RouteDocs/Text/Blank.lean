/-!
# RouteDocs.Text.Blank — white space and trimming

White space is the separators of Unicode together with the control characters that move the print
position or separate records.  `trim` drops it from both ends.
-/

namespace RouteDocs.Text

/-- White space: tab to carriage return, the four record separators, space, next line, the no-break
space and the other space, line and paragraph separators. -/
def isBlank (c : Char) : Bool :=
  let n := c.toNat
  (9 ≤ n && n ≤ 13) || (28 ≤ n && n ≤ 32) || n == 0x85 || n == 0xA0 || n == 0x1680 ||
    (0x2000 ≤ n && n ≤ 0x200A) || n == 0x2028 || n == 0x2029 || n == 0x202F || n == 0x205F ||
    n == 0x3000

/-- The text without the characters at its end that satisfy `p`. -/
def dropEndWhile (p : Char → Bool) : List Char → List Char
  | [] => []
  | c :: r =>
    match dropEndWhile p r with
    | [] => if p c then [] else [c]
    | d :: s => c :: d :: s

/-- The text without white space at its ends. -/
def trim (s : List Char) : List Char :=
  dropEndWhile isBlank (s.dropWhile isBlank)

/-- The string without white space at its ends. -/
def trimmed (s : String) : String := String.ofList (trim s.toList)

end RouteDocs.Text
