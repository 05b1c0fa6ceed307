/-!
# RouteDocs.Text.Lines — line ends and lines

Reading a text file turns every line end (carriage return, line feed, or the two together) into a
line feed.  `splitLines` cuts a text into lines that keep their ends, at every character that ends a
line in Unicode or separates records.
-/

namespace RouteDocs.Text

/-- Every line end as a line feed. -/
def unifyLineEnds : List Char → List Char
  | [] => []
  | '\r' :: '\n' :: r => '\n' :: unifyLineEnds r
  | c :: r => (if c == '\r' then '\n' else c) :: unifyLineEnds r

/-- A character that ends a line: line feed, vertical tab, form feed, carriage return, the file,
group and record separators, next line, and the line and paragraph separators. -/
def endsLine (c : Char) : Bool :=
  let n := c.toNat
  (10 ≤ n && n ≤ 13) || (28 ≤ n && n ≤ 30) || n == 0x85 || n == 0x2028 || n == 0x2029

/-- The text with `c` put before its first line. -/
def consLine (c : Char) : List (List Char) → List (List Char)
  | [] => [[c]]
  | line :: lines => (c :: line) :: lines

/-- The lines of a text with their ends; a carriage return and a line feed end one line together. -/
def splitLines : List Char → List (List Char)
  | [] => []
  | '\r' :: '\n' :: r => ['\r', '\n'] :: splitLines r
  | c :: r => if endsLine c then [c] :: splitLines r else consLine c (splitLines r)

theorem flatten_consLine (c : Char) (lines : List (List Char)) :
    (consLine c lines).flatten = c :: lines.flatten := by
  cases lines <;> simp [consLine]

/-- Nothing is lost by cutting into lines. -/
theorem flatten_splitLines (s : List Char) : (splitLines s).flatten = s := by
  fun_induction splitLines s with
  | case1 => rfl
  | case2 r ih => simp [ih]
  | case3 c r _ h ih => simp [ih]
  | case4 c r _ h ih => simp [flatten_consLine, ih]

end RouteDocs.Text
