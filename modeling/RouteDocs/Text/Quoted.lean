import RouteDocs.Text.Edges
import RouteDocs.Text.PrintableTable
import RouteDocs.Text.Surrogate

/-!
# RouteDocs.Text.Quoted — quoted text in messages

A text is shown between single quotes, or between double quotes if it holds single quotes and no
double ones.  The quote in use and the backslash are escaped, tab and line ends have names, and every
other character that cannot be printed is written as its code point in hexadecimal.
-/

namespace RouteDocs.Text

/-- A character that quoted text shows as itself. -/
def isPrintable (c : Char) : Bool :=
  if c.toNat < 128 then 32 ≤ c.toNat && c.toNat ≤ 126 else within printableEdges c.toNat

/-- A hexadecimal number in lower case, filled with zeros on the left to `width` places. -/
def hexPadded (width n : Nat) : List Char :=
  let digits := Nat.toDigits 16 n
  List.replicate (width - digits.length) '0' ++ digits

/-- A code point as an escape of two, four or eight hexadecimal digits. -/
def escapeCode (n : Nat) : List Char :=
  if n < 0x100 then '\\' :: 'x' :: hexPadded 2 n
  else if n < 0x10000 then '\\' :: 'u' :: hexPadded 4 n
  else '\\' :: 'U' :: hexPadded 8 n

/-- The quote that a text is shown in. -/
def quoteFor (s : List Char) : Char :=
  if s.contains '\'' && !s.contains '"' then '"' else '\''

/-- A character inside quotes. -/
def quoteChar (quote c : Char) : List Char :=
  if c == quote || c == '\\' then ['\\', c]
  else if c == '\t' then ['\\', 't']
  else if c == '\n' then ['\\', 'n']
  else if c == '\r' then ['\\', 'r']
  else if isPrintable c then [c]
  else escapeCode (codeOf c)

/-- A text in quotes. -/
def quote (s : List Char) : List Char :=
  let q := quoteFor s
  q :: s.flatMap (quoteChar q) ++ [q]

/-- A string in quotes. -/
def quoted (s : String) : String := String.ofList (quote s.toList)

end RouteDocs.Text
