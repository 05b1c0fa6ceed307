import RouteDocs.Decimal.Layout
import RouteDocs.Text.Quoted
import RouteDocs.Value.Basic

/-!
# RouteDocs.Value.Literal — values as text in messages and locations

The text of a value: `None`, `True`, `False`, numbers, quoted strings, and collections with their
brackets.  A tuple of one member keeps its comma.
-/

namespace RouteDocs.Value

open RouteDocs.Text RouteDocs.Decimal

/-- A byte inside quoted bytes. -/
def byteLiteral (quote : Char) (b : UInt8) : List Char :=
  let c := Char.ofNat b.toNat
  if c == quote || c == '\\' then ['\\', c]
  else if c == '\t' then ['\\', 't']
  else if c == '\n' then ['\\', 'n']
  else if c == '\r' then ['\\', 'r']
  else if 32 ≤ b.toNat && b.toNat ≤ 126 then [c]
  else '\\' :: 'x' :: hexPadded 2 b.toNat

/-- Texts with a comma and a space between them. -/
def commaList : List (List Char) → List Char := fun items => [',', ' '].intercalate items

/-- A date as a call with its parts. -/
def dateLiteral (d : Date) : List Char :=
  "datetime.date(".toList ++
    commaList [natChars d.year, natChars d.month, natChars d.day] ++ [')']

/-- A moment as a call with its parts; seconds and microseconds only if they are not zero. -/
def momentLiteral (m : Moment) : List Char :=
  let tail := if m.micro = 0 then (if m.second = 0 then [] else [natChars m.second])
    else [natChars m.second, natChars m.micro]
  let zone := match m.offset with
    | none => []
    | some o =>
      if o = 0 then ["tzinfo=datetime.timezone.utc".toList]
      else
        let days := if o < 0 then "days=-1, ".toList else []
        let seconds := (if o < 0 then o + 86400 else o).toNat
        ["tzinfo=datetime.timezone(datetime.timedelta(".toList ++ days ++ "seconds=".toList ++
          natChars seconds ++ "))".toList]
  "datetime.datetime(".toList ++
    commaList ([natChars m.date.year, natChars m.date.month, natChars m.date.day,
      natChars m.hour, natChars m.minute] ++ tail ++ zone) ++ [')']

mutual

/-- The text of a value. -/
def literal : Value → List Char
  | .null => "None".toList
  | .bool b => (if b then "True" else "False").toList
  | .int i => intChars i
  | .real x => realChars standardLayout x
  | .str s => quote s.toList
  | .bytes bs =>
    let q := quoteFor (bs.map fun b => Char.ofNat b.toNat)
    'b' :: q :: bs.flatMap (byteLiteral q) ++ [q]
  | .date d => dateLiteral d
  | .moment m => momentLiteral m
  | .list items => '[' :: commaList (literals items) ++ [']']
  | .tuple [item] => '(' :: literal item ++ [',', ')']
  | .tuple items => '(' :: commaList (literals items) ++ [')']
  | .set items => if items.isEmpty then "set()".toList
    else '\x7b' :: commaList (literals items) ++ ['\x7d']
  | .map entries => '\x7b' :: commaList (entryLiterals entries) ++ ['\x7d']

/-- The texts of several values. -/
def literals : List Value → List (List Char)
  | [] => []
  | v :: rest => literal v :: literals rest

/-- The texts of the entries of a mapping. -/
def entryLiterals : List (Value × Value) → List (List Char)
  | [] => []
  | (k, v) :: rest => (literal k ++ ':' :: ' ' :: literal v) :: entryLiterals rest

end

/-- The text of a value as a string. -/
def literalText (v : Value) : String := String.ofList v.literal

/-- The text of a value where it stands for itself: a string as it is, any other value as its
literal. -/
def plainText : Value → String
  | .str s => s
  | v => v.literalText

end RouteDocs.Value
