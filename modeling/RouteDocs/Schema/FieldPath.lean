import RouteDocs.Text.Split

/-!
# RouteDocs.Schema.FieldPath — paths of nested fields

`items.*.sku` is the field `sku` of every item of the array `items`.  A path is a name followed by
the names inside the items of arrays; the separator is cut from the left and occurrences that overlap
count once.
-/

namespace RouteDocs.Schema

open Text

/-- The separator between an array and a field of its items. -/
def itemSeparator : String := ".*."

/-- The names on the way to a field. -/
structure FieldPath where
  first : String
  rest : List String
deriving Repr, DecidableEq, Inhabited

/-- A step of a path: a property by name, or the items of an array. -/
inductive Segment where
  | literal (name : String)
  | items
deriving Repr, DecidableEq

namespace FieldPath

/-- All names of a path. -/
def names (p : FieldPath) : List String := p.first :: p.rest

/-- Reads the path of a field. -/
def parse (field : String) : FieldPath :=
  match (splitAround itemSeparator.toList field.toList).map String.ofList with
  | [] => ⟨field, []⟩
  | name :: rest => ⟨name, rest⟩

/-- The steps of a path. -/
def segments (p : FieldPath) : List Segment :=
  .literal p.first :: p.rest.flatMap fun name => [.items, .literal name]

end FieldPath

/-- Whether a field is inside the items of an array. -/
def isNested (field : String) : Bool := occursIn itemSeparator.toList field.toList

end RouteDocs.Schema
