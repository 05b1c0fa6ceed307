import RouteDocs.Schema.Node
import RouteDocs.Shape.Numbers

/-!
# RouteDocs.Schema.Given — leaves that are given as values

A leaf may be given by a record of its type and constraints.
-/

namespace RouteDocs.Schema

open Shape

/-- A bound from a value. -/
def boundOf (v : Value) : Checked Number :=
  (number v).map fun
    | .inl i => .int i
    | .inr x => .real x

/-- A length from a value. -/
def lengthOf (v : Value) : Checked Number := (integer v).map .int

/-- A leaf from the fields of a record. -/
def Leaf.ofFields (fields : Fields) : Checked Leaf :=
  let bound (name : String) (check : Value → Checked Number) : Checked (Option Number) :=
    fieldOr name none (orNull check) fields
  let type := (fieldOr "type" "string" text fields).map FieldType.ofName
  let head := both mk type (fieldOr "nullable" false truth fields)
  let head := both id head (fieldOr "enum" none (orNull (listOf anything)) fields)
  let head := both id head (bound "minimum" boundOf)
  let head := both id head (bound "maximum" boundOf)
  let head := both id head (bound "min_length" lengthOf)
  both id head (bound "max_length" lengthOf)

end RouteDocs.Schema
