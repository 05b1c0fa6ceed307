import RouteDocs.Fault
import RouteDocs.Schema.Compile

/-!
# RouteDocs.Schema.Descriptor — the declared input of a handler

A descriptor gives the rule spec of each field and perhaps an example of a request.
-/

namespace RouteDocs

open Schema

/-- The input that a handler accepts. -/
structure Descriptor where
  rules : RuleSet := []
  example? : Option Value := none
deriving Repr, BEq, Inhabited

namespace Descriptor

/-- A rule spec: a text, or a list of any items. -/
def spec (v : Value) : Shape.Checked Value :=
  Shape.either "str" (fun v => (Shape.text v).map .str) "list[any]" Shape.listValue v

/-- An example: a mapping with text keys, or a list. -/
def exampleOf (v : Value) : Shape.Checked Value :=
  Shape.either "dict[str,any]" Shape.mappingValue "list[any]" Shape.listValue v

/-- A descriptor from the fields of a record. -/
def ofFields (fields : Shape.Fields) : Shape.Checked Descriptor :=
  Shape.both (fun rules example? => { rules, example? })
    (Shape.fieldOr "rules" [] (Shape.mappingOf spec) fields)
    (Shape.fieldOr "example" none (Shape.orNull exampleOf) fields)

/-- A descriptor from a value. -/
def ofValue (v : Value) : Shape.Checked Descriptor := Shape.recordOf ofFields v

/-- The descriptor as a value. -/
def toValue (d : Descriptor) : Value :=
  .record [("rules", .record d.rules), ("example", d.example?.getD .null)]

/-- The body that the rules of the descriptor describe. -/
def body (d : Descriptor) : Except Cause Body :=
  match compile d.rules with
  | .ok b => .ok b
  | .error e => .error (.rule e)

end Descriptor

end RouteDocs
