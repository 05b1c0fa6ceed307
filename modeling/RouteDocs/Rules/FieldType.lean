import RouteDocs.Rules.Basic

/-!
# RouteDocs.Rules.FieldType — the type of a field from its rules

The types form an order, `string < array < boolean < number < integer < file`, and the rules of a
field give it the greatest type that one of them stands for.
-/

namespace RouteDocs

/-- The type of a field.  `other` holds a type that no rule stands for. -/
inductive FieldType where
  | file | integer | number | boolean | array | string
  | other (name : String)
deriving Repr, DecidableEq, Inhabited

namespace FieldType

/-- The name of a type in a schema. -/
def name : FieldType → String
  | .file => "file"
  | .integer => "integer"
  | .number => "number"
  | .boolean => "boolean"
  | .array => "array"
  | .string => "string"
  | .other n => n

/-- The type with a name. -/
def ofName (n : String) : FieldType :=
  if n = "file" then .file
  else if n = "integer" then .integer
  else if n = "number" then .number
  else if n = "boolean" then .boolean
  else if n = "array" then .array
  else if n = "string" then .string
  else .other n

@[simp] theorem name_ofName (n : String) : (ofName n).name = n := by
  unfold ofName
  repeat' split
  all_goals simp_all [name]

/-- Whether a rule asks for an upload: a list of media types, or a file or image. -/
def asksForFile (r : Rule) : Bool :=
  "mimes".toList.isPrefixOf r.folded.toList || "mimetypes".toList.isPrefixOf r.folded.toList ||
    r.folded == "file" || r.folded == "image"

/-- The type of a field with the given rules. -/
def ofRules (rules : List Rule) : FieldType :=
  if rules.any asksForFile then .file
  else if hasRule rules "integer" then .integer
  else if hasRule rules "numeric" then .number
  else if hasRule rules "boolean" then .boolean
  else if hasRule rules "array" then .array
  else .string

end FieldType

end RouteDocs
