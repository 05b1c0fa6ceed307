import RouteDocs.Schema.Insert

/-!
# RouteDocs.Schema.Compile — from the rules of a request to the schema of its body

Each field becomes a leaf of the property tree; fields at the top that are required are listed beside
the tree, whether or not their leaf was accepted.  A request with an upload is a form in parts.
-/

namespace RouteDocs.Schema

/-- The content type of a body without uploads. -/
def jsonType : String := "application/json"

/-- The content type of a form in parts. -/
def multipartType : String := "multipart/form-data"

/-- A field path with its rule spec. -/
abbrev RuleSet := List (String × Value)

/-- The tree of the fields compiled so far. -/
structure Body where
  hasFile : Bool := false
  properties : Properties := []
  required : List String := []
deriving Repr, BEq, Inhabited

namespace Body

/-- The content type of the body. -/
def contentType (b : Body) : String := if b.hasFile then multipartType else jsonType

/-- The body as the object node at the root of the tree. -/
def root (b : Body) : Node := .object b.properties b.required

/-- The body with one more field. -/
def addField (b : Body) (field : String) (spec : Value) : Except RuleError Body := do
  let rules := rulesOf spec
  let type := FieldType.ofRules rules
  let constraints ← constraintsOf rules type
  let (_, properties) := resolve b.properties field (.ofConstraints type constraints)
  return {
    hasFile := b.hasFile || type = .file
    properties
    required := if constraints.required && !isNested field then b.required ++ [field]
      else b.required }

/-- The body with the fields of a rule set. -/
def addFields (b : Body) : RuleSet → Except RuleError Body
  | [] => .ok b
  | (field, spec) :: rest => do addFields (← b.addField field spec) rest

end Body

/-- Compiles a rule set. -/
def compile (rules : RuleSet) : Except RuleError Body := Body.addFields {} rules

/-- The schema of an object: its rendered properties, the names of those that are required, and an
example. -/
structure ObjectSchema where
  properties : List (String × Value)
  required : List String
  example? : Option Value
deriving Repr, BEq, Inhabited

/-- The schema of a body with an example. -/
def Body.schema (b : Body) (example? : Option Value) : ObjectSchema :=
  ⟨renderProperties b.properties, b.required, example?⟩

/-- The fields of an object schema. -/
def ObjectSchema.fields (s : ObjectSchema) : List (String × Value) :=
  [("type", .str "object"), ("properties", .record s.properties)] ++ requiredField s.required ++
    optionalField "example" s.example?

end RouteDocs.Schema
