import RouteDocs.Rules.Constraints

/-!
# RouteDocs.Schema.Node — the property tree of a request body

A node is a leaf of one type with its constraints, an object with named properties in order, or an
array of one kind of items.
-/

namespace RouteDocs

namespace Schema

/-- A field of one type and its constraints. -/
structure Leaf where
  type : FieldType := .string
  nullable : Bool := false
  enum : Option (List Value) := none
  minimum : Option Number := none
  maximum : Option Number := none
  minLength : Option Number := none
  maxLength : Option Number := none
deriving Repr, BEq, Inhabited

/-- A node of the property tree. -/
inductive Node where
  | leaf (l : Leaf)
  | object (properties : List (String × Node)) (required : List String)
  | array (items : Node)
deriving Repr, BEq, Inhabited

/-- Named nodes in order. -/
abbrev Properties := List (String × Node)

/-- The leaf of a field with the given type and constraints. -/
def Leaf.ofConstraints (type : FieldType) (c : Constraints) : Leaf :=
  { type, nullable := c.nullable, enum := c.enum, minimum := c.minimum, maximum := c.maximum,
    minLength := c.minLength, maxLength := c.maxLength }

/-- An array of objects that have no properties yet. -/
def Node.arrayOfObjects (properties : Properties := []) : Node := .array (.object properties [])

/-- A field of a rendered schema, if it has a value. -/
def optionalField (name : String) (v : Option Value) : List (String × Value) :=
  match v with
  | some v => [(name, v)]
  | none => []

/-- The schema of a leaf. -/
def Leaf.fields (l : Leaf) : List (String × Value) :=
  ("type", .str l.type.name) ::
    (if l.nullable then [("nullable", .bool true)] else []) ++
    optionalField "enum" (l.enum.map .list) ++
    optionalField "minLength" (l.minLength.map Number.toValue) ++
    optionalField "minimum" (l.minimum.map Number.toValue) ++
    optionalField "maxLength" (l.maxLength.map Number.toValue) ++
    optionalField "maximum" (l.maximum.map Number.toValue)

/-- Names as a field of a rendered schema, if there are any. -/
def requiredField (names : List String) : List (String × Value) :=
  if names.isEmpty then [] else [("required", .list (names.map .str))]

mutual

/-- The schema of a node. -/
def Node.render : Node → Value
  | .leaf l => .record l.fields
  | .object properties required =>
    .record ([("type", .str "object"), ("properties", .record (renderProperties properties))] ++
      requiredField required)
  | .array items => .record [("type", .str "array"), ("items", items.render)]

/-- The schemas of named nodes. -/
def renderProperties : List (String × Node) → List (String × Value)
  | [] => []
  | (name, node) :: rest => (name, node.render) :: renderProperties rest

end

/-- The node under a name. -/
def Properties.get? (properties : Properties) (name : String) : Option Node :=
  properties.lookup name

/-- The properties with a node under a name: in the place of the one that is there, or at the end. -/
def Properties.put (name : String) (node : Node) : Properties → Properties
  | [] => [(name, node)]
  | (n, old) :: rest => if n = name then (name, node) :: rest else (n, old) :: put name node rest

end Schema

end RouteDocs
