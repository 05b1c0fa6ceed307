import RouteDocs.Shape.Numbers

/-!
# RouteDocs.Operation.Basic — one operation of a document

An operation is what one HTTP method does under a path: its tags and summary, parameters, responses,
the body of its requests and its security requirements.
-/

namespace RouteDocs

open Shape

/-- A parameter in the path or the query. -/
structure Parameter where
  name : String
  /-- `path` or `query`. -/
  location : String
  required : Bool
  schema : Fields
deriving Repr, BEq, Inhabited

/-- The body of a request. -/
structure RequestBody where
  contentType : String := "application/json"
  schema : Fields
deriving Repr, BEq, Inhabited

/-- Schemes by name, each with its scopes. -/
abbrev Requirement := List (String × List String)

/-- An operation. -/
structure Operation where
  tags : List String
  summary : String
  parameters : List Parameter := []
  responses : List (String × Value)
  body? : Option RequestBody := none
  security? : Option (List Requirement) := none
deriving Repr, BEq, Inhabited

namespace Parameter

/-- The parameter as part of a document. -/
def toValue (p : Parameter) : Value :=
  .record [("name", .str p.name), ("in", .str p.location), ("required", .bool p.required),
    ("schema", .record p.schema)]

/-- A parameter from the values of its parts. -/
def ofParts (name location required schema : Value) : Checked Parameter :=
  both (fun (name, location) (required, schema) => { name, location, required, schema })
    (both Prod.mk (under "name" (text name)) (under "location" (text location)))
    (both Prod.mk (under "required" (truth required))
      (under "schema_def" (mappingOf anything schema)))

end Parameter

namespace RequestBody

/-- The body as part of a document. -/
def toValue (b : RequestBody) : Value :=
  .record [("content", .record [(b.contentType, .record [("schema", .record b.schema)])])]

/-- A body from the values of its parts. -/
def ofParts (contentType schema : Value) : Checked RequestBody :=
  both (fun contentType schema => { contentType, schema })
    (under "content_type" (text contentType)) (under "schema_def" (mappingOf anything schema))

end RequestBody

/-- A requirement as part of a document. -/
def Requirement.toValue (r : Requirement) : Value :=
  .record (r.map fun (name, scopes) => (name, .list (scopes.map .str)))

namespace Operation

/-- Responses by status: texts with mappings. -/
def responsesOfValue (v : Value) : Checked (List (String × Value)) :=
  mappingOf mappingValue v

/-- Security requirements. -/
def securityOfValue (v : Value) : Checked (List Requirement) :=
  listOf (mappingOf (listOf text)) v

/-- An operation from parameters, a body and the values of its other parts. -/
def ofParts (tags summary responses security : Value) (parameters : List Parameter)
    (body? : Option RequestBody) : Checked Operation :=
  both (fun (tags, summary) (responses, security?) =>
      { tags, summary, parameters, responses, body?, security? })
    (both Prod.mk (under "tags" (listOf text tags)) (under "summary" (text summary)))
    (both Prod.mk (under "responses" (responsesOfValue responses))
      (under "security" (orNull securityOfValue security)))

/-- The operation as part of a document. -/
def toValue (o : Operation) : Value :=
  .record ([("tags", .list (o.tags.map .str)), ("summary", .str o.summary),
      ("parameters", .list (o.parameters.map Parameter.toValue)),
      ("responses", .record o.responses)] ++
    (o.body?.map fun b => ("requestBody", b.toValue)).toList ++
    (o.security?.map fun rs => ("security", .list (rs.map Requirement.toValue))).toList)

end Operation

end RouteDocs
