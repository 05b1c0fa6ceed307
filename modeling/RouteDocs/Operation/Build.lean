import RouteDocs.Naming
import RouteDocs.Operation.Basic
import RouteDocs.Response.Basic
import RouteDocs.Route.Basic
import RouteDocs.Schema.Descriptor

/-!
# RouteDocs.Operation.Build — the operation of a route under one method

The operation is named after the handler, takes the placeholders of the path as parameters and gives
the responses found in the source of the handler.  The fields of the descriptor are parameters of a
`GET` and the body of any other method; a method that is sent as `POST` adds the field that names it.
-/

namespace RouteDocs

open Schema Shape

/-- What is known of the handler of a route beside its name. -/
structure Evidence where
  descriptor? : Option Descriptor := none
  source : String := ""
deriving Repr, BEq, Inhabited

/-- How operations are built. -/
structure BuildOptions where
  authMarker : String := "auth"
  heuristics : Heuristics := {}
deriving Repr, DecidableEq, Inhabited

/-- The field that names the method of a request sent as `POST`. -/
def methodField : String := "_method"

/-- The scheme that requests behind authentication use. -/
def securityScheme : String := "bearerAuth"

/-- The schema of the field that names a method. -/
def methodSchema (verb : String) : Value :=
  .record [("type", .str "string"), ("enum", .list [.str verb])]

/-- The parameters that a path asks for, one for each placeholder. -/
def pathParameters (path : String) : List Parameter :=
  (placeholders path).map fun name => ⟨name, "path", true, [("type", .str "integer")]⟩

/-- A property of an object schema as a parameter of the query. -/
def queryParameter (required : List String) (property : String × Value) : Parameter :=
  { name := property.1
    location := "query"
    required := required.contains property.1
    schema := (recordFields? property.2).getD [] }

/-- An object schema with the field that names the method. -/
def Schema.ObjectSchema.withMethod (s : ObjectSchema) (verb : String) : ObjectSchema :=
  { s with
    properties := putField methodField (methodSchema verb) s.properties
    required := s.required ++ [methodField] }

/-- The object schema of the body for a method. -/
def bodySchema (verb : String) (s : ObjectSchema) : ObjectSchema :=
  if isTunnelled verb then s.withMethod verb else s

/-- The parameters of the query and the body that a descriptor gives an operation. -/
def inputOf (verb : String) (d : Descriptor) : Except Cause (List Parameter × Option RequestBody) := do
  let body ← d.body
  let schema := body.schema d.example?
  return if verb = "GET" then (schema.properties.map (queryParameter schema.required), none)
    else ([], some ⟨body.contentType, (bodySchema verb schema).fields⟩)

/-- The parameters of the query and the body without a descriptor: only the field that names the
method, if there has to be one. -/
def inputWithout (verb : String) : List Parameter × Option RequestBody :=
  if isTunnelled verb then ([], some ⟨multipartType, (ObjectSchema.withMethod ⟨[], [], none⟩ verb).fields⟩)
  else ([], none)

/-- The operation of a route under a method. -/
def buildOperation (o : BuildOptions) (r : Route) (method : String) (e : Evidence) :
    Except Cause Operation := do
  let verb := Text.uppered method
  let handler := r.handler?.getD ⟨"", ""⟩
  let found ← responsesOf o.heuristics e.source e.descriptor?.isSome (e.descriptor?.bind (·.example?))
  let responses ← Cause.ofChecked (under "responses" (Operation.responsesOfValue found.toValue))
  let (query, body?) ← match e.descriptor? with
    | some d => inputOf verb d
    | none => pure (inputWithout verb)
  return {
    tags := [Naming.tag handler.resourceName]
    summary := Naming.summary handler.resourceName handler.method
    parameters := pathParameters r.path ++ query
    responses
    body?
    security? := if r.requiresAuth o.authMarker then some [[(securityScheme, [])]] else none }

end RouteDocs
