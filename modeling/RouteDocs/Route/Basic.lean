import RouteDocs.Route.Handler
import RouteDocs.Shape.Basic
import RouteDocs.Text.Case
import RouteDocs.Text.Word

/-!
# RouteDocs.Route.Basic — the entries of a route table

A route has a path, HTTP methods, an action and the names of the middleware it runs behind.
-/

namespace RouteDocs

open Text

/-- An entry of the route table. -/
structure Route where
  uri : String
  methods : List String
  action : String := ""
  middleware : List String := []
deriving Repr, DecidableEq, Inhabited

namespace Route

/-- The handler of the route, if it has one. -/
def handler? (r : Route) : Option Handler := Handler.parse? r.action

/-- The path, with exactly one slash at its start. -/
def path (r : Route) : String :=
  String.ofList ('/' :: r.uri.toList.dropWhile (· == '/'))

/-- A route from the fields of a record. -/
def ofFields (fields : Shape.Fields) : Shape.Checked Route :=
  Shape.both (fun (uri, methods) (action, middleware) => { uri, methods, action, middleware })
    (Shape.both Prod.mk (Shape.field "uri" Shape.text fields)
      (Shape.field "methods" (Shape.listOf Shape.text) fields))
    (Shape.both Prod.mk (Shape.fieldOr "action" "" Shape.text fields)
      (Shape.fieldOr "middleware" [] (Shape.listOf Shape.text) fields))

/-- A route from a value. -/
def ofValue (v : Value) : Shape.Checked Route := Shape.recordOf ofFields v

/-- Whether the route runs behind a middleware whose name holds the marker. -/
def requiresAuth (marker : String) (r : Route) : Bool :=
  r.middleware.any fun name => occursIn marker.toList name.toList

end Route

/-! ### Placeholders -/

/-- The name in braces at the start of a text, after the opening brace. -/
def placeholderAt? (s : List Char) : Option (List Char) :=
  match s.takeWhile isWordChar, s.dropWhile isWordChar with
  | c :: name, '\x7d' :: _ => some (c :: name)
  | _, _ => none

/-- The names in braces in a text: one or more word characters each. -/
def placeholderNames : List Char → List (List Char)
  | [] => []
  | c :: r =>
    if c == '\x7b' then
      match placeholderAt? r with
      | some name => name :: placeholderNames r
      | none => placeholderNames r
    else placeholderNames r

/-- The placeholders of a path. -/
def placeholders (path : String) : List String :=
  (placeholderNames path.toList).map String.ofList

/-! ### Methods -/

/-- The methods whose requests are sent as `POST` with a field that names the method. -/
def isTunnelled (method : String) : Bool := method == "PUT" || method == "PATCH"

/-- The key of a method in the document. -/
def documentMethod (method : String) : String :=
  let verb := uppered method
  if isTunnelled verb then "post" else lowered verb

/-- Whether a method is left out of the document. -/
def isSkipped (method : String) : Bool := uppered method == "HEAD"

end RouteDocs
