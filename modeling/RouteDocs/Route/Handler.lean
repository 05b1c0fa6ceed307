import RouteDocs.Text.Split

/-!
# RouteDocs.Route.Handler — the method of a controller that answers a route

An action `App\Http\UserController@store` names a controller and one of its methods.  An action
without both of them, such as that of a closure, names no handler.
-/

namespace RouteDocs

open Text

/-- The method of a controller that answers a route. -/
structure Handler where
  controller : String
  method : String
deriving Repr, DecidableEq, Inhabited

namespace Handler

/-- The handler that an action names: the parts around its last `@`, neither of them empty. -/
def parse? (action : String) : Option Handler :=
  match cutLast? '@' action.toList with
  | some (c :: cs, m :: ms) => some ⟨String.ofList (c :: cs), String.ofList (m :: ms)⟩
  | _ => none

/-- The action that names the handler. -/
def action (h : Handler) : String := h.controller ++ "@" ++ h.method

/-- The name of the class among the parts of the controller, which are separated by backslashes,
slashes and points. -/
def className (controller : List Char) : List Char :=
  afterLast '.' (afterLast '\\' (controller.map fun c => if c == '/' then '\\' else c))

/-- The name of the resource that the controller is for. -/
def resourceName (h : Handler) : String :=
  String.ofList (removeAll "Controller".toList (className h.controller.toList))

end Handler

end RouteDocs
