import RouteDocs.Response.Basic
import RouteDocs.Route.Basic
import RouteDocs.Schema.Descriptor
import RouteDocs.Settings
import RouteDocs.Shape.Numbers
import RouteDocs.Yaml.Content

/-!
# RouteDocs.Manifest.Basic — the manifest of an application

A manifest holds settings, the route table, what is known of the handlers, named validators, and
heuristics of its own.  It is read from a file; a manifest that names unknown validators or has
malformed patterns is refused.
-/

namespace RouteDocs

open Shape

/-- The input that a handler accepts: a named validator, or a descriptor of its own. -/
inductive Validation where
  | named (name : String)
  | inline (d : Descriptor)
deriving Repr, BEq, Inhabited

/-- What a manifest says of a handler. -/
structure HandlerEntry where
  validation? : Option Validation := none
  /-- The file with the source of the handler. -/
  source? : Option String := none
  /-- The first and last line of the source, counted from one. -/
  lines? : Option (Int × Int) := none
  /-- The source itself. -/
  code? : Option String := none
deriving Repr, BEq, Inhabited

/-- The manifest of an application. -/
structure Manifest where
  app : Fields := []
  routes : List Route := []
  handlers : List (String × HandlerEntry) := []
  validators : List (String × Descriptor) := []
  heuristics : List (String × String) := []
deriving Repr, BEq, Inhabited

/-- What a handler entry says of the input. -/
def Validation.ofValue (v : Value) : Checked Validation :=
  either "str" (fun v => (text v).map .named)
    "ValidationDescriptor" (fun v => (Descriptor.ofValue v).map .inline) v

/-- A handler entry from the fields of a record. -/
def HandlerEntry.ofFields (fields : Fields) : Checked HandlerEntry :=
  both (fun (validation?, source?) (lines?, code?) => { validation?, source?, lines?, code? })
    (both Prod.mk (fieldOr "validation" none (orNull Validation.ofValue) fields)
      (fieldOr "source" none (orNull text) fields))
    (both Prod.mk (fieldOr "lines" none (orNull integerPair) fields)
      (fieldOr "code" none (orNull text) fields))

namespace Manifest

/-- A manifest from the fields of a record. -/
def ofFields (fields : Fields) : Checked Manifest :=
  both (fun (app, routes) (handlers, validators, heuristics) =>
      { app, routes, handlers, validators, heuristics })
    (both Prod.mk (fieldOr "app" [] (mappingOf anything) fields)
      (fieldOr "routes" [] (listOf Route.ofValue) fields))
    (both Prod.mk (fieldOr "handlers" [] (mappingOf (recordOf HandlerEntry.ofFields)) fields)
      (both Prod.mk (fieldOr "validators" [] (mappingOf Descriptor.ofValue) fields)
        (fieldOr "heuristics" [] (mappingOf text) fields)))

/-- The first handler entry that names a validator the manifest does not have. -/
def unknownValidator? (m : Manifest) : Option (String × String) :=
  m.handlers.findSome? fun (action, entry) =>
    match entry.validation? with
    | some (.named name) => if (m.validators.lookup name).isSome then none else some (action, name)
    | _ => none

/-- The manifest that a value describes, with heuristics that all have known names. -/
def ofValue (v : Value) : Except ManifestProblem Manifest :=
  match v with
  | .null => .ok {}
  | .map entries =>
    if entries.all fun e => e.1 matches .str _ then
      match Cause.ofChecked (recordOf ofFields v) with
      | .error c => .error (.content c)
      | .ok m => match Heuristics.ofPairs m.heuristics with
        | .error c => .error (.content c)
        | .ok _ => .ok m
    else .error (.content .nameNotText)
  | _ => .error .topLevel

/-- The heuristics of a manifest. -/
def ownHeuristics (m : Manifest) : Except Cause Heuristics := Heuristics.ofPairs m.heuristics

/-- A cause that is a problem of the manifest if it breaks the rules of its language. -/
def refuse {α : Type} (path : Path) (c : Cause) : Except Fault α :=
  if c.isSyntactic then .error (.manifest path (.content c)) else .error (.plain c)

/-- The languages of a manifest: how a text is read as a value of `α`, what manifest a value describes,
and whether a text is a pattern. -/
structure Languages (α : Type) where
  read : List Char → Except Yaml.Fault α
  describe : α → Except ManifestProblem Manifest
  compile : List Char → Except Pattern.Error Pattern

/-- The languages of this library. -/
def standard : Languages Value where
  read := Yaml.read
  describe := ofValue
  compile := Pattern.read {}

/-- The manifest in a text in the given languages. -/
def ofTextIn {α : Type} (l : Languages α) (path : Path) (s : List Char) : Except Fault Manifest :=
  match l.read s with
  | .error f => refuse path (.yaml f)
  | .ok v => match l.describe v with
    | .error problem => .error (.manifest path problem)
    | .ok m => match m.ownHeuristics.bind (Heuristics.checkWith l.compile) with
      | .error c => refuse path c
      | .ok () => match m.unknownValidator? with
        | some (action, name) => .error (.manifest path (.unknownValidator action name))
        | none => .ok m

/-- The manifest in a file in the given languages. -/
def loadIn {α : Type} (l : Languages α) (files : FileTree) (path : Path) : Except Fault Manifest :=
  if path.isUnencodable then .error (.plain .notEncodable)
  else if path.hasNul then .error (.plain .badPath)
  else match files.readText path with
    | .error issue => .error (.manifest path (.cannotRead issue))
    | .ok none => .error (.plain .notText)
    | .ok (some s) => ofTextIn l path s

/-- The manifest in a file. -/
def load (files : FileTree) (path : Path) : Except Fault Manifest := loadIn standard files path

end Manifest

end RouteDocs
