import RouteDocs.Document.Basic
import RouteDocs.Operation.Build
import RouteDocs.Settings

/-!
# RouteDocs.Document.Generate — the document of a route table

The routes are taken in order and the methods of each in order; methods without a document of their
own are passed over.
-/

namespace RouteDocs

/-- Looks up what is known of a handler. -/
abbrev Lookup := Handler → Except Fault Evidence

namespace Document

/-- The document without paths. -/
def ofSettings (s : Settings) : Document :=
  { title := s.title, version := s.version, serverUrl := s.serverUrl
    serverDescription := s.serverDescription }

/-- The document with the operations of a route under some methods. -/
def addMethods (o : BuildOptions) (r : Route) (e : Evidence) (d : Document) :
    (methods : List String) → Except Cause Document
  | [] => .ok d
  | method :: rest =>
    if isSkipped method then d.addMethods o r e rest
    else do
      let operation ← buildOperation o r method e
      (d.add r.path (documentMethod method) operation).addMethods o r e rest

/-- What is known of the handler of a route; nothing if it has none. -/
def evidenceOf (lookup : Lookup) (r : Route) : Except Fault Evidence :=
  match r.handler? with
  | some h => lookup h
  | none => .ok {}

/-- The document with the operations of routes. -/
def addRoutes (o : BuildOptions) (lookup : Lookup) (d : Document) :
    (routes : List Route) → Except Fault Document
  | [] => .ok d
  | r :: rest => do
    let e ← evidenceOf lookup r
    (← Fault.lift (d.addMethods o r e r.methods)).addRoutes o lookup rest

/-- The document of a route table. -/
def generate (s : Settings) (heuristics : Heuristics) (lookup : Lookup) (routes : List Route) :
    Except Fault Document :=
  (ofSettings s).addRoutes { authMarker := s.authMarker, heuristics } lookup routes

end Document

end RouteDocs
