import RouteDocs.Document.Generate
import RouteDocs.Manifest.Basic

/-!
# RouteDocs.Manifest.Resolver — what a manifest says of a handler

The input of a handler is that of its entry, and its source the text of the lines that the entry
names.  The lines of a file are read once: later changes of the file do not show.
-/

namespace RouteDocs

open Text

namespace Manifest

/-- The routes whose handlers are controllers of the application and that run behind the middleware
of the interface. -/
def isDocumented (s : Settings) (r : Route) : Bool :=
  match r.handler? with
  | some h => s.controllerNamespace.toList.isPrefixOf h.controller.toList &&
      r.middleware.contains s.apiMiddleware
  | none => false

/-- The routes of an interface, in their order. -/
def documentedRoutes (s : Settings) (routes : List Route) : List Route :=
  routes.filter (isDocumented s)

/-- The entry of a handler. -/
def entry? (m : Manifest) (h : Handler) : Option HandlerEntry := m.handlers.lookup h.action

/-- The descriptor that an input of a handler stands for, or the name of a validator that the manifest
does not have. -/
def descriptorOf (m : Manifest) : Option Validation → Except String (Option Descriptor)
  | none => .ok none
  | some (.inline d) => .ok (some d)
  | some (.named name) => match m.validators.lookup name with
    | some d => .ok (some d)
    | none => .error name

/-- What the entry of a handler declares. -/
def declared (m : Manifest) (h : Handler) : Except String (Option Descriptor) :=
  m.descriptorOf ((m.entry? h).bind (·.validation?))

/-- The input that a handler accepts, if the manifest says so. -/
def validationFor (m : Manifest) (h : Handler) : Option Descriptor :=
  -- a manifest is refused for a name that is not there, so nothing is hidden here
  match m.declared h with
  | .ok d? => d?
  | .error _ => none

end Manifest

/-- The lines from `first` to `last`, counted from one.  Before the first line there are no others; a
last line below zero is counted from the end. -/
def lineSpan (first last : Int) (lines : List (List Char)) : List (List Char) :=
  let stop := if last < 0 then (lines.length + last).toNat else last.toNat
  (lines.take stop).drop (max first 1 - 1).toNat

/-- A manifest with the directory that sources are named from, and the lines of the files that were
read. -/
structure Resolver where
  manifest : Manifest
  base : Path
  read : List (Path × List (List Char)) := []

namespace Resolver

/-- The lines of a file, and the resolver that remembers them. -/
def linesOf (r : Resolver) (files : FileTree) (p : Path) :
    Except Fault (List (List Char) × Resolver) :=
  match r.read.lookup p with
  | some lines => .ok (lines, r)
  | none =>
    if p.isUnencodable then .error (.plain .notEncodable)
    else if p.hasNul then .error (.plain .badPath)
    else match files.readText p with
      | .error issue => .error (.manifest p (.cannotReadSource issue))
      | .ok none => .error (.plain .notText)
      | .ok (some s) =>
        let lines := splitLines s
        .ok (lines, { r with read := (p, lines) :: r.read })

/-- The source of a handler, and the resolver afterwards; empty if the manifest names none. -/
def sourceFor (r : Resolver) (files : FileTree) (h : Handler) : Except Fault (String × Resolver) :=
  match r.manifest.entry? h with
  | none => .ok ("", r)
  | some entry =>
    match entry.code?, entry.source? with
    | some code, _ => .ok (code, r)
    | none, none => .ok ("", r)
    | none, some source =>
      match r.linesOf files (r.base.join source) with
      | .error f => .error f
      | .ok (lines, r) =>
        let lines := match entry.lines? with
          | none => lines
          | some (first, last) => lineSpan first last lines
        .ok (String.ofList lines.flatten, r)

/-- What the manifest and the files say of a handler.  The lines that were read are not kept: the files
do not change while one document is made, so reading them again shows the same. -/
def evidence (r : Resolver) (files : FileTree) (h : Handler) : Except Fault Evidence :=
  match r.sourceFor files h with
  | .error f => .error f
  | .ok (source, _) => .ok { descriptor? := r.manifest.validationFor h, source }

end Resolver

end RouteDocs
