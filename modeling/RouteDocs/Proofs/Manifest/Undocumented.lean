import RouteDocs.Proofs.CommandLine.Listing
import RouteDocs.Proofs.Interspersed
import RouteDocs.Proofs.Manifest.Declared

/-!
# RouteDocs.Proofs.Manifest.Undocumented — entries that leave no trace in the document

A manifest may be padded with routes that are not documented, with entries for handlers of no
documented route, and with validators under new names.  The document of the padded manifest is the
document of the manifest itself, or both fail with one fault (`documentOf_eq_of_padded`): the routes
that are left are the same, and what a handler of one of them is looked up for is found under its own
action, whose entry names a validator that was there before.
-/

namespace RouteDocs

open Text

namespace Manifest

variable {m m' : Manifest} {s : Settings}

/-- A manifest with entries added that have no part in the document: routes that are not documented,
entries for the handlers of no documented route, and validators under new names. -/
structure Padded (s : Settings) (m m' : Manifest) : Prop where
  app : m'.app = m.app
  heuristics : m'.heuristics = m.heuristics
  routes : Interspersed (fun r => isDocumented s r = false) m.routes m'.routes
  handlers : Interspersed (fun e => ∀ r ∈ documentedRoutes s m.routes, r.action ≠ e.1)
    m.handlers m'.handlers
  validators : Interspersed (fun v => ∀ w ∈ m.validators, w.1 ≠ v.1) m.validators m'.validators

theorem Padded.documentedRoutes_eq (h : Padded s m m') :
    documentedRoutes s m'.routes = documentedRoutes s m.routes :=
  h.routes.filter_eq fun _ hr => hr

/-- A handler of a documented route has the entry that it had. -/
theorem Padded.entry?_eq (hpad : Padded s m m') {r : Route} (hr : r ∈ documentedRoutes s m.routes)
    {h : Handler} (hh : r.handler? = some h) : m'.entry? h = m.entry? h := by
  have haction : h.action = r.action := Handler.action_of_parse? hh
  exact hpad.handlers.lookup_eq fun e he heq => he r hr (haction ▸ heq.symm)

/-- A handler of a documented route is declared the input that it was. -/
theorem Padded.declared_eq (hpad : Padded s m m') (hm : m.unknownValidator? = none) {r : Route}
    (hr : r ∈ documentedRoutes s m.routes) {h : Handler} (hh : r.handler? = some h) :
    m'.declared h = m.declared h := by
  rw [declared, declared, hpad.entry?_eq hr hh]
  cases hentry : m.entry? h with
  | none => rfl
  | some entry =>
    rw [Option.bind_some]
    cases hv : entry.validation? with
    | none => rfl
    | some v =>
      cases v with
      | inline d => rfl
      | named name =>
        obtain ⟨d, hd⟩ := exists_validator hm hentry hv
        rw [descriptorOf, descriptorOf,
          hpad.validators.lookup_eq fun v hv heq => hv (name, d) hd heq.symm]

end Manifest

/-! ### What is known of a handler -/

section Evidence

variable {m m' : Manifest} {base : Path} {read : List (Path × List (List Char))}
  {files : FileTree} {h : Handler}

/-- The lines of a file do not depend on the manifest. -/
theorem Resolver.linesOf_agree (m m' : Manifest) (base : Path) (read : List (Path × List (List Char)))
    (files : FileTree) (p : Path) :
    Agree (fun a b => a.1 = b.1) (Resolver.linesOf ⟨m, base, read⟩ files p)
      (Resolver.linesOf ⟨m', base, read⟩ files p) := by
  simp only [linesOf]
  cases read.lookup p with
  | some lines => exact .ok rfl
  | none =>
    refine Agree.ite (fun _ => .error _) fun _ => Agree.ite (fun _ => .error _) fun _ => ?_
    cases files.readText p with
    | error issue => exact .error _
    | ok t? =>
      cases t? with
      | none => exact .error _
      | some t => exact .ok rfl

theorem Resolver.sourceFor_agree (base : Path) (read : List (Path × List (List Char)))
    (files : FileTree) (hentry : m'.entry? h = m.entry? h) :
    Agree (fun a b => a.1 = b.1) (Resolver.sourceFor ⟨m', base, read⟩ files h)
      (Resolver.sourceFor ⟨m, base, read⟩ files h) := by
  simp only [sourceFor, hentry]
  cases m.entry? h with
  | none => exact .ok rfl
  | some entry =>
    dsimp only
    cases entry.code? with
    | some code => exact .ok rfl
    | none =>
      cases entry.source? with
      | none => exact .ok rfl
      | some source =>
        have hlines := linesOf_agree m' m base read files (base.join source)
        rcases hlines.error_or_ok with ⟨f, hf, hf'⟩ | ⟨a, b, ha, hb, hab⟩
        · simp only [hf, hf']
          exact .error f
        · simp only [ha, hb, hab]
          exact .ok rfl

theorem Resolver.evidence_eq (hentry : m'.entry? h = m.entry? h)
    (hvalidation : m'.validationFor h = m.validationFor h) :
    Resolver.evidence ⟨m', base, read⟩ files h = Resolver.evidence ⟨m, base, read⟩ files h := by
  have hsource := sourceFor_agree base read files hentry
  rw [evidence, evidence, hvalidation]
  rcases hsource.error_or_ok with ⟨f, hf, hf'⟩ | ⟨a, b, ha, hb, hab⟩
  · rw [hf, hf']
  · simp only [ha, hb, hab]

/-- A document depends on what is known of the handlers of its own routes only. -/
theorem Document.addRoutes_congr {o : BuildOptions} {lookup lookup' : Lookup} {routes : List Route}
    (hrs : ∀ r ∈ routes, evidenceOf lookup' r = evidenceOf lookup r) (d : Document) :
    d.addRoutes o lookup' routes = d.addRoutes o lookup routes := by
  induction routes generalizing d with
  | nil => rfl
  | cons r rest ih =>
    have hrest := ih fun r' hr' => hrs r' (List.mem_cons_of_mem r hr')
    simp only [addRoutes, hrs r List.mem_cons_self, hrest]

end Evidence

/-- **Undocumented entries leave no trace.**  Whatever routes that are not documented, handlers of no
documented route and validators under new names are added to a manifest that is accepted, the document
of the routes that are documented is the same, or is not made for the same reason. -/
theorem documentOf_eq_of_padded {place files : FileTree} {path base : Path} {s : Settings}
    {m m' : Manifest} (hm : Manifest.load place path = .ok m) (hpad : Manifest.Padded s m m') :
    CommandLine.documentOf files base ⟨m', s, Manifest.documentedRoutes s m'.routes⟩ =
      CommandLine.documentOf files base ⟨m, s, Manifest.documentedRoutes s m.routes⟩ := by
  obtain ⟨-, text, -, htext⟩ := Manifest.loadIn_eq_ok_iff.mp hm
  obtain ⟨-, -, hknown⟩ := Manifest.ofTextIn_eq_ok_iff.mp htext
  have hheuristics : m'.ownHeuristics = m.ownHeuristics := by
    rw [Manifest.ownHeuristics, Manifest.ownHeuristics, hpad.heuristics]
  rw [hpad.documentedRoutes_eq]
  simp only [CommandLine.documentOf, hheuristics]
  refine congrArg (Fault.lift m.ownHeuristics >>= ·) (funext fun heuristics => ?_)
  refine Document.addRoutes_congr (fun r hr => ?_) _
  unfold Document.evidenceOf
  cases hh : r.handler? with
  | none => rfl
  | some h =>
    have hdeclared := hpad.declared_eq hknown hr hh
    exact Resolver.evidence_eq (hpad.entry?_eq hr hh)
      (by rw [Manifest.validationFor, Manifest.validationFor, hdeclared])

/-- A manifest of one route, padded with a closure before it, an old handler whose source is missing,
and a validator that nothing names. -/
theorem documentOf_eq_of_padded_get :
    let m : Manifest := { routes := [CommandLine.pingRoute "GET"] }
    let m' : Manifest := {
      routes := [{ uri := "up", methods := ["GET"], action := "Closure" }, CommandLine.pingRoute "GET"]
      handlers := [("App\\Http\\Controllers\\Ping@old", { source? := some "old.php" })]
      validators := [("spare", {})] }
    let files := onlyManifest CommandLine.getManifest
    Manifest.load files manifestPath = .ok m ∧ Manifest.Padded {} m m' ∧
      CommandLine.documentOf files .here ⟨m', {}, Manifest.documentedRoutes {} m'.routes⟩ =
        CommandLine.documentOf files .here ⟨m, {}, Manifest.documentedRoutes {} m.routes⟩ := by
  intro m m' files
  have hload : Manifest.load files manifestPath = .ok m := CommandLine.load_getManifest
  have hpad : Manifest.Padded {} m m' := by
    refine ⟨rfl, rfl, .add _ (by decide +kernel) (.keep _ .nil), .add _ (fun r hr => ?_) .nil, .add _ ?_ .nil⟩
    · obtain rfl := List.mem_singleton.mp (List.mem_of_mem_filter hr)
      decide
    · exact fun w hw => absurd hw List.not_mem_nil
  exact ⟨hload, hpad, documentOf_eq_of_padded hload hpad⟩

end RouteDocs
