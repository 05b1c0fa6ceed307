import RouteDocs.Manifest.Resolver
import RouteDocs.Proofs.Manifest.Written
import RouteDocs.Proofs.Route.Handler
import RouteDocs.Proofs.Shape.Fields

/-!
# RouteDocs.Proofs.Manifest.Declared — the input that a manifest declares for a handler

A handler is found under the action that names it, since cutting an action at its last `@` and joining
the parts again gives it back (`Handler.action_of_parse?`).  What a manifest declares for an action is
said entry by entry (`Manifest.Declares`).  In a manifest whose names are distinct and whose handlers
name validators that are there, as in every manifest that is loaded, this is what is looked up, and
looking it up does not fail (`Manifest.Sound.declared_eq_ok_iff`, `Manifest.Sound.exists_declared`).
-/

namespace RouteDocs

open Text

namespace Manifest

variable {m : Manifest} {h : Handler} {action : String} {d? : Option Descriptor}

/-! ### What an entry declares -/

/-- What a manifest declares for an action: nothing if it has no entry under the action or the entry
gives no input, else the descriptor in the entry or the one under the name that it gives. -/
inductive Declares (m : Manifest) (action : String) : Option Descriptor → Prop
  | noEntry (hnone : ∀ e ∈ m.handlers, e.1 ≠ action) : Declares m action none
  | noInput {entry : HandlerEntry} (hentry : (action, entry) ∈ m.handlers)
      (hinput : entry.validation? = none) : Declares m action none
  | inline {entry : HandlerEntry} {d : Descriptor} (hentry : (action, entry) ∈ m.handlers)
      (hinput : entry.validation? = some (.inline d)) : Declares m action (some d)
  | named {entry : HandlerEntry} {name : String} {d : Descriptor}
      (hentry : (action, entry) ∈ m.handlers)
      (hinput : entry.validation? = some (.named name)) (hd : (name, d) ∈ m.validators) :
      Declares m action (some d)

/-- A manifest with one entry for each name, in which every validator that a handler names is there. -/
structure Sound (m : Manifest) : Prop where
  handlers : (m.handlers.map Prod.fst).Nodup
  validators : (m.validators.map Prod.fst).Nodup
  known : m.unknownValidator? = none

/-- Every validator that a handler names is there, if none is unknown. -/
theorem exists_validator (hm : m.unknownValidator? = none) {entry : HandlerEntry}
    (hentry : m.entry? h = some entry) {name : String}
    (hname : entry.validation? = some (.named name)) : ∃ d, (name, d) ∈ m.validators := by
  have hmem : (h.action, entry) ∈ m.handlers := Shape.mem_of_lookup hentry
  have hknown := List.findSome?_eq_none_iff.mp hm _ hmem
  simp only [hname] at hknown
  cases hlookup : m.validators.lookup name with
  | none =>
    rw [hlookup] at hknown
    cases hknown
  | some d => exact ⟨d, Shape.mem_of_lookup hlookup⟩

theorem validationFor_of_declared (hd : m.declared h = .ok d?) : m.validationFor h = d? := by
  rw [validationFor, hd]

theorem declared_of_noEntry (hentry : m.entry? h = none) : m.declared h = .ok none := by
  rw [declared, hentry, Option.bind_none, descriptorOf]

theorem declared_of_entry {entry : HandlerEntry} (hentry : m.entry? h = some entry) :
    m.declared h = m.descriptorOf entry.validation? := by
  rw [declared, hentry, Option.bind_some]

/-- A name stands for what is found under it, if anything is. -/
theorem descriptorOf_named {name : String} :
    m.descriptorOf (some (.named name)) = .ok d? ↔ ∃ d, m.validators.lookup name = some d ∧ d? = d := by
  rw [descriptorOf]
  cases m.validators.lookup name <;> simp [eq_comm]

theorem Declares.of_declared (hd : m.declared h = .ok d?) : m.Declares h.action d? := by
  cases hentry : m.entry? h with
  | none =>
    rw [declared_of_noEntry hentry] at hd
    obtain rfl : none = d? := Except.ok.inj hd
    exact .noEntry fun e he heq =>
      bne_iff_ne.mp (List.lookup_eq_none_iff.mp hentry e he) heq.symm
  | some entry =>
    have hmem : (h.action, entry) ∈ m.handlers := Shape.mem_of_lookup hentry
    rw [declared_of_entry hentry] at hd
    cases hinput : entry.validation? with
    | none =>
      rw [hinput, descriptorOf] at hd
      obtain rfl : none = d? := Except.ok.inj hd
      exact .noInput hmem hinput
    | some v =>
      rw [hinput] at hd
      cases v with
      | inline d =>
        rw [descriptorOf] at hd
        obtain rfl : some d = d? := Except.ok.inj hd
        exact .inline hmem hinput
      | named name =>
        obtain ⟨d, hlookup, rfl⟩ := descriptorOf_named.mp hd
        exact .named hmem hinput (Shape.mem_of_lookup hlookup)

namespace Sound

theorem entry?_of_mem (hm : m.Sound) {entry : HandlerEntry} (he : (h.action, entry) ∈ m.handlers) :
    m.entry? h = some entry :=
  (Shape.lookup_eq_some_iff_mem hm.handlers).mpr he

theorem descriptorOf_of_mem (hm : m.Sound) {name : String} {d : Descriptor}
    (hd : (name, d) ∈ m.validators) : m.descriptorOf (some (.named name)) = .ok (some d) :=
  descriptorOf_named.mpr ⟨d, (Shape.lookup_eq_some_iff_mem hm.validators).mpr hd, rfl⟩

/-- Looking up the input of a handler does not fail. -/
theorem exists_declared (hm : m.Sound) (h : Handler) : ∃ d?, m.declared h = .ok d? := by
  cases hentry : m.entry? h with
  | none => exact ⟨none, declared_of_noEntry hentry⟩
  | some entry =>
    rw [declared_of_entry hentry]
    cases hinput : entry.validation? with
    | none => exact ⟨none, rfl⟩
    | some v =>
      cases v with
      | inline d => exact ⟨some d, rfl⟩
      | named name =>
        obtain ⟨d, hd⟩ := exists_validator hm.known hentry hinput
        exact ⟨some d, hm.descriptorOf_of_mem hd⟩

/-- What is looked up is what is declared. -/
theorem declared_eq_ok_iff (hm : m.Sound) : m.declared h = .ok d? ↔ m.Declares h.action d? := by
  refine ⟨.of_declared, fun hdeclares => ?_⟩
  cases hdeclares with
  | noEntry hnone =>
    exact declared_of_noEntry
      (List.lookup_eq_none_iff.mpr fun e he => bne_iff_ne.mpr (hnone e he).symm)
  | noInput he hinput => rw [declared_of_entry (hm.entry?_of_mem he), hinput, descriptorOf]
  | inline he hinput => rw [declared_of_entry (hm.entry?_of_mem he), hinput, descriptorOf]
  | named he hinput hd =>
    rw [declared_of_entry (hm.entry?_of_mem he), hinput, hm.descriptorOf_of_mem hd]

end Sound

/-! ### Manifests that are loaded -/

/-- The names of handlers are distinct, and those of validators, since a mapping keeps one value for
each name. -/
theorem nodup_keys_of_ofFields {fields : Shape.Fields} (h : ofFields fields = .ok m) :
    (m.handlers.map Prod.fst).Nodup ∧ (m.validators.map Prod.fst).Nodup := by
  unfold ofFields at h
  obtain ⟨_, ⟨handlers, validators, heuristics⟩, -, hrest, rfl⟩ := Shape.both_eq_ok_iff.mp h
  obtain ⟨_, _, hhandlers, hrest, hpair⟩ := Shape.both_eq_ok_iff.mp hrest
  obtain ⟨rfl, rfl⟩ := Prod.mk.inj hpair
  obtain ⟨_, _, hvalidators, -, hpair⟩ := Shape.both_eq_ok_iff.mp hrest
  obtain ⟨rfl, rfl⟩ := Prod.mk.inj hpair
  exact ⟨Shape.nodup_keys_of_fieldOr hhandlers, Shape.nodup_keys_of_fieldOr hvalidators⟩

theorem sound_of_load {files : FileTree} {path : Path} (h : load files path = .ok m) : m.Sound := by
  obtain ⟨-, s, -, htext⟩ := loadIn_eq_ok_iff.mp h
  obtain ⟨⟨v, -, hvalue⟩, -, hknown⟩ := ofTextIn_eq_ok_iff.mp htext
  obtain rfl | ⟨fields, -, -, hfields, -⟩ := ofValue_cases hvalue
  · exact ⟨List.nodup_nil, List.nodup_nil, hknown⟩
  · obtain ⟨hhandlers, hvalidators⟩ := nodup_keys_of_ofFields hfields
    exact ⟨hhandlers, hvalidators, hknown⟩

/-- **What a handler accepts is what its action declares.**  In a manifest that is loaded, the handler
of a route is looked up under the action of the route itself; this does not fail, and what is found is
what the manifest declares for the action, and nothing else is declared for it. -/
theorem declared_of_load {files : FileTree} {path : Path} (hm : load files path = .ok m) {r : Route}
    (hh : r.handler? = some h) :
    h.action = r.action ∧ ∃ d?, m.declared h = .ok d? ∧ m.validationFor h = d? ∧
      ∀ d?', m.Declares r.action d?' ↔ d?' = d? := by
  have haction : h.action = r.action := Handler.action_of_parse? hh
  have hsound : m.Sound := sound_of_load hm
  obtain ⟨d?, hd⟩ := hsound.exists_declared h
  refine ⟨haction, d?, hd, validationFor_of_declared hd, fun d?' => ?_⟩
  rw [← haction, ← hsound.declared_eq_ok_iff, hd]
  exact ⟨fun heq => (Except.ok.inj heq).symm, fun heq => congrArg _ heq.symm⟩

/-- A route to a controller with an `@` in its name, whose input is a validator. -/
def namedManifest : Manifest where
  routes := [{ uri := "a", methods := ["PUT"], action := "A@b@c" }]
  handlers := [("A@b@c", { validation? := some (.named "In") })]
  validators := [("In", { rules := [("name", .str "required")] })]

/-- The text of that manifest. -/
def namedText : String :=
  "routes:\n- uri: a\n  methods:\n  - PUT\n  action: A@b@c\n" ++
    "handlers:\n  A@b@c:\n    validation: In\nvalidators:\n  In:\n    rules:\n      name: required\n"

/-- What the text says. -/
def namedRecord : List (String × Value) :=
  [("routes", .list [.record [("uri", .str "a"), ("methods", .list [.str "PUT"]),
      ("action", .str "A@b@c")]]),
    ("handlers", .record [("A@b@c", .record [("validation", .str "In")])]),
    ("validators", .record [("In", .record [("rules", .record [("name", .str "required")])])])]

theorem load_namedText : load (onlyManifest namedText) manifestPath = .ok namedManifest := by
  have htext : unifyLineEnds namedText.toList = Yaml.documentText (.record namedRecord) := by
    decide +kernel
  have hportable : Yaml.IsPortable (.record namedRecord) := by
    simp [namedRecord, Yaml.isPortable_record_iff, Yaml.IsPortable, Yaml.ArePortable]
  exact load_of_written rfl htext hportable (by decide +kernel) rfl ⟨{}, rfl, rfl⟩ rfl

/-- What is declared for its action are the rules under the name. -/
theorem declared_of_load_named :
    let d : Descriptor := { rules := [("name", .str "required")] }
    load (onlyManifest namedText) manifestPath = .ok namedManifest ∧
      (∀ r ∈ namedManifest.routes, r.handler? = some ⟨"A@b", "c"⟩) ∧
      namedManifest.Declares "A@b@c" (some d) ∧
      namedManifest.declared ⟨"A@b", "c"⟩ = .ok (some d) ∧
      namedManifest.validationFor ⟨"A@b", "c"⟩ = some d := by
  intro d
  have hroutes : ∀ r ∈ namedManifest.routes, r.handler? = some ⟨"A@b", "c"⟩ := by
    simp only [namedManifest, List.mem_singleton, forall_eq]
    rfl
  have hdeclares : namedManifest.Declares "A@b@c" (some d) :=
    .named List.mem_cons_self rfl List.mem_cons_self
  obtain ⟨-, d?, hdeclared, hfor, hiff⟩ :=
    declared_of_load load_namedText (hroutes _ List.mem_cons_self)
  obtain rfl : some d = d? := (hiff (some d)).mp hdeclares
  exact ⟨load_namedText, hroutes, hdeclares, hdeclared, hfor⟩

end Manifest

end RouteDocs
