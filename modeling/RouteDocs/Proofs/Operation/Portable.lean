import RouteDocs.Proofs.Operation.Required
import RouteDocs.Proofs.Response.Statuses
import RouteDocs.Proofs.Schema.Portable

/-!
# RouteDocs.Proofs.Operation.Portable — operations are portable values

An operation shows the example of its descriptor, as a response and in the schema of its body; all else
in it is texts and schemas.  So it is a portable value if the example is (`isPortable_buildOperation`).
-/

namespace RouteDocs

open Shape Schema Yaml

/-! ### Responses -/

section Responses

variable {h : Heuristics} {code : String} {validated : Bool} {example? : Option Value}
  {found : Responses} {fields : Fields} {s : Status} {v : Value}

theorem Responses.mem_put {r : Status × Value} (hr : r ∈ found.put s v) : r ∈ found ∨ r = (s, v) := by
  induction found with
  | nil => exact .inr (List.mem_singleton.mp hr)
  | cons r' found ih =>
    obtain ⟨t, old⟩ := r'
    rw [put] at hr
    split at hr
    · rename_i ht
      rcases List.mem_cons.mp hr with hr | hr
      · exact .inr (hr.trans (by rw [ht]))
      · exact .inl (List.mem_cons_of_mem _ hr)
    · rcases List.mem_cons.mp hr with hr | hr
      · exact .inl (hr ▸ List.mem_cons_self)
      · exact (ih hr).imp (List.mem_cons_of_mem _) id

/-- A response describes a status or shows the example. -/
theorem of_mem_responsesOf (hfound : responsesOf h code validated example? = .ok found) :
    ∀ r ∈ found, (∃ text, r.2 = described text) ∨ ∃ x ∈ example?, r.2 = exampleResponse x := by
  obtain ⟨statuses, -, hfound⟩ := bind_eq_ok_iff.mp hfound
  have hdescribed : ∀ r ∈ statuses.map fun s => (s, s.response), ∃ text, r.2 = described text :=
    List.forall_mem_map.mpr fun s _ => ⟨_, rfl⟩
  have hor : ∀ (r : Status × Value) (all : Responses),
      r ∈ (if all.isEmpty then [(.text "200", described "OK")] else all) →
        r ∈ all ∨ ∃ text, r.2 = described text := by
    intro r all hr
    split at hr
    · rw [List.mem_singleton.mp hr]
      exact .inr ⟨_, rfl⟩
    · exact .inl hr
  intro r hr
  rw [pure_eq_ok_iff.mp hfound] at hr
  rcases hor r _ hr with hr | htext
  · cases example? with
    | none => exact .inl (hdescribed r hr)
    | some x =>
      dsimp only at hr
      split at hr
      · exact .inl (hdescribed r hr)
      · rcases Responses.mem_put hr with hr | rfl
        · exact .inl (hdescribed r hr)
        · exact .inr ⟨x, rfl, rfl⟩
  · exact .inl htext

theorem isPortable_described (text : String) : IsPortable (described text) := by
  simp [described, isPortable_record_iff, IsPortable]

theorem isPortable_exampleResponse (hv : IsPortable v) : IsPortable (exampleResponse v) := by
  simp [exampleResponse, isPortable_record_iff, IsPortable, hv]

/-- The responses of an operation are portable if the example is. -/
theorem isPortable_responses (hfound : responsesOf h code validated example? = .ok found)
    (hfields : Operation.responsesOfValue found.toValue = .ok fields)
    (hexample : ∀ x ∈ example?, IsPortable x) : IsPortable (.record fields) := by
  refine isPortable_record_iff.mpr ⟨nodup_keys_of_mappingOf hfields, fun f hf => ?_⟩
  obtain ⟨e, he, hvalue⟩ := exists_entry_of_mem_mappingOf hfields hf
  obtain ⟨r, hr, rfl⟩ := List.mem_map.mp he
  rcases of_mem_responsesOf hfound r hr with ⟨text, htext⟩ | ⟨x, hx, hshown⟩
  · have hsame : mappingValue (described text) = .ok (described text) := rfl
    rw [htext, hsame] at hvalue
    rw [← Except.ok.inj hvalue]
    exact isPortable_described text
  · have hsame : mappingValue (exampleResponse x) = .ok (exampleResponse x) := rfl
    rw [hshown, hsame] at hvalue
    rw [← Except.ok.inj hvalue]
    exact isPortable_exampleResponse (hexample x hx)

end Responses

/-! ### Inputs -/

section Inputs

variable {verb : String} {d? : Option Descriptor} {s : ObjectSchema} {query : List Parameter}
  {body? : Option RequestBody}

theorem isPortable_withMethod (hs : IsPortable (.record s.properties)) :
    IsPortable (.record (s.withMethod verb).properties) :=
  isPortable_putField hs (by simp [methodSchema, isPortable_record_iff, IsPortable, ArePortable])

theorem isPortable_bodySchema (hs : IsPortable (.record s.properties))
    (hexample : ∀ x ∈ s.example?, IsPortable x) :
    IsPortable (.record (bodySchema verb s).fields) := by
  unfold bodySchema
  split
  · exact isPortable_objectSchema (isPortable_withMethod hs) hexample
  · exact isPortable_objectSchema hs hexample

/-- The schemas of an input are portable if the example is. -/
theorem isPortable_inputFor (h : inputFor verb d? = .ok (query, body?))
    (hexample : ∀ x ∈ d?.bind (·.example?), IsPortable x) :
    (∀ p ∈ query, IsPortable (.record p.schema)) ∧ ∀ b ∈ body?, IsPortable (.record b.schema) := by
  cases d? with
  | none =>
    have hinput : (query, body?) = inputWithout verb := pure_eq_ok_iff.mp h
    unfold inputWithout at hinput
    split at hinput
    · cases hinput
      refine ⟨nofun, fun b hb => ?_⟩
      rw [← Option.some.inj hb]
      exact isPortable_objectSchema (isPortable_withMethod isPortable_empty) nofun
    · cases hinput
      exact ⟨nofun, nofun⟩
  | some d =>
    obtain ⟨body, hbody, hinput⟩ := bind_eq_ok_iff.mp h
    have hproperties := isPortable_compile (Descriptor.body_eq_ok_iff.mp hbody)
    have hinput := pure_eq_ok_iff.mp hinput
    split at hinput
    · cases hinput
      refine ⟨List.forall_mem_map.mpr fun property hmem => ?_, nofun⟩
      exact isPortable_recordFields ((isPortable_record_iff.mp hproperties).2 property hmem)
    · cases hinput
      refine ⟨nofun, fun b hb => ?_⟩
      rw [← Option.some.inj hb]
      exact isPortable_bodySchema hproperties hexample

end Inputs

/-! ### Operations -/

section Operations

variable {o : BuildOptions} {r : Route} {method : String} {e : Evidence} {op : Operation}

theorem isPortable_parameter {p : Parameter} (hp : IsPortable (.record p.schema)) :
    IsPortable p.toValue := by
  simp [Parameter.toValue, isPortable_record_iff, IsPortable, hp]

theorem isPortable_requestBody {b : RequestBody} (hb : IsPortable (.record b.schema)) :
    IsPortable b.toValue := by
  simp [RequestBody.toValue, isPortable_record_iff, hb]

theorem isPortable_requirement {requirement : Requirement}
    (hnames : (requirement.map Prod.fst).Nodup) : IsPortable requirement.toValue := by
  refine isPortable_record_iff.mpr ⟨?_, List.forall_mem_map.mpr fun f _ => isPortable_texts f.2⟩
  rwa [List.map_map]

/-- An operation is portable if its parts are. -/
theorem isPortable_operation (hparameters : ∀ p ∈ op.parameters, IsPortable p.toValue)
    (hresponses : IsPortable (.record op.responses)) (hbody : ∀ b ∈ op.body?, IsPortable b.toValue)
    (hsecurity : ∀ requirements ∈ op.security?, ∀ q ∈ requirements, IsPortable q.toValue) :
    IsPortable op.toValue := by
  refine isPortable_record_iff.mpr ⟨?_, fun f hf => ?_⟩
  · cases op.body? <;> cases op.security? <;> simp
  · simp only [List.mem_append, List.mem_cons, List.not_mem_nil, or_false, Option.mem_toList,
      Option.map_eq_some_iff] at hf
    obtain ((rfl | rfl | rfl | rfl) | ⟨b, hb, rfl⟩) | ⟨requirements, hr, rfl⟩ := hf
    · exact isPortable_texts _
    · trivial
    · exact isPortable_list_iff.mpr (List.forall_mem_map.mpr hparameters)
    · exact hresponses
    · exact hbody b hb
    · exact isPortable_list_iff.mpr (List.forall_mem_map.mpr (hsecurity requirements hr))

/-- The operation of a route is portable if the example of the descriptor is. -/
theorem isPortable_buildOperation (h : buildOperation o r method e = .ok op)
    (hexample : ∀ x ∈ e.descriptor?.bind (·.example?), IsPortable x) : IsPortable op.toValue := by
  obtain ⟨found, query, hfound, hresponses, hinput, hparameters, hsecurity⟩ := exists_parts_of_build h
  obtain ⟨hquery, hbody⟩ := isPortable_inputFor hinput hexample
  have hpath : ∀ p ∈ pathParameters r.path, IsPortable p.toValue := by
    have hinteger : IsPortable (.record [("type", .str "integer")]) := by
      simp [isPortable_record_iff, IsPortable]
    exact List.forall_mem_map.mpr fun _ _ => isPortable_parameter hinteger
  refine isPortable_operation ?_ (isPortable_responses hfound hresponses hexample)
    (fun b hb => isPortable_requestBody (hbody b hb)) ?_
  · rw [hparameters]
    intro p hp
    rcases List.mem_append.mp hp with hp | hp
    · exact hpath p hp
    · exact isPortable_parameter (hquery p hp)
  · rw [hsecurity]
    intro requirements hr q hq
    split at hr
    · cases hr
      rw [List.mem_singleton.mp hq]
      exact isPortable_requirement (List.nodup_singleton _)
    · cases hr

end Operations

end RouteDocs
