import RouteDocs.Operation.Build
import RouteDocs.Proofs.Schema.Required

/-!
# RouteDocs.Proofs.Operation.Required — the required names of the body of an operation

The names come from the rules of the descriptor and, for a method that is sent as `POST`, from the
field that names the method.  Both are properties of the body; but the field that names the method is
added to the names without a look at them, so it stands there twice if the descriptor requires a field
of that name too.
-/

namespace RouteDocs

open Schema Shape

/-- The descriptor of a handler requires a field of the name of the one that names the method. -/
def Evidence.requiresMethodField (e : Evidence) : Bool :=
  e.descriptor?.any fun d => d.rules.any fun r => r.1 = methodField && isRequired r.2

/-! ### Object schemas -/

namespace Schema.ObjectSchema

variable {s : ObjectSchema} {verb : String}

/-- Every required name is the name of a property. -/
def Covered (s : ObjectSchema) : Prop := s.required ⊆ s.properties.map Prod.fst

theorem lookup_properties (s : ObjectSchema) :
    s.fields.lookup "properties" = some (.record s.properties) := rfl

theorem lookup_required (s : ObjectSchema) :
    s.fields.lookup "required" =
      if s.required = [] then none else some (.list (s.required.map .str)) := by
  have htail : s.fields.lookup "required" =
      (requiredField s.required ++ optionalField "example" s.example?).lookup "required" := by
    rw [fields, List.append_assoc]
    exact (lookup_cons_of_ne (by decide)).trans (lookup_cons_of_ne (by decide))
  have hexample : (optionalField "example" s.example?).lookup "required" = none := by
    cases s.example? <;> rfl
  rw [htail]
  by_cases h : s.required = []
  · rw [if_pos h, h]
    exact hexample
  · rw [if_neg h, requiredField, if_neg (by simpa using h)]
    exact List.lookup_cons_self

theorem nodup_required_withMethod :
    (s.withMethod verb).required.Nodup ↔ s.required.Nodup ∧ methodField ∉ s.required := by
  show (s.required ++ [methodField]).Nodup ↔ _
  rw [List.nodup_append_comm, List.singleton_append, List.nodup_cons, and_comm]

end Schema.ObjectSchema

/-! ### The schema of a body -/

section BodySchema

variable {s : ObjectSchema} {verb : String}

theorem bodySchema_of_tunnelled (h : isTunnelled verb = true) : bodySchema verb s = s.withMethod verb :=
  if_pos h

theorem bodySchema_of_not_tunnelled (h : ¬ isTunnelled verb = true) : bodySchema verb s = s :=
  if_neg h

/-- The field that names the method comes with a property of its name. -/
theorem covered_bodySchema (h : s.Covered) : (bodySchema verb s).Covered := by
  by_cases ht : isTunnelled verb = true
  · rw [bodySchema_of_tunnelled ht]
    intro name hname
    rw [ObjectSchema.withMethod, mem_keys_putField]
    rcases List.mem_append.mp hname with hname | hname
    · exact Or.inl (h hname)
    · exact Or.inr (List.mem_singleton.mp hname)
  · rwa [bodySchema_of_not_tunnelled ht]

theorem methodField_mem_bodySchema (h : isTunnelled verb = true) :
    methodField ∈ (bodySchema verb s).required := by
  rw [bodySchema_of_tunnelled h]
  exact List.mem_append_right _ (List.mem_singleton_self _)

/-- Names that stand once go on to stand once unless the method is named among them already. -/
theorem nodup_bodySchema_iff (h : s.required.Nodup) :
    (bodySchema verb s).required.Nodup ↔ ¬ (isTunnelled verb = true ∧ methodField ∈ s.required) := by
  by_cases ht : isTunnelled verb = true
  · rw [bodySchema_of_tunnelled ht, ObjectSchema.nodup_required_withMethod]
    simp [h, ht]
  · rw [bodySchema_of_not_tunnelled ht]
    simp [h, ht]

end BodySchema

/-! ### Operations -/

/-- The parameters of the query and the body for a method, with or without a descriptor. -/
def inputFor (verb : String) : Option Descriptor →
    Except Cause (List Parameter × Option RequestBody)
  | some d => inputOf verb d
  | none => pure (inputWithout verb)

section Operations

variable {o : BuildOptions} {r : Route} {method : String} {e : Evidence} {op : Operation}
  {b : RequestBody}

/-- An operation is made of the responses that are found in the source, the parameters of the path and
the input for the method. -/
theorem exists_parts_of_build (h : buildOperation o r method e = .ok op) :
    ∃ found query,
      responsesOf o.heuristics e.source e.descriptor?.isSome (e.descriptor?.bind (·.example?)) =
        .ok found ∧
      Operation.responsesOfValue found.toValue = .ok op.responses ∧
      inputFor (Text.uppered method) e.descriptor? = .ok (query, op.body?) ∧
      op.parameters = pathParameters r.path ++ query ∧
      op.security? = if r.requiresAuth o.authMarker then some [[(securityScheme, [])]] else none := by
  unfold buildOperation at h
  obtain ⟨found, hfound, h⟩ := bind_eq_ok_iff.mp h
  obtain ⟨responses, hresponses, h⟩ := bind_eq_ok_iff.mp h
  rw [Cause.ofChecked_eq_ok_iff, under_eq_ok_iff] at hresponses
  cases hdesc : e.descriptor? with
  | none =>
    rw [hdesc] at h hfound
    obtain ⟨⟨query, body?⟩, hinput, h⟩ := bind_eq_ok_iff.mp h
    rw [pure_eq_ok_iff.mp h]
    exact ⟨found, query, hfound, hresponses, hinput, rfl, rfl⟩
  | some d =>
    rw [hdesc] at h hfound
    obtain ⟨⟨query, body?⟩, hinput, h⟩ := bind_eq_ok_iff.mp h
    rw [pure_eq_ok_iff.mp h]
    exact ⟨found, query, hfound, hresponses, hinput, rfl, rfl⟩

/-- The body of an operation comes from the descriptor, or without one from the method alone. -/
theorem exists_input_of_build (h : buildOperation o r method e = .ok op) :
    ∃ query, inputFor (Text.uppered method) e.descriptor? = .ok (query, op.body?) :=
  let ⟨_, query, _, _, hinput, _⟩ := exists_parts_of_build h
  ⟨query, hinput⟩

/-- The required names of a compiled descriptor, as part of a schema. -/
theorem schema_of_descriptor {d : Descriptor} {body : Body} (hd : (d.rules.map Prod.fst).Nodup)
    (h : d.body = .ok body) :
    (body.schema d.example?).Covered ∧ (body.schema d.example?).required.Nodup ∧
      (methodField ∈ (body.schema d.example?).required ↔
        d.rules.any (fun r => r.1 = methodField && isRequired r.2) = true) := by
  have hc : compile d.rules = .ok body := Descriptor.body_eq_ok_iff.mp h
  refine ⟨?_, nodup_required hd hc, ?_⟩
  · rw [ObjectSchema.Covered, Body.schema, map_fst_renderProperties]
    exact required_subset_names hc
  · have hflat : isNested methodField = false := by decide
    show methodField ∈ body.required ↔ _
    rw [mem_required_iff hc]
    simp [isRequiredAtTop, hflat]

/-- The schema of a body is that of distinct required names that are all properties, with the field
that names the method added as needed. -/
theorem exists_schema_of_build (hd : ∀ d, e.descriptor? = some d → (d.rules.map Prod.fst).Nodup)
    (h : buildOperation o r method e = .ok op) (hb : op.body? = some b) :
    ∃ s : ObjectSchema, b.schema = (bodySchema (Text.uppered method) s).fields ∧ s.Covered ∧
      s.required.Nodup ∧ (methodField ∈ s.required ↔ e.requiresMethodField = true) := by
  obtain ⟨query, hinput⟩ := exists_input_of_build h
  rw [hb] at hinput
  unfold Evidence.requiresMethodField
  cases hdesc : e.descriptor? with
  | none =>
    rw [hdesc] at hinput
    have hpair := pure_eq_ok_iff.mp hinput
    unfold inputWithout at hpair
    split at hpair
    · rename_i ht
      have hbody := Option.some.inj (Prod.mk.inj hpair).2
      refine ⟨⟨[], [], none⟩, ?_, List.nil_subset _, List.nodup_nil, by simp⟩
      rw [hbody, bodySchema_of_tunnelled ht]
    · cases (Prod.mk.inj hpair).2
  | some d =>
    rw [hdesc] at hinput
    obtain ⟨body, hcompiled, hrest⟩ := bind_eq_ok_iff.mp hinput
    have hpair := pure_eq_ok_iff.mp hrest
    obtain ⟨hcovered, hnodup, hmem⟩ := schema_of_descriptor (hd d hdesc) hcompiled
    refine ⟨body.schema d.example?, ?_, hcovered, hnodup, hmem⟩
    split at hpair
    · cases (Prod.mk.inj hpair).2
    · rw [Option.some.inj (Prod.mk.inj hpair).2]

/-- **When the required names of a body stand once.**  Every required name is the name of a property,
and the field that names the method is among them for a method that is sent as `POST`.  No name is
listed twice, and the field that names the method once, exactly unless such a method comes with a
descriptor that requires a field of that name itself. -/
theorem required_names_of_build
    (hd : ∀ d, e.descriptor? = some d → (d.rules.map Prod.fst).Nodup)
    (h : buildOperation o r method e = .ok op) (hb : op.body? = some b) :
    ∃ names properties, b.schema.lookup "properties" = some (.record properties) ∧
      b.schema.lookup "required" =
        (if names = [] then none else some (.list (names.map .str))) ∧
      names ⊆ properties.map Prod.fst ∧
      (isTunnelled (Text.uppered method) = true → methodField ∈ names) ∧
      ((names.Nodup ∧ (isTunnelled (Text.uppered method) = true → names.count methodField = 1)) ↔
        ¬ (isTunnelled (Text.uppered method) = true ∧ e.requiresMethodField = true)) := by
  obtain ⟨s, hs, hcovered, hnodup, hmem⟩ := exists_schema_of_build hd h hb
  rw [hs, ← hmem]
  refine ⟨_, _, ObjectSchema.lookup_properties _, ObjectSchema.lookup_required _,
    covered_bodySchema hcovered, methodField_mem_bodySchema, ?_⟩
  rw [← nodup_bodySchema_iff hnodup]
  refine and_iff_left_of_imp fun honce ht => ?_
  exact List.count_eq_one_of_mem honce (methodField_mem_bodySchema ht)

/-- A replacement whose descriptor requires a text and an array, the latter after a field of its
items, and no field that names the method. -/
theorem required_names_of_build_order :
    ∃ op b, buildOperation {} { uri := "orders", methods := ["PUT"] } "put"
        { descriptor? := some { rules := [("lines.*.sku", .str "required"),
          ("lines", .str "required|array"), ("name", .str "required")] } } = .ok op ∧
      op.body? = some b ∧
      b.schema.lookup "required" = some (.list [.str "lines", .str "name", .str "_method"]) ∧
      ∃ names properties, b.schema.lookup "properties" = some (.record properties) ∧
        b.schema.lookup "required" =
          (if names = [] then none else some (.list (names.map .str))) ∧
        names ⊆ properties.map Prod.fst ∧ names.Nodup ∧ names.count methodField = 1 := by
  obtain ⟨op, b, hop, hb, hrequired⟩ : ∃ op b,
      buildOperation {} { uri := "orders", methods := ["PUT"] } "put"
        { descriptor? := some { rules := [("lines.*.sku", .str "required"),
          ("lines", .str "required|array"), ("name", .str "required")] } } = .ok op ∧
      op.body? = some b ∧
      b.schema.lookup "required" = some (.list [.str "lines", .str "name", .str "_method"]) :=
    ⟨_, _, rfl, rfl, rfl⟩
  have hd : ∀ d, some { rules := [("lines.*.sku", .str "required"),
      ("lines", .str "required|array"), ("name", .str "required")] } = some d →
      ((d : Descriptor).rules.map Prod.fst).Nodup := by
    intro d hdesc
    cases hdesc
    decide
  obtain ⟨names, properties, hprops, hnames, hsub, -, honce⟩ := required_names_of_build hd hop hb
  obtain ⟨hnodup, hcount⟩ := honce.mpr (by decide)
  exact ⟨op, b, hop, hb, hrequired, names, properties, hprops, hnames, hsub, hnodup,
    hcount (by decide)⟩

/-- A replacement whose descriptor requires the field that names the method: the name stands twice. -/
theorem method_field_required_twice :
    ∃ op b, buildOperation {} { uri := "api/users", methods := ["PUT"] } "PUT"
        { descriptor? := some { rules := [("_method", .str "required")] } } = .ok op ∧
      op.body? = some b ∧
      b.schema.lookup "required" = some (.list [.str "_method", .str "_method"]) :=
  ⟨_, _, rfl, rfl, rfl⟩

end Operations

end RouteDocs
