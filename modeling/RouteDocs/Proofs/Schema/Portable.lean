import RouteDocs.Operation.Build
import RouteDocs.Proofs.Decimal.Range
import RouteDocs.Proofs.Document.Table
import RouteDocs.Proofs.Schema.Compile
import RouteDocs.Proofs.Yaml.Portable

/-!
# RouteDocs.Proofs.Schema.Portable — schemas are portable values

What the rules of a field say is made of texts and of numbers that were read from texts, so the schema of
a field is a portable value (`isPortable_specLeaf`).  Putting a field into the tree keeps its schema
portable (`isPortable_resolve`), and so the schema of a whole rule set is (`isPortable_compile`).
-/

namespace RouteDocs

open Shape Decimal

/-! ### Lists and records -/

namespace Yaml

variable {fields fields' : Fields} {name : String} {v : Value}

theorem isPortable_putField (h : IsPortable (.record fields)) (hv : IsPortable v) :
    IsPortable (.record (putField name v fields)) := by
  obtain ⟨hnames, hvalues⟩ := isPortable_record_iff.mp h
  refine isPortable_record_iff.mpr ⟨nodup_keys_putField hnames, fun f hf => ?_⟩
  rcases mem_putField hf with ⟨-, hvalue⟩ | hf
  · rw [hvalue]
    exact hv
  · exact hvalues f hf

/-- A portable mapping is a record. -/
theorem exists_record_of_isPortable {entries : List (Value × Value)} (h : IsPortable (.map entries)) :
    ∃ fields, .map entries = Value.record fields := by
  replace h := h.1
  induction entries with
  | nil => exact ⟨[], rfl⟩
  | cons e entries ih =>
    obtain ⟨k, v⟩ := e
    obtain ⟨⟨s, rfl⟩, -, hrest⟩ := h
    obtain ⟨fields, hfields⟩ := ih hrest
    rw [Value.map.inj hfields]
    exact ⟨(s, v) :: fields, rfl⟩

/-- The fields of a portable value are a portable record. -/
theorem isPortable_recordFields (h : IsPortable v) :
    IsPortable (.record ((recordFields? v).getD [])) := by
  cases v with
  | map entries =>
    obtain ⟨fields, hfields⟩ := exists_record_of_isPortable h
    rw [hfields] at h ⊢
    rwa [recordFields?_record]
  | _ => exact isPortable_empty

end Yaml

open Yaml

/-! ### The rules of a field -/

section Rules

variable {type : FieldType} {rules : List Rule} {c : Constraints}

theorem isPortable_readBound {t : String} {bound : Option Number} (h : readBound type t = .ok bound) :
    ∀ n ∈ bound, IsPortable n.toValue := by
  rintro n rfl
  unfold readBound at h
  dsimp only at h
  split at h
  · cases h
  · split at h
    · obtain ⟨x, -, rfl⟩ := Option.map_eq_some_iff.mp (Except.ok.inj h)
      trivial
    · cases h
  · split at h
    · rename_i i hi
      cases h
      exact decide_eq_true (natAbs_lt_of_readInt? hi)
    · cases h

theorem isPortable_lastBound {ts : List String} {bound : Option Number}
    (h : lastBound type ts = .ok bound) : ∀ n ∈ bound, IsPortable n.toValue := by
  induction ts generalizing bound with
  | nil =>
    cases h
    exact fun n hn => absurd hn (Option.not_mem_none n)
  | cons t ts ih =>
    rw [lastBound] at h
    obtain ⟨first, hfirst, h⟩ := bind_eq_ok_iff.mp h
    obtain ⟨later, hlater, h⟩ := bind_eq_ok_iff.mp h
    rw [pure_eq_ok_iff.mp h]
    cases later with
    | none => exact isPortable_readBound hfirst
    | some n => exact ih hlater

theorem isPortable_enumOf {values : List Value} (h : enumOf type rules = some values) :
    IsPortable (.list values) := by
  unfold enumOf at h
  split at h
  · cases h
    refine isPortable_list_iff.mpr ?_
    simp only [List.mem_cons, List.not_mem_nil, or_false, forall_eq_or_imp, forall_eq]
    exact ⟨isPortable_digit (by decide), isPortable_digit (by decide)⟩
  · split at h
    · cases h
    · cases h
      exact isPortable_texts _

end Rules

/-! ### Schemas of fields -/

namespace Schema

section Fields

variable {names : List String} {name : String} {v? : Option Value} {f : String × Value}

theorem keys_optionalField : ((optionalField name v?).map Prod.fst).Sublist [name] := by
  cases v? with
  | none => exact List.nil_sublist _
  | some v => exact .refl _

theorem mem_optionalField (hf : f ∈ optionalField name v?) : v? = some f.2 := by
  cases v? with
  | none => cases hf
  | some v => rw [List.mem_singleton.mp hf]

theorem keys_requiredField : ((requiredField names).map Prod.fst).Sublist ["required"] := by
  unfold requiredField
  split
  · exact List.nil_sublist _
  · exact .refl _

theorem isPortable_of_mem_requiredField (hf : f ∈ requiredField names) : IsPortable f.2 := by
  unfold requiredField at hf
  split at hf
  · cases hf
  · rw [List.mem_singleton.mp hf]
    exact isPortable_texts names

end Fields

/-- A leaf whose values and bounds are portable has a portable schema. -/
theorem isPortable_fields {l : Leaf} (henum : ∀ values ∈ l.enum, IsPortable (.list values))
    (hbounds : ∀ bound ∈ [l.minimum, l.maximum, l.minLength, l.maxLength], ∀ n ∈ bound,
      IsPortable n.toValue) : IsPortable (.record l.fields) := by
  have hbound : ∀ {bound : Option Number} {name : String} {f : String × Value},
      bound ∈ [l.minimum, l.maximum, l.minLength, l.maxLength] →
        f ∈ optionalField name (bound.map Number.toValue) → IsPortable f.2 := by
    intro bound name f hmem hf
    obtain ⟨n, hn, hvalue⟩ := Option.map_eq_some_iff.mp (mem_optionalField hf)
    rw [← hvalue]
    exact hbounds bound hmem n hn
  refine isPortable_record_iff.mpr ⟨?_, fun f hf => ?_⟩
  · have hkeys : (l.fields.map Prod.fst).Sublist
        ["type", "nullable", "enum", "minLength", "minimum", "maxLength", "maximum"] := by
      have hnullable : ((if l.nullable then [("nullable", Value.bool true)] else []).map
          Prod.fst).Sublist ["nullable"] := by
        cases l.nullable
        · exact List.nil_sublist _
        · exact .refl _
      simp only [Leaf.fields, List.map_append, List.map_cons]
      exact (((((hnullable.cons_cons _).append keys_optionalField).append keys_optionalField).append
        keys_optionalField).append keys_optionalField).append keys_optionalField
    exact List.Nodup.sublist hkeys (by decide)
  · simp only [Leaf.fields, List.mem_append, List.mem_cons] at hf
    obtain (((((rfl | hf) | hf) | hf) | hf) | hf) | hf := hf
    · trivial
    · split at hf
      · rw [List.mem_singleton.mp hf]
        trivial
      · cases hf
    · obtain ⟨values, hvalues, hvalue⟩ := Option.map_eq_some_iff.mp (mem_optionalField hf)
      rw [← hvalue]
      exact henum values hvalues
    · exact hbound (by simp) hf
    · exact hbound (by simp) hf
    · exact hbound (by simp) hf
    · exact hbound (by simp) hf

/-- The schema of a field is portable. -/
theorem isPortable_specLeaf {spec : Value} {l : Leaf} (h : specLeaf spec = .ok l) :
    IsPortable (.record l.fields) := by
  unfold specLeaf constraintsOf at h
  obtain ⟨c, hc, h⟩ := bind_eq_ok_iff.mp h
  obtain ⟨low, hlow, hc⟩ := bind_eq_ok_iff.mp hc
  obtain ⟨high, hhigh, hc⟩ := bind_eq_ok_iff.mp hc
  rw [pure_eq_ok_iff.mp h, pure_eq_ok_iff.mp hc]
  have hchosen : ∀ {p : Prop} [Decidable p] {bound : Option Number},
      (∀ n ∈ bound, IsPortable n.toValue) →
        ∀ n ∈ (if p then bound else none), IsPortable n.toValue := by
    intro p _ bound hbound n hn
    split at hn
    · exact hbound n hn
    · cases hn
  refine isPortable_fields (fun values hvalues => isPortable_enumOf hvalues) ?_
  simp only [List.mem_cons, List.not_mem_nil, or_false, forall_eq_or_imp, forall_eq]
  exact ⟨hchosen (isPortable_lastBound hlow), hchosen (isPortable_lastBound hhigh),
    hchosen (isPortable_lastBound hlow), hchosen (isPortable_lastBound hhigh)⟩

/-! ### Trees -/

section Trees

variable {ps ps' : Properties} {node : Node} {leaf : Leaf} {name : String}
  {rest required : List String}

theorem renderProperties_put (ps : Properties) (name : String) (node : Node) :
    renderProperties (ps.put name node) = putField name node.render (renderProperties ps) := by
  induction ps with
  | nil => rfl
  | cons p ps ih =>
    obtain ⟨n, old⟩ := p
    rw [Properties.put, renderProperties, putField]
    split
    · rw [renderProperties]
    · rw [renderProperties, ih]

theorem render_mem_renderProperties (h : (name, node) ∈ ps) :
    (name, node.render) ∈ renderProperties ps := by
  induction ps with
  | nil => cases h
  | cons p ps ih =>
    obtain ⟨n, old⟩ := p
    rw [renderProperties]
    rcases List.mem_cons.mp h with h | h
    · cases h
      exact List.mem_cons_self
    · exact List.mem_cons_of_mem _ (ih h)

/-- The schema of an object is portable if its properties and its example are. -/
theorem isPortable_objectSchema {s : ObjectSchema} (hproperties : IsPortable (.record s.properties))
    (hexample : ∀ x ∈ s.example?, IsPortable x) : IsPortable (.record s.fields) := by
  refine isPortable_record_iff.mpr ⟨?_, fun f hf => ?_⟩
  · have hkeys : (s.fields.map Prod.fst).Sublist ["type", "properties", "required", "example"] := by
      simp only [ObjectSchema.fields, List.map_append]
      exact ((List.Sublist.refl ["type", "properties"]).append keys_requiredField).append
        keys_optionalField
    exact List.Nodup.sublist hkeys (by decide)
  · simp only [ObjectSchema.fields, List.mem_append, List.mem_cons, List.not_mem_nil, or_false] at hf
    obtain ((rfl | rfl) | hf) | hf := hf
    · trivial
    · exact hproperties
    · exact isPortable_of_mem_requiredField hf
    · exact hexample f.2 (mem_optionalField hf)

theorem isPortable_object_iff : IsPortable (Node.object ps required).render ↔
    IsPortable (.record (renderProperties ps)) := by
  have hrender : (Node.object ps required).render =
      .record (ObjectSchema.fields ⟨renderProperties ps, required, none⟩) := by
    rw [Node.render, ObjectSchema.fields, optionalField, List.append_nil]
  rw [hrender]
  constructor
  · exact fun h => (isPortable_record_iff.mp h).2 ("properties", _) (.tail _ (.head _))
  · exact fun hps => isPortable_objectSchema hps nofun

theorem isPortable_array_iff : IsPortable (Node.array node).render ↔ IsPortable node.render := by
  rw [Node.render, isPortable_record_iff]
  constructor
  · exact fun h => h.2 ("items", _) (by simp)
  · intro hnode
    refine ⟨(by decide : ["type", "items"].Nodup), ?_⟩
    simp only [List.mem_cons, List.not_mem_nil, or_false, forall_eq_or_imp, forall_eq]
    exact ⟨trivial, hnode⟩

theorem isPortable_put (hps : IsPortable (.record (renderProperties ps)))
    (hnode : IsPortable node.render) : IsPortable (.record (renderProperties (ps.put name node))) := by
  rw [renderProperties_put]
  exact isPortable_putField hps hnode

theorem isPortable_itemFields (hps : IsPortable (.record (renderProperties ps))) (name : String) :
    IsPortable (.record (renderProperties (Node.itemFields (ps.get? name)))) := by
  unfold Node.itemFields
  split
  · rename_i inner required hn
    have hnode := (isPortable_record_iff.mp hps).2 _ (render_mem_renderProperties (mem_of_lookup hn))
    exact isPortable_object_iff.mp (isPortable_array_iff.mp hnode)
  · exact isPortable_empty

/-- A field put into the tree keeps its schema portable. -/
theorem isPortable_insertAt? (hps : IsPortable (.record (renderProperties ps)))
    (hleaf : IsPortable (.record leaf.fields)) (h : insertAt? leaf name rest ps = some ps') :
    IsPortable (.record (renderProperties ps')) := by
  induction rest generalizing name ps ps' with
  | nil =>
    rw [insertAt?] at h
    split at h
    · cases h
      exact isPortable_put hps hleaf
    · cases h
  | cons next rest ih =>
    rw [insertAt?] at h
    split at h
    · obtain ⟨inner, hinner, rfl⟩ := Option.map_eq_some_iff.mp h
      have hfields := ih (isPortable_itemFields hps name) hinner
      exact isPortable_put hps (isPortable_array_iff.mpr (isPortable_object_iff.mpr hfields))
    · cases h

theorem isPortable_resolve (hps : IsPortable (.record (renderProperties ps)))
    (hleaf : IsPortable (.record leaf.fields)) (field : String) :
    IsPortable (.record (renderProperties (resolve ps field leaf).2)) := by
  rw [resolve_eq]
  cases hinsert : insertAt? leaf (FieldPath.parse field).first (FieldPath.parse field).rest ps with
  | none => exact hps
  | some ps' => exact isPortable_insertAt? hps hleaf hinsert

end Trees

/-! ### Bodies -/

/-- The properties of a body are portable after each of its fields. -/
theorem isPortable_compile {rules : RuleSet} {b : Body} (h : compile rules = .ok b) :
    IsPortable (.record (renderProperties b.properties)) := by
  induction rules using List.reverseRecOn generalizing b with
  | nil =>
    cases h
    exact isPortable_empty
  | append_singleton rules r ih =>
    rw [compile_concat] at h
    obtain ⟨body, hbody, h⟩ := bind_eq_ok_iff.mp h
    obtain ⟨l, hl, rfl⟩ := addField_eq_ok_iff.mp h
    exact isPortable_resolve (ih hbody) (isPortable_specLeaf hl) r.1

end Schema

end RouteDocs
