import Mathlib.Data.List.Forall2
import Mathlib.Data.List.Induction
import Mathlib.Data.List.Nodup
import RouteDocs.Proofs.Fault
import RouteDocs.Response.Basic

/-!
# RouteDocs.Proofs.Shape.Fields — fields by name as a dictionary

Putting a value under a name changes what is found there and nothing else, keeps the place of a name
that is there and appends a new one.  Fields made from pairs have the distinct names of the pairs in
the order of their first places (`map_fst_fieldsOf`) and the last value given for each
(`lookup_fieldsOf`).  A mapping is checked entry by entry (`mappingOf_eq_ok_iff`).
-/

namespace RouteDocs

/-! ### Distinct members -/

section Distinct

variable {α : Type} [DecidableEq α]

theorem mem_distinct {xs : List α} {x : α} : x ∈ distinct xs ↔ x ∈ xs := by
  induction xs using List.reverseRecOn with
  | nil => simp [distinct]
  | append_singleton xs y ih =>
    rw [distinct_concat]
    by_cases hy : y ∈ distinct xs
    · rw [if_pos hy, ih, List.mem_append, List.mem_singleton]
      constructor
      · exact Or.inl
      · rintro (h | rfl)
        · exact h
        · exact ih.mp hy
    · rw [if_neg hy, List.mem_append, List.mem_append, ih]

theorem nodup_distinct (xs : List α) : (distinct xs).Nodup := by
  induction xs using List.reverseRecOn with
  | nil => exact List.nodup_nil
  | append_singleton xs y ih =>
    rw [distinct_concat]
    by_cases hy : y ∈ distinct xs
    · rwa [if_pos hy]
    · rw [if_neg hy]
      exact List.nodup_append.mpr ⟨ih, List.nodup_singleton y, fun a ha b hb =>
        fun hab => hy (List.mem_singleton.mp hb ▸ hab ▸ ha)⟩

end Distinct

namespace Shape

variable {α : Type} {name k : String} {v w : α} {fields : List (String × α)}

/-! ### Looking up -/

theorem mem_of_lookup (h : fields.lookup k = some w) : (k, w) ∈ fields := by
  obtain ⟨before, after, rfl, -⟩ := List.lookup_eq_some_iff.mp h
  simp

theorem exists_lookup_of_mem_keys (h : k ∈ fields.map Prod.fst) : ∃ w, fields.lookup k = some w := by
  obtain ⟨p, hp, rfl⟩ := List.mem_map.mp h
  exact Option.isSome_iff_exists.mp (List.lookup_isSome_iff.mpr ⟨p, hp, by simp⟩)

/-- Among distinct names, what is found under a name is what stands there. -/
theorem lookup_eq_some_iff_mem (hd : (fields.map Prod.fst).Nodup) :
    fields.lookup k = some w ↔ (k, w) ∈ fields := by
  refine ⟨mem_of_lookup, fun h => ?_⟩
  obtain ⟨u, hu⟩ := exists_lookup_of_mem_keys (List.mem_map_of_mem (f := Prod.fst) h)
  have hpair := List.inj_on_of_nodup_map hd h (mem_of_lookup hu) rfl
  rw [hu, (Prod.mk.inj hpair).2]

/-! ### Putting a value under a name -/

theorem lookup_cons_of_ne (h : k ≠ name) : ((name, v) :: fields).lookup k = fields.lookup k := by
  have hb : (k == name) = false := beq_eq_false_iff_ne.mpr h
  rw [List.lookup_cons, hb]

theorem lookup_putField (name : String) (v : α) (fields : List (String × α)) (k : String) :
    (putField name v fields).lookup k = if k = name then some v else fields.lookup k := by
  induction fields with
  | nil =>
    by_cases h : k = name
    · simp [putField, h]
    · rw [putField, lookup_cons_of_ne h, if_neg h]
  | cons f rest ih =>
    obtain ⟨n, old⟩ := f
    by_cases hn : n = name
    · rw [putField, if_pos hn]
      by_cases h : k = name
      · simp [h]
      · rw [lookup_cons_of_ne h, if_neg h, lookup_cons_of_ne (hn ▸ h)]
    · rw [putField, if_neg hn]
      by_cases h : k = n
      · subst h
        simp [hn]
      · rw [lookup_cons_of_ne h, lookup_cons_of_ne h, ih]

theorem map_fst_putField (name : String) (v : α) (fields : List (String × α)) :
    (putField name v fields).map Prod.fst =
      if name ∈ fields.map Prod.fst then fields.map Prod.fst else fields.map Prod.fst ++ [name] := by
  induction fields with
  | nil => simp [putField]
  | cons f rest ih =>
    obtain ⟨n, old⟩ := f
    by_cases hn : n = name
    · simp [putField, hn]
    · have hmem : name ∈ ((n, old) :: rest).map Prod.fst ↔ name ∈ rest.map Prod.fst := by
        rw [List.map_cons, List.mem_cons]
        exact or_iff_right fun h => hn h.symm
      rw [putField, if_neg hn, List.map_cons, ih]
      by_cases h : name ∈ rest.map Prod.fst
      · rw [if_pos h, if_pos (hmem.mpr h)]
        rfl
      · rw [if_neg h, if_neg (mt hmem.mp h)]
        rfl

theorem putField_of_not_mem (h : name ∉ fields.map Prod.fst) :
    putField name v fields = fields ++ [(name, v)] := by
  induction fields with
  | nil => rfl
  | cons f rest ih =>
    rw [List.map_cons, List.mem_cons, not_or] at h
    rw [putField, if_neg (Ne.symm h.1), ih h.2, List.cons_append]

theorem mem_keys_putField :
    k ∈ (putField name v fields).map Prod.fst ↔ k ∈ fields.map Prod.fst ∨ k = name := by
  rw [map_fst_putField]
  split
  · refine ⟨Or.inl, ?_⟩
    rintro (h | rfl)
    · exact h
    · assumption
  · rw [List.mem_append, List.mem_singleton]

theorem nodup_keys_putField (hd : (fields.map Prod.fst).Nodup) :
    ((putField name v fields).map Prod.fst).Nodup := by
  rw [map_fst_putField]
  split
  · exact hd
  · rename_i h
    exact List.nodup_append.mpr ⟨hd, List.nodup_singleton name, fun a ha b hb =>
      fun hab => h (List.mem_singleton.mp hb ▸ hab ▸ ha)⟩

theorem mem_putField (h : (k, w) ∈ putField name v fields) :
    (k = name ∧ w = v) ∨ (k, w) ∈ fields := by
  induction fields with
  | nil => exact Or.inl (by simpa [putField] using h)
  | cons f rest ih =>
    obtain ⟨n, old⟩ := f
    by_cases hn : n = name
    · rw [putField, if_pos hn] at h
      rcases List.mem_cons.mp h with h | h
      · exact Or.inl (Prod.mk.inj h)
      · exact Or.inr (List.mem_cons_of_mem _ h)
    · rw [putField, if_neg hn] at h
      rcases List.mem_cons.mp h with h | h
      · exact Or.inr (h ▸ List.mem_cons_self)
      · exact (ih h).imp id (List.mem_cons_of_mem _)

/-! ### Fields from pairs -/

theorem fieldsOf_concat (pairs : List (String × α)) (p : String × α) :
    fieldsOf (pairs ++ [p]) = putField p.1 p.2 (fieldsOf pairs) := by
  simp [fieldsOf, List.foldl_append]

theorem map_fst_fieldsOf (pairs : List (String × α)) :
    (fieldsOf pairs).map Prod.fst = distinct (pairs.map Prod.fst) := by
  induction pairs using List.reverseRecOn with
  | nil => rfl
  | append_singleton pairs p ih =>
    rw [fieldsOf_concat, map_fst_putField, ih, List.map_append, List.map_singleton, distinct_concat]

theorem nodup_keys_of_mappingOf {check : Value → Checked α} {x : Value}
    (h : mappingOf check x = .ok fields) : (fields.map Prod.fst).Nodup := by
  unfold mappingOf at h
  split at h
  · split at h
    · cases h
      rw [map_fst_fieldsOf]
      exact nodup_distinct _
    · cases h
  · cases h

/-- A mapping in a field that may be missing has distinct names. -/
theorem nodup_keys_of_fieldOr {check : Value → Checked α} {given : Fields}
    (h : fieldOr name [] (mappingOf check) given = .ok fields) : (fields.map Prod.fst).Nodup := by
  unfold fieldOr at h
  split at h
  · cases h
    exact List.nodup_nil
  · exact nodup_keys_of_mappingOf (under_eq_ok_iff.mp h)

/-- The last value given for a name wins. -/
theorem lookup_fieldsOf (pairs : List (String × α)) (k : String) :
    (fieldsOf pairs).lookup k = (pairs.filter (·.1 = k)).getLast?.map Prod.snd := by
  induction pairs using List.reverseRecOn with
  | nil => rfl
  | append_singleton pairs p ih =>
    rw [fieldsOf_concat, lookup_putField, List.filter_append]
    by_cases h : k = p.1
    · simp [h]
    · have h' : ¬ p.1 = k := fun hp => h hp.symm
      simp [h, h', ih]

/-- What stands among fields made from a list comes from the last member with its name. -/
theorem exists_last_of_mem_fieldsOf {β : Type} {name : β → String} {value : β → α} {xs : List β}
    (h : (k, w) ∈ fieldsOf (xs.map fun x => (name x, value x))) :
    ∃ x, (xs.filter (name · = k)).getLast? = some x ∧ value x = w := by
  have hnodup := nodup_distinct ((xs.map fun x => (name x, value x)).map Prod.fst)
  rw [← map_fst_fieldsOf] at hnodup
  have hlast := (lookup_eq_some_iff_mem hnodup).mpr h
  rw [lookup_fieldsOf, List.filter_map, List.getLast?_map, Option.map_map] at hlast
  exact Option.map_eq_some_iff.mp hlast

/-! ### Entries of a mapping -/

theorem all_eq_ok_iff {checks : List (Checked α)} {xs : List α} :
    all checks = .ok xs ↔ List.Forall₂ (fun c x => c = .ok x) checks xs := by
  induction checks generalizing xs with
  | nil => simp [all, eq_comm]
  | cons c rest ih =>
    rw [all, both_eq_ok_iff]
    constructor
    · rintro ⟨x, others, hc, hrest, rfl⟩
      exact .cons hc (ih.mp hrest)
    · rintro (_ | ⟨hc, hrest⟩)
      exact ⟨_, _, hc, ih.mpr hrest, rfl⟩

theorem entryOf_eq_ok_iff {check : Value → Checked α} {entry : Value × Value} {p : String × α} :
    entryOf check entry = .ok p ↔ text entry.1 = .ok p.1 ∧ check entry.2 = .ok p.2 := by
  unfold entryOf
  rw [both_eq_ok_iff]
  simp only [under_eq_ok_iff]
  constructor
  · rintro ⟨_, _, hk, hv, rfl⟩
    exact ⟨hk, hv⟩
  · exact fun ⟨hk, hv⟩ => ⟨_, _, hk, hv, rfl⟩

/-- A mapping passes when each entry does, the key as a text. -/
theorem mappingOf_eq_ok_iff {check : Value → Checked α} {entries : List (Value × Value)} :
    mappingOf check (.map entries) = .ok fields ↔
      ∃ pairs, List.Forall₂ (fun entry p => text entry.1 = .ok p.1 ∧ check entry.2 = .ok p.2)
        entries pairs ∧ fieldsOf pairs = fields := by
  have hall : ∀ pairs, all (entries.map (entryOf check)) = .ok pairs ↔
      List.Forall₂ (fun entry p => text entry.1 = .ok p.1 ∧ check entry.2 = .ok p.2) entries
        pairs := fun pairs => by
    rw [all_eq_ok_iff, List.forall₂_map_left_iff]
    simp only [entryOf_eq_ok_iff]
  simp only [← hall, mappingOf]
  cases all (entries.map (entryOf check)) <;> simp

/-- What stands in a mapping that passed comes from one of its entries. -/
theorem exists_entry_of_mem_mappingOf {check : Value → Checked α} {entries : List (Value × Value)}
    (h : mappingOf check (.map entries) = .ok fields) {f : String × α} (hf : f ∈ fields) :
    ∃ e ∈ entries, check e.2 = .ok f.2 := by
  obtain ⟨pairs, hpairs, rfl⟩ := mappingOf_eq_ok_iff.mp h
  have hmem : (f.1, f.2) ∈ fieldsOf (pairs.map fun p => (p.1, p.2)) := by simpa using hf
  obtain ⟨p, hlast, hvalue⟩ := exists_last_of_mem_fieldsOf hmem
  have hp := List.mem_of_mem_filter (List.mem_of_getLast? hlast)
  rw [← hvalue]
  clear h hf hmem hlast
  induction hpairs with
  | nil => cases hp
  | cons hentry _ ih =>
    rcases List.mem_cons.mp hp with rfl | hp
    · exact ⟨_, List.mem_cons_self, hentry.2⟩
    · obtain ⟨e, he, hcheck⟩ := ih hp
      exact ⟨e, List.mem_cons_of_mem _ he, hcheck⟩

end Shape

end RouteDocs
