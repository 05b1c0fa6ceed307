import RouteDocs.Proofs.Schema.Compile

/-!
# RouteDocs.Proofs.Schema.Required — the required names of a compiled body

A field at the top has a property of its name after it has been put into the tree, even if its leaf was
refused: what is in its way then is the property.  Since no property is ever lost, every required name
of a compiled body is the name of a property, and it is listed once where every field is.
-/

namespace RouteDocs.Schema

open Properties

/-! ### Names in the tree -/

section Names

variable {ps : Properties} {name field : String} {leaf : Leaf}

theorem mem_names_iff_at? : name ∈ ps.map Prod.fst ↔ ∃ node, ps.at? [name] = some node := by
  rw [mem_names_iff_mark?, mark?, Option.isSome_map, Option.isSome_iff_exists]

/-- No name is lost. -/
theorem mem_names_resolve_of_mem (h : name ∈ ps.map Prod.fst) :
    name ∈ (resolve ps field leaf).2.map Prod.fst := by
  rcases resolve_cases ps field leaf with ⟨-, hr⟩ | ⟨-, ps', hr, hins, -⟩
  · rwa [hr]
  · rw [hr]
    by_cases hp : [name] <+: namesOf field
    · by_cases heq : [name] = namesOf field
      · rw [mem_names_iff_at?, heq]
        exact ⟨_, hins.at_end⟩
      · rw [mem_names_iff_mark?, hins.on_way [name] (List.cons_ne_nil _ _) ⟨hp, heq⟩]
        rfl
    · rw [mem_names_iff_at?, hins.elsewhere [name] hp]
      exact mem_names_iff_at?.mp h

/-- A field at the top has a property, whether or not its leaf is accepted. -/
theorem mem_names_resolve_self (h : isNested field = false) :
    field ∈ (resolve ps field leaf).2.map Prod.fst := by
  have hnames : namesOf field = [field] := names_of_not_nested h
  rw [mem_names_iff_at?]
  rcases resolve_cases ps field leaf with ⟨hb, hr⟩ | ⟨-, ps', hr, hins, -⟩
  · rw [hr]
    rw [show (FieldPath.parse field).names = [field] from hnames] at hb
    obtain ⟨node, hn, -⟩ := blocked_singleton.mp hb
    exact ⟨node, hn⟩
  · rw [hr, ← hnames]
    exact ⟨_, hins.at_end⟩

theorem mem_names_resolveAll {fields : List (String × Leaf)} {f : String × Leaf} (hf : f ∈ fields)
    (h : isNested f.1 = false) : f.1 ∈ (resolveAll fields).2.map Prod.fst := by
  induction fields using List.reverseRecOn with
  | nil => exact absurd hf List.not_mem_nil
  | append_singleton fields last ih =>
    rw [resolveAll_concat]
    rcases List.mem_append.mp hf with hf | hf
    · exact mem_names_resolve_of_mem (ih hf)
    · obtain rfl := List.mem_singleton.mp hf
      exact mem_names_resolve_self h

end Names

theorem map_fst_renderProperties (ps : Properties) :
    (renderProperties ps).map Prod.fst = ps.map Prod.fst := by
  induction ps with
  | nil => rfl
  | cons p rest ih =>
    obtain ⟨name, node⟩ := p
    rw [renderProperties, List.map_cons, List.map_cons, ih]

/-! ### Compiled bodies -/

section Compiled

variable {rules : RuleSet} {b : Body} {name : String}

/-- The required names are the required fields at the top. -/
theorem mem_required_iff (h : compile rules = .ok b) :
    name ∈ b.required ↔ ∃ spec, (name, spec) ∈ rules ∧ isRequiredAtTop (name, spec) = true := by
  obtain ⟨-, rfl⟩ := compile_eq_ok_iff.mp h
  simp [bodyOf]

/-- **Every required name of a compiled body is the name of a property.** -/
theorem required_subset_names (h : compile rules = .ok b) :
    b.required ⊆ b.properties.map Prod.fst := by
  intro name hname
  obtain ⟨spec, hr, htop⟩ := (mem_required_iff h).mp hname
  obtain ⟨hall, rfl⟩ := compile_eq_ok_iff.mp h
  obtain ⟨l, hl⟩ := hall _ hr
  have hflat : isNested name = false := by
    rw [isRequiredAtTop, Bool.and_eq_true, Bool.not_eq_true'] at htop
    exact htop.2
  have hf : (name, l) ∈ leafEntries rules := mem_leafEntries.mpr ⟨spec, hr, hl⟩
  exact mem_names_resolveAll hf hflat

theorem nodup_required (hd : (rules.map Prod.fst).Nodup) (h : compile rules = .ok b) :
    b.required.Nodup := by
  obtain ⟨-, rfl⟩ := compile_eq_ok_iff.mp h
  exact (List.filter_sublist.map Prod.fst).nodup hd

end Compiled

end RouteDocs.Schema
