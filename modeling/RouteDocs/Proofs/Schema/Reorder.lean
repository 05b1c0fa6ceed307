import RouteDocs.Proofs.Schema.Compile

/-!
# RouteDocs.Proofs.Schema.Reorder — the order of the fields of a rule set

In a rule set without conflicts every field that no other field goes on from is accepted, in whatever
order the fields come; so what stands at a path can be read off the fields themselves
(`standing_accepted_iff`), and reordering the rule set changes its body in the order of keys at most.
-/

namespace RouteDocs.Schema

/-! ### Fields without conflicts -/

/-- Above a field there are arrays only. -/
def LeavesAgree (fields : List (String × Leaf)) : Prop :=
  ∀ f ∈ fields, ∀ g ∈ fields, StrictPrefix (namesOf f.1) (namesOf g.1) → f.2.type = .array

section Agree

variable {fields fields' : List (String × Leaf)} {path : List String} {m : Mark}

theorem accepted_subset_concat (fields : List (String × Leaf)) (f : String × Leaf) :
    accepted fields ⊆ accepted (fields ++ [f]) := by
  rw [accepted_concat, accept]
  split
  · exact List.subset_append_left _ _
  · exact List.Subset.refl _

/-- Only a field that goes on from it can keep a field from being accepted. -/
theorem mem_accepted_or_extended (h : LeavesAgree fields) {f : String × Leaf} (hf : f ∈ fields) :
    f ∈ accepted fields ∨ ∃ g ∈ accepted fields, StrictPrefix (namesOf f.1) (namesOf g.1) := by
  induction fields using List.reverseRecOn with
  | nil => exact absurd hf List.not_mem_nil
  | append_singleton fields last ih =>
    have hsub := accepted_subset_concat fields last
    rcases List.mem_append.mp hf with hf' | hf'
    · have hagree : LeavesAgree fields := fun a ha b hb =>
        h a (List.mem_append_left _ ha) b (List.mem_append_left _ hb)
      rcases ih hagree hf' with hacc | ⟨g, hg, hpre⟩
      · exact Or.inl (hsub hacc)
      · exact Or.inr ⟨g, hsub hg, hpre⟩
    · obtain rfl := List.mem_singleton.mp hf'
      by_cases hadm : Admits (accepted fields) f.1
      · left
        rw [accepted_concat, accept, if_pos hadm]
        simp
      · right
        have habove : ∀ g ∈ accepted fields,
            StrictPrefix (namesOf g.1) (namesOf f.1) → g.2.type = .array := fun g hg =>
          h g (List.mem_append_left _ (accepted_subset fields hg)) f hf
        rw [Admits, not_and] at hadm
        have hbelow := hadm habove
        push Not at hbelow
        obtain ⟨g, hg, hpre⟩ := hbelow
        exact ⟨g, hsub hg, hpre⟩

/-- Where fields agree, what stands is what would stand if all were accepted. -/
theorem standing_accepted_iff (h : LeavesAgree fields) :
    Standing (accepted fields) path m ↔ Standing fields path m := by
  constructor
  · rintro (⟨f, hf, rfl, hend⟩ | ⟨f, hf, hne, hpre⟩)
    · refine .leaf f (accepted_subset fields hf) rfl fun g hg hpre => ?_
      rcases mem_accepted_or_extended h hg with hg | ⟨k, hk, hgk⟩
      · exact hend g hg hpre
      · exact hend k hk (hpre.trans hgk)
    · exact .items f (accepted_subset fields hf) hne hpre
  · rintro (⟨f, hf, rfl, hend⟩ | ⟨f, hf, hne, hpre⟩)
    · rcases mem_accepted_or_extended h hf with hacc | ⟨g, hg, hpre⟩
      · exact .leaf f hacc rfl fun g hg => hend g (accepted_subset fields hg)
      · exact absurd hpre (hend g (accepted_subset fields hg))
    · rcases mem_accepted_or_extended h hf with hacc | ⟨g, hg, hfg⟩
      · exact .items f hacc hne hpre
      · exact .items g hg hne (hpre.trans hfg)

theorem Standing.perm (hp : fields.Perm fields') (h : Standing fields path m) :
    Standing fields' path m := by
  obtain ⟨f, hf, hpath, hend⟩ | ⟨f, hf, hne, hpre⟩ := h
  · exact .leaf f (hp.mem_iff.mp hf) hpath fun g hg => hend g (hp.mem_iff.mpr hg)
  · exact .items f (hp.mem_iff.mp hf) hne hpre

theorem standing_ne_other (h : Standing fields path m) : m ≠ .other := by
  rintro rfl
  cases h

/-- The trees of fields that agree, put in in two orders, are equal up to order. -/
theorem resolveAll_perm (hd : (fields.map Prod.fst).Nodup) (h : LeavesAgree fields)
    (hp : fields.Perm fields') : (resolveAll fields).2.Same (resolveAll fields').2 := by
  have hd' : (fields'.map Prod.fst).Nodup := (hp.map Prod.fst).nodup_iff.mp hd
  have h' : LeavesAgree fields' := fun f hf g hg =>
    h f (hp.mem_iff.mpr hf) g (hp.mem_iff.mpr hg)
  have hrep := (represents_resolveAll hd).1
  have hrep' := (represents_resolveAll hd').1
  refine Properties.same_of_marks hrep.distinct hrep'.distinct (fun path => ?_) fun path hm => ?_
  · refine Option.ext fun m => ?_
    rw [hrep.marks, hrep'.marks, standing_accepted_iff h, standing_accepted_iff h']
    exact ⟨fun hs => hs.perm hp, fun hs => hs.perm hp.symm⟩
  · exact standing_ne_other ((hrep.marks path _).mp hm) rfl

end Agree

/-! ### Rule sets without conflicts -/

/-- Whenever the names of a field go on in those of another, its type is array. -/
def ConflictFree (rules : RuleSet) : Prop :=
  ∀ r ∈ rules, ∀ r' ∈ rules, StrictPrefix (namesOf r.1) (namesOf r'.1) → specType r.2 = .array

instance (rules : RuleSet) : Decidable (ConflictFree rules) :=
  inferInstanceAs (Decidable (∀ r ∈ rules, ∀ r' ∈ rules, _ → _))

/-- Two bodies are equal up to the order of keys. -/
structure Body.Same (b b' : Body) : Prop where
  contentType : b.contentType = b'.contentType
  properties : Properties.Same b.properties b'.properties
  required : b.required.Perm b'.required

theorem ConflictFree.leavesAgree {rules : RuleSet} (h : ConflictFree rules) :
    LeavesAgree (leafEntries rules) := by
  intro f hf g hg hpre
  obtain ⟨spec, hspec, hl⟩ := mem_leafEntries.mp hf
  obtain ⟨spec', hspec', -⟩ := mem_leafEntries.mp hg
  rw [type_specLeaf hl]
  exact h _ hspec _ hspec' hpre

/-- **Order independence.**  If a rule set without conflicts compiles, so does every reordering of it,
to the same body up to the order of keys. -/
theorem compile_perm {rules rules' : RuleSet} {b : Body} (hd : (rules.map Prod.fst).Nodup)
    (hfree : ConflictFree rules) (hp : rules.Perm rules') (hb : compile rules = .ok b) :
    ∃ b', compile rules' = .ok b' ∧ b.Same b' := by
  obtain ⟨hall, rfl⟩ := compile_eq_ok_iff.mp hb
  have hall' : ∀ r ∈ rules', ∃ l, specLeaf r.2 = .ok l := fun r hr => hall r (hp.mem_iff.mpr hr)
  refine ⟨bodyOf rules', compile_eq_ok_iff.mpr ⟨hall', rfl⟩, ?_, ?_, ?_⟩
  · have hany : (bodyOf rules).hasFile = (bodyOf rules').hasFile := hp.any_eq
    unfold Body.contentType
    rw [hany]
  · exact resolveAll_perm ((map_fst_leafEntries_sublist rules).nodup hd) hfree.leavesAgree
      (hp.filterMap leafOf?)
  · exact (hp.filter isRequiredAtTop).map Prod.fst

/-- An array, a field of its items and a required field, in two orders. -/
theorem compile_perm_order_lines :
    let rules : RuleSet := [("items", .str "array"), ("items.*.sku", .str "integer|min:1"),
      ("name", .str "required")]
    let rules' : RuleSet := [("items.*.sku", .str "integer|min:1"), ("name", .str "required"),
      ("items", .str "array")]
    (rules.map Prod.fst).Nodup ∧ ConflictFree rules ∧ rules.Perm rules' ∧
      ∃ b b', compile rules = .ok b ∧ compile rules' = .ok b' ∧ b.Same b' := by
  intro rules rules'
  have hd : (rules.map Prod.fst).Nodup := by decide
  have hfree : ConflictFree rules := by decide
  have hp : rules.Perm rules' := (List.perm_append_comm :
    ([("items", Value.str "array")] ++ rules.tail).Perm (rules.tail ++ [("items", .str "array")]))
  obtain ⟨b, hb⟩ : ∃ b, compile rules = .ok b := ⟨_, rfl⟩
  obtain ⟨b', hb', hsame⟩ := compile_perm hd hfree hp hb
  exact ⟨hd, hfree, hp, b, b', hb, hb', hsame⟩

end RouteDocs.Schema
