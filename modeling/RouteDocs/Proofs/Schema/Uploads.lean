import RouteDocs.Proofs.Schema.Reorder

/-!
# RouteDocs.Proofs.Schema.Uploads — the content type and the leaves of a body

A body is a form in parts as soon as the rules of one field make it an upload, even if the field is
refused by the tree; so the tree of such a body need not have a leaf for an upload.  It has one exactly
when one of these fields was accepted, since nothing takes the place of an upload once it is there
(`exists_leaf_iff`).  The content type and the tree disagree only where every upload was refused
(`multipart_iff`).
-/

namespace RouteDocs.Schema

mutual

/-- The leaves of a node, at any depth. -/
def Node.leaves : Node → List Leaf
  | .leaf l => [l]
  | .object properties _ => leavesOf properties
  | .array items => items.leaves

/-- The leaves of named nodes, at any depth. -/
def leavesOf : List (String × Node) → List Leaf
  | [] => []
  | (_, node) :: rest => node.leaves ++ leavesOf rest

end

/-- Somewhere in the tree of a body there is a leaf for an upload. -/
def Body.HasUpload (b : Body) : Prop := ∃ l ∈ leavesOf b.properties, l.type = .file

/-! ### Leaves at paths -/

section Leaves

open Properties

variable {ps : Properties} {l : Leaf}

theorem mem_leavesOf_iff : l ∈ leavesOf ps ↔ ∃ name node, (name, node) ∈ ps ∧ l ∈ node.leaves := by
  induction ps with
  | nil => simp [leavesOf]
  | cons p rest ih =>
    obtain ⟨name, node⟩ := p
    rw [leavesOf, List.mem_append, ih]
    constructor
    · rintro (h | ⟨n, m, hm, h⟩)
      · exact ⟨name, node, List.mem_cons_self, h⟩
      · exact ⟨n, m, List.mem_cons_of_mem _ hm, h⟩
    · rintro ⟨n, m, hm, h⟩
      rcases List.mem_cons.mp hm with heq | hm
      · cases heq
        exact .inl h
      · exact .inr ⟨n, m, hm, h⟩

/-- What is at a path of the tree is among its leaves. -/
theorem mem_leavesOf_of_mark? {path : List String} (h : ps.mark? path = some (.leaf l)) :
    l ∈ leavesOf ps := by
  induction path generalizing ps with
  | nil => cases h
  | cons name path ih =>
    rw [mem_leavesOf_iff]
    by_cases hp : path = []
    · subst hp
      obtain ⟨node, hn, hm⟩ := Option.map_eq_some_iff.mp h
      obtain rfl := Node.mark_eq_leaf_iff.mp hm
      exact ⟨name, _, Shape.mem_of_lookup hn, by simp [Node.leaves]⟩
    · rw [mark?_cons ps name hp] at h
      have hne : Node.itemFields (ps.get? name) ≠ [] := by
        intro hnil
        simp [hnil, mark?] at h
      have hn := Node.eq_items_of_itemFields_ne_nil hne
      refine ⟨name, _, Shape.mem_of_lookup hn, ?_⟩
      simpa [Node.leaves] using ih h

/-- In a tree of leaves and arrays of objects every leaf is at a path. -/
theorem mem_leavesOf_iff_mark? (hd : ps.Distinct) (hother : ∀ path, ps.mark? path ≠ some .other) :
    l ∈ leavesOf ps ↔ ∃ path, ps.mark? path = some (.leaf l) := by
  refine ⟨fun h => ?_, fun ⟨path, h⟩ => mem_leavesOf_of_mark? h⟩
  induction ps using nested_induction with
  | step ps ih =>
    obtain ⟨name, node, hm, hl⟩ := mem_leavesOf_iff.mp h
    have hn := hd.get?_eq_some_iff.mpr hm
    cases hmark : node.mark with
    | leaf l' =>
      obtain rfl := Node.mark_eq_leaf_iff.mp hmark
      obtain rfl : l = l' := by simpa [Node.leaves] using hl
      exact ⟨[name], by simp [mark?, hn, Node.mark]⟩
    | items required =>
      obtain ⟨inner, rfl⟩ := Node.mark_eq_items_iff.mp hmark
      have hinner : Properties.Distinct inner := by simpa [hn] using hd.itemFields name
      obtain ⟨path, hpath⟩ := ih name inner required hm hinner
        (fun path hp => hother (name :: path) (by
          rwa [mark?_cons_items hn (by rintro rfl; cases hp)]))
        (by simpa [Node.leaves] using hl)
      exact ⟨name :: path, by rwa [mark?_cons_items hn (by rintro rfl; cases hpath)]⟩
    | other => exact absurd (by simp [mark?, hn, hmark]) (hother [name])

end Leaves

/-! ### Leaves of a run -/

section Run

variable {fields : List (String × Leaf)}

/-- The leaves of the tree are those of the accepted fields that no accepted field goes on from. -/
theorem mem_leavesOf_resolveAll (hd : (fields.map Prod.fst).Nodup) {l : Leaf} :
    l ∈ leavesOf (resolveAll fields).2 ↔ ∃ f ∈ accepted fields, f.2 = l ∧
      ∀ g ∈ accepted fields, ¬ StrictPrefix (namesOf f.1) (namesOf g.1) := by
  have hrep := (represents_resolveAll hd).1
  rw [mem_leavesOf_iff_mark? hrep.distinct fun path hm => standing_ne_other ((hrep.marks _ _).mp hm) rfl]
  simp only [hrep.marks]
  constructor
  · rintro ⟨path, hs⟩
    cases hs with
    | leaf f hf hpath hend => exact ⟨f, hf, rfl, hpath ▸ hend⟩
  · rintro ⟨f, hf, rfl, hend⟩
    exact ⟨_, .leaf f hf rfl hend⟩

/-- A leaf of a type other than array stays in the tree once it is there. -/
theorem exists_leaf_iff (hd : (fields.map Prod.fst).Nodup) {type : FieldType} (ht : type ≠ .array) :
    (∃ l ∈ leavesOf (resolveAll fields).2, l.type = type) ↔
      ∃ f ∈ accepted fields, f.2.type = type := by
  constructor
  · rintro ⟨l, hl, rfl⟩
    obtain ⟨f, hf, rfl, -⟩ := (mem_leavesOf_resolveAll hd).mp hl
    exact ⟨f, hf, rfl⟩
  · rintro ⟨f, hf, rfl⟩
    refine ⟨f.2, (mem_leavesOf_resolveAll hd).mpr ⟨f, hf, rfl, fun g hg hpre => ?_⟩, rfl⟩
    exact ht ((represents_resolveAll hd).1.coherent f hf g hg hpre)

end Run

/-! ### Bodies -/

section Bodies

variable {rules : RuleSet} {b : Body}

theorem contentType_eq_multipartType_iff : b.contentType = multipartType ↔ b.hasFile = true := by
  unfold Body.contentType
  cases b.hasFile with
  | true => exact iff_of_true rfl rfl
  | false => exact iff_of_false (by decide : jsonType ≠ multipartType) Bool.false_ne_true

/-- An upload that was accepted comes from a field whose rules make it one. -/
theorem exists_rule_of_accepted {f : String × Leaf} (hf : f ∈ accepted (leafEntries rules)) :
    ∃ r ∈ rules, r.1 = f.1 ∧ specType r.2 = f.2.type := by
  obtain ⟨spec, hr, hl⟩ := mem_leafEntries.mp (accepted_subset _ hf)
  exact ⟨_, hr, rfl, (type_specLeaf hl).symm⟩

/-- Where no field is in the way of another, every upload leaves a leaf in the tree. -/
theorem exists_accepted_upload (hall : ∀ r ∈ rules, ∃ l, specLeaf r.2 = .ok l)
    (hfree : ConflictFree rules) (h : ∃ r ∈ rules, specType r.2 = .file) :
    ∃ f ∈ accepted (leafEntries rules), f.2.type = .file := by
  obtain ⟨r, hr, htype⟩ := h
  obtain ⟨l, hl⟩ := hall r hr
  have hf : (r.1, l) ∈ leafEntries rules := mem_leafEntries.mpr ⟨r.2, hr, hl⟩
  have hfile : l.type = .file := (type_specLeaf hl).trans htype
  -- only a field that goes on from it could have kept it out, and only from an array
  rcases mem_accepted_or_extended hfree.leavesAgree hf with hacc | ⟨g, hg, hpre⟩
  · exact ⟨_, hacc, hfile⟩
  · have harray := hfree.leavesAgree _ hf g (accepted_subset _ hg) hpre
    rw [hfile] at harray
    cases harray

/-- **Content type and tree.**  The body of a rule set is a form in parts exactly when the rules of
some field make it an upload, and its tree has a leaf for an upload exactly when such a field was
accepted.  So the tree of a body that is no form has no upload, and the two say the same of every rule
set without conflicts. -/
theorem multipart_iff {rules : RuleSet} {b : Body} (hd : (rules.map Prod.fst).Nodup)
    (hb : compile rules = .ok b) :
    (b.contentType = multipartType ↔ ∃ r ∈ rules, specType r.2 = .file) ∧
      (b.HasUpload ↔ ∃ f ∈ accepted (leafEntries rules), f.2.type = .file) ∧
      (b.HasUpload → b.contentType = multipartType) ∧
      (ConflictFree rules → (b.contentType = multipartType ↔ b.HasUpload)) := by
  obtain ⟨hall, rfl⟩ := compile_eq_ok_iff.mp hb
  have hmultipart : (bodyOf rules).contentType = multipartType ↔ ∃ r ∈ rules, specType r.2 = .file := by
    rw [contentType_eq_multipartType_iff]
    simp [bodyOf]
  have hupload : (bodyOf rules).HasUpload ↔ ∃ f ∈ accepted (leafEntries rules), f.2.type = .file :=
    exists_leaf_iff ((map_fst_leafEntries_sublist rules).nodup hd) (by decide)
  have hform : (bodyOf rules).HasUpload → (bodyOf rules).contentType = multipartType := by
    intro h
    obtain ⟨f, hf, htype⟩ := hupload.mp h
    obtain ⟨r, hr, -, hspec⟩ := exists_rule_of_accepted hf
    exact hmultipart.mpr ⟨r, hr, hspec.trans htype⟩
  exact ⟨hmultipart, hupload, hform, fun hfree =>
    ⟨fun h => hupload.mpr (exists_accepted_upload hall hfree (hmultipart.mp h)), hform⟩⟩

/-- A photo for every item of a gallery, whose array is declared after it. -/
theorem multipart_iff_gallery :
    let rules : RuleSet := [("items.*.photo", .str "required|image"), ("items", .str "array")]
    (rules.map Prod.fst).Nodup ∧ ConflictFree rules ∧ ∃ b, compile rules = .ok b ∧
      b.contentType = multipartType ∧ b.HasUpload := by
  intro rules
  have hd : (rules.map Prod.fst).Nodup := by decide
  have hfree : ConflictFree rules := by decide
  obtain ⟨b, hb⟩ : ∃ b, compile rules = .ok b := ⟨_, rfl⟩
  obtain ⟨hmultipart, -, -, hagree⟩ := multipart_iff hd hb
  have hform := hmultipart.mpr ⟨_, List.mem_cons_self, by decide⟩
  exact ⟨hd, hfree, b, hb, hform, (hagree hfree).mp hform⟩

/-- An upload below a text is refused: the body is a form in parts, and nothing in its tree is an
upload. -/
theorem refused_upload_makes_form :
    ∃ b, compile [("avatar", .str "string"), ("avatar.*.photo", .str "file")] = .ok b ∧
      b.contentType = multipartType ∧ ¬ b.HasUpload := by
  refine ⟨_, rfl, rfl, ?_⟩
  rintro ⟨l, hl, htype⟩
  cases hl with
  | head => cases htype
  | tail _ hl => cases hl

end Bodies

end RouteDocs.Schema
