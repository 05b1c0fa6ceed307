import RouteDocs.Proofs.Schema.FieldPath
import RouteDocs.Proofs.Schema.Insert

/-!
# RouteDocs.Proofs.Schema.Acceptance — the tree of a run of insertions

Fields put into an empty tree one after the other behave as a flat list of paths: a field is accepted
unless an accepted field that is no array stands above it or an accepted field stands below it
(`Admits`), and the tree holds the accepted fields and the arrays on the way to them (`Standing`).
`Represents` is the invariant of the run, `Represents.step` its step.
-/

namespace RouteDocs.Schema

open Properties

/-- The names of a field. -/
abbrev namesOf (field : String) : List String := (FieldPath.parse field).names

/-! ### The flat list of accepted fields -/

/-- A field may join the fields accepted so far: those above it are arrays, and none is below it. -/
def Admits (accepted : List (String × Leaf)) (field : String) : Prop :=
  (∀ g ∈ accepted, StrictPrefix (namesOf g.1) (namesOf field) → g.2.type = .array) ∧
    ∀ g ∈ accepted, ¬ StrictPrefix (namesOf field) (namesOf g.1)

instance (accepted : List (String × Leaf)) (field : String) : Decidable (Admits accepted field) :=
  inferInstanceAs (Decidable (_ ∧ _))

/-- The accepted fields after one more field. -/
def accept (accepted : List (String × Leaf)) (f : String × Leaf) : List (String × Leaf) :=
  if Admits accepted f.1 then accepted ++ [f] else accepted

/-- The fields of a sequence that are accepted. -/
def accepted (fields : List (String × Leaf)) : List (String × Leaf) := fields.foldl accept []

theorem accepted_concat (fields : List (String × Leaf)) (f : String × Leaf) :
    accepted (fields ++ [f]) = accept (accepted fields) f := by
  simp [accepted, List.foldl_append]

theorem accepted_subset (fields : List (String × Leaf)) : accepted fields ⊆ fields := by
  induction fields using List.reverseRecOn with
  | nil => exact List.Subset.refl _
  | append_singleton fields f ih =>
    rw [accepted_concat, accept]
    split
    · exact List.append_subset.mpr ⟨fun g hg => List.mem_append_left _ (ih hg),
        List.subset_append_right _ _⟩
    · exact fun g hg => List.mem_append_left _ (ih hg)

/-- What stands at a path when some fields have been accepted: a field at its end, if no field goes on
from there, and an array of objects wherever a field goes on. -/
inductive Standing (accepted : List (String × Leaf)) (path : List String) : Mark → Prop
  | leaf (f : String × Leaf) : f ∈ accepted → namesOf f.1 = path →
    (∀ g ∈ accepted, ¬ StrictPrefix path (namesOf g.1)) → Standing accepted path (.leaf f.2)
  | items (f : String × Leaf) : f ∈ accepted → path ≠ [] → StrictPrefix path (namesOf f.1) →
    Standing accepted path (.items [])

/-! ### The run -/

/-- The flags and the tree after one more field. -/
def resolveNext (s : List Bool × Properties) (f : String × Leaf) : List Bool × Properties :=
  (s.1 ++ [(resolve s.2 f.1 f.2).1], (resolve s.2 f.1 f.2).2)

/-- Puts fields into an empty tree in order: the flag of each, and the tree. -/
def resolveAll (fields : List (String × Leaf)) : List Bool × Properties :=
  fields.foldl resolveNext ([], [])

theorem resolveAll_concat (fields : List (String × Leaf)) (f : String × Leaf) :
    resolveAll (fields ++ [f]) = resolveNext (resolveAll fields) f := by
  simp [resolveAll, List.foldl_append]

/-! ### The invariant -/

/-- The tree holds the accepted fields. -/
structure Represents (accepted : List (String × Leaf)) (tree : Properties) : Prop where
  distinct : tree.Distinct
  coherent : ∀ f ∈ accepted, ∀ g ∈ accepted,
    StrictPrefix (namesOf f.1) (namesOf g.1) → f.2.type = .array
  marks : ∀ path m, tree.mark? path = some m ↔ Standing accepted path m

namespace Represents

variable {accepted : List (String × Leaf)} {tree tree' : Properties} {f : String × Leaf}
  {field : String} {path : List String}

theorem empty : Represents [] [] where
  distinct := .nil
  coherent f hf := absurd hf List.not_mem_nil
  marks path m := by
    constructor
    · intro h
      simp [mark?] at h
    · rintro (⟨f, hf, -, -⟩ | ⟨f, hf, -, -⟩) <;> exact absurd hf List.not_mem_nil

theorem standing_at (h : Represents accepted tree) {node : Node} (hat : tree.at? path = some node) :
    Standing accepted path node.mark :=
  (h.marks path node.mark).mp (by rw [mark?, hat]; rfl)

theorem exists_at (h : Represents accepted tree) {m : Mark} (hm : Standing accepted path m) :
    ∃ node, tree.at? path = some node ∧ node.mark = m :=
  Option.map_eq_some_iff.mp ((h.marks path m).mpr hm)

/-- A node of the tree is an accepted field, or an array on the way to one. -/
theorem node_cases (h : Represents accepted tree) {node : Node} (hat : tree.at? path = some node) :
    (∃ g ∈ accepted, namesOf g.1 = path ∧ node = .leaf g.2) ∨
      ∃ inner, ∃ g ∈ accepted, StrictPrefix path (namesOf g.1) ∧ node = .array (.object inner []) := by
  have hs := h.standing_at hat
  cases hm : node.mark with
  | leaf l =>
    rw [hm] at hs
    obtain ⟨g, hg, hpath, -⟩ := hs
    exact .inl ⟨g, hg, hpath, Node.mark_eq_leaf_iff.mp hm⟩
  | items required =>
    rw [hm] at hs
    obtain - | ⟨g, hg, -, hpre⟩ := hs
    obtain ⟨inner, rfl⟩ := Node.mark_eq_items_iff.mp hm
    exact .inr ⟨inner, g, hg, hpre, rfl⟩
  | other =>
    rw [hm] at hs
    cases hs

/-- The tree refuses the fields that may not join the accepted ones. -/
theorem blocked_iff (h : Represents accepted tree) :
    Blocked tree (namesOf field) ↔ ¬ Admits accepted field := by
  constructor
  · rintro (⟨p, node, hp, hat, hnode⟩ | ⟨node, hat, hnode⟩) ⟨habove, hbelow⟩
    · obtain ⟨g, hg, rfl, rfl⟩ | ⟨inner, -, -, -, rfl⟩ := h.node_cases hat
      · simp [Node.opens, habove g hg hp] at hnode
      · cases hnode
    · obtain ⟨g, -, -, rfl⟩ | ⟨inner, g, hg, hpre, -⟩ := h.node_cases hat
      · cases hnode
      · exact hbelow g hg hpre
  · intro hadm
    rw [Admits, not_and_or] at hadm
    rcases hadm with habove | hbelow
    · push Not at habove
      obtain ⟨g, hg, hpre, htype⟩ := habove
      -- nothing accepted goes on from `g`, which is no array, so `g` itself stands at its path
      have hs : Standing accepted (namesOf g.1) (.leaf g.2) :=
        .leaf g hg rfl fun k hk hgk => htype (h.coherent g hg k hk hgk)
      obtain ⟨node, hat, hm⟩ := h.exists_at hs
      refine Or.inl ⟨namesOf g.1, node, hpre, hat, ?_⟩
      rw [Node.mark_eq_leaf_iff.mp hm]
      simpa [Node.opens] using htype
    · push Not at hbelow
      obtain ⟨g, hg, hpre⟩ := hbelow
      obtain ⟨node, hat, hm⟩ := h.exists_at (.items g hg (FieldPath.names_ne_nil _) hpre)
      obtain ⟨inner, rfl⟩ := Node.mark_eq_items_iff.mp hm
      exact Or.inr ⟨_, hat, rfl⟩

theorem itemsRequired_eq_nil (h : Represents accepted tree) (path : List String) :
    Node.itemsRequired (tree.at? path) = [] := by
  unfold Node.itemsRequired
  split
  · rename_i inner required hat
    have hs := h.standing_at hat
    cases hs
    rfl
  · rfl

/-- The marks after an accepted field. -/
theorem standing_concat_iff (hadm : Admits accepted f.1)
    (hnew : ∀ g ∈ accepted, namesOf g.1 ≠ namesOf f.1) {m : Mark} :
    Standing (accepted ++ [f]) path m ↔
      (path = namesOf f.1 ∧ m = .leaf f.2) ∨
      (path ≠ [] ∧ StrictPrefix path (namesOf f.1) ∧ m = .items []) ∨
      (¬ path <+: namesOf f.1 ∧ Standing accepted path m) := by
  have hmem : ∀ g, g ∈ accepted ++ [f] ↔ g ∈ accepted ∨ g = f := fun g => by simp
  constructor
  · rintro (⟨g, hg, rfl, hend⟩ | ⟨g, hg, hne, hpre⟩)
    · rcases (hmem g).mp hg with hg | rfl
      · refine Or.inr (Or.inr ⟨fun hp => ?_, .leaf g hg rfl fun k hk => hend k ((hmem k).mpr (.inl hk))⟩)
        exact hend f ((hmem f).mpr (.inr rfl)) ⟨hp, hnew g hg⟩
      · exact Or.inl ⟨rfl, rfl⟩
    · by_cases hp : StrictPrefix path (namesOf f.1)
      · exact Or.inr (Or.inl ⟨hne, hp, rfl⟩)
      · rcases (hmem g).mp hg with hg | rfl
        · refine Or.inr (Or.inr ⟨fun hp' => ?_, .items g hg hne hpre⟩)
          by_cases heq : path = namesOf f.1
          · exact hadm.2 g hg (heq ▸ hpre)
          · exact hp ⟨hp', heq⟩
        · exact absurd hpre hp
  · rintro (⟨rfl, rfl⟩ | ⟨hne, hpre, rfl⟩ | ⟨hp, hs⟩)
    · refine .leaf f ((hmem f).mpr (.inr rfl)) rfl fun g hg hpre => ?_
      rcases (hmem g).mp hg with hg | rfl
      · exact hadm.2 g hg hpre
      · exact hpre.2 rfl
    · exact .items f ((hmem f).mpr (.inr rfl)) hne hpre
    · obtain ⟨g, hg, hpath, hend⟩ | ⟨g, hg, hne, hpre⟩ := hs
      · refine .leaf g ((hmem g).mpr (.inl hg)) hpath fun k hk hpre => ?_
        rcases (hmem k).mp hk with hk | rfl
        · exact hend k hk hpre
        · exact hp hpre.1
      · exact .items g ((hmem g).mpr (.inl hg)) hne hpre

/-- One accepted field keeps the invariant. -/
theorem step (h : Represents accepted tree) (hadm : Admits accepted f.1)
    (hnew : ∀ g ∈ accepted, namesOf g.1 ≠ namesOf f.1)
    (hins : Inserted f.2 (namesOf f.1) tree tree') (hd : tree'.Distinct) :
    Represents (accepted ++ [f]) tree' where
  distinct := hd
  coherent a ha b hb hpre := by
    rcases List.mem_append.mp ha with hold | hlast <;>
    rcases List.mem_append.mp hb with hold' | hlast'
    · exact h.coherent a hold b hold' hpre
    · obtain rfl := List.mem_singleton.mp hlast'
      exact hadm.1 a hold hpre
    · obtain rfl := List.mem_singleton.mp hlast
      exact absurd hpre (hadm.2 b hold')
    · obtain rfl := List.mem_singleton.mp hlast
      obtain rfl := List.mem_singleton.mp hlast'
      exact absurd rfl hpre.2
  marks path m := by
    rw [standing_concat_iff hadm hnew]
    by_cases hp : path <+: namesOf f.1
    · by_cases heq : path = namesOf f.1
      · subst heq
        have hirr : ¬ StrictPrefix (namesOf f.1) (namesOf f.1) := fun hs => hs.2 rfl
        rw [mark?, hins.at_end]
        simp only [Option.map_some, Node.mark, Option.some.injEq, true_and, hirr, hp, false_and,
          and_false, not_true, or_false]
        exact eq_comm
      · have hpre : StrictPrefix path (namesOf f.1) := ⟨hp, heq⟩
        by_cases hne : path = []
        · subst hne
          simp [mark?, FieldPath.names]
        · rw [hins.on_way path hne hpre, h.itemsRequired_eq_nil]
          simp only [heq, hne, hpre, hp, Option.some.injEq, false_and, ne_eq, not_false_eq_true,
            true_and, not_true, or_false, false_or]
          exact eq_comm
    · have heq : path ≠ namesOf f.1 := fun heq => hp (heq ▸ List.prefix_rfl)
      have hpre : ¬ StrictPrefix path (namesOf f.1) := fun hs => hp hs.1
      rw [mark?, hins.elsewhere path hp]
      simp only [heq, hpre, hp, false_and, and_false, not_false_eq_true, true_and, false_or]
      exact h.marks path m

end Represents

/-! ### What a run does -/

section Run

variable {fields : List (String × Leaf)}

theorem namesOf_ne_of_nodup {f : String × Leaf} (hd : ((fields ++ [f]).map Prod.fst).Nodup) :
    f.1 ∉ fields.map Prod.fst ∧ ∀ g ∈ accepted fields, namesOf g.1 ≠ namesOf f.1 := by
  rw [List.map_append, List.map_singleton, List.nodup_append] at hd
  have hnew : f.1 ∉ fields.map Prod.fst := fun hf => hd.2.2 _ hf _ (List.mem_singleton_self _) rfl
  refine ⟨hnew, fun g hg heq => hnew ?_⟩
  rw [← FieldPath.names_parse_injective heq]
  exact List.mem_map_of_mem (accepted_subset fields hg)

/-- Distinct fields put into an empty tree: the tree represents the accepted ones, and the flags tell
which they are. -/
theorem represents_resolveAll (hd : (fields.map Prod.fst).Nodup) :
    Represents (accepted fields) (resolveAll fields).2 ∧ (resolveAll fields).1 =
      fields.map fun f => decide (f.1 ∈ (accepted fields).map Prod.fst) := by
  induction fields using List.reverseRecOn with
  | nil => exact ⟨.empty, rfl⟩
  | append_singleton fields f ih =>
    obtain ⟨hnew, hnames⟩ := namesOf_ne_of_nodup hd
    rw [List.map_append, List.nodup_append] at hd
    obtain ⟨hrep, hflags⟩ := ih hd.1
    -- the flags of earlier fields stay right, since the new field is none of them
    have hearlier : ∀ acc, acc = accepted fields ∨ acc = accepted fields ++ [f] →
        (resolveAll fields).1 = fields.map fun g => decide (g.1 ∈ acc.map Prod.fst) := by
      rintro acc (rfl | rfl)
      · exact hflags
      · rw [hflags]
        refine List.map_congr_left fun g hg => decide_eq_decide.mpr ?_
        have hne : g.1 ≠ f.1 := fun h => hnew (h ▸ List.mem_map_of_mem hg)
        simp [hne]
    rw [resolveAll_concat, accepted_concat, accept, resolveNext, List.map_append,
      List.map_singleton]
    rcases resolve_cases (resolveAll fields).2 f.1 f.2 with ⟨hb, hr⟩ | ⟨hb, tree', hr, hins, hdist⟩
    · have hadm := hrep.blocked_iff.mp hb
      have hf : f.1 ∉ (accepted fields).map Prod.fst := fun hf =>
        hnew (List.map_subset _ (accepted_subset fields) hf)
      rw [if_neg hadm, hr, hearlier _ (.inl rfl), decide_eq_false hf]
      exact ⟨hrep, rfl⟩
    · have hadm := not_not.mp (mt hrep.blocked_iff.mpr hb)
      have hf : f.1 ∈ (accepted fields ++ [f]).map Prod.fst := by simp
      rw [if_pos hadm, hr, hearlier _ (.inr rfl), decide_eq_true hf]
      exact ⟨hrep.step hadm hnames hins (hdist hrep.distinct), rfl⟩

/-- Wherever an accepted field passes or ends, something stands. -/
theorem exists_standing {acc : List (String × Leaf)} {f : String × Leaf} {path : List String}
    (hf : f ∈ acc) (hne : path ≠ []) (hp : path <+: namesOf f.1) : ∃ m, Standing acc path m := by
  by_cases hgo : ∃ g ∈ acc, StrictPrefix path (namesOf g.1)
  · obtain ⟨g, hg, hpre⟩ := hgo
    exact ⟨_, .items g hg hne hpre⟩
  · push Not at hgo
    have heq : path = namesOf f.1 := by
      by_contra heq
      exact hgo f hf ⟨hp, heq⟩
    exact ⟨_, .leaf f hf heq.symm hgo⟩

/-- **Acceptance.**  For distinct fields put into an empty tree, the flags are those of the accepted
fields, the tree is made of exactly what stands when these have been accepted, every name in it once,
and no object in it is empty. -/
theorem resolveAll_eq_accepted (fields : List (String × Leaf)) (hd : (fields.map Prod.fst).Nodup) :
    (resolveAll fields).1 = fields.map (fun f => decide (f.1 ∈ (accepted fields).map Prod.fst)) ∧
      (resolveAll fields).2.Distinct ∧
      (∀ path m, (resolveAll fields).2.mark? path = some m ↔ Standing (accepted fields) path m) ∧
      ∀ path required, (resolveAll fields).2.mark? path = some (.items required) →
        ∃ name m, (resolveAll fields).2.mark? (path ++ [name]) = some m := by
  obtain ⟨hrep, hflags⟩ := represents_resolveAll hd
  refine ⟨hflags, hrep.distinct, hrep.marks, fun path required hm => ?_⟩
  obtain - | ⟨f, hf, -, hpre⟩ := (hrep.marks path _).mp hm
  obtain ⟨⟨tail, htail⟩, hne⟩ := hpre
  obtain ⟨name, rest, rfl⟩ := List.exists_cons_of_ne_nil
    (show tail ≠ [] by rintro rfl; exact hne (by simpa using htail))
  have hp : path ++ [name] <+: namesOf f.1 := ⟨rest, by simpa using htail⟩
  obtain ⟨m, hs⟩ := exists_standing hf (by simp) hp
  exact ⟨name, m, (hrep.marks _ m).mpr hs⟩

end Run

/-- An array that is declared before the fields of its items, a field that a text is in the way of, and
an array that is declared after them. -/
theorem resolveAll_eq_accepted_order_lines :
    let fields : List (String × Leaf) := [("items", { type := .array }), ("items.*.sku", {}),
      ("items.*.sku.*.code", {}), ("items.*.lines.*.qty", { type := .integer }),
      ("items.*.lines", { type := .array })]
    (fields.map Prod.fst).Nodup ∧ (resolveAll fields).1 = [true, true, false, true, false] ∧
      (resolveAll fields).2.mark? ["items"] = some (.items []) ∧
      (resolveAll fields).2.mark? ["items", "lines", "qty"] = some (.leaf { type := .integer }) := by
  intro fields
  have hd : (fields.map Prod.fst).Nodup := by decide
  have hacc : accepted fields = [("items", { type := .array }), ("items.*.sku", {}),
      ("items.*.lines.*.qty", { type := .integer })] := rfl
  obtain ⟨hflags, -, hmarks, -⟩ := resolveAll_eq_accepted fields hd
  rw [hacc] at hflags hmarks
  refine ⟨hd, hflags, (hmarks _ _).mpr ?_, (hmarks _ _).mpr ?_⟩
  · exact .items ("items.*.sku", {}) (by simp) (by decide) (by decide)
  · exact .leaf ("items.*.lines.*.qty", { type := .integer }) (by simp) (by decide) (by decide)

end RouteDocs.Schema
