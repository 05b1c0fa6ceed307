import RouteDocs.Proofs.Schema.Tree

/-!
# RouteDocs.Proofs.Schema.Insert — what putting a field into the tree does

The tree is changed on the way down, but only a level that was there before can refuse a field: below
one that was made on the way there is nothing.  So the outcome is that of an insertion which decides
first (`merge_eq`).  A field is refused exactly when its path is `Blocked`: by a node on the way that no
field may pass through, or by structure at the end.  A field that is not refused changes the tree as
`Inserted` says.  `resolve_cases` puts these together and is what later modules know of the insertion.
-/

namespace RouteDocs.Schema

open Properties

/-! ### The outcome of an insertion -/

/-- The properties with a leaf at the end of the names, unless it is refused at some level. -/
def insertAt? (leaf : Leaf) (name : String) : (rest : List String) → Properties → Option Properties
  | [], ps => if (ps.get? name).all Node.isLeaf then some (ps.put name (.leaf leaf)) else none
  | next :: rest, ps =>
    if (ps.get? name).all Node.opens then
      (insertAt? leaf next rest (Node.itemFields (ps.get? name))).map fun inner =>
        ps.put name (.array (.object inner (Node.itemsRequired (ps.get? name))))
    else none

/-- The node that holds nothing but a leaf at the end of the names. -/
def branch (leaf : Leaf) : List String → Node
  | [] => .leaf leaf
  | name :: path => .array (.object [(name, branch leaf path)] [])

/-- Where there is nothing yet, nothing is refused. -/
theorem insertAt?_empty (leaf : Leaf) (name : String) (rest : List String) :
    insertAt? leaf name rest [] = some [(name, branch leaf rest)] := by
  induction rest generalizing name with
  | nil => rfl
  | cons next rest ih =>
    rw [insertAt?]
    show (insertAt? leaf next rest []).map _ = _
    rw [ih]
    rfl

section Merge

variable {name : String} {ps : Properties}

theorem openItems_of_opens (h : (ps.get? name).all Node.opens = true) :
    openItems name ps = ps.put name (.array (.object (Node.itemFields (ps.get? name))
      (Node.itemsRequired (ps.get? name)))) := by
  unfold openItems
  split
  · rename_i hn
    rw [hn]
    rfl
  · rename_i l hn
    rw [hn] at h ⊢
    rw [if_pos (of_decide_eq_true h)]
    rfl
  · rename_i node hleaf hn
    rw [hn] at h ⊢
    cases node with
    | leaf l => exact absurd rfl (hleaf l)
    | object _ _ => cases h
    | array items =>
      cases items with
      | object inner required => exact (put_of_get? hn).symm
      | leaf _ => cases h
      | array _ => cases h

theorem openItems_of_not_opens (h : ¬ (ps.get? name).all Node.opens = true) :
    openItems name ps = ps := by
  unfold openItems
  split
  · rename_i hn
    rw [hn] at h
    exact absurd rfl h
  · rename_i l hn
    rw [hn] at h
    exact if_neg fun hl => h (decide_eq_true hl)
  · rfl

/-- One level of the way down. -/
theorem merge_cons (leaf : Leaf) (next : String) (rest : List String) :
    merge leaf name (next :: rest) ps =
      if (ps.get? name).all Node.opens then
        let below := merge leaf next rest (Node.itemFields (ps.get? name))
        (below.1, ps.put name (.array (.object below.2 (Node.itemsRequired (ps.get? name)))))
      else (false, ps) := by
  rw [merge]
  by_cases h : (ps.get? name).all Node.opens = true
  · rw [if_pos h, openItems_of_opens h, get?_put_self]
    simp only [put_put]
  · rw [if_neg h, openItems_of_not_opens h]
    split
    · rename_i inner required hn
      rw [hn] at h
      exact absurd rfl h
    · rfl

/-- A node with fields below it is an array of objects. -/
theorem Node.eq_items_of_itemFields_ne_nil {node? : Option Node} (h : Node.itemFields node? ≠ []) :
    node? = some (.array (.object (Node.itemFields node?) (Node.itemsRequired node?))) := by
  unfold Node.itemFields at h
  split at h
  · rfl
  · exact absurd rfl h

/-- **A refused insertion changes nothing.**  Merging level by level ends as an insertion that decides
before it changes anything. -/
theorem merge_eq (leaf : Leaf) (name : String) (rest : List String) (ps : Properties) :
    merge leaf name rest ps =
      ((insertAt? leaf name rest ps).isSome, (insertAt? leaf name rest ps).getD ps) := by
  induction rest generalizing name ps with
  | nil =>
    rw [merge, insertAt?, yields_eq]
    split <;> rfl
  | cons next rest ih =>
    rw [merge_cons, insertAt?]
    split
    · cases hbelow : insertAt? leaf next rest (Node.itemFields (ps.get? name)) with
      | some inner => simp [ih, hbelow]
      | none =>
        -- what refuses the leaf was there before, so all that is put back is what was taken out
        have hne : Node.itemFields (ps.get? name) ≠ [] := by
          intro hnil
          rw [hnil, insertAt?_empty] at hbelow
          cases hbelow
        simp [ih, hbelow, put_of_get? (Node.eq_items_of_itemFields_ne_nil hne)]
    · rfl

end Merge

theorem resolve_eq (ps : Properties) (field : String) (leaf : Leaf) :
    resolve ps field leaf =
      ((insertAt? leaf (FieldPath.parse field).first (FieldPath.parse field).rest ps).isSome,
        (insertAt? leaf (FieldPath.parse field).first (FieldPath.parse field).rest ps).getD ps) :=
  merge_eq leaf _ _ ps

/-! ### Paths -/

/-- A path meets a node that is in its way, or ends at a node that is no leaf. -/
def Blocked (ps : Properties) (path : List String) : Prop :=
  (∃ p node, StrictPrefix p path ∧ ps.at? p = some node ∧ node.opens = false) ∨
    ∃ node, ps.at? path = some node ∧ node.isLeaf = false

/-- The tree `ps'` is the tree `ps` with a leaf at the end of a path: on the way there are arrays of
objects, and away from the path nothing changes. -/
structure Inserted (leaf : Leaf) (path : List String) (ps ps' : Properties) : Prop where
  at_end : ps'.at? path = some (.leaf leaf)
  on_way : ∀ p, p ≠ [] → StrictPrefix p path →
    ps'.mark? p = some (.items (Node.itemsRequired (ps.at? p)))
  elsewhere : ∀ p, ¬ p <+: path → ps'.at? p = ps.at? p

variable {leaf : Leaf} {name : String} {path rest : List String} {ps ps' : Properties}

/-! ### Refusal -/

theorem blocked_singleton : Blocked ps [name] ↔ ∃ node, ps.get? name = some node ∧ node.isLeaf = false := by
  constructor
  · rintro (⟨p, node, hp, hat, -⟩ | h)
    · have hlt := hp.length_lt
      rw [List.length_singleton, Nat.lt_one_iff, List.length_eq_zero_iff] at hlt
      exact absurd hlt (ne_nil_of_at? hat)
    · exact h
  · exact Or.inr

theorem blocked_cons (h : path ≠ []) : Blocked ps (name :: path) ↔
    (∃ node, ps.get? name = some node ∧ node.opens = false) ∨
      Blocked (Node.itemFields (ps.get? name)) path := by
  unfold Blocked
  rw [at?_cons ps name h]
  constructor
  · rintro (⟨p, node, hp, hat, hnode⟩ | hend)
    · obtain ⟨n, q, rfl⟩ := List.exists_cons_of_ne_nil (ne_nil_of_at? hat)
      obtain ⟨rfl, hq⟩ := StrictPrefix.cons_cons.mp hp
      by_cases hnil : q = []
      · subst hnil
        exact Or.inl ⟨node, hat, hnode⟩
      · rw [at?_cons ps n hnil] at hat
        exact Or.inr (Or.inl ⟨q, node, hq, hat, hnode⟩)
    · exact Or.inr (Or.inr hend)
  · rintro (⟨node, hat, hnode⟩ | ⟨p, node, hp, hat, hnode⟩ | hend)
    · exact Or.inl ⟨[name], node, StrictPrefix.cons_cons.mpr ⟨rfl, StrictPrefix.nil_left.mpr h⟩,
        hat, hnode⟩
    · refine Or.inl ⟨name :: p, node, StrictPrefix.cons_cons.mpr ⟨rfl, hp⟩, ?_, hnode⟩
      rw [at?_cons ps name (ne_nil_of_at? hat)]
      exact hat
    · exact Or.inr hend

theorem not_all_iff {node? : Option Node} {p : Node → Bool} :
    ¬ node?.all p = true ↔ ∃ node, node? = some node ∧ p node = false := by
  cases node? <;> simp

/-- A field is refused exactly when its path is blocked. -/
theorem insertAt?_eq_none_iff : insertAt? leaf name rest ps = none ↔ Blocked ps (name :: rest) := by
  induction rest generalizing name ps with
  | nil =>
    rw [insertAt?, blocked_singleton, ← not_all_iff]
    split <;> simp_all
  | cons next rest ih =>
    rw [insertAt?, blocked_cons (List.cons_ne_nil _ _), ← not_all_iff]
    by_cases h : (ps.get? name).all Node.opens = true
    · rw [if_pos h, Option.map_eq_none_iff, ih]
      simp [h]
    · rw [if_neg h]
      exact iff_of_true rfl (Or.inl h)

/-! ### Acceptance -/

/-- Under another name than that of the new node nothing changes. -/
theorem at?_put_of_ne {n : String} (node : Node) (ps : Properties) (h : n ≠ name)
    (path : List String) : (ps.put name node).at? (n :: path) = ps.at? (n :: path) :=
  at?_congr (get?_put_of_ne node ps h) path

theorem at?_put_cons (node : Node) (ps : Properties) (name : String) (h : path ≠ []) :
    (ps.put name node).at? (name :: path) = (Node.itemFields (some node)).at? path := by
  rw [at?_cons _ _ h, get?_put_self]

theorem inserted_leaf (h : (ps.get? name).all Node.isLeaf = true) :
    Inserted leaf [name] ps (ps.put name (.leaf leaf)) where
  at_end := get?_put_self name (.leaf leaf) ps
  on_way p hne hp := by
    have hlt := hp.length_lt
    rw [List.length_singleton, Nat.lt_one_iff, List.length_eq_zero_iff] at hlt
    exact absurd hlt hne
  elsewhere p hp := by
    cases p with
    | nil => rfl
    | cons n q =>
      by_cases hn : n = name
      · subst hn
        have hq : q ≠ [] := by
          rintro rfl
          exact hp List.prefix_rfl
        rw [at?_put_cons _ _ _ hq, at?_cons _ _ hq, Node.itemFields_of_isLeaf h]
        rfl
      · exact at?_put_of_ne _ _ hn q

theorem Inserted.into_items {inner inner' : Properties} (hne : path ≠ [])
    (hinner : Node.itemFields (ps.get? name) = inner) (h : Inserted leaf path inner inner') :
    Inserted leaf (name :: path) ps
      (ps.put name (.array (.object inner' (Node.itemsRequired (ps.get? name))))) where
  at_end := by
    rw [at?_put_cons _ _ _ hne]
    exact h.at_end
  on_way p hp hpre := by
    obtain ⟨n, q, rfl⟩ := List.exists_cons_of_ne_nil hp
    obtain ⟨rfl, hq⟩ := StrictPrefix.cons_cons.mp hpre
    by_cases hnil : q = []
    · subst hnil
      rw [mark?, at?_singleton, get?_put_self]
      rfl
    · rw [mark?_cons _ _ hnil, get?_put_self, at?_cons _ _ hnil, hinner]
      exact h.on_way q hnil hq
  elsewhere p hp := by
    cases p with
    | nil => rfl
    | cons n q =>
      by_cases hn : n = name
      · subst hn
        have hq : ¬ q <+: path := fun hq => hp (List.cons_prefix_cons.mpr ⟨rfl, hq⟩)
        have hnil : q ≠ [] := by
          rintro rfl
          exact hq List.nil_prefix
        rw [at?_put_cons _ _ _ hnil, at?_cons _ _ hnil, hinner]
        exact h.elsewhere q hq
      · exact at?_put_of_ne _ _ hn q

theorem inserted_insertAt? (h : insertAt? leaf name rest ps = some ps') :
    Inserted leaf (name :: rest) ps ps' := by
  induction rest generalizing name ps ps' with
  | nil =>
    rw [insertAt?] at h
    split at h
    · rename_i hleaf
      cases h
      exact inserted_leaf hleaf
    · cases h
  | cons next rest ih =>
    rw [insertAt?] at h
    split at h
    · obtain ⟨inner, hinner, rfl⟩ := Option.map_eq_some_iff.mp h
      exact (ih hinner).into_items (List.cons_ne_nil _ _) rfl
    · cases h

theorem distinct_insertAt? (hd : ps.Distinct) (h : insertAt? leaf name rest ps = some ps') :
    ps'.Distinct := by
  induction rest generalizing name ps ps' with
  | nil =>
    rw [insertAt?] at h
    split at h
    · cases h
      exact hd.put (.leaf leaf)
    · cases h
  | cons next rest ih =>
    rw [insertAt?] at h
    split at h
    · obtain ⟨inner, hinner, rfl⟩ := Option.map_eq_some_iff.mp h
      exact hd.put (.array (.object (ih (hd.itemFields name) hinner)))
    · cases h

/-! ### One step -/

/-- A field is refused and leaves the tree as it is, or is accepted and put in. -/
theorem resolve_cases (ps : Properties) (field : String) (leaf : Leaf) :
    (Blocked ps (FieldPath.parse field).names ∧ resolve ps field leaf = (false, ps)) ∨
      ¬ Blocked ps (FieldPath.parse field).names ∧ ∃ ps', resolve ps field leaf = (true, ps') ∧
        Inserted leaf (FieldPath.parse field).names ps ps' ∧ (ps.Distinct → ps'.Distinct) := by
  rw [resolve_eq, FieldPath.names]
  cases h : insertAt? leaf (FieldPath.parse field).first (FieldPath.parse field).rest ps with
  | none => exact Or.inl ⟨insertAt?_eq_none_iff.mp h, rfl⟩
  | some ps' =>
    refine Or.inr ⟨fun hb => ?_, ps', rfl, inserted_insertAt? h, fun hd => distinct_insertAt? hd h⟩
    rw [insertAt?_eq_none_iff.mpr hb] at h
    cases h

end RouteDocs.Schema
