import RouteDocs.Proofs.Shape.Fields
import RouteDocs.Schema.Insert

/-!
# RouteDocs.Proofs.Schema.Tree — the property tree as a nested dictionary

A path of names leads through the items of arrays of objects to a node (`Properties.at?`), and the mark
of a node is what it is without the fields below it.  Where every name stands once (`Distinct`), two
trees with the same marks at all paths are equal up to the order of properties
(`Properties.same_of_marks`).
-/

namespace RouteDocs.Schema

/-! ### Strict prefixes -/

/-- `q` goes on from `p`. -/
def StrictPrefix (p q : List String) : Prop := p <+: q ∧ p ≠ q

instance (p q : List String) : Decidable (StrictPrefix p q) :=
  inferInstanceAs (Decidable (p <+: q ∧ p ≠ q))

namespace StrictPrefix

variable {p q r : List String} {a b : String}

theorem ne_nil (h : StrictPrefix p q) : q ≠ [] := by
  rintro rfl
  exact h.2 (List.prefix_nil.mp h.1)

@[simp] theorem nil_left : StrictPrefix [] q ↔ q ≠ [] :=
  ⟨ne_nil, fun h => ⟨List.nil_prefix, h.symm⟩⟩

@[simp] theorem cons_cons : StrictPrefix (a :: p) (b :: q) ↔ a = b ∧ StrictPrefix p q := by
  unfold StrictPrefix
  rw [List.cons_prefix_cons, and_assoc]
  refine and_congr_right fun hab => and_congr_right fun _ => ?_
  simp [hab]

theorem trans (h : StrictPrefix p q) (h' : StrictPrefix q r) : StrictPrefix p r := by
  refine ⟨h.1.trans h'.1, ?_⟩
  rintro rfl
  exact h.2 (h.1.eq_of_length_le h'.1.length_le)

theorem length_lt (h : StrictPrefix p q) : p.length < q.length :=
  Nat.lt_of_le_of_ne h.1.length_le fun hl => h.2 (h.1.eq_of_length hl)

end StrictPrefix

/-! ### Nodes -/

namespace Node

/-- The properties below a node on the way to a field: those of an array of objects. -/
def itemFields : Option Node → Properties
  | some (.array (.object inner _)) => inner
  | _ => []

/-- The required names of the objects in an array. -/
def itemsRequired : Option Node → List String
  | some (.array (.object _ required)) => required
  | _ => []

/-- A field may pass through the node: an array of objects, or a leaf of type array. -/
def opens : Node → Bool
  | .leaf l => l.type = .array
  | .array (.object _ _) => true
  | _ => false

/-- Whether the node is a leaf. -/
def isLeaf : Node → Bool
  | .leaf _ => true
  | _ => false

end Node

/-- What a node is, without the fields below it. -/
inductive Mark where
  | leaf (l : Leaf)
  /-- An array of objects with these required names. -/
  | items (required : List String)
  | other

/-- The mark of a node. -/
def Node.mark : Node → Mark
  | .leaf l => .leaf l
  | .array (.object _ required) => .items required
  | _ => .other

@[simp] theorem Node.itemFields_items (inner : Properties) (required : List String) :
    Node.itemFields (some (.array (.object inner required))) = inner := rfl

theorem Node.itemFields_of_isLeaf {node? : Option Node} (h : node?.all Node.isLeaf = true) :
    Node.itemFields node? = [] := by
  rcases node? with - | (_ | _ | _)
  · rfl
  · rfl
  · cases h
  · cases h

theorem Node.mark_eq_leaf_iff {node : Node} {l : Leaf} : node.mark = .leaf l ↔ node = .leaf l := by
  constructor
  · intro h
    unfold Node.mark at h
    split at h
    · cases h
      rfl
    · cases h
    · cases h
  · rintro rfl
    rfl

theorem Node.mark_eq_items_iff {node : Node} {required : List String} :
    node.mark = .items required ↔ ∃ inner, node = .array (.object inner required) := by
  constructor
  · intro h
    unfold Node.mark at h
    split at h
    · cases h
    · cases h
      exact ⟨_, rfl⟩
    · cases h
  · rintro ⟨inner, rfl⟩
    rfl

theorem yields_eq (node? : Option Node) : yields node? = node?.all Node.isLeaf := by
  rcases node? with - | (_ | _ | _) <;> rfl

/-! ### Looking up and putting properties -/

namespace Properties

theorem put_eq_putField (name : String) (node : Node) (ps : Properties) :
    put name node ps = Shape.putField name node ps := by
  induction ps with
  | nil => rfl
  | cons p rest ih =>
    obtain ⟨n, old⟩ := p
    rw [put, Shape.putField, ih]

theorem get?_put (name : String) (node : Node) (ps : Properties) (k : String) :
    get? (put name node ps) k = if k = name then some node else get? ps k := by
  rw [put_eq_putField]
  exact Shape.lookup_putField name node ps k

@[simp] theorem get?_put_self (name : String) (node : Node) (ps : Properties) :
    get? (put name node ps) name = some node := by
  rw [get?_put, if_pos rfl]

theorem get?_put_of_ne {name k : String} (node : Node) (ps : Properties) (h : k ≠ name) :
    get? (put name node ps) k = get? ps k := by
  rw [get?_put, if_neg h]

/-- Putting a node where one was put replaces it. -/
theorem put_put (name : String) (node node' : Node) (ps : Properties) :
    put name node' (put name node ps) = put name node' ps := by
  induction ps with
  | nil => simp [put]
  | cons p rest ih =>
    obtain ⟨n, old⟩ := p
    by_cases hn : n = name
    · simp [put, hn]
    · simp [put, hn, ih]

theorem not_mem_names_iff {ps : Properties} {name : String} :
    name ∉ ps.map Prod.fst ↔ ∀ p ∈ ps, (name != p.1) = true := by
  simp only [bne_iff_ne, List.mem_map, not_exists, not_and]
  exact forall₂_congr fun p _ => ne_comm

/-- What is found under a name is the first that stands there. -/
theorem get?_eq_some_iff_append {ps : Properties} {name : String} {node : Node} :
    ps.get? name = some node ↔
      ∃ before after, ps = before ++ (name, node) :: after ∧ name ∉ before.map Prod.fst := by
  simp only [not_mem_names_iff]
  exact List.lookup_eq_some_iff

theorem get?_eq_none_iff {ps : Properties} {name : String} :
    ps.get? name = none ↔ name ∉ ps.map Prod.fst := by
  rw [not_mem_names_iff]
  exact List.lookup_eq_none_iff

/-- A node is put in the place of the first one under its name. -/
theorem put_append {before : Properties} {name : String} (h : name ∉ before.map Prod.fst)
    (node old : Node) (after : Properties) :
    put name node (before ++ (name, old) :: after) = before ++ (name, node) :: after := by
  induction before with
  | nil => simp [put]
  | cons p before ih =>
    obtain ⟨n, m⟩ := p
    rw [List.map_cons, List.mem_cons, not_or] at h
    rw [List.cons_append, put, if_neg (Ne.symm h.1), ih h.2, List.cons_append]

/-- Putting the node that is there changes nothing. -/
theorem put_of_get? {ps : Properties} {name : String} {node : Node} (h : ps.get? name = some node) :
    put name node ps = ps := by
  obtain ⟨before, after, rfl, hname⟩ := get?_eq_some_iff_append.mp h
  exact put_append hname node node after

/-! ### Nodes at paths -/

/-- The node at a path of names, through the items of arrays of objects. -/
def at? : Properties → List String → Option Node
  | _, [] => none
  | ps, [name] => ps.get? name
  | ps, name :: next :: rest => at? (Node.itemFields (ps.get? name)) (next :: rest)

/-- The mark at a path. -/
def mark? (ps : Properties) (path : List String) : Option Mark := (at? ps path).map Node.mark

@[simp] theorem at?_nil (ps : Properties) : at? ps [] = none := rfl

@[simp] theorem at?_singleton (ps : Properties) (name : String) : at? ps [name] = ps.get? name := rfl

theorem at?_cons (ps : Properties) (name : String) {path : List String} (h : path ≠ []) :
    at? ps (name :: path) = at? (Node.itemFields (ps.get? name)) path := by
  obtain ⟨next, rest, rfl⟩ := List.exists_cons_of_ne_nil h
  rfl

@[simp] theorem at?_empty (path : List String) : at? [] path = none := by
  match path with
  | [] => rfl
  | [_] => rfl
  | _ :: next :: rest => exact at?_empty (next :: rest)

theorem ne_nil_of_at? {ps : Properties} {path : List String} {node : Node}
    (h : at? ps path = some node) : path ≠ [] := by
  rintro rfl
  cases h

/-- What stands under a name and below it depends on the node under the name alone. -/
theorem at?_congr {ps qs : Properties} {name : String} (h : ps.get? name = qs.get? name)
    (path : List String) : at? ps (name :: path) = at? qs (name :: path) := by
  cases path with
  | nil => exact h
  | cons next rest => rw [at?_cons _ _ (List.cons_ne_nil _ _), at?_cons _ _ (List.cons_ne_nil _ _), h]

theorem mark?_cons (ps : Properties) (name : String) {path : List String} (h : path ≠ []) :
    mark? ps (name :: path) = mark? (Node.itemFields (ps.get? name)) path := by
  rw [mark?, at?_cons ps name h]
  rfl

end Properties

/-! ### Trees with distinct names -/

mutual

/-- In every object below the node each name stands once. -/
inductive Node.Distinct : Node → Prop
  | leaf (l : Leaf) : Node.Distinct (.leaf l)
  | object {ps : Properties} {required : List String} :
    Properties.Distinct ps → Node.Distinct (.object ps required)
  | array {items : Node} : Node.Distinct items → Node.Distinct (.array items)

/-- Each name stands once, here and in every object below. -/
inductive Properties.Distinct : Properties → Prop
  | mk {ps : Properties} : (ps.map Prod.fst).Nodup →
    (∀ name node, (name, node) ∈ ps → Node.Distinct node) → Properties.Distinct ps

end

namespace Properties.Distinct

variable {ps : Properties} {name : String} {node : Node}

theorem nodup (h : Distinct ps) : (ps.map Prod.fst).Nodup := by
  cases h
  assumption

theorem of_mem (h : Distinct ps) (hm : (name, node) ∈ ps) : node.Distinct := by
  cases h with
  | mk _ hall => exact hall name node hm

theorem nil : Distinct [] := ⟨List.nodup_nil, fun _ _ h => absurd h List.not_mem_nil⟩

theorem get?_eq_some_iff (h : Distinct ps) : ps.get? name = some node ↔ (name, node) ∈ ps :=
  Shape.lookup_eq_some_iff_mem h.nodup

theorem itemFields (h : Distinct ps) (name : String) :
    Distinct (Node.itemFields (ps.get? name)) := by
  unfold Node.itemFields
  split
  · rename_i inner required hn
    cases h.of_mem (Shape.mem_of_lookup hn) with
    | array ho =>
      cases ho
      assumption
  · exact nil

theorem put (h : Distinct ps) (hn : node.Distinct) : Distinct (ps.put name node) := by
  rw [put_eq_putField]
  refine ⟨Shape.nodup_keys_putField h.nodup, fun n m hm => ?_⟩
  rcases Shape.mem_putField hm with ⟨-, rfl⟩ | hm
  · exact hn
  · exact h.of_mem hm

end Properties.Distinct

/-! ### Equality up to order -/

mutual

/-- Two nodes are equal up to the order of properties. -/
inductive Node.Same : Node → Node → Prop
  | leaf (l : Leaf) : Node.Same (.leaf l) (.leaf l)
  | object {ps qs : Properties} {required : List String} :
    Properties.Same ps qs → Node.Same (.object ps required) (.object qs required)
  | array {a b : Node} : Node.Same a b → Node.Same (.array a) (.array b)

/-- Two objects have the same names, and what stands under a name in one is the same as what stands
under it in the other. -/
inductive Properties.Same : Properties → Properties → Prop
  | mk {ps qs : Properties} : (ps.map Prod.fst).Perm (qs.map Prod.fst) →
    (∀ name a b, (name, a) ∈ ps → (name, b) ∈ qs → Node.Same a b) → Properties.Same ps qs

end

/-- Induction over a tree through its arrays of objects. -/
theorem Properties.nested_induction {motive : Properties → Prop}
    (step : ∀ ps : Properties, (∀ (name : String) (inner : Properties) (required : List String),
      (name, Node.array (.object inner required)) ∈ ps → motive inner) → motive ps) :
    ∀ ps, motive ps := fun ps =>
  step ps fun name inner required hm =>
    have hlt : sizeOf inner < sizeOf ps := by
      have h := List.sizeOf_lt_of_mem hm
      simp only [Prod.mk.sizeOf_spec, Node.array.sizeOf_spec, Node.object.sizeOf_spec] at h
      omega
    nested_induction step inner
termination_by ps => sizeOf ps

namespace Properties

theorem mem_names_iff_mark? {ps : Properties} {name : String} :
    name ∈ ps.map Prod.fst ↔ (mark? ps [name]).isSome := by
  rw [mark?, Option.isSome_map, at?_singleton]
  constructor
  · intro h
    obtain ⟨node, hn⟩ := Shape.exists_lookup_of_mem_keys h
    exact Option.isSome_iff_exists.mpr ⟨node, hn⟩
  · intro h
    obtain ⟨node, hn⟩ := Option.isSome_iff_exists.mp h
    exact List.mem_map_of_mem (f := Prod.fst) (Shape.mem_of_lookup hn)

/-- The marks below an array of objects are those of its objects. -/
theorem mark?_cons_items {ps inner : Properties} {name : String} {required path : List String}
    (hget : ps.get? name = some (.array (.object inner required))) (hp : path ≠ []) :
    mark? ps (name :: path) = mark? inner path := by
  rw [mark?_cons ps name hp, hget, Node.itemFields_items]

/-- Trees of leaves and arrays of objects are equal up to order if they have the same marks. -/
theorem same_of_marks {ps : Properties} : ∀ {qs : Properties}, Distinct ps → Distinct qs →
    (∀ path, mark? ps path = mark? qs path) → (∀ path, mark? ps path ≠ some .other) →
    Same ps qs := by
  induction ps using nested_induction with
  | step ps ih =>
    intro qs hps hqs hmarks hother
    have hnames : ∀ name, name ∈ ps.map Prod.fst ↔ name ∈ qs.map Prod.fst := fun name => by
      rw [mem_names_iff_mark?, mem_names_iff_mark?, hmarks]
    refine ⟨(List.perm_ext_iff_of_nodup hps.nodup hqs.nodup).mpr hnames, fun name a b ha hb => ?_⟩
    have hgeta := hps.get?_eq_some_iff.mpr ha
    have hgetb := hqs.get?_eq_some_iff.mpr hb
    have hmark : a.mark = b.mark := by
      have h := hmarks [name]
      simpa [mark?, hgeta, hgetb] using h
    cases hm : a.mark with
    | leaf l =>
      have hal : a = .leaf l := Node.mark_eq_leaf_iff.mp hm
      have hbl : b = .leaf l := Node.mark_eq_leaf_iff.mp (hmark ▸ hm)
      rw [hal, hbl]
      exact .leaf l
    | items required =>
      obtain ⟨inner, rfl⟩ := Node.mark_eq_items_iff.mp hm
      obtain ⟨inner', rfl⟩ := Node.mark_eq_items_iff.mp (hmark ▸ hm)
      refine .array (.object (ih name inner required ha ?_ ?_ ?_ ?_))
      · simpa [hgeta] using hps.itemFields name
      · simpa [hgetb] using hqs.itemFields name
      · intro path
        by_cases hp : path = []
        · rw [hp]
          rfl
        · rw [← mark?_cons_items hgeta hp, ← mark?_cons_items hgetb hp, hmarks]
      · intro path
        by_cases hp : path = []
        · rw [hp]
          exact nofun
        · rw [← mark?_cons_items hgeta hp]
          exact hother (name :: path)
    | other =>
      have h := hother [name]
      simp [mark?, hgeta, hm] at h

end Properties

end RouteDocs.Schema
