import RouteDocs.Proofs.Schema.Insert

/-!
# RouteDocs.Proofs.Schema.Frame — what one field leaves as it is

A field that is refused leaves the whole tree as it is (`refused_iff`).  One that is accepted changes a
single place: on its way it meets arrays of objects, whose other properties and required names stay
where they are, and in the last of them a branch is grafted on (`Grafted`).  The relation says where the
branch goes in the order of the names, and it has no other tree than the one that the field is put into
(`resolve_eq_true_iff`).
-/

namespace RouteDocs.Schema

open Properties

/-- The tree `ps'` is the tree `ps` with a leaf grafted on at the end of a path. -/
inductive Grafted (leaf : Leaf) : List String → Properties → Properties → Prop
  /-- A name that is missing comes last, with nothing but the branch of the leaf. -/
  | appended {name : String} {path : List String} {ps : Properties} (hname : name ∉ ps.map Prod.fst) :
    Grafted leaf (name :: path) ps (ps ++ [(name, branch leaf path)])
  /-- At the end of the path the leaf takes the place of another. -/
  | replaced {name : String} {old : Leaf} {before after : Properties}
    (hname : name ∉ before.map Prod.fst) :
    Grafted leaf [name] (before ++ (name, .leaf old) :: after) (before ++ (name, .leaf leaf) :: after)
  /-- On the way a leaf of type array gives its place to the branch. -/
  | opened {name next : String} {path : List String} {l : Leaf} {before after : Properties}
    (hname : name ∉ before.map Prod.fst) (hl : l.type = .array) :
    Grafted leaf (name :: next :: path) (before ++ (name, .leaf l) :: after)
      (before ++ (name, branch leaf (next :: path)) :: after)
  /-- An array of objects stays in its place, with its required names. -/
  | within {name : String} {path : List String} {inner inner' : Properties} {required : List String}
    {before after : Properties} (hname : name ∉ before.map Prod.fst)
    (hinner : Grafted leaf path inner inner') :
    Grafted leaf (name :: path) (before ++ (name, .array (.object inner required)) :: after)
      (before ++ (name, .array (.object inner' required)) :: after)

variable {leaf : Leaf} {name : String} {rest : List String} {ps ps' : Properties}

theorem Node.exists_of_isLeaf {node : Node} (h : node.isLeaf = true) : ∃ l, node = .leaf l := by
  cases node with
  | leaf l => exact ⟨l, rfl⟩
  | object _ _ => cases h
  | array _ => cases h

theorem Node.exists_of_opens {node : Node} (h : node.opens = true) :
    (∃ l, node = .leaf l ∧ l.type = .array) ∨
      ∃ inner required, node = .array (.object inner required) := by
  cases node with
  | leaf l => exact .inl ⟨l, rfl, of_decide_eq_true h⟩
  | object _ _ => cases h
  | array items =>
    cases items with
    | object inner required => exact .inr ⟨inner, required, rfl⟩
    | leaf _ => cases h
    | array _ => cases h

theorem put_eq_append (h : name ∉ ps.map Prod.fst) (node : Node) :
    ps.put name node = ps ++ [(name, node)] := by
  rw [put_eq_putField, Shape.putField_of_not_mem h]

theorem get?_append {before : Properties} (h : name ∉ before.map Prod.fst) (node : Node)
    (after : Properties) : Properties.get? (before ++ (name, node) :: after) name = some node :=
  get?_eq_some_iff_append.mpr ⟨before, after, rfl, h⟩

/-- What is put in at the end of a path is grafted on. -/
theorem grafted_insertAt? (h : insertAt? leaf name rest ps = some ps') :
    Grafted leaf (name :: rest) ps ps' := by
  induction rest generalizing name ps ps' with
  | nil =>
    rw [insertAt?] at h
    split at h
    · rename_i hleaf
      cases h
      cases hn : ps.get? name with
      | none =>
        have hname := get?_eq_none_iff.mp hn
        rw [put_eq_append hname]
        exact .appended hname
      | some node =>
        obtain ⟨before, after, rfl, hname⟩ := get?_eq_some_iff_append.mp hn
        rw [hn] at hleaf
        obtain ⟨old, rfl⟩ := Node.exists_of_isLeaf hleaf
        rw [put_append hname]
        exact .replaced hname
    · cases h
  | cons next rest ih =>
    rw [insertAt?] at h
    split at h
    · rename_i hopens
      obtain ⟨inner, hinner, rfl⟩ := Option.map_eq_some_iff.mp h
      cases hn : ps.get? name with
      | none =>
        have hname := get?_eq_none_iff.mp hn
        rw [hn] at hinner
        obtain rfl := Option.some.inj ((insertAt?_empty leaf next rest).symm.trans hinner)
        rw [put_eq_append hname]
        exact .appended hname
      | some node =>
        obtain ⟨before, after, rfl, hname⟩ := get?_eq_some_iff_append.mp hn
        rw [hn] at hopens hinner
        rw [put_append hname]
        rcases Node.exists_of_opens hopens with ⟨l, rfl, hl⟩ | ⟨fields, required, rfl⟩
        · obtain rfl := Option.some.inj ((insertAt?_empty leaf next rest).symm.trans hinner)
          exact .opened hname hl
        · exact .within hname (ih hinner)
    · cases h

/-- One level of an insertion that is accepted below. -/
theorem insertAt?_of_below {next : String} {node? : Option Node} {inner : Properties}
    (hn : ps.get? name = node?) (hopens : node?.all Node.opens = true)
    (hinner : insertAt? leaf next rest (Node.itemFields node?) = some inner) :
    insertAt? leaf name (next :: rest) ps =
      some (ps.put name (.array (.object inner (Node.itemsRequired node?)))) := by
  rw [insertAt?, hn, if_pos hopens, hinner]
  rfl

/-- What is grafted on at the end of a path is put in there. -/
theorem Grafted.insertAt?_eq (h : Grafted leaf (name :: rest) ps ps') :
    insertAt? leaf name rest ps = some ps' := by
  induction rest generalizing name ps ps' with
  | nil =>
    rw [insertAt?]
    cases h with
    | appended hname =>
      rw [get?_eq_none_iff.mpr hname, put_eq_append hname]
      rfl
    | replaced hname =>
      rw [get?_append hname, put_append hname]
      rfl
    | within _ hinner => cases hinner
  | cons next rest ih =>
    cases h with
    | appended hname =>
      rw [insertAt?_of_below (get?_eq_none_iff.mpr hname) rfl (insertAt?_empty leaf next rest),
        put_eq_append hname]
      rfl
    | opened hname hl =>
      rw [insertAt?_of_below (get?_append hname (.leaf _) _) (decide_eq_true hl)
        (insertAt?_empty leaf next rest), put_append hname]
      rfl
    | within hname hinner =>
      rw [insertAt?_of_below (get?_append hname _ _) rfl (ih hinner), put_append hname]
      rfl

/-- A field is put into the tree exactly where its leaf is grafted on. -/
theorem resolve_eq_true_iff {field : String} :
    resolve ps field leaf = (true, ps') ↔ Grafted leaf (FieldPath.parse field).names ps ps' := by
  rw [resolve_eq, FieldPath.names]
  constructor
  · intro h
    cases hinsert : insertAt? leaf (FieldPath.parse field).first (FieldPath.parse field).rest ps with
    | none => simp [hinsert] at h
    | some tree =>
      obtain rfl : tree = ps' := by simpa [hinsert] using h
      exact grafted_insertAt? hinsert
  · intro h
    rw [h.insertAt?_eq]
    rfl

/-- **Refusal.**  A field is refused exactly when a node on its way lets no field pass or a node other
than a leaf stands at its end, and then the tree is left as it is. -/
theorem refused_iff (ps : Properties) (field : String) (leaf : Leaf) :
    ((resolve ps field leaf).1 = false ↔ Blocked ps (FieldPath.parse field).names) ∧
      ((resolve ps field leaf).1 = false ↔ resolve ps field leaf = (false, ps)) := by
  rcases resolve_cases ps field leaf with ⟨hb, hr⟩ | ⟨hb, ps', hr, -, -⟩
  · rw [hr]
    exact ⟨iff_of_true rfl hb, iff_of_true rfl rfl⟩
  · rw [hr]
    exact ⟨iff_of_false nofun hb, iff_of_false nofun nofun⟩

/-- An object lets no field pass, nor does an array of texts, and no leaf takes its place. -/
example :
    let tree : Properties := [("owner", .object [("id", .leaf {})] ["id"]), ("tags", .array (.leaf {}))]
    resolve tree "owner.*.id" {} = (false, tree) ∧ resolve tree "tags.*.name.*.de" {} = (false, tree) ∧
      resolve tree "tags" { type := .array } = (false, tree) := ⟨rfl, rfl, rfl⟩

/-- **Acceptance.**  After a field has been accepted its leaf stands at the end of its path, what stands
at any path away from it is as it was, and the tree is the one before with the leaf grafted on. -/
theorem accepted_frame {ps : Properties} {field : String} {leaf : Leaf}
    (h : (resolve ps field leaf).1 = true) :
    Inserted leaf (FieldPath.parse field).names ps (resolve ps field leaf).2 ∧
      Grafted leaf (FieldPath.parse field).names ps (resolve ps field leaf).2 := by
  rcases resolve_cases ps field leaf with ⟨-, hr⟩ | ⟨-, ps', hr, hins, -⟩
  · rw [hr] at h
    cases h
  · rw [hr]
    exact ⟨hins, resolve_eq_true_iff.mp hr⟩

/-- The lines of an order, whose tags are an array that nothing was known of. -/
def orderLines : Properties :=
  [("id", .leaf { type := .integer }),
    ("lines", .array (.object [("tags", .leaf { type := .array }), ("sku", .leaf {})] ["sku"])),
    ("note", .leaf {})]

/-- The tags of an order get a field: they stay in front of the article number, which stays required. -/
theorem accepted_frame_order_lines :
    let tree := (resolve orderLines "lines.*.tags.*.code" { nullable := true }).2
    (resolve orderLines "lines.*.tags.*.code" { nullable := true }).1 = true ∧
      Inserted { nullable := true } ["lines", "tags", "code"] orderLines tree ∧
      Grafted { nullable := true } ["lines", "tags", "code"] orderLines tree ∧
      tree.at? ["lines"] = some (.array (.object
        [("tags", .array (.object [("code", .leaf { nullable := true })] [])), ("sku", .leaf {})]
        ["sku"])) := by
  intro tree
  have haccepted : (resolve orderLines "lines.*.tags.*.code" { nullable := true }).1 = true := rfl
  obtain ⟨hins, hgrafted⟩ := accepted_frame haccepted
  exact ⟨haccepted, hins, hgrafted, rfl⟩

end RouteDocs.Schema
