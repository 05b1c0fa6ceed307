import RouteDocs.Proofs.Yaml.Blocks
import RouteDocs.Yaml.Node

/-!
# RouteDocs.Proofs.Yaml.Nodes — the tree of a written value

The tokens of a value are read as one node (`node_valueTokens`), which is the node of the value.
-/

namespace RouteDocs.Yaml

/-- The node of a scalar value. -/
def scalarNodeOf (v : Value) : Node :=
  match scalarText? v with
  | some (tag, s) => Reading.scalarNode none (String.ofList s) (isPlainScalar tag s)
  | none => Reading.emptyNode

mutual

/-- The node of a value. -/
def nodeOf : Value → Node
  | .list items => .sequence .seq (itemNodes items)
  | .map entries => .mapping .map (entryNodes entries)
  | v => scalarNodeOf v

def itemNodes : List Value → List Node
  | [] => []
  | v :: rest => nodeOf v :: itemNodes rest

def entryNodes : List (Value × Value) → List (Node × Node)
  | [] => []
  | (k, v) :: rest => (scalarNodeOf k, nodeOf v) :: entryNodes rest

end

/-- What the tokens of a value start with. -/
theorem valueTokens_eq_cons {v : Value} (hv : IsPortable v) (loose : Bool) :
    ∃ t ts, valueTokens loose v = t :: ts ∧ t ≠ .blockEnd ∧ t ≠ .key ∧ t ≠ .value ∧
      (loose = false → t ≠ .blockEntry) := by
  cases v with
  | null | bool | int | real | str => exact ⟨_, _, rfl, nofun, nofun, nofun, fun _ => nofun⟩
  | list items =>
    cases items with
    | nil => exact ⟨_, _, rfl, nofun, nofun, nofun, fun _ => nofun⟩
    | cons =>
      cases loose with
      | false => exact ⟨_, _, rfl, nofun, nofun, nofun, fun _ => nofun⟩
      | true => exact ⟨_, _, rfl, nofun, nofun, nofun, nofun⟩
  | map entries =>
    cases entries with
    | nil => exact ⟨_, _, rfl, nofun, nofun, nofun, fun _ => nofun⟩
    | cons => exact ⟨_, _, rfl, nofun, nofun, nofun, fun _ => nofun⟩
  | bytes | date | moment | tuple | set => exact hv.elim

namespace Reading

variable {fuel : Nat} {block loose : Bool} {r : Reading} {rest : List Token} {t : Token}

/-! ### One step of reading -/

theorem node_scalar (text : String) (plain : Bool) :
    node (fuel + 1) block loose { r with tokens := .scalar text plain :: rest } =
      .ok (scalarNode none text plain, { r with tokens := rest }) := by
  simp [node, peek, properties, bind, Except.bind, next, name, pure, Except.pure]

theorem node_scalarTokens (v : Value) {tag : Tag} {s : List Char} (h : scalarText? v = some (tag, s))
    (hfuel : 0 < fuel) :
    node fuel block loose { r with tokens := scalarTokens v ++ rest } =
      .ok (scalarNodeOf v, { r with tokens := rest }) := by
  obtain ⟨fuel, rfl⟩ : ∃ f, fuel = f + 1 := ⟨fuel - 1, by omega⟩
  rw [scalarTokens, scalarNodeOf, h]
  exact node_scalar _ _

theorem node_emptySequence (hfuel : 1 < fuel) :
    node fuel block loose { r with tokens := .flowSequenceStart :: .flowSequenceEnd :: rest } =
      .ok (.sequence .seq [], { r with tokens := rest }) := by
  obtain ⟨fuel, rfl⟩ : ∃ f, fuel = f + 2 := ⟨fuel - 2, by omega⟩
  simp [node, peek, properties, bind, Except.bind, next, name, pure, Except.pure, flowItems, typeOf]

theorem node_emptyMapping (hfuel : 1 < fuel) :
    node fuel block loose { r with tokens := .flowMappingStart :: .flowMappingEnd :: rest } =
      .ok (.mapping .map [], { r with tokens := rest }) := by
  obtain ⟨fuel, rfl⟩ : ∃ f, fuel = f + 2 := ⟨fuel - 2, by omega⟩
  simp [node, peek, properties, bind, Except.bind, next, name, pure, Except.pure, flowEntries, typeOf]

theorem node_sequence (loose : Bool) {items : List Node} {r' : Reading}
    (h : blockItems fuel { r with tokens := rest } = .ok (items, r')) :
    node (fuel + 1) true loose { r with tokens := .sequenceStart :: rest } =
      .ok (.sequence .seq items, r') := by
  simp [node, peek, properties, bind, Except.bind, next, name, pure, Except.pure, typeOf, h]

theorem node_mapping (loose : Bool) {entries : List (Node × Node)} {r' : Reading}
    (h : blockEntries fuel { r with tokens := rest } = .ok (entries, r')) :
    node (fuel + 1) true loose { r with tokens := .mappingStart :: rest } =
      .ok (.mapping .map entries, r') := by
  simp [node, peek, properties, bind, Except.bind, next, name, pure, Except.pure, typeOf, h]

theorem node_loose {items : List Node} {r' : Reading}
    (h : looseItems fuel { r with tokens := .blockEntry :: rest } = .ok (items, r')) :
    node (fuel + 1) true true { r with tokens := .blockEntry :: rest } =
      .ok (.sequence .seq items, r') := by
  simp [node, peek, properties, bind, Except.bind, name, pure, Except.pure, typeOf, h]

theorem nodeUnless_eq_node {ends : Token → Bool} (h : ends t = false) :
    nodeUnless (fuel + 1) block loose ends { r with tokens := t :: rest } =
      node fuel block loose { r with tokens := t :: rest } := by
  simp [nodeUnless, isMissing, peek, bind, Except.bind, pure, Except.pure, h]

theorem blockItems_cons {item : Node} {items : List Node} {r' r'' : Reading}
    (ht : t ≠ .blockEntry ∧ t ≠ .blockEnd)
    (h : node fuel true false { r with tokens := t :: rest } = .ok (item, r'))
    (h' : blockItems (fuel + 1) r' = .ok (items, r'')) :
    blockItems (fuel + 2) { r with tokens := .blockEntry :: t :: rest } = .ok (item :: items, r'') := by
  have hends : (decide (t = .blockEntry) || decide (t = .blockEnd)) = false := by simp [ht]
  rw [blockItems]
  simp only [peek, bind, Except.bind, next, List.drop_succ_cons, List.drop_zero]
  rw [nodeUnless_eq_node hends, h]
  simp only [h', pure, Except.pure]

theorem looseItems_cons {item : Node} {items : List Node} {r' r'' : Reading}
    (ht : t ≠ .blockEntry ∧ t ≠ .blockEnd ∧ t ≠ .key ∧ t ≠ .value)
    (h : node fuel true false { r with tokens := t :: rest } = .ok (item, r'))
    (h' : looseItems (fuel + 1) r' = .ok (items, r'')) :
    looseItems (fuel + 2) { r with tokens := .blockEntry :: t :: rest } = .ok (item :: items, r'') := by
  have hends : (decide (t = .blockEntry) || decide (t = .key) || decide (t = .value) ||
      decide (t = .blockEnd)) = false := by simp [ht]
  rw [looseItems]
  simp only [peek, bind, Except.bind, next, List.drop_succ_cons, List.drop_zero]
  rw [nodeUnless_eq_node hends, h]
  simp only [h', pure, Except.pure]

theorem blockEntries_cons {key value : Node} {entries : List (Node × Node)} {r₁ r₂ r₃ : Reading}
    {u : Token} {ts us : List Token} (ht : t ≠ .blockEnd ∧ t ≠ .key ∧ t ≠ .value)
    (hu : u ≠ .blockEnd ∧ u ≠ .key ∧ u ≠ .value)
    (hkey : node fuel true true { r with tokens := t :: ts } = .ok (key, { r₁ with tokens := .value :: u :: us }))
    (hvalue : node fuel true true { r₁ with tokens := u :: us } = .ok (value, r₂))
    (hrest : blockEntries (fuel + 1) r₂ = .ok (entries, r₃)) :
    blockEntries (fuel + 2) { r with tokens := .key :: t :: ts } =
      .ok ((key, value) :: entries, r₃) := by
  have hends : ∀ t : Token, t ≠ .blockEnd ∧ t ≠ .key ∧ t ≠ .value →
      (decide (t = .key) || decide (t = .value) || decide (t = .blockEnd)) = false := by
    intro t ht
    simp [ht]
  rw [blockEntries]
  simp only [peek, bind, Except.bind, next, List.drop_succ_cons, List.drop_zero]
  rw [nodeUnless_eq_node (hends t ht), hkey]
  simp only [List.drop_succ_cons, List.drop_zero]
  rw [nodeUnless_eq_node (hends u hu), hvalue]
  simp only [hrest, pure, Except.pure]

/-! ### The tokens of a value -/

theorem length_itemTokens (v : Value) (items : List Value) :
    (itemTokens (v :: items)).length = 1 + (valueTokens false v).length + (itemTokens items).length := by
  simp [itemTokens]
  omega

theorem length_entryTokens (k v : Value) (entries : List (Value × Value)) :
    (entryTokens ((k, v) :: entries)).length =
      2 + (scalarTokens k).length + (valueTokens (isLineKey k) v).length + (entryTokens entries).length := by
  simp [entryTokens]
  omega

/-- The tokens of a value that needs no lines of its own, wherever it stands. -/
theorem node_flat {v : Value} {s : List Char} {loose' : Bool} (hv : IsPortable v)
    (hs : flat? { column := 0, indent := 0 } v = some s)
    (hfuel : 2 * (valueTokens loose' v).length + 1 ≤ fuel) :
    node fuel block loose { r with tokens := valueTokens loose' v ++ rest } =
      .ok (nodeOf v, { r with tokens := rest }) := by
  rcases flat?_eq_some hv hs with ⟨tag, u, hscalar, -⟩ | ⟨rfl, -⟩ | ⟨rfl, -⟩
  · have htokens : valueTokens loose' v = scalarTokens v := by
      rw [valueTokens_scalar hscalar, scalarTokens, hscalar]
    have hnode : nodeOf v = scalarNodeOf v := by
      cases v with
      | list | map => cases hscalar
      | _ => rfl
    rw [htokens, hnode]
    exact node_scalarTokens v hscalar (Nat.lt_of_lt_of_le (Nat.succ_pos _) hfuel)
  · exact node_emptySequence (Nat.lt_of_lt_of_le (by decide : 1 < 2 * 2 + 1) hfuel)
  · exact node_emptyMapping (Nat.lt_of_lt_of_le (by decide : 1 < 2 * 2 + 1) hfuel)

mutual

theorem node_valueTokens : (v : Value) → IsPortable v → ∀ {n : Nat} {b : Bool} {r : Reading}
    {T : List Token}, 2 * (valueTokens false v).length + 1 ≤ n →
    node n true b { r with tokens := valueTokens false v ++ T } = .ok (nodeOf v, { r with tokens := T })
  | .null, hv, _, _, _, _, hfuel | .bool _, hv, _, _, _, _, hfuel | .int _, hv, _, _, _, _, hfuel
  | .real _, hv, _, _, _, _, hfuel | .str _, hv, _, _, _, _, hfuel | .list [], hv, _, _, _, _, hfuel
  | .map [], hv, _, _, _, _, hfuel => node_flat hv rfl hfuel
  | .list (v :: items), hv, fuel, loose, r, rest, hfuel => by
    obtain ⟨fuel, rfl⟩ : ∃ f, fuel = f + 1 := ⟨fuel - 1, by omega⟩
    have hitems := blockItems_itemTokens (v :: items) hv (n := fuel) (r := r) (T := rest)
      (by simp [valueTokens] at hfuel ⊢; omega)
    have hnode := node_sequence loose hitems
    simpa [valueTokens, nodeOf] using hnode
  | .map (e :: entries), hv, fuel, loose, r, rest, hfuel => by
    obtain ⟨fuel, rfl⟩ : ∃ f, fuel = f + 1 := ⟨fuel - 1, by omega⟩
    have hentries := blockEntries_entryTokens (e :: entries) hv.1 (n := fuel) (r := r) (T := rest)
      (by simp [valueTokens] at hfuel ⊢; omega)
    have hnode := node_mapping loose hentries
    simpa [valueTokens, nodeOf] using hnode

theorem blockItems_itemTokens : (items : List Value) → ArePortable items → ∀ {n : Nat} {r : Reading}
    {T : List Token}, 2 * (itemTokens items).length + 1 ≤ n →
    blockItems n { r with tokens := itemTokens items ++ .blockEnd :: T } =
      .ok (itemNodes items, { r with tokens := T })
  | [], _, _ + 1, _, _, _ => rfl
  | v :: items, hv, fuel, r, rest, hfuel => by
    rw [length_itemTokens] at hfuel
    obtain ⟨fuel, rfl⟩ : ∃ f, fuel = f + 2 := ⟨fuel - 2, by omega⟩
    obtain ⟨t, ts, hts, hend, -, -, hentry⟩ := valueTokens_eq_cons hv.1 false
    have hitem := node_valueTokens v hv.1 (n := fuel) (b := false) (r := r)
      (T := itemTokens items ++ .blockEnd :: rest) (by omega)
    have hitems := blockItems_itemTokens items hv.2 (n := fuel + 1) (r := r) (T := rest) (by omega)
    rw [hts] at hitem
    have hboth := blockItems_cons ⟨hentry rfl, hend⟩ hitem hitems
    simpa [itemTokens, itemNodes, hts] using hboth

theorem node_looseTokens : (v : Value) → IsPortable v → ∀ {n : Nat} {r : Reading} {t : Token}
    {T : List Token}, 2 * (valueTokens true v).length + 2 ≤ n → t ≠ .blockEntry →
    node n true true { r with tokens := valueTokens true v ++ t :: T } =
      .ok (nodeOf v, { r with tokens := t :: T })
  | .null, hv, _, _, _, _, hfuel, _ | .bool _, hv, _, _, _, _, hfuel, _
  | .int _, hv, _, _, _, _, hfuel, _ | .real _, hv, _, _, _, _, hfuel, _
  | .str _, hv, _, _, _, _, hfuel, _ | .list [], hv, _, _, _, _, hfuel, _
  | .map [], hv, _, _, _, _, hfuel, _ => node_flat hv rfl (Nat.le_of_succ_le hfuel)
  | .list (v :: items), hv, fuel, r, t, rest, hfuel, ht => by
    obtain ⟨fuel, rfl⟩ : ∃ f, fuel = f + 1 := ⟨fuel - 1, by omega⟩
    have hitems := looseItems_itemTokens (v :: items) hv (n := fuel) (r := r) (T := rest)
      (by simp [valueTokens] at hfuel ⊢; omega) ht
    have hnode := node_loose hitems
    simpa [valueTokens, nodeOf, itemTokens] using hnode
  | .map (e :: entries), hv, fuel, r, t, rest, hfuel, ht => by
    obtain ⟨fuel, rfl⟩ : ∃ f, fuel = f + 1 := ⟨fuel - 1, by omega⟩
    have hentries := blockEntries_entryTokens (e :: entries) hv.1 (n := fuel) (r := r)
      (T := t :: rest) (by simp [valueTokens] at hfuel ⊢; omega)
    have hnode := node_mapping true hentries
    simpa [valueTokens, nodeOf] using hnode

theorem looseItems_itemTokens : (items : List Value) → ArePortable items → ∀ {n : Nat} {r : Reading}
    {t : Token} {T : List Token}, 2 * (itemTokens items).length + 1 ≤ n → t ≠ .blockEntry →
    looseItems n { r with tokens := itemTokens items ++ t :: T } =
      .ok (itemNodes items, { r with tokens := t :: T })
  | [], _, fuel + 1, r, t, rest, _, ht => by
    rw [looseItems]
    simp only [itemTokens, List.nil_append, peek, bind, Except.bind]
    rfl
  | v :: items, hv, fuel, r, t, rest, hfuel, ht => by
    rw [length_itemTokens] at hfuel
    obtain ⟨fuel, rfl⟩ : ∃ f, fuel = f + 2 := ⟨fuel - 2, by omega⟩
    obtain ⟨u, us, hus, hend, hkey, hvalue, hentry⟩ := valueTokens_eq_cons hv.1 false
    have hitem := node_valueTokens v hv.1 (n := fuel) (b := false) (r := r)
      (T := itemTokens items ++ t :: rest) (by omega)
    have hitems := looseItems_itemTokens items hv.2 (n := fuel + 1) (r := r) (T := rest) (by omega)
      ht
    rw [hus] at hitem
    have hboth := looseItems_cons ⟨hentry rfl, hend, hkey, hvalue⟩ hitem hitems
    simpa [itemTokens, hus, itemNodes] using hboth

theorem blockEntries_entryTokens : (entries : List (Value × Value)) → ArePortableEntries entries →
    ∀ {n : Nat} {r : Reading} {T : List Token}, 2 * (entryTokens entries).length + 1 ≤ n →
    blockEntries n { r with tokens := entryTokens entries ++ .blockEnd :: T } =
      .ok (entryNodes entries, { r with tokens := T })
  | [], _, fuel + 1, _, _, _ => rfl
  | (k, v) :: entries, hv, fuel, r, rest, hfuel => by
    obtain ⟨k, rfl⟩ := hv.1
    rw [length_entryTokens] at hfuel
    obtain ⟨fuel, rfl⟩ : ∃ f, fuel = f + 2 := ⟨fuel - 2, by omega⟩
    obtain ⟨u, us, hus, hend, hkey, hvalue, -⟩ := valueTokens_eq_cons hv.2.1 (isLineKey (.str k))
    obtain ⟨w, ws, hws, hnext⟩ : ∃ w ws, entryTokens entries ++ .blockEnd :: rest = w :: ws ∧
        w ≠ .blockEntry := by
      cases entries with
      | nil => exact ⟨_, _, rfl, nofun⟩
      | cons e entries => exact ⟨.key, _, rfl, nofun⟩
    have hone : 1 ≤ (scalarTokens (.str k)).length := Nat.le_refl 1
    have hscalar : ∀ toks, node fuel true true
        { r with tokens := .scalar (String.ofList k.toList) (isPlainScalar .str k.toList) :: toks } =
          .ok (scalarNodeOf (.str k), { r with tokens := toks }) := fun toks =>
      node_scalarTokens (.str k) rfl (by omega)
    have hnode : node fuel true true
        { r with tokens := valueTokens (isLineKey (.str k)) v ++ w :: ws } =
          .ok (nodeOf v, { r with tokens := w :: ws }) := by
      cases hline : isLineKey (.str k) with
      | true => exact node_looseTokens v hv.2.1 (by rw [hline] at hfuel; omega) hnext
      | false => exact node_valueTokens v hv.2.1 (by rw [hline] at hfuel; omega)
    have hentries := blockEntries_entryTokens entries hv.2.2 (n := fuel + 1) (r := r) (T := rest)
      (by omega)
    rw [hus] at hnode
    rw [hws] at hentries
    have hboth := blockEntries_cons (by simp) ⟨hend, hkey, hvalue⟩ (hscalar _) hnode hentries
    simpa [entryTokens, entryNodes, hus, hws, scalarTokens, scalarText?] using hboth

end

/-- The tokens of a mapping are read as its node. -/
theorem document_valueTokens {e : Value × Value} {entries : List (Value × Value)}
    (hv : IsPortable (.map (e :: entries))) (stop : Fault) :
    document { tokens := valueTokens false (.map (e :: entries)) ++ [.streamEnd], stop } =
      .ok (some (nodeOf (.map (e :: entries)))) := by
  let toks := valueTokens false (.map (e :: entries)) ++ [.streamEnd]
  have hnode := node_valueTokens _ hv (n := 2 * toks.length + 4) (b := false)
    (r := { tokens := [], stop, handles := standardHandles }) (T := [.streamEnd]) (by simp [toks]; omega)
  have hstart : toks = .mappingStart :: (entryTokens (e :: entries) ++ [.blockEnd] ++ [.streamEnd]) := rfl
  have hpeek : peek { tokens := toks, stop } = .ok .mappingStart := rfl
  rw [document]
  simp only [bind, Except.bind]
  rw [hpeek]
  simp only
  rw [hnode]
  simp [skipDocumentEnds, peek, bind, Except.bind, pure, Except.pure]

end Reading

end RouteDocs.Yaml
