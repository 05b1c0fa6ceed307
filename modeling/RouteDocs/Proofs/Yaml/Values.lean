import RouteDocs.Proofs.Settings
import RouteDocs.Proofs.Yaml.Nodes
import RouteDocs.Yaml.Content

/-!
# RouteDocs.Proofs.Yaml.Values — written values are read back

The node of a portable value stands for that value (`outcome_nodeOf`), so a mapping whose texts are legible
is read back from its document (`read_documentText`), and there is such a document (`print?_eq_some`).
-/

namespace RouteDocs

namespace Value

variable {acc entries : List (Value × Value)}

/-- A value put under a new text comes last. -/
theorem put_of_not_mem {s : String} {v : Value} (h : .str s ∉ entries.map Prod.fst) :
    put (.str s) v entries = entries ++ [(.str s, v)] := by
  induction entries with
  | nil => rfl
  | cons e entries ih =>
    obtain ⟨k, w⟩ := e
    rw [List.map_cons, List.mem_cons, not_or] at h
    have hsame : ¬ k.same (.str s) = true := fun hsame => h.1 (same_str_iff.mp hsame).symm
    rw [put, if_neg hsame, ih h.2, List.cons_append]

theorem foldl_put (hkeys : ∀ e ∈ entries, ∃ s, e.1 = .str s)
    (hnodup : ((acc ++ entries).map Prod.fst).Nodup) :
    entries.foldl (fun entries p => put p.1 p.2 entries) acc = acc ++ entries := by
  induction entries generalizing acc with
  | nil => simp
  | cons e entries ih =>
    obtain ⟨k, v⟩ := e
    obtain ⟨s, rfl⟩ := hkeys _ List.mem_cons_self
    have hnew : .str s ∉ acc.map Prod.fst := by
      rw [List.map_append, List.map_cons] at hnodup
      exact fun hmem => (List.disjoint_of_nodup_append hnodup) hmem List.mem_cons_self
    rw [List.foldl_cons, put_of_not_mem hnew]
    rw [List.append_cons] at hnodup
    exact (ih (fun e he => hkeys e (List.mem_cons_of_mem _ he)) hnodup).trans (List.append_cons _ _ _).symm

/-- Pairs with texts for keys, each once, are a mapping as they stand. -/
theorem ofPairs_of_nodup (hkeys : ∀ e ∈ entries, ∃ s, e.1 = .str s)
    (hnodup : (entries.map Prod.fst).Nodup) : ofPairs entries = .map entries :=
  congrArg Value.map (foldl_put hkeys hnodup)

end Value

namespace Yaml

open Text Decimal

/-! ### Scalars -/

/-- A portable scalar is a node of its own type. -/
theorem scalarNodeOf_eq {v : Value} {tag : Tag} {s : List Char} (hv : IsPortable v)
    (h : scalarText? v = some (tag, s)) : scalarNodeOf v = .scalar tag (String.ofList s) := by
  have htyped := (scalarText_typed hv h).2
  rw [scalarNodeOf, h]
  simp only [Reading.scalarNode, Reading.typeOf, Option.isSome_none, Bool.or_false, String.toList_ofList]
  by_cases hstr : tag = .str
  · subst hstr
    cases hplain : isPlainScalar .str s with
    | true =>
      simp only [isPlainScalar, Bool.and_eq_true, decide_eq_true_eq] at hplain
      rw [if_pos rfl, hplain.1]
    | false => rfl
  · obtain ⟨hsame, hplain⟩ := htyped hstr
    have htrue : isPlainScalar tag s = true := by
      simp [isPlainScalar, hsame, hplain]
    rw [htrue, if_pos rfl, hsame]

theorem outcome_scalarNodeOf {v : Value} {tag : Tag} {s : List Char} (hv : IsPortable v)
    (h : scalarText? v = some (tag, s)) : outcome (scalarNodeOf v) = .ok v := by
  rw [scalarNodeOf_eq hv h]
  cases v with
  | null =>
    cases h
    simp [outcome, leafOutcome, textOf, scalarOf, Tag.isCollection, Except.bind]
  | bool b =>
    cases h
    have hword : truthWords.lookup (lowered (if b then "true" else "false")) = some b := by
      cases b <;> rfl
    simp [outcome, leafOutcome, textOf, scalarOf, Tag.isCollection, Except.bind, hword]
  | int i =>
    cases h
    simp [outcome, leafOutcome, textOf, scalarOf, Tag.isCollection, Except.bind, Except.map,
      intOf_intChars hv]
  | real x =>
    cases h
    simp [outcome, leafOutcome, textOf, scalarOf, Tag.isCollection, Except.bind, Except.map,
      realOf_realScalar x]
  | str s =>
    cases h
    simp [outcome, leafOutcome, textOf, scalarOf, Tag.isCollection, Except.bind]
  | list | map => cases h
  | bytes | date | moment | tuple | set => exact hv.elim

/-! ### Collections -/

theorem joinAll_ok (items : List Value) : joinAll (items.map .ok) = .ok items := by
  induction items with
  | nil => rfl
  | cons v items ih =>
    rw [List.map_cons, joinAll, ih]
    rfl

theorem joinEntries_ok (entries : List (Value × Value)) :
    joinEntries (entries.map fun e => (.ok e.1, .ok e.2)) = .ok entries := by
  induction entries with
  | nil => rfl
  | cons e entries ih =>
    rw [List.map_cons, joinEntries, ih]
    rfl

theorem ArePortableEntries.keys {entries : List (Value × Value)} (h : ArePortableEntries entries) :
    ∀ e ∈ entries, ∃ s, e.1 = .str s := by
  induction entries with
  | nil => nofun
  | cons e entries ih =>
    obtain ⟨k, v⟩ := e
    exact List.forall_mem_cons.mpr ⟨h.1, ih h.2.2⟩

mutual

/-- The node of a value stands for the value. -/
theorem outcome_nodeOf (v : Value) (hv : IsPortable v) : outcome (nodeOf v) = .ok v := by
  cases v with
  | list items =>
    rw [nodeOf, outcome, outcomes_itemNodes items hv]
    simp only [joinAll_ok]
    rfl
  | map entries =>
    rw [nodeOf, outcome, entriesOutcome, flatten_entryNodes entries hv.1]
    simp only [List.nil_append, joinEntries_ok]
    exact congrArg Except.ok (Value.ofPairs_of_nodup hv.1.keys hv.2)
  | null | bool | int | real | str => exact outcome_scalarNodeOf hv rfl
  | bytes | date | moment | tuple | set => exact hv.elim

theorem outcomes_itemNodes (items : List Value) (hv : ArePortable items) :
    outcomes (itemNodes items) = items.map .ok := by
  cases items with
  | nil => rw [itemNodes, outcomes, List.map_nil]
  | cons v items =>
    rw [itemNodes, outcomes, outcome_nodeOf v hv.1, outcomes_itemNodes items hv.2, List.map_cons]

theorem flatten_entryNodes (entries : List (Value × Value)) (hv : ArePortableEntries entries) :
    flatten (entryNodes entries) = .ok ([], entries.map fun e => (.ok e.1, .ok e.2)) := by
  cases entries with
  | nil => rw [entryNodes, flatten, List.map_nil]
  | cons e entries =>
    obtain ⟨k, v⟩ := e
    obtain ⟨⟨s, rfl⟩, hvalue, hrest⟩ := hv
    have hkey : scalarNodeOf (.str s) = .scalar .str s := by
      rw [scalarNodeOf_eq (v := .str s) trivial rfl, String.ofList_toList]
    have hk : outcome (.scalar .str s) = .ok (.str s) := by
      rw [← hkey]
      exact outcome_scalarNodeOf (v := .str s) trivial rfl
    rw [entryNodes, hkey, flatten, flatten_entryNodes entries hrest, outcome_nodeOf v hvalue]
    simp [Node.tag, Tag.isCollection, bind, Except.bind, pure, Except.pure, hk]

end

/-! ### Documents -/

/-- What is read is told by the tokens. -/
theorem read_congr {s t : List Char} (hs : s.all isAllowed = true) (ht : t.all isAllowed = true)
    (h : tokensOf s = tokensOf t) : read s = read t := by
  unfold read documentOf
  rw [if_pos hs, if_pos ht, h]

/-- A mapping whose texts are legible is read back from its document. -/
theorem read_documentText {e : Value × Value} {entries : List (Value × Value)}
    (hv : IsPortable (.map (e :: entries))) (hl : Legible 0 (.map (e :: entries))) :
    read (documentText (.map (e :: entries))) = .ok (.map (e :: entries)) := by
  obtain ⟨hallowed, htokens⟩ := tokensOf_documentText hv hl
  have hdocument := Reading.document_valueTokens hv .content
  have hnode := outcome_nodeOf _ hv
  unfold read documentOf
  rw [if_pos (List.all_eq_true.mpr hallowed), htokens]
  simp only [Option.getD_none, hdocument, bind, Except.bind, hnode]
  rfl

mutual

/-- All integers of a portable value can be written. -/
theorem isWritableValue_of_isPortable (v : Value) (hv : IsPortable v) : isWritableValue v = true := by
  cases v with
  | list items => exact areWritable_of_arePortable items hv
  | map entries => exact areWritableEntries_of_arePortable entries hv.1
  | int i => exact hv
  | null | bool | real | str => rfl
  | bytes | date | moment | tuple | set => exact hv.elim

theorem areWritable_of_arePortable (items : List Value) (hv : ArePortable items) :
    areWritable items = true := by
  cases items with
  | nil => rfl
  | cons v items =>
    rw [areWritable, isWritableValue_of_isPortable v hv.1, areWritable_of_arePortable items hv.2]
    rfl

theorem areWritableEntries_of_arePortable (entries : List (Value × Value))
    (hv : ArePortableEntries entries) : areWritableEntries entries = true := by
  cases entries with
  | nil => rfl
  | cons e entries =>
    obtain ⟨k, v⟩ := e
    obtain ⟨⟨s, rfl⟩, hvalue, hrest⟩ := hv
    rw [areWritableEntries, isWritableValue_of_isPortable v hvalue,
      areWritableEntries_of_arePortable entries hrest]
    rfl

end

/-- A portable value has a document. -/
theorem print?_eq_some {v : Value} (hv : IsPortable v) :
    print? v = some (String.ofList (documentText v)) :=
  if_pos (isWritableValue_of_isPortable v hv)

end Yaml

end RouteDocs
