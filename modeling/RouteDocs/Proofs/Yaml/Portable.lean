import RouteDocs.Proofs.Yaml.Numbers
import RouteDocs.Proofs.Yaml.Scalars

/-!
# RouteDocs.Proofs.Yaml.Portable — values that a written document keeps

A portable value is built from the types whose scalars tell their type (`scalarText_typed`).  It is legible
if no text in it is written in one of the ways that are not read back: a next line between single quotes, or a
key on one line that is too long for a key.
-/

namespace RouteDocs.Yaml

mutual

/-- A value of null, truth values, integers that can be written, doubles, texts, lists, and mappings
with texts for keys, each key once. -/
def IsPortable : Value → Prop
  | .null | .bool _ | .str _ | .real _ => True
  | .int i => isWritableInt i = true
  | .list items => ArePortable items
  | .map entries => ArePortableEntries entries ∧ (entries.map Prod.fst).Nodup
  | _ => False

def ArePortable : List Value → Prop
  | [] => True
  | v :: rest => IsPortable v ∧ ArePortable rest

def ArePortableEntries : List (Value × Value) → Prop
  | [] => True
  | (k, v) :: rest => (∃ s, k = .str s) ∧ IsPortable v ∧ ArePortableEntries rest

end

section Portable

variable {items : List Value} {fields : List (String × Value)}

theorem isPortable_list_iff : IsPortable (.list items) ↔ ∀ v ∈ items, IsPortable v := by
  rw [IsPortable]
  induction items with
  | nil => simp [ArePortable]
  | cons v items ih => rw [ArePortable, ih, List.forall_mem_cons]

theorem isPortable_digit {i : Int} (h : i.natAbs < 10) : IsPortable (.int i) := by
  have hpow : ∀ k, k ≠ 0 → 10 ≤ Nat.pow 10 k := fun k hk => Nat.le_self_pow hk 10
  exact decide_eq_true (Nat.lt_of_lt_of_le h (hpow Decimal.maxDigits (by decide)))

theorem isPortable_texts (texts : List String) : IsPortable (.list (texts.map .str)) :=
  isPortable_list_iff.mpr (List.forall_mem_map.mpr fun _ _ => trivial)

/-- A record is portable if its names stand once and its values are portable. -/
theorem isPortable_record_iff :
    IsPortable (.record fields) ↔ (fields.map Prod.fst).Nodup ∧ ∀ f ∈ fields, IsPortable f.2 := by
  have hnames : ((fields.map fun f => (Value.str f.1, f.2)).map Prod.fst).Nodup ↔
      (fields.map Prod.fst).Nodup := by
    have hkeys : (fields.map fun f => (Value.str f.1, f.2)).map Prod.fst =
        (fields.map Prod.fst).map .str := by simp
    rw [hkeys]
    exact List.nodup_map_iff fun _ _ => Value.str.inj
  have hvalues : ArePortableEntries (fields.map fun f => (Value.str f.1, f.2)) ↔
      ∀ f ∈ fields, IsPortable f.2 := by
    clear hnames
    induction fields with
    | nil => simp [ArePortableEntries]
    | cons f fields ih =>
      rw [List.map_cons, ArePortableEntries, ih, List.forall_mem_cons]
      exact and_iff_right ⟨_, rfl⟩
  rw [Value.record, IsPortable, hvalues, hnames, and_comm]

theorem isPortable_empty : IsPortable (.record []) :=
  isPortable_record_iff.mpr ⟨List.nodup_nil, nofun⟩

end Portable

/-- A key that is read as it was written: one on a line of its own is as short as it has to be. -/
def LegibleKey (indent : Nat) (s : String) : Prop :=
  LegibleText indent s.toList ∧
    (isSimpleKey .str s.toList = true →
      (writeScalar { column := 0, indent := 0, isKey := true } .str s.toList).length ≤ 1024)

/-- A text that is a key on one line. -/
def isLineKey : Value → Bool
  | .str s => isSimpleKey .str s.toList
  | _ => false

/-- The indentation of a value after a key. -/
def entryIndent (indent : Nat) (k v : Value) : Nat :=
  if isLineKey k then valueIndent indent v else indent + indentStep

mutual

/-- A value whose texts are read as they were written, given its indentation. -/
def Legible (indent : Nat) : Value → Prop
  | .str s => LegibleText indent s.toList
  | .list items => LegibleItems indent items
  | .map entries => LegibleEntries indent entries
  | _ => True

def LegibleItems (indent : Nat) : List Value → Prop
  | [] => True
  | v :: rest => Legible (indent + indentStep) v ∧ LegibleItems indent rest

def LegibleEntries (indent : Nat) : List (Value × Value) → Prop
  | [] => True
  | (k, v) :: rest =>
    (∀ s, k = .str s → LegibleKey (indent + indentStep) s) ∧ Legible (entryIndent indent k v) v ∧
      LegibleEntries indent rest

end

instance (indent : Nat) (s : List Char) : Decidable (LegibleText indent s) :=
  inferInstanceAs (Decidable (_ ∧ _))

instance (indent : Nat) (s : String) : Decidable (LegibleKey indent s) :=
  inferInstanceAs (Decidable (_ ∧ _))

instance (indent : Nat) (k : Value) : Decidable (∀ s, k = .str s → LegibleKey indent s) :=
  match k with
  | .str s =>
    decidable_of_iff (LegibleKey indent s) ⟨fun h _ hs => Value.str.inj hs ▸ h, fun h => h s rfl⟩
  | .null | .bool _ | .int _ | .real _ | .bytes _ | .date _ | .moment _ | .list _ | .tuple _ | .set _
  | .map _ => isTrue nofun

mutual

def decideLegible (indent : Nat) : (v : Value) → Decidable (Legible indent v)
  | .str s => inferInstanceAs (Decidable (LegibleText indent s.toList))
  | .list items => decideLegibleItems indent items
  | .map entries => decideLegibleEntries indent entries
  | .null | .bool _ | .int _ | .real _ | .bytes _ | .date _ | .moment _ | .tuple _ | .set _ =>
    isTrue trivial

def decideLegibleItems (indent : Nat) : (items : List Value) → Decidable (LegibleItems indent items)
  | [] => isTrue trivial
  | v :: rest =>
    have := decideLegible (indent + indentStep) v
    have := decideLegibleItems indent rest
    inferInstanceAs (Decidable (_ ∧ _))

def decideLegibleEntries (indent : Nat) :
    (entries : List (Value × Value)) → Decidable (LegibleEntries indent entries)
  | [] => isTrue trivial
  | (k, v) :: rest =>
    have := decideLegible (entryIndent indent k v) v
    have := decideLegibleEntries indent rest
    inferInstanceAs (Decidable (_ ∧ _ ∧ _))

end

instance (indent : Nat) (v : Value) : Decidable (Legible indent v) := decideLegible indent v

/-- A text that is the type's own is not empty, and all scalars but texts say their type without quotes. -/
theorem scalarText_typed {v : Value} {tag : Tag} {s : List Char} (hv : IsPortable v)
    (h : scalarText? v = some (tag, s)) :
    (plainTag s = tag → s ≠ []) ∧ (tag ≠ .str → plainTag s = tag ∧ allowsPlain s = true) := by
  have hempty : plainTag s = tag → tag ≠ .null → s ≠ [] := by
    rintro rfl hnull rfl
    exact hnull rfl
  cases v with
  | null =>
    cases h
    exact ⟨fun _ => by decide, fun _ => by decide⟩
  | bool b =>
    cases h
    exact ⟨fun htag => hempty htag nofun, fun _ => by cases b <;> decide⟩
  | int i =>
    cases h
    exact ⟨fun htag => hempty htag nofun, fun _ => plainTag_intChars i⟩
  | real x =>
    cases h
    exact ⟨fun htag => hempty htag nofun, fun _ => plainTag_realScalar x⟩
  | str s =>
    cases h
    exact ⟨fun htag => hempty htag nofun, fun hne => (hne rfl).elim⟩
  | list | map => cases h
  | bytes | date | moment | tuple | set => exact hv.elim

end RouteDocs.Yaml
