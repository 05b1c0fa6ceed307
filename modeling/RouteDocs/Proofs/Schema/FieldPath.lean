import RouteDocs.Proofs.Text.Split
import RouteDocs.Schema.FieldPath

/-!
# RouteDocs.Proofs.Schema.FieldPath — the names of a field path

The names of a field, joined again, are the field (`joinWith_names_parse`), so fields with the same names
are the same field (`names_parse_injective`).  A field is nested exactly when it has more than one name
(`isNested_eq_false_iff`).
-/

namespace RouteDocs

namespace Schema

open Text

/-! ### Names of a field -/

theorem itemSeparator_ne_nil : itemSeparator.toList ≠ [] := by decide

namespace FieldPath

theorem names_ne_nil (p : FieldPath) : p.names ≠ [] := List.cons_ne_nil _ _

theorem names_parse (field : String) :
    (parse field).names = (splitAround itemSeparator.toList field.toList).map String.ofList := by
  unfold parse
  obtain ⟨name, rest, h⟩ :=
    List.exists_cons_of_ne_nil (splitAround_ne_nil itemSeparator.toList field.toList)
  rw [h]
  rfl

/-- The names of a field, joined by the separator, are the field. -/
theorem joinWith_names_parse (field : String) :
    joinWith itemSeparator.toList ((parse field).names.map String.toList) = field.toList := by
  rw [names_parse, List.map_map]
  simpa [Function.comp_def] using joinWith_splitAround itemSeparator_ne_nil field.toList

theorem names_parse_injective : Function.Injective fun field => (parse field).names := by
  intro f g h
  have h' : (parse f).names = (parse g).names := h
  rw [← String.toList_inj, ← joinWith_names_parse f, ← joinWith_names_parse g, h']

end FieldPath

theorem isNested_eq_false_iff {field : String} :
    isNested field = false ↔ (FieldPath.parse field).rest = [] := by
  have hlen : (FieldPath.parse field).rest = [] ↔
      (splitAround itemSeparator.toList field.toList).length = 1 := by
    have h := congrArg List.length (FieldPath.names_parse field)
    rw [List.length_map] at h
    rw [← h, ← List.length_eq_zero_iff]
    simp [FieldPath.names]
  rw [hlen, splitAround_length_eq_one itemSeparator_ne_nil, ← occursIn_iff_isInfix,
    Bool.not_eq_true]
  rfl

/-- A field at the top has itself as its only name. -/
theorem names_of_not_nested {field : String} (h : isNested field = false) :
    (FieldPath.parse field).names = [field] := by
  have hrest := isNested_eq_false_iff.mp h
  have hjoin := FieldPath.joinWith_names_parse field
  rw [FieldPath.names, hrest] at hjoin ⊢
  rw [List.map_singleton, joinWith, String.toList_inj] at hjoin
  rw [hjoin]

end Schema

end RouteDocs
