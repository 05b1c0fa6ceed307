import RouteDocs.Proofs.Rules.Bounds
import RouteDocs.Proofs.Schema.Compile

/-!
# RouteDocs.Proofs.Schema.Totality — which rule sets compile

A rule set compiles whatever its fields and specs are, with one exception: a bound that is a whole
number of more digits than an integer may have stops it, even where the bound would count for nothing
(`exists_body_iff`).
-/

namespace RouteDocs

open Text Decimal Schema

namespace Schema

theorem judged_addField (b : Body) (field : String) (spec : Value) :
    Judged (boundTexts spec) (b.addField field spec) :=
  (judged_constraintsOf _ spec).map _

/-- Field by field, only a long bound is refused. -/
theorem judged_addFields (b : Body) (rules : RuleSet) :
    Judged (rules.flatMap fun r => boundTexts r.2) (b.addFields rules) := by
  induction rules generalizing b with
  | nil => exact .pure b
  | cons r rest ih => exact (judged_addField b r.1 r.2).bind fun b => ih b

theorem judged_compile (rules : RuleSet) :
    Judged (rules.flatMap fun r => boundTexts r.2) (compile rules) :=
  judged_addFields {} rules

end Schema

namespace Descriptor

variable {d : Descriptor}

theorem body_eq_error_iff {cause : Cause} :
    d.body = .error cause ↔ ∃ e, compile d.rules = .error e ∧ cause = .rule e := by
  unfold body
  cases compile d.rules <;> simp [eq_comm]

/-- A long bound among the rules leaves no body. -/
theorem not_exists_body_of_longBound {r : String × Value} {t : String} (hr : r ∈ d.rules)
    (ht : t ∈ boundTexts r.2) (hlong : LongBound t) : ¬ ∃ b, d.body = .ok b := by
  rintro ⟨b, hb⟩
  have hbounds := (judged_compile d.rules).exists_ok_iff.mp ⟨b, body_eq_ok_iff.mp hb⟩
  exact hbounds t (List.mem_flatMap.mpr ⟨r, hr, ht⟩) hlong

end Descriptor

/-- **Which descriptors have a body.**  All but those with a rule that gives a whole number of too many
digits as a bound; such a bound is what the failure names.  A bound with a fraction can always be read,
so nothing is left out in silence. -/
theorem exists_body_iff (d : Descriptor) :
    ((∃ b, d.body = .ok b) ↔ ∀ r ∈ d.rules, ∀ t ∈ boundTexts r.2, ¬ LongBound t) ∧
    (∀ cause, d.body = .error cause → ∃ r ∈ d.rules, ∃ t ∈ boundTexts r.2,
      LongBound t ∧ cause = .rule (.boundTooLong t)) ∧
    ∀ t : String, numberShape (trim t.toList) = .fractional →
      (readReal? (trim t.toList)).isSome = true := by
  have hjudged := judged_compile d.rules
  refine ⟨?_, fun cause hc => ?_, fun t => readReal?_isSome⟩
  · simp only [Descriptor.body_eq_ok_iff]
    rw [hjudged.exists_ok_iff, List.forall_mem_flatMap]
  · obtain ⟨e, hcompile, rfl⟩ := Descriptor.body_eq_error_iff.mp hc
    rw [hcompile] at hjudged
    cases hjudged with
    | @error t hmem hlong =>
      obtain ⟨r, hr, ht⟩ := List.mem_flatMap.mp hmem
      exact ⟨r, hr, t, ht, hlong, rfl⟩

/-- A signup form with bounds of every kind. -/
theorem exists_body_signup :
    ∃ b, (⟨[("age", .str "required|integer|min:18|max:120"), ("score", .str "numeric|min:-0.5"),
      ("name", .list [.str "string", .int 3, .str "max:٤٠"])], none⟩ : Descriptor).body = .ok b := by
  refine (exists_body_iff _).1.mpr ?_
  decide +kernel

/-- A flag with a bound of 4301 digits, which would count for nothing on a flag: no body is made. -/
theorem long_bound_stops_compile :
    ¬ ∃ b, (⟨[("flag", .list [.str "boolean",
      .str (String.ofList ("min:".toList ++ List.replicate 4301 '1'))])], none⟩ : Descriptor).body =
        .ok b :=
  Descriptor.not_exists_body_of_longBound (List.mem_singleton_self _) (mem_boundTexts_ones 4300)
    (longBound_ones le_rfl)

end RouteDocs
