import Mathlib.Data.List.Infix
import RouteDocs.Route.Handler

/-!
# RouteDocs.Proofs.Route.Handler — the handler that an action names

A text is cut at the last place of a mark (`cutLast?_eq_some_iff`).  So an action names the handler whose
controller and method stand around its last `@` (`Handler.parse?_eq_some_iff`), and joining the two gives
the action back (`Handler.action_of_parse?`).
-/

namespace RouteDocs

namespace Text

/-! ### The last place of a mark -/

section LastMark

variable {mark : Char} {s t u v : List Char}

theorem cutLast?_of_not_mem (h : mark ∉ s) : cutLast? mark s = none := by
  induction s with
  | nil => rfl
  | cons c r ih =>
    rw [List.mem_cons, not_or] at h
    have hc : ¬ (c == mark) = true := by simpa using Ne.symm h.1
    rw [cutLast?, ih h.2]
    exact if_neg hc

theorem cutLast?_append_mark (u : List Char) (h : mark ∉ v) :
    cutLast? mark (u ++ mark :: v) = some (u, v) := by
  induction u with
  | nil =>
    rw [List.nil_append, cutLast?, cutLast?_of_not_mem h]
    exact if_pos (beq_self_eq_true mark)
  | cons c u ih => rw [List.cons_append, cutLast?, ih]

theorem exists_last_mark (h : mark ∈ s) : ∃ u v, s = u ++ mark :: v ∧ mark ∉ v := by
  obtain ⟨v, u, hs, hv⟩ := List.eq_append_cons_of_mem (List.mem_reverse.mpr h)
  refine ⟨u.reverse, v.reverse, ?_, by simpa using hv⟩
  rw [← List.reverse_reverse s, hs]
  simp

theorem cutLast?_eq_some_iff : cutLast? mark s = some (u, v) ↔ s = u ++ mark :: v ∧ mark ∉ v := by
  constructor
  · intro h
    have hmem : mark ∈ s := by
      by_contra hnot
      rw [cutLast?_of_not_mem hnot] at h
      cases h
    obtain ⟨u', v', rfl, hv⟩ := exists_last_mark hmem
    rw [cutLast?_append_mark u' hv] at h
    cases h
    exact ⟨rfl, hv⟩
  · rintro ⟨rfl, hv⟩
    exact cutLast?_append_mark u hv

theorem afterLast_of_not_mem (h : mark ∉ s) : afterLast mark s = s := by
  rw [afterLast, cutLast?_of_not_mem h]

theorem afterLast_append_mark (u : List Char) (h : mark ∉ v) :
    afterLast mark (u ++ mark :: v) = v := by
  rw [afterLast, cutLast?_append_mark u h]

/-- A text without the mark goes on what stands after the last mark before it. -/
theorem afterLast_append (s : List Char) (h : mark ∉ t) :
    afterLast mark (s ++ t) = afterLast mark s ++ t := by
  by_cases hs : mark ∈ s
  · obtain ⟨u, v, rfl, hv⟩ := exists_last_mark hs
    have hboth : mark ∉ v ++ t := by simp [hv, h]
    rw [List.append_assoc, List.cons_append, afterLast_append_mark u hv, afterLast_append_mark u hboth]
  · have hboth : mark ∉ s ++ t := by simp [hs, h]
    rw [afterLast_of_not_mem hs, afterLast_of_not_mem hboth]

end LastMark

end Text

namespace Handler

open Text

/-! ### Actions -/

/-- The action names the handler: the method is what follows its last `@`, the controller what comes
before, and neither of them is empty. -/
structure Names (h : Handler) (action : String) : Prop where
  action_eq : action = h.controller ++ "@" ++ h.method
  not_mem : '@' ∉ h.method.toList
  controller_ne : h.controller ≠ ""
  method_ne : h.method ≠ ""

variable {action : String} {h : Handler}

theorem parse?_eq_some_iff : parse? action = some h ↔ h.Names action := by
  constructor
  · intro hp
    unfold parse? at hp
    split at hp
    · rename_i c cs d ds hcut
      cases hp
      obtain ⟨haction, hlast⟩ := cutLast?_eq_some_iff.mp hcut
      refine ⟨?_, by simpa using hlast, by simp, by simp⟩
      rw [← String.toList_inj, haction]
      simp [String.toList_append]
    · cases hp
  · rintro ⟨rfl, hlast, hcontroller, hmethod⟩
    have hcut : cutLast? '@' (h.controller ++ "@" ++ h.method).toList =
        some (h.controller.toList, h.method.toList) := by
      rw [String.toList_append, String.toList_append, List.append_assoc]
      exact cutLast?_append_mark h.controller.toList hlast
    obtain ⟨c, cs, hc⟩ := List.exists_cons_of_ne_nil (mt String.toList_eq_nil_iff.mp hcontroller)
    obtain ⟨d, ds, hd⟩ := List.exists_cons_of_ne_nil (mt String.toList_eq_nil_iff.mp hmethod)
    rw [parse?, hcut, hc, hd]
    dsimp only
    rw [← hc, ← hd, String.ofList_toList, String.ofList_toList]

/-- A handler is found under the action that names it. -/
theorem action_of_parse? (hp : parse? action = some h) : h.action = action :=
  (parse?_eq_some_iff.mp hp).action_eq.symm

end Handler

end RouteDocs
