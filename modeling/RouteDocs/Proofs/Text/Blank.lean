import Mathlib.Data.List.DropRight
import Mathlib.Data.List.TakeWhile
import RouteDocs.Text.Blank

/-!
# RouteDocs.Proofs.Text.Blank — trimming

The end of a text is dropped as `List.rdropWhile` does (`dropEndWhile_eq_rdropWhile`), so the laws are
those of the library.  Trimming twice is trimming once, and takes nothing but white space.
-/

namespace RouteDocs.Text

variable {p : Char → Bool} {s : List Char} {c : Char}

theorem dropEndWhile_cons_neg (hc : p c = false) (s : List Char) :
    dropEndWhile p (c :: s) = c :: dropEndWhile p s := by
  rw [dropEndWhile]
  cases dropEndWhile p s <;> simp [hc]

theorem dropEndWhile_eq_rdropWhile (p : Char → Bool) (s : List Char) :
    dropEndWhile p s = s.rdropWhile p := by
  induction s with
  | nil => rfl
  | cons c s ih =>
    rw [List.rdropWhile, List.reverse_cons, List.dropWhile_append, dropEndWhile, ih, List.rdropWhile]
    cases hs : s.reverse.dropWhile p with
    | nil =>
      -- nothing of the rest is left, so the first character is the last one
      cases hc : p c <;> simp [hc]
    | cons d r =>
      have hkept : ¬ (d :: r).isEmpty = true := Bool.false_ne_true
      rw [if_neg hkept, List.reverse_append]
      cases hr : (d :: r).reverse with
      | nil => exact absurd (List.reverse_eq_nil_iff.mp hr) (List.cons_ne_nil d r)
      | cons e t => rfl

theorem mem_dropEndWhile (hc : c ∈ s) (hp : p c = false) : c ∈ dropEndWhile p s := by
  rw [← List.rdropWhile_append_rtakeWhile (p := p) (l := s), List.mem_append] at hc
  rw [dropEndWhile_eq_rdropWhile]
  refine hc.resolve_right fun hend => ?_
  rw [List.mem_rtakeWhile_imp hend] at hp
  cases hp

/-- A text that does not start with white space is only trimmed at its end. -/
theorem trim_cons_neg (hc : isBlank c = false) (s : List Char) :
    trim (c :: s) = c :: dropEndWhile isBlank s := by
  rw [trim, List.dropWhile_cons_of_neg (by simp [hc]), dropEndWhile_cons_neg hc]

theorem trim_trim (s : List Char) : trim (trim s) = trim s := by
  unfold trim
  cases hs : s.dropWhile isBlank with
  | nil => rfl
  | cons c r =>
    have hc : isBlank c = false := by
      have hhead := List.head?_dropWhile_not isBlank s
      rw [hs] at hhead
      simpa using hhead
    rw [dropEndWhile_cons_neg hc, List.dropWhile_cons_of_neg (by simp [hc]), dropEndWhile_cons_neg hc]
    simp only [dropEndWhile_eq_rdropWhile, List.rdropWhile_idempotent]

/-- A text without white space is trimmed already. -/
theorem trim_eq_self (h : ∀ c ∈ s, isBlank c = false) : trim s = s := by
  have hblank : ∀ c ∈ s, ¬ isBlank c = true := fun c hc => Bool.eq_false_iff.mp (h c hc)
  have hstart : s.dropWhile isBlank = s :=
    List.dropWhile_eq_self_iff.mpr fun hs => hblank _ (List.getElem_mem hs)
  rw [trim, hstart, dropEndWhile_eq_rdropWhile]
  exact List.rdropWhile_eq_self_iff.mpr fun hs => hblank _ (List.getLast_mem hs)

/-- Trimming takes nothing but white space. -/
theorem mem_trim (hc : c ∈ s) (hblank : isBlank c = false) : c ∈ trim s := by
  refine mem_dropEndWhile ?_ hblank
  rw [← List.takeWhile_append_dropWhile (p := isBlank) (l := s), List.mem_append] at hc
  rcases hc with hc | hc
  · rw [List.mem_takeWhile_imp hc] at hblank
    cases hblank
  · exact hc

end RouteDocs.Text
