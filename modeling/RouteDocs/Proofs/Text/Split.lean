import Mathlib.Data.List.Infix
import RouteDocs.Text.Split

/-!
# RouteDocs.Proofs.Text.Split — cutting texts and joining pieces

Pieces are joined as `List.intercalate` does (`joinWith_eq_intercalate`), and a text is cut at a character
as `List.splitOn` does (`splitAt_eq_splitOn`), so their laws are those of the library.  A separator of
several characters is passed over as a whole, from the left (`separator_induction`).  Nothing is lost by
cutting at it (`joinWith_splitAround`), and it does not occur in any piece
(`not_infix_of_mem_splitAround`).
-/

namespace RouteDocs.Text

variable {separator : List Char} {p piece s : List Char} {ps qs pieces rest : List (List Char)}
  {c mark : Char}

/-! ### Joining -/

theorem joinWith_eq_intercalate (separator : List Char) (ps : List (List Char)) :
    joinWith separator ps = separator.intercalate ps := by
  induction ps with
  | nil => rfl
  | cons p ps ih =>
    cases ps with
    | nil => simp [joinWith]
    | cons q ps => simp [joinWith_cons_cons, ih]

theorem joinWith_cons (s : List Char) (h : rest ≠ []) :
    joinWith separator (s :: rest) = s ++ separator ++ joinWith separator rest := by
  rw [joinWith_eq_intercalate, joinWith_eq_intercalate, List.intercalate_cons_of_ne_nil h]

theorem joinWith_head_cons (c : Char) (s : List Char) (rest : List (List Char)) :
    joinWith separator ((c :: s) :: rest) = c :: joinWith separator (s :: rest) := by
  rw [joinWith_eq_intercalate, joinWith_eq_intercalate, List.intercalate_cons_cons_left]

theorem joinWith_append (hp : ps ≠ []) (hq : qs ≠ []) :
    joinWith separator (ps ++ qs) = joinWith separator ps ++ separator ++ joinWith separator qs := by
  induction ps with
  | nil => exact absurd rfl hp
  | cons p ps ih =>
    cases ps with
    | nil => exact joinWith_cons p hq
    | cons p' ps =>
      rw [List.cons_append, joinWith_cons p (by simp), ih (List.cons_ne_nil p' ps), joinWith_cons_cons]
      simp

theorem prefix_joinWith (separator piece : List Char) (pieces : List (List Char)) :
    piece <+: joinWith separator (piece :: pieces) := by
  cases pieces with
  | nil => exact List.prefix_rfl
  | cons p ps => exact ⟨separator ++ joinWith separator (p :: ps), by simp [joinWith]⟩

theorem mem_joinWith (hpiece : piece ∈ ps) (hc : c ∈ piece) : c ∈ joinWith separator ps := by
  induction ps with
  | nil => cases hpiece
  | cons s rest ih =>
    cases rest with
    | nil => rwa [joinWith, ← List.mem_singleton.mp hpiece]
    | cons t rest =>
      rw [joinWith_cons_cons, List.mem_append, List.mem_append]
      rcases List.mem_cons.mp hpiece with rfl | hpiece
      · exact .inl (.inl hc)
      · exact .inr (ih hpiece)

theorem forall_mem_joinWith {P : Char → Prop} (hseparator : ∀ c ∈ separator, P c)
    (hpieces : ∀ piece ∈ ps, ∀ c ∈ piece, P c) : ∀ c ∈ joinWith separator ps, P c := by
  induction ps with
  | nil => nofun
  | cons s rest ih =>
    obtain ⟨hs, hrest⟩ := List.forall_mem_cons.mp hpieces
    cases rest with
    | nil => exact hs
    | cons t rest =>
      rw [joinWith_cons_cons]
      exact List.forall_mem_append.mpr ⟨List.forall_mem_append.mpr ⟨hs, hseparator⟩, ih hrest⟩

theorem length_joinWith (separator : List Char) (h : pieces ≠ []) :
    (joinWith separator pieces).length + separator.length =
      pieces.flatten.length + pieces.length * separator.length := by
  induction pieces with
  | nil => exact absurd rfl h
  | cons s rest ih =>
    cases rest with
    | nil => simp [joinWith]
    | cons t rest =>
      have hrest := ih (List.cons_ne_nil t rest)
      rw [joinWith_cons_cons, List.flatten_cons, List.length_append, List.length_append,
        List.length_append, List.length_cons, Nat.succ_mul]
      omega

/-! ### Cutting at a character -/

theorem splitAt_eq_splitOn (mark : Char) (s : List Char) : splitAt mark s = s.splitOn mark := by
  induction s with
  | nil => rfl
  | cons c s ih =>
    rw [splitAt, List.splitOn_cons_eq_if_modifyHead]
    obtain ⟨piece, pieces, hs⟩ := List.exists_cons_of_ne_nil (splitAt_ne_nil mark s)
    rw [← ih, hs]
    rfl

theorem splitAt_append (mark : Char) (s t : List Char) :
    splitAt mark (s ++ mark :: t) = splitAt mark s ++ splitAt mark t := by
  rw [splitAt_eq_splitOn, splitAt_eq_splitOn, splitAt_eq_splitOn, List.splitOn_append_cons_self]

theorem splitAt_eq_singleton (h : mark ∉ s) : splitAt mark s = [s] := by
  rw [splitAt_eq_splitOn, List.splitOn_eq_singleton h]

theorem not_mem_of_mem_splitAt (h : p ∈ splitAt mark s) : mark ∉ p := by
  induction s generalizing p with
  | nil =>
    obtain rfl := List.mem_singleton.mp h
    exact List.not_mem_nil
  | cons d s ih =>
    unfold splitAt at h
    split at h
    · rcases List.mem_cons.mp h with rfl | h
      · exact List.not_mem_nil
      · exact ih h
    · rename_i hd
      have hne : mark ≠ d := by
        rintro rfl
        exact hd (beq_self_eq_true mark)
      obtain ⟨q, qs, hqs⟩ := List.exists_cons_of_ne_nil (splitAt_ne_nil mark s)
      rw [hqs] at h ih
      rcases List.mem_cons.mp h with rfl | h
      · exact List.not_mem_cons_of_ne_of_not_mem hne (ih List.mem_cons_self)
      · exact ih (List.mem_cons_of_mem q h)

/-! ### Cutting at a separator -/

theorem splitFrom_eq_drop (separator : List Char) (k : ℕ) (s : List Char) :
    splitFrom separator k s = splitAround separator (s.drop k) := by
  induction s generalizing k with
  | nil => cases k <;> rfl
  | cons c r ih =>
    cases k with
    | zero => rfl
    | succ k => rw [splitFrom, ih, List.drop_succ_cons]

theorem splitAround_append (hne : separator ≠ []) (r : List Char) :
    splitAround separator (separator ++ r) = [] :: splitAround separator r := by
  obtain ⟨c, tail, rfl⟩ := List.exists_cons_of_ne_nil hne
  have hp : (c :: tail).isPrefixOf (c :: (tail ++ r)) = true :=
    List.isPrefixOf_iff_prefix.mpr ⟨r, rfl⟩
  show splitFrom (c :: tail) 0 (c :: (tail ++ r)) = _
  rw [splitFrom, if_pos hp, splitFrom_eq_drop]
  simp

theorem splitAround_ne_nil (separator s : List Char) : splitAround separator s ≠ [] := by
  cases s with
  | nil => simp [splitAround, splitFrom]
  | cons c r =>
    unfold splitAround splitFrom
    split
    · simp
    · split <;> simp

/-- Away from a separator the character joins the first piece of the rest. -/
theorem splitAround_cons {c : Char} {r : List Char} (h : ¬ separator <+: c :: r) :
    ∃ piece pieces, splitAround separator r = piece :: pieces ∧
      splitAround separator (c :: r) = (c :: piece) :: pieces := by
  have hp : separator.isPrefixOf (c :: r) = false := by
    rw [Bool.eq_false_iff]
    exact fun hp => h (List.isPrefixOf_iff_prefix.mp hp)
  obtain ⟨piece, pieces, hr⟩ := List.exists_cons_of_ne_nil (splitAround_ne_nil separator r)
  refine ⟨piece, pieces, hr, ?_⟩
  have hr' : splitFrom separator 0 r = piece :: pieces := hr
  show splitFrom separator 0 (c :: r) = _
  rw [splitFrom, hp, hr']
  rfl

/-- Along a text an occurrence of the separator is passed over as a whole, and any other character by
itself. -/
theorem separator_induction {motive : List Char → Prop} (hne : separator ≠ []) (nil : motive [])
    (occurrence : ∀ r, motive r → motive (separator ++ r))
    (char : ∀ c r, ¬ separator <+: c :: r → motive r → motive (c :: r)) (s : List Char) :
    motive s := by
  induction hn : s.length using Nat.strong_induction_on generalizing s with
  | _ n ih =>
    cases s with
    | nil => exact nil
    | cons c r =>
      by_cases hp : separator <+: c :: r
      · obtain ⟨t, ht⟩ := hp
        have hshorter : t.length < n := by
          have hlength := congrArg List.length ht
          have hpos := List.length_pos_of_ne_nil hne
          rw [List.length_append] at hlength
          omega
        rw [← ht]
        exact occurrence t (ih t.length hshorter t rfl)
      · have hshorter : r.length < n := by
          rw [List.length_cons] at hn
          omega
        exact char c r hp (ih r.length hshorter r rfl)

/-- Nothing is lost by cutting at a separator. -/
theorem joinWith_splitAround (hne : separator ≠ []) (s : List Char) :
    joinWith separator (splitAround separator s) = s := by
  induction s using separator_induction hne with
  | nil => rfl
  | occurrence r ih =>
    rw [splitAround_append hne, joinWith_cons _ (splitAround_ne_nil _ _), ih, List.nil_append]
  | char c r hp ih =>
    obtain ⟨piece, pieces, hr, hcr⟩ := splitAround_cons hp
    rw [hr] at ih
    rw [hcr, joinWith_head_cons, ih]

/-- No piece has an occurrence. -/
theorem not_infix_of_mem_splitAround (hne : separator ≠ []) (h : piece ∈ splitAround separator s) :
    ¬ separator <:+: piece := by
  induction s using separator_induction hne generalizing piece with
  | nil =>
    obtain rfl : piece = [] := by simpa [splitAround, splitFrom] using h
    simpa using hne
  | occurrence r ih =>
    rw [splitAround_append hne] at h
    rcases List.mem_cons.mp h with rfl | h
    · simpa using hne
    · exact ih h
  | char c r hp ih =>
    obtain ⟨first, pieces, hr, hcr⟩ := splitAround_cons hp
    rw [hr] at ih
    rw [hcr] at h
    rcases List.mem_cons.mp h with rfl | h
    · -- the first piece starts the text, so an occurrence at its start would be one at the text's
      have hstart : c :: first <+: c :: r := by
        have hjoin := joinWith_splitAround hne r
        rw [hr] at hjoin
        exact List.cons_prefix_cons.mpr ⟨rfl, hjoin ▸ prefix_joinWith separator first pieces⟩
      rw [List.infix_cons_iff, not_or]
      exact ⟨fun hpart => hp (hpart.trans hstart), ih List.mem_cons_self⟩
    · exact ih (List.mem_cons_of_mem first h)

/-! ### Occurrences -/

theorem occursIn_iff_isInfix {part s : List Char} : occursIn part s = true ↔ part <:+: s := by
  induction s with
  | nil => simp [occursIn]
  | cons c r ih =>
    rw [occursIn, Bool.or_eq_true, ih, List.isPrefixOf_iff_prefix, List.infix_cons_iff]

/-- A text is one piece exactly when the separator does not occur in it. -/
theorem splitAround_length_eq_one (hne : separator ≠ []) {s : List Char} :
    (splitAround separator s).length = 1 ↔ ¬ separator <:+: s := by
  induction s using separator_induction hne with
  | nil => simp [splitAround, splitFrom, hne]
  | occurrence r _ =>
    have hoccurs : separator <:+: separator ++ r := (List.prefix_append separator r).isInfix
    rw [splitAround_append hne]
    simp [splitAround_ne_nil, hoccurs]
  | char c r hp ih =>
    obtain ⟨piece, pieces, hr, hcr⟩ := splitAround_cons hp
    rw [hr] at ih
    rw [List.infix_cons_iff, not_or, ← ih, hcr]
    exact (and_iff_right hp).symm

end RouteDocs.Text
