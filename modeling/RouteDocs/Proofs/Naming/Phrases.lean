import RouteDocs.Proofs.Naming.Rewriting
import RouteDocs.Proofs.Text.LowerCase

/-!
# RouteDocs.Proofs.Naming.Phrases — the words of a name are in normal form

Gaps become single spaces, and trimming takes those at the ends, so every space that is left stands
between two words.  `Spaced` says so along the scan for gaps.  Lower case leaves no capital and makes no
gap, since nothing is moved to one (`isGap_of_mem_lowerInContext`).  In a text of this form there is
nothing left for any of the steps to do, so the words of a phrase are the phrase itself.
-/

namespace RouteDocs.Naming

open Text

/-! ### Gaps and letter case -/

section Letters

variable {c d : Char} {before after : List Char}

theorem isBlank_eq_false (h : isGap c = false) : isBlank c = false := by
  rw [isGap, Bool.or_eq_false_iff] at h
  exact h.2

theorem isGap_space : isGap ' ' = true := by decide

theorem mem_unreachedCodes_of_isGap (h : isGap c = true) : c.toNat ∈ unreachedCodes := by
  rw [isGap, Bool.or_eq_true, Bool.or_eq_true, beq_iff_eq, beq_iff_eq] at h
  rcases h with (rfl | rfl) | hblank
  · decide
  · decide
  · exact List.mem_append_right _ (mem_blankCodes_of_isBlank hblank)

/-- Lower case makes no gap of another character. -/
theorem isGap_of_mem_lowerInContext (hc : isGap c = false) (hd : d ∈ lowerInContext before c after) :
    isGap d = false := by
  rcases mem_lowerInContext hd with rfl | hspecial
  · rw [Bool.eq_false_iff]
    intro hgap
    rw [lowerChar_eq_of_mem (mem_unreachedCodes_of_isGap hgap), hc] at hgap
    cases hgap
  · have hall : ∀ d ∈ ['ς', 'σ', 'i', Char.ofNat 0x307], isGap d = false :=
      List.all_iff_forall_prop.mp (by decide)
    exact hall d hspecial

theorem isCapital_of_lowerChar (h : lowerChar c = c) : isCapital c = false := by
  rw [Bool.eq_false_iff]
  exact fun hcapital => of_isCapital (P := fun c => lowerChar c ≠ c) (by decide) hcapital h

end Letters

/-! ### Single spaces -/

/-- Words with single spaces between them: each space has a character after it that is no gap, and one
before it unless the text comes after a word. -/
inductive Spaced : (inGap : Bool) → List Char → Prop
  | nil {inGap : Bool} : Spaced inGap []
  | space {s : List Char} : s ≠ [] → Spaced true s → Spaced false (' ' :: s)
  | char {inGap : Bool} {c : Char} {s : List Char} : isGap c = false → Spaced false s →
    Spaced inGap (c :: s)

section Spaces

variable {b : Bool} {c : Char} {s u v before : List Char}

theorem Spaced.after_word (h : Spaced true s) : Spaced false s := by
  cases h with
  | nil => exact .nil
  | char hc hs => exact .char hc hs

theorem Spaced.append (hu : ∀ c ∈ u, isGap c = false) (hne : u ≠ []) (hs : Spaced false s) :
    Spaced b (u ++ s) := by
  induction u generalizing b with
  | nil => exact absurd rfl hne
  | cons c u ih =>
    rw [List.forall_mem_cons] at hu
    refine .char hu.1 ?_
    cases u with
    | nil => exact hs
    | cons d u => exact ih hu.2 (List.cons_ne_nil d u)

/-- White space at the start belongs to the gap before the text. -/
theorem dropWhile_singleGaps (b : Bool) (s : List Char) :
    (singleGaps b s).dropWhile isBlank = singleGaps true s := by
  induction s generalizing b with
  | nil => rfl
  | cons c r ih =>
    by_cases hc : isGap c = true
    · have htrue : singleGaps true (c :: r) = singleGaps true r := by
        rw [singleGaps, if_pos hc, if_pos rfl]
      rw [htrue]
      cases b with
      | true => rw [htrue, ih]
      | false =>
        rw [singleGaps, if_pos hc]
        exact ih true
    · rw [Bool.not_eq_true] at hc
      have hblank : ¬ isBlank c = true := Bool.eq_false_iff.mp (isBlank_eq_false hc)
      rw [singleGaps_cons_neg hc, singleGaps_cons_neg hc, List.dropWhile_cons_of_neg hblank]

theorem spaced_dropEndWhile (b : Bool) (s : List Char) :
    Spaced b (dropEndWhile isBlank (singleGaps b s)) := by
  induction s generalizing b with
  | nil => exact .nil
  | cons c r ih =>
    by_cases hc : isGap c = true
    · rw [singleGaps, if_pos hc]
      cases b with
      | true => exact ih true
      | false =>
        have hrest := ih true
        show Spaced false (dropEndWhile isBlank (' ' :: singleGaps true r))
        rw [dropEndWhile]
        cases hr : dropEndWhile isBlank (singleGaps true r) with
        | nil => exact .nil
        | cons d t =>
          rw [hr] at hrest
          exact .space (List.cons_ne_nil d t) hrest
    · rw [Bool.not_eq_true] at hc
      rw [singleGaps_cons_neg hc, dropEndWhile_cons_neg (isBlank_eq_false hc)]
      exact .char hc (ih false)

theorem spaced_trim (s : List Char) : Spaced true (trim (singleGaps false s)) := by
  rw [trim, dropWhile_singleGaps]
  exact spaced_dropEndWhile true s

theorem spaced_lowerFrom (h : Spaced b s) (before : List Char) : Spaced b (lowerFrom before s) := by
  induction h generalizing before with
  | nil => exact .nil
  | @space s hne _ ih =>
    have hspace : lowerInContext before ' ' s = [' '] :=
      lowerInContext_of_ne (by decide) (by decide) _ _
    rw [lowerFrom, hspace]
    refine .space ?_ (ih _)
    obtain ⟨c, r, rfl⟩ := List.exists_cons_of_ne_nil hne
    exact List.append_ne_nil_of_left_ne_nil (lowerInContext_ne_nil _ c r) _
  | @char _ c s hc _ ih =>
    rw [lowerFrom]
    exact .append (fun d hd => isGap_of_mem_lowerInContext hc hd) (lowerInContext_ne_nil _ c s) (ih _)

/-! ### What is left as it is -/

theorem getLast?_cons_eq_or (c : Char) (s : List Char) : (c :: s).getLast? = s.getLast?.or (some c) := by
  rw [List.getLast?_cons]
  cases s.getLast? <;> rfl

/-- No space is put before a character that is no capital. -/
theorem spacedFrom_append (previous : Option Char) (hu : ∀ c ∈ u, isCapital c = false) (v : List Char) :
    spacedFrom previous (u ++ v) = u ++ spacedFrom (u.getLast?.or previous) v := by
  induction u generalizing previous with
  | nil => rfl
  | cons c u ih =>
    rw [List.forall_mem_cons] at hu
    have hword : ¬ startsWord previous c (u ++ v).head? = true := by
      rw [startsWord, hu.1, Bool.false_and]
      exact Bool.false_ne_true
    rw [List.cons_append, spacedFrom, if_neg hword, ih _ hu.2, getLast?_cons_eq_or, Option.or_assoc]
    rfl

theorem singleGaps_of_spaced (h : Spaced b s) : singleGaps b s = s := by
  induction h with
  | nil => rfl
  | space _ _ ih => rw [singleGaps, if_pos isGap_space, if_neg Bool.false_ne_true, ih]
  | char hc _ ih => rw [singleGaps_cons_neg hc, ih]

theorem dropEndWhile_of_spaced (h : Spaced b s) : dropEndWhile isBlank s = s := by
  induction h with
  | nil => rfl
  | @space s hne _ ih =>
    obtain ⟨c, r, rfl⟩ := List.exists_cons_of_ne_nil hne
    rw [dropEndWhile, ih]
  | char hc _ ih => rw [dropEndWhile_cons_neg (isBlank_eq_false hc), ih]

theorem trim_of_spaced (h : Spaced true s) : trim s = s := by
  cases h with
  | nil => rfl
  | char hc hs => rw [trim_cons_neg (isBlank_eq_false hc), dropEndWhile_of_spaced hs]

theorem eq_space_of_spaced (h : Spaced b s) (hc : c ∈ s) (hgap : isGap c = true) : c = ' ' := by
  induction h with
  | nil => cases hc
  | space _ _ ih => exact (List.mem_cons.mp hc).elim id ih
  | char hd _ ih =>
    rcases List.mem_cons.mp hc with rfl | hlater
    · rw [hd] at hgap
      cases hgap
    · exact ih hlater

/-- Each space has a character that is no gap on both sides. -/
theorem Spaced.between (h : Spaced b s) (hs : s = u ++ ' ' :: v) :
    (u ≠ [] ∨ b = true → ∃ a ∈ u.getLast?, isGap a = false) ∧ ∃ d ∈ v.head?, isGap d = false := by
  induction h generalizing u with
  | nil => cases u <;> cases hs
  | @space s hne hspaced ih =>
    cases u with
    | nil =>
      obtain rfl : s = v := (List.cons.inj hs).2
      refine ⟨fun hor => hor.elim (absurd rfl) nofun, ?_⟩
      cases hspaced with
      | nil => exact absurd rfl hne
      | @char _ d _ hd _ => exact ⟨d, rfl, hd⟩
    | cons c u =>
      obtain ⟨hbefore, hafter⟩ := ih (List.cons.inj hs).2
      obtain ⟨a, ha, hgap⟩ := hbefore (.inr rfl)
      exact ⟨fun _ => ⟨a, List.mem_getLast?_cons ha, hgap⟩, hafter⟩
  | @char _ c s hc _ ih =>
    cases u with
    | nil =>
      obtain rfl := (List.cons.inj hs).1
      exact Bool.noConfusion (isGap_space.symm.trans hc)
    | cons c' u =>
      obtain ⟨rfl, hrest⟩ := List.cons.inj hs
      obtain ⟨hbefore, hafter⟩ := ih hrest
      refine ⟨fun _ => ?_, hafter⟩
      cases u with
      | nil => exact ⟨c, rfl, hc⟩
      | cons d u =>
        obtain ⟨a, ha, hgap⟩ := hbefore (.inl (List.cons_ne_nil d u))
        exact ⟨a, List.mem_getLast?_cons ha, hgap⟩

end Spaces

/-! ### Normal form -/

/-- A text in normal form: no capital, no underscore, no hyphen, and no white space but single spaces
between other characters. -/
structure IsPhrase (s : List Char) : Prop where
  noCapital : ∀ c ∈ s, isCapital c = false
  noUnderscore : '_' ∉ s
  noHyphen : '-' ∉ s
  blank : ∀ c ∈ s, isBlank c = true → c = ' '
  between : ∀ u v, s = u ++ ' ' :: v →
    (∃ a ∈ u.getLast?, isBlank a = false) ∧ ∃ d ∈ v.head?, isBlank d = false

section Words

variable {s : List Char}

theorem isPhrase_of_spaced (hs : Spaced true s) (hlower : ∀ c ∈ s, lowerChar c = c) : IsPhrase s := by
  have hgap : ∀ c ∈ s, isGap c = true → c = ' ' := fun c hc => eq_space_of_spaced hs hc
  constructor
  · exact fun c hc => isCapital_of_lowerChar (hlower c hc)
  · exact fun hc => absurd (hgap _ hc (by decide)) (by decide)
  · exact fun hc => absurd (hgap _ hc (by decide)) (by decide)
  · intro c hc hblank
    refine hgap c hc ?_
    rw [isGap, hblank, Bool.or_true]
  · intro u v huv
    obtain ⟨hbefore, d, hd, hgapd⟩ := hs.between huv
    obtain ⟨a, ha, hgapa⟩ := hbefore (.inr rfl)
    exact ⟨⟨a, ha, isBlank_eq_false hgapa⟩, d, hd, isBlank_eq_false hgapd⟩

theorem spaced_wordChars (name : List Char) : Spaced true (wordChars name) :=
  spaced_lowerFrom (spaced_trim _) []

/-- Each step leaves a text in normal form as it is. -/
theorem wordChars_eq_self (hs : Spaced true s) (hlower : ∀ c ∈ s, lowerChar c = c) :
    wordChars s = s := by
  have hspaces : spacedFrom none s = s := by
    have happend := spacedFrom_append none (fun c hc => isCapital_of_lowerChar (hlower c hc)) []
    rwa [List.append_nil, spacedFrom, List.append_nil] at happend
  rw [wordChars, hspaces, singleGaps_of_spaced hs.after_word, trim_of_spaced hs]
  exact lowerFrom_eq_self [] hlower

/-- **Words are in normal form.**  They come of three patterns whose matches are replaced, trimming and
lower case; what comes of them has no capital and no gap but single spaces inside; and its words are the
words themselves. -/
theorem words_normal (name : String) :
    (∃ p q r, Pattern.read {} "([A-Z]+)([A-Z][a-z])".toList = .ok p ∧
      Pattern.read {} "([a-z\\d])([A-Z])".toList = .ok q ∧
      Pattern.read {} "[_\\-\\s]+".toList = .ok r ∧
      (words name).toList = lower (trim (r.replaceAll (fun _ => [' '])
        (q.replaceAll spaced (p.replaceAll spaced name.toList))))) ∧
    IsPhrase (words name).toList ∧ words (words name) = words name := by
  have hwords : (words name).toList = wordChars name.toList := String.toList_ofList
  have hspaced := spaced_wordChars name.toList
  have hlower : ∀ c ∈ wordChars name.toList, lowerChar c = c := fun c => lowerChar_of_mem_lower
  refine ⟨⟨acronymPattern, capitalPattern, gapPattern, read_acronymPattern, read_capitalPattern,
    read_gapPattern, ?_⟩, ?_, ?_⟩
  · rw [hwords, replaceAll_patterns]
    rfl
  · rw [hwords]
    exact isPhrase_of_spaced hspaced hlower
  · rw [words, hwords, wordChars_eq_self hspaced hlower]
    rfl

end Words

end RouteDocs.Naming
