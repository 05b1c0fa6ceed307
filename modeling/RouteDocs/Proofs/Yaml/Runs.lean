import Mathlib.Data.List.SplitBy
import RouteDocs.Proofs.Text.Surrogate
import RouteDocs.Proofs.Yaml.Place

/-!
# RouteDocs.Proofs.Yaml.Runs — the characters and the runs of a text

What can be written as it is may stand in a text, and of the gaps only spaces and breaks can be written
so.  A text is its runs one after the other, each of characters of one kind, neighbours of different
kinds (`areRuns_runsOf`).
-/

namespace RouteDocs.Yaml

open Text

/-! ### Characters -/

section Characters

variable {c : Char}

theorem isAllowed_of_isWritable (h : isWritable c = true) : isAllowed c = true := by
  have hcode := codeOf_cases c
  simp only [isWritable, isAllowed, isSurrogateCode, surrogatePlane, Bool.or_eq_true, Bool.and_eq_true,
    Bool.and_eq_false_iff, decide_eq_true_eq, decide_eq_false_iff_not, beq_iff_eq] at h hcode ⊢
  omega

theorem isAllowed_of_isBreak (h : isBreak c = true) : isAllowed c = true := by
  simp only [isBreak, Bool.or_eq_true, beq_iff_eq] at h
  rcases h with ((rfl | rfl) | rfl) | rfl <;> decide

theorem isAllowed_spaces (n : Nat) : ∀ a ∈ spaces n, isAllowed a = true := by
  intro a ha
  rw [mem_spaces ha]
  decide

theorem isAllowed_newLine (n : Nat) : ∀ a ∈ newLine n, isAllowed a = true :=
  List.forall_mem_cons.mpr ⟨by decide, isAllowed_spaces n⟩

theorem ne_of_isWritable (h : isWritable c = true) {d : Char} (hd : isWritable d = false) : c ≠ d := by
  rintro rfl
  rw [h] at hd
  cases hd

theorem isBreak_of_lineBreak (h : runKind c = .lineBreak) : isBreak c = true := by
  unfold runKind at h
  split at h
  · cases h
  · split at h
    · assumption
    · cases h

theorem eq_space_of_space (h : runKind c = .space) : c = ' ' := by
  unfold runKind at h
  split at h
  · rename_i hc
    exact beq_iff_eq.mp hc
  · split at h <;> cases h

theorem runKind_eq_word_iff : runKind c = .word ↔ c ≠ ' ' ∧ isBreak c = false := by
  unfold runKind
  by_cases hc : c = ' '
  · simp [hc]
  · cases hb : isBreak c <;> simp [hc]

end Characters

/-! ### Runs -/

/-- Parts of one kind each, neighbours of different kinds. -/
inductive AreRuns : List (List Char) → Prop
  | nil : AreRuns []
  | cons {k : RunKind} {r : List Char} {rs : List (List Char)} (hne : r ≠ [])
      (hkind : ∀ c ∈ r, runKind c = k) (hnext : ∀ r' ∈ rs.head?, ∀ c ∈ r'.head?, runKind c ≠ k)
      (hrest : AreRuns rs) : AreRuns (r :: rs)

/-- Neighbours of one kind make a run of that kind. -/
theorem runKind_eq_of_isChain {c : Char} {r : List Char}
    (h : (c :: r).IsChain fun a b => decide (runKind a = runKind b) = true) :
    ∀ d ∈ c :: r, runKind d = runKind c := by
  induction r generalizing c with
  | nil =>
    intro d hd
    rw [List.mem_singleton.mp hd]
  | cons e r ih =>
    obtain ⟨hce, htail⟩ := List.isChain_cons_cons.mp h
    intro d hd
    rcases List.mem_cons.mp hd with rfl | hd
    · rfl
    · exact (ih htail d hd).trans (of_decide_eq_true hce).symm

theorem areRuns_of_isChain {rs : List (List Char)} (hne : [] ∉ rs)
    (hone : ∀ r ∈ rs, r.IsChain fun a b => decide (runKind a = runKind b) = true)
    (hchain : rs.IsChain fun a b => ∃ ha hb, decide (runKind (a.getLast ha) = runKind (b.head hb)) =
      false) : AreRuns rs := by
  induction rs with
  | nil => exact .nil
  | cons r rs ih =>
    have hr : r ≠ [] := fun h => hne (h ▸ List.mem_cons_self)
    obtain ⟨c, s, rfl⟩ := List.exists_cons_of_ne_nil hr
    have hkind := runKind_eq_of_isChain (hone (c :: s) List.mem_cons_self)
    obtain ⟨hhead, htail⟩ := List.isChain_cons.mp hchain
    refine .cons hr hkind (fun r' hr' d hd => ?_)
      (ih (fun h => hne (List.mem_cons_of_mem _ h)) (fun r' h => hone r' (List.mem_cons_of_mem _ h))
        htail)
    obtain ⟨ha, hb, hdiff⟩ := hhead r' hr'
    have hlast : runKind ((c :: s).getLast ha) = runKind c := hkind _ (List.getLast_mem ha)
    have hfirst : r'.head hb = d := Option.some.inj ((List.head?_eq_some_head hb).symm.trans hd)
    rw [hlast, hfirst] at hdiff
    exact fun h => of_decide_eq_false hdiff h.symm

theorem areRuns_runsOf (s : List Char) : AreRuns (runsOf s) := by
  let same (a b : Char) : Bool := runKind a = runKind b
  have hchain := List.isChain_getLast_head_splitBy same s
  exact areRuns_of_isChain (List.nil_notMem_splitBy _ s) (fun _ => List.isChain_of_mem_splitBy) hchain

theorem flatten_runsOf (s : List Char) : (runsOf s).flatten = s := List.flatten_splitBy _ s

/-- A run of spaces. -/
theorem eq_spaces {r : List Char} (h : ∀ c ∈ r, runKind c = .space) : r = spaces r.length :=
  List.eq_replicate_of_mem fun c hc => eq_space_of_space (h c hc)

theorem head?_map_runKind {r : List Char} {k : RunKind} (hne : r ≠ []) (h : ∀ c ∈ r, runKind c = k) :
    r.head?.map runKind = some k := by
  obtain ⟨c, s, rfl⟩ := List.exists_cons_of_ne_nil hne
  exact congrArg some (h c List.mem_cons_self)

/-- Where there are no breaks, spaces are next to words. -/
theorem AreRuns.next {k : RunKind} {r r' : List Char} {rs : List (List Char)}
    (h : AreRuns (r :: r' :: rs)) (hk : k = .space ∨ k = .word) (hne : r ≠ [])
    (hkind : ∀ c ∈ r, runKind c = k) (hbreak : ∀ c ∈ r', isBreak c = false) :
    r' ≠ [] ∧ (∀ c ∈ r', runKind c = if k = .space then .word else .space) ∧ AreRuns (r' :: rs) := by
  obtain ⟨c, r, rfl⟩ := List.exists_cons_of_ne_nil hne
  cases h with
  | @cons k₁ _ _ _ hkind₁ hnext hrest =>
  obtain rfl : k₁ = k := (hkind₁ c List.mem_cons_self).symm.trans (hkind c List.mem_cons_self)
  cases id hrest with
  | @cons k₂ _ _ hne₂ hkind₂ _ _ =>
  obtain ⟨d, r', rfl⟩ := List.exists_cons_of_ne_nil hne₂
  have hd : runKind d ≠ k₁ := hnext _ rfl d rfl
  have hdbreak : runKind d ≠ .lineBreak := by
    intro hd
    exact absurd (isBreak_of_lineBreak hd) (by simp [hbreak d List.mem_cons_self])
  have hk₂ : k₂ = if k₁ = .space then .word else .space := by
    rw [hkind₂ d List.mem_cons_self] at hd hdbreak
    rcases hk with rfl | rfl <;> cases k₂ <;> simp_all
  exact ⟨hne₂, fun x hx => (hkind₂ x hx).trans hk₂, hrest⟩

/-! ### Writing runs -/

section Writing

variable {indent column : Nat} {split first : Bool} {word : List Char → List Char} {r : List Char}
  {rs : List (List Char)}

theorem writeRuns_word (hne : r ≠ []) (h : ∀ c ∈ r, runKind c = .word) :
    writeRuns indent split word column first (r :: rs) =
      word r ++ writeRuns indent split word (column + (word r).length) false rs := by
  rw [writeRuns, head?_map_runKind hne h]

theorem writeRuns_breaks (hne : r ≠ []) (h : ∀ c ∈ r, runKind c = .lineBreak) :
    writeRuns indent split word column first (r :: rs) =
      foldBreaks indent r ++ writeRuns indent split word indent false rs := by
  rw [writeRuns, head?_map_runKind hne h]

/-- A run of spaces is written as it is, or as a new line if it is a single space that splits the text
and something comes before and after it. -/
theorem writeRuns_spaces (indent : Nat) (split : Bool) (word : List Char → List Char) (column : Nat)
    (first : Bool) (rs : List (List Char)) (hne : r ≠ []) (h : ∀ c ∈ r, runKind c = .space) :
    (r = [' '] ∧ split = true ∧ first = false ∧ rs ≠ [] ∧
      writeRuns indent split word column first (r :: rs) =
        newLine indent ++ writeRuns indent split word indent false rs) ∨
    writeRuns indent split word column first (r :: rs) =
      r ++ writeRuns indent split word (column + r.length) false rs := by
  rw [writeRuns, head?_map_runKind hne h]
  dsimp only
  split
  · rename_i hcond
    simp only [Bool.and_eq_true, decide_eq_true_eq, Bool.not_eq_true', List.isEmpty_eq_false_iff]
      at hcond
    obtain ⟨⟨⟨⟨hone, -⟩, hsplit⟩, hfirst⟩, hrest⟩ := hcond
    refine .inl ⟨?_, hsplit, hfirst, hrest, rfl⟩
    rw [eq_spaces h, hone]
    rfl
  · exact .inr rfl

end Writing

end RouteDocs.Yaml
