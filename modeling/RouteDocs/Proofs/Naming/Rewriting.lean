import Mathlib.Data.List.TakeWhile
import RouteDocs.Naming
import RouteDocs.Pattern.Reader
import RouteDocs.Proofs.Pattern.Replaced

/-!
# RouteDocs.Proofs.Naming.Rewriting — words are cut by three patterns

The words of a name come of three patterns whose matches are replaced one pattern after the other: an
acronym before a word, a small letter or digit before a capital, and a run of gaps.  The first gives back
the last capital of an acronym for the word that starts with it.  What the two of them do is to put a space
before some capitals, told from the neighbours of the capital alone (`insertSpaces`), and together they
choose those that `startsWord` chooses (`insertSpaces_insertSpaces`).
-/

namespace RouteDocs.Naming

open Text Pattern

/-! ### Letters -/

section Letters

variable {c : Char}

theorem isCapital_iff : isCapital c = true ↔ 65 ≤ c.toNat ∧ c.toNat ≤ 90 := by
  rw [isCapital, Bool.and_eq_true, decide_eq_true_iff, decide_eq_true_iff]
  rfl

theorem isSmall_iff : isSmall c = true ↔ 97 ≤ c.toNat ∧ c.toNat ≤ 122 := by
  rw [isSmall, Bool.and_eq_true, decide_eq_true_iff, decide_eq_true_iff]
  rfl

theorem isSmall_eq_false (h : isCapital c = true) : isSmall c = false := by
  rw [isCapital_iff] at h
  rw [Bool.eq_false_iff, ne_eq, isSmall_iff]
  omega

theorem isCapital_eq_false (h : isSmall c = true) : isCapital c = false := by
  rw [isSmall_iff] at h
  rw [Bool.eq_false_iff, ne_eq, isCapital_iff]
  omega

/-- What holds of the letters from `A` to `Z` holds of capitals. -/
theorem of_isCapital {P : Char → Prop} (hall : ∀ n ∈ List.range' 65 26, P (Char.ofNat n))
    (h : isCapital c = true) : P c := by
  rw [isCapital_iff] at h
  have hc := hall c.toNat (List.mem_range'_1.mpr (by omega))
  rwa [Char.ofNat_toNat] at hc

theorem isDecimalDigit_eq_false (h : isCapital c = true) : isDecimalDigit c = false :=
  of_isCapital (P := (isDecimalDigit · = false)) (by decide) h

end Letters

/-! ### Spaces before capitals -/

/-- Whether a text that comes after `previous` starts with a character of the kind. -/
def startsAt (starts : Option Char → Char → Option Char → Bool) (previous : Option Char) :
    List Char → Bool
  | [] => false
  | c :: r => starts previous c r.head?

/-- The text that comes after `previous`, with a space before every character of the kind. -/
def insertSpaces (starts : Option Char → Char → Option Char → Bool) :
    (previous : Option Char) → List Char → List Char
  | _, [] => []
  | previous, c :: r =>
    if startsAt starts previous (c :: r) then ' ' :: c :: insertSpaces starts (some c) r
    else c :: insertSpaces starts (some c) r

/-- A capital between a capital and a small letter. -/
def startsAfterCapital (previous : Option Char) (c : Char) (next : Option Char) : Bool :=
  isCapital c && previous.any isCapital && next.any isSmall

/-- A capital after a small letter or a digit. -/
def startsAfterSmall (previous : Option Char) (c : Char) (_next : Option Char) : Bool :=
  isCapital c && previous.any fun p => isSmall p || isDecimalDigit p

section Spaces

variable {starts : Option Char → Char → Option Char → Bool} {previous next : Option Char} {c : Char}
  {r s : List Char}

theorem insertSpaces_cons_pos (h : startsAt starts previous (c :: r) = true) :
    insertSpaces starts previous (c :: r) = ' ' :: c :: insertSpaces starts (some c) r := if_pos h

theorem insertSpaces_cons_neg (h : startsAt starts previous (c :: r) = false) :
    insertSpaces starts previous (c :: r) = c :: insertSpaces starts (some c) r :=
  if_neg (Bool.eq_false_iff.mp h)

theorem startsWord_eq :
    startsWord previous c next =
      (startsAfterCapital previous c next || startsAfterSmall previous c next) := by
  rw [startsWord, startsAfterCapital, startsAfterSmall, Bool.and_or_distrib_left, Bool.and_assoc,
    Bool.or_comm]

theorem spacedFrom_eq (previous : Option Char) (s : List Char) :
    spacedFrom previous s = insertSpaces startsWord previous s := by
  induction s generalizing previous with
  | nil => rfl
  | cons c r ih =>
    rw [spacedFrom, ih]
    rfl

/-- The two kinds of places are told from the neighbours, and the spaces put in for the first have no part
in the second. -/
theorem insertSpaces_insertSpaces (previous : Option Char) (s : List Char) :
    insertSpaces startsAfterSmall previous (insertSpaces startsAfterCapital previous s) =
      insertSpaces startsWord previous s := by
  induction s generalizing previous with
  | nil => rfl
  | cons c r ih =>
    have hword : startsAt startsWord previous (c :: r) =
        (startsAt startsAfterCapital previous (c :: r) || startsAfterSmall previous c r.head?) :=
      startsWord_eq
    by_cases hcapital : startsAt startsAfterCapital previous (c :: r) = true
    · have hspace : startsAt startsAfterSmall (some ' ')
          (c :: insertSpaces startsAfterCapital (some c) r) = false := Bool.and_false _
      rw [hcapital, Bool.true_or] at hword
      rw [insertSpaces_cons_pos hcapital, insertSpaces_cons_pos hword, insertSpaces_cons_neg rfl,
        insertSpaces_cons_neg hspace, ih]
    · rw [Bool.not_eq_true] at hcapital
      rw [hcapital, Bool.false_or] at hword
      rw [insertSpaces_cons_neg hcapital, insertSpaces, insertSpaces, ih, hword]
      rfl

end Spaces

/-! ### The patterns -/

def capitalNode : Node := .one ⟨[.range 65 90], false⟩ false false

def smallNode : Node := .one ⟨[.range 97 122], false⟩ false false

def wordEndNode : Node := .one ⟨[.range 97 122, .category .digit false], false⟩ false false

def gapNode : Node := .one ⟨[.code 95, .code 45, .category .blank false], false⟩ false false

/-- An acronym and the start of the word after it. -/
def acronymPattern : Pattern :=
  ⟨.seq (.group 1 (.loop .greedy 1 none capitalNode)) (.group 2 (.seq capitalNode smallNode)), 2⟩

/-- The end of a word and the capital after it. -/
def capitalPattern : Pattern := ⟨.seq (.group 1 wordEndNode) (.group 2 capitalNode), 2⟩

/-- Gaps between words. -/
def gapPattern : Pattern := ⟨.loop .greedy 1 none gapNode, 0⟩

/-- The groups of a match with spaces between them. -/
def spaced (m : Match) : List Char := joinWith [' '] m.groups

theorem read_acronymPattern : Pattern.read {} "([A-Z]+)([A-Z][a-z])".toList = .ok acronymPattern := rfl

theorem read_capitalPattern : Pattern.read {} "([a-z\\d])([A-Z])".toList = .ok capitalPattern := rfl

theorem read_gapPattern : Pattern.read {} "[_\\-\\s]+".toList = .ok gapPattern := rfl

/-! ### Two groups apart -/

/-- What a pattern does at a place: it fails, and no space belongs behind the next character; or it matches
two groups, and between them is the first place for a space. -/
inductive Step (p : Pattern) (starts : Option Char → Char → Option Char → Bool) : List Char → Prop
  | fails {s : List Char} : p.root.Fails s →
    (∀ c r, s = c :: r → startsAt starts (some c) r = false) → Step p starts s
  | cut {u w v : List Char} : w ≠ [] → p.root.Prefers (u ++ w) v [(2, w), (1, u)] →
    startsAt starts w.getLast? v = false →
    (∀ previous, startsAt starts previous (u ++ w ++ v) = false →
      insertSpaces starts previous (u ++ w ++ v) = u ++ ' ' :: w ++ insertSpaces starts w.getLast? v) →
    Step p starts (u ++ w ++ v)

section Scan

variable {p : Pattern} {starts : Option Char → Char → Option Char → Bool} {c d x : Char}
  {u v s : List Char}

theorem spaced_matchOf (hcount : p.groupCount = 2) (u w : List Char) :
    spaced (p.matchOf (u ++ w) [(2, w), (1, u)]) = u ++ ' ' :: w := by
  have hgroups : (p.matchOf (u ++ w) [(2, w), (1, u)]).groups = [u, w] := by
    rw [matchOf, hcount]
    rfl
  rw [spaced, hgroups, joinWith, joinWith, List.append_assoc]
  rfl

/-- A scan that goes on behind each match puts in all the spaces. -/
theorem rewrites_insertSpaces (hcount : p.groupCount = 2) (hstep : ∀ s, Step p starts s)
    (previous : Option Char) (s : List Char) (hs : startsAt starts previous s = false) :
    p.Rewrites spaced s (insertSpaces starts previous s) := by
  -- on the length, since the scan goes on behind a match and not at the next place
  induction hn : s.length using Nat.strong_induction_on generalizing previous s with
  | _ n ih =>
    subst hn
    cases hstep s with
    | fails hfails hnext =>
      cases s with
      | nil => exact rewrites_nil hfails
      | cons c r =>
        rw [insertSpaces_cons_neg hs]
        exact (ih _ (Nat.lt_succ_self _) _ r (hnext c r rfl) rfl).cons hfails
    | @cut u w v hw hprefers hnext hinsert =>
      have hpos := List.length_pos_iff.mpr hw
      have hshorter : v.length < (u ++ w ++ v).length := by
        rw [List.length_append, List.length_append]
        omega
      have hne : u ++ w ≠ [] := List.append_ne_nil_of_right_ne_nil u hw
      have hafter := (ih _ hshorter w.getLast? v hnext rfl).after hprefers hne
      rw [spaced_matchOf hcount] at hafter
      rw [hinsert previous hs]
      exact hafter

theorem test?_capitalNode : capitalNode.test? = some isCapital := by
  refine congrArg some (funext fun c => ?_)
  rw [Bool.eq_iff_iff, isCapital_iff]
  simp [CharClass.holds, Item.holds, le_codeOf_iff, codeOf_le_iff]

theorem test?_smallNode : smallNode.test? = some isSmall := by
  refine congrArg some (funext fun c => ?_)
  rw [Bool.eq_iff_iff, isSmall_iff]
  simp [CharClass.holds, Item.holds, le_codeOf_iff, codeOf_le_iff]

theorem test?_wordEndNode : wordEndNode.test? = some fun c => isSmall c || isDecimalDigit c := by
  refine congrArg some (funext fun c => ?_)
  rw [Bool.eq_iff_iff, Bool.or_eq_true, isSmall_iff]
  simp [CharClass.holds, Item.holds, Category.holds, le_codeOf_iff, codeOf_le_iff]

theorem test?_gapNode : gapNode.test? = some isGap := by
  refine congrArg some (funext fun c => ?_)
  have hunderscore : codeOf c = 95 ↔ c = '_' := codeOf_inj (d := '_')
  have hhyphen : codeOf c = 45 ↔ c = '-' := codeOf_inj (d := '-')
  rw [Bool.eq_iff_iff]
  simp [CharClass.holds, Item.holds, Category.holds, isGap, hunderscore, hhyphen, or_assoc]

/-! ### Acronyms before words -/

/-- An acronym, the capital that starts a word, and the small letter after it. -/
structure IsCutAcronym (u : List Char) (x d : Char) : Prop where
  ne_nil : u ≠ []
  capitals : ∀ c ∈ u, isCapital c = true
  capital : isCapital x = true
  small : isSmall d = true

theorem within_wordStart :
    (Node.group 2 (.seq capitalNode smallNode)).Within
      {w | ∃ x d, w = [x, d] ∧ isCapital x = true ∧ isSmall d = true} := by
  intro st k e hrun
  have hword := (Node.within_of_test test?_capitalNode).seq (Node.within_of_test test?_smallNode)
  obtain ⟨w, hw, hrest⟩ := hword.group st k e hrun
  obtain ⟨-, ⟨x, rfl, hx⟩, -, ⟨d, rfl, hd⟩, rfl⟩ := Language.mem_mul.mp hw
  exact ⟨[x, d], ⟨x, d, rfl, hx, hd⟩, hrest⟩

theorem within_acronym :
    acronymPattern.root.Within {w | ∃ u x d, IsCutAcronym u x d ∧ w = u ++ [x, d]} := by
  intro st k e hrun
  have hcapitals : (Node.group 1 (.loop .greedy 1 none capitalNode)).Within _ :=
    (Node.within_loop test?_capitalNode).group
  obtain ⟨w, hw, hrest⟩ := (hcapitals.seq within_wordStart) st k e hrun
  obtain ⟨u, hu, -, ⟨x, d, rfl, hx, hd⟩, rfl⟩ := Language.mem_mul.mp hw
  refine ⟨u ++ [x, d], ⟨u, x, d, ⟨?_, hu.passes, hx, hd⟩, rfl⟩, hrest⟩
  rintro rfl
  exact absurd hu.least_le (by decide)

/-- The last capital is left to the word, since no word starts with the small letter. -/
theorem IsCutAcronym.prefers (h : IsCutAcronym u x d) (v : List Char) :
    acronymPattern.root.Prefers (u ++ [x, d]) v [(2, [x, d]), (1, u)] := by
  have hx := Node.prefers_of_test test?_capitalNode h.capital ([d] ++ v)
  have hd := Node.prefers_of_test test?_smallNode h.small v
  have hpos := List.length_pos_iff.mpr h.ne_nil
  have hacronym : Node.IsRun isCapital 1 none 0 u := ⟨h.capitals, by omega, nofun⟩
  refine (hx.seq hd).group.greedy_group test?_capitalNode hacronym ?_
  intro w y hwy hne hrun
  -- a longer run ends behind `x`, for `d` is no capital
  have hstop : ∀ c ∈ w, c ≠ d := by
    rintro c hc rfl
    have hcapital := hrun.passes c (List.mem_append_right u hc)
    exact Bool.noConfusion (hcapital.symm.trans (isCapital_eq_false h.small))
  obtain ⟨c, w, rfl⟩ := List.exists_cons_of_ne_nil hne
  obtain rfl : w = [] := by
    cases w with
    | nil => rfl
    | cons c' w =>
      obtain rfl := (List.cons.inj (List.cons.inj hwy).2).1
      exact absurd rfl (hstop d (by simp))
  obtain rfl : d :: v = y := (List.cons.inj hwy).2
  refine within_wordStart.fails ?_
  rintro - ⟨x', d', rfl, hx', -⟩ hprefix
  obtain rfl := (List.cons_prefix_cons.mp hprefix).1
  exact Bool.noConfusion (hx'.symm.trans (isCapital_eq_false h.small))

/-- A space comes before the last capital of an acronym, and none before the others. -/
theorem IsCutAcronym.insertSpaces_eq (h : IsCutAcronym u x d) {previous : Option Char} (v : List Char)
    (hs : startsAt startsAfterCapital previous (u ++ [x, d] ++ v) = false) :
    insertSpaces startsAfterCapital previous (u ++ [x, d] ++ v) =
      u ++ ' ' :: [x, d] ++ insertSpaces startsAfterCapital (some d) v := by
  obtain ⟨hne, hcapitals, hx, hd⟩ := h
  induction u generalizing previous with
  | nil => exact absurd rfl hne
  | cons c u ih =>
    rw [List.forall_mem_cons] at hcapitals
    rw [List.cons_append, List.cons_append] at hs ⊢
    rw [insertSpaces_cons_neg hs]
    cases u with
    | nil =>
      have hcut : startsAt startsAfterCapital (some c) (x :: d :: v) = true := by
        simp [startsAt, startsAfterCapital, hcapitals.1, hx, hd]
      have hsmall : startsAt startsAfterCapital (some x) (d :: v) = false := by
        simp [startsAt, startsAfterCapital, isCapital_eq_false hd]
      show c :: insertSpaces startsAfterCapital (some c) (x :: d :: v) = _
      rw [insertSpaces_cons_pos hcut, insertSpaces_cons_neg hsmall]
      rfl
    | cons c' u =>
      have hcapital : (u ++ [x, d] ++ v).head?.any isSmall = false := by
        cases u with
        | nil => exact isSmall_eq_false hx
        | cons c'' u => exact isSmall_eq_false (hcapitals.2 c'' (by simp))
      have hinside : startsAt startsAfterCapital (some c) (c' :: u ++ [x, d] ++ v) = false := by
        rw [List.cons_append, List.cons_append, startsAt, startsAfterCapital, hcapital, Bool.and_false]
      rw [ih hinside (List.cons_ne_nil c' u) hcapitals.2]
      rfl

theorem step_acronym (s : List Char) : Step acronymPattern startsAfterCapital s := by
  by_cases hs : ∃ u x d v, IsCutAcronym u x d ∧ s = u ++ [x, d] ++ v
  · obtain ⟨u, x, d, v, h, rfl⟩ := hs
    refine .cut (List.cons_ne_nil x [d]) (h.prefers v) ?_ fun _ hprevious =>
      h.insertSpaces_eq v hprevious
    cases v with
    | nil => rfl
    | cons c v => simp [startsAt, startsAfterCapital, isCapital_eq_false h.small]
  · refine .fails (within_acronym.fails ?_) ?_
    · rintro - ⟨u, x, d, h, rfl⟩ ⟨v, hv⟩
      exact hs ⟨u, x, d, v, h, hv.symm⟩
    · rintro c (_ | ⟨x, _ | ⟨d, v⟩⟩) rfl
      · rfl
      · exact Bool.and_false _
      · rw [startsAt, startsAfterCapital, Bool.eq_false_iff, ne_eq, Bool.and_eq_true, Bool.and_eq_true]
        rintro ⟨⟨hx, hc⟩, hd⟩
        exact hs ⟨[c], x, d, v, ⟨List.cons_ne_nil c [], by simpa using hc, hx, hd⟩, rfl⟩

/-! ### Capitals after words -/

theorem within_capital :
    capitalPattern.root.Within
      {w | ∃ x c, w = [x, c] ∧ (isSmall x || isDecimalDigit x) = true ∧ isCapital c = true} := by
  intro st k e hrun
  have hend : (Node.group 1 wordEndNode).Within _ := (Node.within_of_test test?_wordEndNode).group
  have hcapital : (Node.group 2 capitalNode).Within _ := (Node.within_of_test test?_capitalNode).group
  obtain ⟨w, hw, hrest⟩ := (hend.seq hcapital) st k e hrun
  obtain ⟨-, ⟨x, rfl, hx⟩, -, ⟨c, rfl, hc⟩, rfl⟩ := Language.mem_mul.mp hw
  exact ⟨[x, c], ⟨x, c, rfl, hx, hc⟩, hrest⟩

theorem step_capital (s : List Char) : Step capitalPattern startsAfterSmall s := by
  by_cases hs : ∃ x c v, (isSmall x || isDecimalDigit x) = true ∧ isCapital c = true ∧ s = x :: c :: v
  · obtain ⟨x, c, v, hx, hc, rfl⟩ := hs
    have hend := Node.prefers_of_test test?_wordEndNode hx ([c] ++ v)
    have hcapital := Node.prefers_of_test test?_capitalNode hc v
    refine Step.cut (u := [x]) (w := [c]) (List.cons_ne_nil c []) (hend.group.seq hcapital.group) ?_
      fun previous (hprevious : startsAt startsAfterSmall previous (x :: c :: v) = false) => ?_
    · cases v with
      | nil => rfl
      | cons d v => simp [startsAt, startsAfterSmall, isSmall_eq_false hc, isDecimalDigit_eq_false hc]
    · have hcut : startsAt startsAfterSmall (some x) (c :: v) = true := by
        rw [startsAt, startsAfterSmall, hc]
        exact hx
      show insertSpaces startsAfterSmall previous (x :: c :: v) = _
      rw [insertSpaces_cons_neg hprevious, insertSpaces_cons_pos hcut]
      rfl
  · refine .fails (within_capital.fails ?_) ?_
    · rintro - ⟨x, c, rfl, hx, hc⟩ ⟨v, hv⟩
      exact hs ⟨x, c, v, hx, hc, hv.symm⟩
    · rintro x (_ | ⟨c, v⟩) rfl
      · rfl
      · rw [startsAt, startsAfterSmall, Bool.eq_false_iff, ne_eq, Bool.and_eq_true]
        rintro ⟨hc, hx⟩
        exact hs ⟨x, c, v, hx, hc, rfl⟩

/-! ### Gaps -/

/-- A text starts with a run of what passes a test, and goes on with something else. -/
theorem exists_run (test : Char → Bool) (s : List Char) :
    ∃ u v, s = u ++ v ∧ (∀ c ∈ u, test c = true) ∧ ∀ c r, v = c :: r → test c = false := by
  refine ⟨s.takeWhile test, s.dropWhile test, List.takeWhile_append_dropWhile.symm,
    fun c hc => List.mem_takeWhile_imp hc, fun c r hr => ?_⟩
  have hhead := List.head?_dropWhile_not test s
  rw [hr] at hhead
  exact hhead

theorem prefers_gap (hne : u ≠ []) (hu : ∀ c ∈ u, isGap c = true)
    (hv : ∀ c r, v = c :: r → isGap c = false) : gapPattern.root.Prefers u v [] := by
  have hpos := List.length_pos_iff.mpr hne
  have hrun : Node.IsRun isGap 1 none 0 u := ⟨hu, by omega, nofun⟩
  refine Node.prefers_loop test?_gapNode hrun fun c r hr hc => ?_
  rw [hv c r hr] at hc
  cases hc

theorem fails_gap (hs : ∀ c r, s = c :: r → isGap c = false) : gapPattern.root.Fails s := by
  refine (Node.within_loop test?_gapNode).fails ?_
  rintro (_ | ⟨c, u⟩) hu ⟨v, hv⟩
  · exact absurd hu.least_le (by decide)
  · have hc := hu.passes c List.mem_cons_self
    rw [hs c (u ++ v) hv.symm] at hc
    cases hc

theorem singleGaps_append (hu : ∀ c ∈ u, isGap c = true) (v : List Char) :
    singleGaps true (u ++ v) = singleGaps true v := by
  induction u with
  | nil => rfl
  | cons c u ih =>
    rw [List.forall_mem_cons] at hu
    rw [List.cons_append, singleGaps, if_pos hu.1, if_pos rfl, ih hu.2]

theorem singleGaps_cons_neg (hc : isGap c = false) (inGap : Bool) (r : List Char) :
    singleGaps inGap (c :: r) = c :: singleGaps false r :=
  if_neg (Bool.eq_false_iff.mp hc)

/-- A run of gaps that ends where no gap follows is one space. -/
theorem singleGaps_run (hne : u ≠ []) (hu : ∀ c ∈ u, isGap c = true)
    (hv : ∀ c r, v = c :: r → isGap c = false) :
    singleGaps false (u ++ v) = ' ' :: singleGaps false v := by
  obtain ⟨c, u, rfl⟩ := List.exists_cons_of_ne_nil hne
  rw [List.forall_mem_cons] at hu
  have hrest : singleGaps true v = singleGaps false v := by
    cases v with
    | nil => rfl
    | cons d r => rw [singleGaps_cons_neg (hv d r rfl), singleGaps_cons_neg (hv d r rfl)]
  rw [List.cons_append, singleGaps, if_pos hu.1, singleGaps_append hu.2, hrest]
  rfl

theorem rewrites_singleGaps (s : List Char) :
    gapPattern.Rewrites (fun _ => [' ']) s (singleGaps false s) := by
  induction hn : s.length using Nat.strong_induction_on generalizing s with
  | _ n ih =>
    subst hn
    obtain ⟨u, v, rfl, hu, hv⟩ := exists_run isGap s
    by_cases hne : u = []
    · subst hne
      rw [List.nil_append] at ih ⊢
      cases v with
      | nil => exact rewrites_nil (fails_gap hv)
      | cons c r =>
        rw [singleGaps_cons_neg (hv c r rfl)]
        exact (ih _ (Nat.lt_succ_self _) r rfl).cons (fails_gap hv)
    · have hpos := List.length_pos_iff.mpr hne
      have hshorter : v.length < (u ++ v).length := by
        rw [List.length_append]
        omega
      rw [singleGaps_run hne hu hv]
      exact (ih _ hshorter v rfl).after (prefers_gap hne hu hv) hne

end Scan

/-- What the three patterns make of a name, one after the other. -/
theorem replaceAll_patterns (name : List Char) :
    gapPattern.replaceAll (fun _ => [' '])
        (capitalPattern.replaceAll spaced (acronymPattern.replaceAll spaced name)) =
      singleGaps false (spacedFrom none name) := by
  have hnone : ∀ (starts : Option Char → Char → Option Char → Bool),
      (∀ c next, starts none c next = false) → ∀ s, startsAt starts none s = false := by
    intro starts hstarts s
    cases s with
    | nil => rfl
    | cons c r => exact hstarts c r.head?
  have hacronym := rewrites_insertSpaces rfl step_acronym none name
    (hnone _ (fun c next => by simp [startsAfterCapital]) name)
  have hcapital := rewrites_insertSpaces rfl step_capital none
    (insertSpaces startsAfterCapital none name) (hnone _ (fun c next => by simp [startsAfterSmall]) _)
  rw [replaceAll_of_rewrites hacronym, replaceAll_of_rewrites hcapital, insertSpaces_insertSpaces,
    ← spacedFrom_eq, replaceAll_of_rewrites (rewrites_singleGaps _)]

end RouteDocs.Naming
