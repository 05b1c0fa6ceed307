import RouteDocs.Proofs.Yaml.Runs

/-!
# RouteDocs.Proofs.Yaml.PlainText — texts without quotes

A text that may stand without quotes is written as its words with what is between them: spaces as they
are, or a new line for a single space (`plainText_writePlain`).  It is read up to what follows it, be
that a lower line or the colon after a key (`readPlainRest_plainText`).
-/

namespace RouteDocs.Yaml

/-- A character that is no space, no tab and no break. -/
def IsSolid (c : Char) : Prop := atGap [c] = false

/-- A word that is no structure inside a plain scalar. -/
structure IsPlainWord (w : List Char) : Prop where
  ne_nil : w ≠ []
  solid : ∀ c ∈ w, IsSolid c
  head : w.head? ≠ some '#'
  last : w.getLast? ≠ some ':'

/-- A text and one way to write it without quotes at an indentation. -/
inductive PlainText (indent : Nat) : (text written : List Char) → Prop
  | word {w : List Char} (hw : IsPlainWord w) : PlainText indent w w
  | gap {w s t : List Char} {n : Nat} (hw : IsPlainWord w) (hn : 0 < n) (h : PlainText indent s t) :
      PlainText indent (w ++ (spaces n ++ s)) (w ++ (spaces n ++ t))
  | fold {w s t : List Char} (hw : IsPlainWord w) (h : PlainText indent s t) :
      PlainText indent (w ++ (' ' :: s)) (w ++ (newLine indent ++ t))

section Solid

variable {c : Char} {r : List Char}

theorem isSolid_iff : IsSolid c ↔ c ≠ ' ' ∧ c ≠ '\t' ∧ isBreak c = false := by
  simp [IsSolid, atGap, and_assoc]

theorem atGap_of_isSolid (h : IsSolid c) (r : List Char) : atGap (c :: r) = false := h

theorem isSolid_of_word (hw : isWritable c = true) (hk : runKind c = .word) : IsSolid c := by
  obtain ⟨hspace, hbreak⟩ := runKind_eq_word_iff.mp hk
  exact isSolid_iff.mpr ⟨hspace, ne_of_isWritable hw (by decide), hbreak⟩

end Solid

/-! ### Writing -/

section Writing

variable {indent : Nat} {s t w : List Char}

/-- A text starts with a word. -/
theorem PlainText.exists_cons (h : PlainText indent s t) :
    ∃ c r, t = c :: r ∧ IsSolid c ∧ c ≠ '#' := by
  have key : ∀ {w : List Char}, IsPlainWord w → ∀ r, ∃ c r', w ++ r = c :: r' ∧ IsSolid c ∧ c ≠ '#' := by
    intro w hw r
    obtain ⟨c, w, rfl⟩ := List.exists_cons_of_ne_nil hw.ne_nil
    exact ⟨c, w ++ r, rfl, hw.solid c List.mem_cons_self, fun hc => hw.head (congrArg some hc)⟩
  cases h with
  | word hw => simpa using key hw []
  | gap hw => exact key hw _
  | fold hw => exact key hw _

/-- Words are looked at one by one: after a word its last character is the previous one. -/
theorem hasInnerIndicator_of_append {p : Char} {r : List Char}
    (h : hasInnerIndicator p (w ++ r) = false) (hw : w ≠ []) :
    hasInnerIndicator (w.getLast hw) r = false ∧ (startsWithGap r = true → w.getLast? ≠ some ':') ∧
      (isGap p = true → w.head? ≠ some '#') := by
  induction w generalizing p with
  | nil => exact absurd rfl hw
  | cons c w ih =>
    rw [List.cons_append, hasInnerIndicator, Bool.or_eq_false_iff, Bool.or_eq_false_iff] at h
    obtain ⟨⟨hcolon, hhash⟩, hrest⟩ := h
    have hfirst : isGap p = true → (c :: w).head? ≠ some '#' := by
      intro hp hc
      obtain rfl := Option.some.inj hc
      simp [hp] at hhash
    cases w with
    | nil =>
      -- the word ends here: what follows it tells whether a colon would be an indicator
      refine ⟨hrest, fun hr hc => ?_, hfirst⟩
      obtain rfl := Option.some.inj hc
      rw [List.nil_append, hr] at hcolon
      simp at hcolon
    | cons d w =>
      obtain ⟨hlast, hend, -⟩ := ih hrest (List.cons_ne_nil d w)
      exact ⟨hlast, hend, hfirst⟩

/-- The start of a text counts as the start of a word. -/
theorem hasInnerIndicator_of_hasIndicator (h : hasIndicator s = false) :
    hasInnerIndicator ' ' s = false := by
  cases s with
  | nil => rfl
  | cons c r =>
    simp only [hasIndicator, Bool.or_eq_false_iff] at h
    obtain ⟨-, ⟨hindicators, hlead⟩, hrest⟩ := h
    have hhash : (c == '#') = false := by
      apply beq_false_of_ne
      rintro rfl
      revert hindicators
      decide
    have hcolon : (c == ':' && startsWithGap r) = false := by
      cases hc : c == ':'
      · rfl
      · rw [hc, Bool.or_true, Bool.true_or, Bool.true_and] at hlead
        exact hlead
    rw [hasInnerIndicator, hcolon, hhash, hrest]
    rfl

theorem isPlainWord_of_run (hne : w ≠ []) (hkind : ∀ c ∈ w, runKind c = .word)
    (hwritable : ∀ c ∈ w, isWritable c = true) {p : Char} (hp : isGap p = true) {r : List Char}
    (hr : startsWithGap r = true) (h : hasInnerIndicator p (w ++ r) = false) : IsPlainWord w := by
  obtain ⟨-, hlast, hhead⟩ := hasInnerIndicator_of_append h hne
  exact ⟨hne, fun c hc => isSolid_of_word (hwritable c hc) (hkind c hc), hhead hp, hlast hr⟩

section Spaces

variable {g : List Char} (hne : g ≠ []) (hspace : ∀ c ∈ g, runKind c = .space)

include hne hspace

theorem startsWithGap_of_spaces (r : List Char) : startsWithGap (g ++ r) = true := by
  obtain ⟨d, g, rfl⟩ := List.exists_cons_of_ne_nil hne
  rw [eq_space_of_space (hspace d List.mem_cons_self)]
  rfl

theorem getLast_of_spaces : g.getLast hne = ' ' := eq_space_of_space (hspace _ (List.getLast_mem hne))

end Spaces

/-- Runs that start with a word, end with one and have no breaks are words with spaces between them. -/
theorem plainText_writeRuns {split : Bool} {rs : List (List Char)} (hne : w ≠ [])
    (hkind : ∀ c ∈ w, runKind c = .word) (hruns : AreRuns (w :: rs))
    (hwritable : ∀ c ∈ w ++ rs.flatten, isWritable c = true)
    (hbreak : ∀ c ∈ rs.flatten, isBreak c = false) (hlast : rs.flatten.getLast? ≠ some ' ')
    {p : Char} (hp : isGap p = true) (hind : hasInnerIndicator p (w ++ rs.flatten) = false)
    (column : Nat) (first : Bool) :
    PlainText indent (w ++ rs.flatten) (writeRuns indent split id column first (w :: rs)) := by
  -- two runs are taken at a time, so the induction is on their number
  induction hlen : rs.length using Nat.strongRecOn generalizing w rs p column first with
  | _ n ih =>
    rw [writeRuns_word hne hkind, id]
    have hword : ∀ c ∈ w, isWritable c = true := fun c hc => hwritable c (List.mem_append_left _ hc)
    rcases rs with _ | ⟨g, _ | ⟨v, rs⟩⟩
    · -- the last word
      have hw := isPlainWord_of_run hne hkind hword hp rfl hind
      simpa [writeRuns] using PlainText.word hw
    · -- spaces at the end, of which there are none
      exfalso
      obtain ⟨hg, hspace, -⟩ := hruns.next (.inr rfl) hne hkind (by simpa using hbreak)
      apply hlast
      rw [List.flatten_cons, List.flatten_nil, List.append_nil, List.getLast?_eq_some_getLast hg,
        getLast_of_spaces hg hspace]
    · -- a word, a gap and the words after it
      obtain ⟨hg, hspace, hruns'⟩ := hruns.next (.inr rfl) hne hkind
        fun c hc => hbreak c (List.mem_append_left _ hc)
      obtain ⟨hv, hvword, hruns''⟩ := hruns'.next (.inl rfl) hg hspace
        fun c hc => hbreak c (by simp [hc])
      have hgap := startsWithGap_of_spaces hg hspace (v ++ rs.flatten)
      have hw := isPlainWord_of_run hne hkind hword hp hgap (by simpa using hind)
      have hind' : hasInnerIndicator (g.getLast hg) (v ++ rs.flatten) = false :=
        (hasInnerIndicator_of_append (hasInnerIndicator_of_append hind hne).1 hg).1
      have hp' : isGap (g.getLast hg) = true := by
        rw [getLast_of_spaces hg hspace]
        rfl
      have hlast' : rs.flatten.getLast? ≠ some ' ' := by
        intro h
        apply hlast
        rw [List.flatten_cons, List.flatten_cons, List.getLast?_append, List.getLast?_append, h]
        rfl
      have hrest := fun column => ih rs.length (by simp at hlen; omega) hv hvword hruns''
        (fun x hx => hwritable x (List.mem_append_right _ (List.mem_append_right _ hx)))
        (fun x hx => hbreak x (List.mem_append_right _ (List.mem_append_right _ hx)))
        hlast' hp' hind' column false rfl
      rcases writeRuns_spaces indent split id (column + w.length) false (v :: rs) hg hspace with
        ⟨hone, -, -, -, heq⟩ | heq
      · -- one space is written as a new line
        rw [heq, hone]
        exact .fold hw (hrest indent)
      · -- the spaces are written as they are
        rw [heq, eq_spaces hspace]
        exact .gap hw (List.length_pos_iff.mpr hg) (hrest _)

/-- How a text that may stand without quotes is written. -/
theorem plainText_writePlain (hne : s ≠ []) (h : allowsPlain s = true) (p : Place) :
    PlainText p.indent s (writePlain p s) := by
  simp only [allowsPlain, Bool.and_eq_true, List.all_eq_true, Bool.not_eq_true', bne_iff_ne,
    isMultiline, List.any_eq_false] at h
  obtain ⟨⟨⟨⟨hwritable, hbreak⟩, hindicator⟩, hhead⟩, hlast⟩ := h
  have hruns := areRuns_runsOf s
  have hflat := flatten_runsOf s
  unfold writePlain
  generalize runsOf s = rs at hruns hflat ⊢
  subst hflat
  cases hruns with
  | nil => exact absurd rfl hne
  | @cons k w rs hw hkind hnext hrest =>
  -- the first run is a word, since the text starts with neither a space nor a break
  obtain ⟨c, w, rfl⟩ := List.exists_cons_of_ne_nil hw
  have hc : runKind c = .word := by
    refine runKind_eq_word_iff.mpr ⟨?_, ?_⟩
    · rintro rfl
      exact hhead rfl
    · exact Bool.eq_false_iff.mpr (hbreak c (by simp))
  have hword : ∀ d ∈ c :: w, runKind d = .word := fun d hd =>
    (hkind d hd).trans ((hkind c List.mem_cons_self).symm.trans hc)
  refine plainText_writeRuns (p := ' ') hw hword (.cons hw hkind hnext hrest)
    (by simpa using hwritable) (fun x hx => Bool.eq_false_iff.mpr (hbreak x (by simp [hx])))
    ?_ rfl (hasInnerIndicator_of_hasIndicator hindicator) _ _
  intro hspace
  apply hlast
  rw [List.flatten_cons, List.getLast?_append, hspace]
  rfl

/-- Only spaces and new lines are written that are not in the text. -/
theorem PlainText.allowed (h : PlainText indent s t) (hs : ∀ c ∈ s, isAllowed c = true) :
    ∀ c ∈ t, isAllowed c = true := by
  induction h with
  | word => exact hs
  | gap _ _ _ ih =>
    obtain ⟨hword, hgap⟩ := List.forall_mem_append.mp hs
    obtain ⟨hspaces, hrest⟩ := List.forall_mem_append.mp hgap
    exact List.forall_mem_append.mpr ⟨hword, List.forall_mem_append.mpr ⟨hspaces, ih hrest⟩⟩
  | fold _ _ ih =>
    obtain ⟨hword, hgap⟩ := List.forall_mem_append.mp hs
    obtain ⟨-, hrest⟩ := List.forall_mem_cons.mp hgap
    exact List.forall_mem_append.mpr
      ⟨hword, List.forall_mem_append.mpr ⟨isAllowed_newLine _, ih hrest⟩⟩

end Writing

/-! ### Reading -/

namespace Cursor

variable {indent : Nat} {parent : Int} {s t w r : List Char} {m : Mark}

theorem readPlainWord_append (hw : IsPlainWord w) (hr : plainStops false r = true) (m : Mark) :
    readPlainWord false m (w ++ r) = (w, ⟨m.steps w, r⟩) := by
  have key : ∀ v : List Char, (∀ c ∈ v, IsSolid c) → v.getLast? ≠ some ':' → ∀ m : Mark,
      readPlainWord false m (v ++ r) = (v, ⟨m.steps v, r⟩) := by
    intro v
    induction v with
    | nil =>
      -- the word is read: what follows stops it
      intro _ _ m
      cases r with
      | nil => rfl
      | cons a r => rw [List.nil_append, readPlainWord, if_pos hr]; rfl
    | cons a v ih =>
      intro hsolid hlast m
      have hgap : atGap (a :: (v ++ r)) = false := hsolid a List.mem_cons_self
      -- a colon stops a word only before a gap, and the last character is none
      have hcolon : (a == ':' && atGap (v ++ r)) = false := by
        cases v with
        | nil =>
          have ha : (a == ':') = false := beq_false_of_ne fun ha => hlast (congrArg some ha)
          rw [ha, Bool.false_and]
        | cons b v =>
          have hb : atGap (b :: (v ++ r)) = false := hsolid b (by simp)
          rw [List.cons_append, hb, Bool.and_false]
      have hstops : plainStops false (a :: (v ++ r)) = false := by
        simpa [plainStops, hgap] using hcolon
      have hlast' : v.getLast? ≠ some ':' := by
        intro h
        apply hlast
        rw [List.getLast?_cons, h]
        rfl
      rw [List.cons_append, readPlainWord, if_neg (by simp [hstops]),
        ih (fun c hc => hsolid c (List.mem_cons_of_mem a hc)) hlast']
      rfl
  exact key w hw.solid hw.last m

theorem ends_space (h : atGap r = false) : Ends (· == ' ') r := by
  intro c hc
  cases r with
  | nil => cases hc
  | cons a r =>
    obtain rfl := Option.some.inj hc
    exact beq_false_of_ne (isSolid_iff.mp h).1

theorem span_spaces (h : Ends (· == ' ') r) (n : Nat) (m : Mark) :
    (⟨m, spaces n ++ r⟩ : Cursor).span (· == ' ') = (spaces n, ⟨m.steps (spaces n), r⟩) :=
  span_append (fun c hc => by simp [mem_spaces hc]) h m

/-- Spaces inside a line are the gap between two words. -/
theorem readPlainGap_spaces {c : Char} (hc : IsSolid c) (n : Nat) (m : Mark) :
    readPlainGap ⟨m, spaces n ++ c :: r⟩ = (spaces n, false, ⟨m.steps (spaces n), c :: r⟩) := by
  have hbreak : isBreak c = false := (isSolid_iff.mp hc).2.2
  have hends : Ends (· == ' ') (c :: r) := ends_space (atGap_of_isSolid hc r)
  rw [readPlainGap, span_spaces hends]
  simp [hbreak]

theorem readPlainBreaks_spaces (hr : Ends (fun c => c == ' ' || isBreak c) r) (n : Nat) (m : Mark) :
    readPlainBreaks [] m (spaces n ++ r) = (true, [], ⟨m.steps (spaces n), r⟩) := by
  induction n generalizing m with
  | zero =>
    cases r with
    | nil => rfl
    | cons a r =>
      have ha := ends_cons_iff.mp hr
      rw [Bool.or_eq_false_iff] at ha
      rw [spaces, List.replicate_zero, List.nil_append, readPlainBreaks, if_neg (by simp [ha.1]),
        if_neg (by simp [ha.2])]
      rfl
  | succ n ih =>
    rw [spaces_succ, List.cons_append, readPlainBreaks, if_pos (by decide), ih]
    rfl

/-- A new line is a gap of one space. -/
theorem readPlainGap_newLine {k : Nat} (hr : Ends (fun c => c == ' ' || isBreak c) r)
    (hmark : (⟨m.step '\n', spaces k ++ r⟩ : Cursor).atDocumentMark = false) :
    readPlainGap ⟨m, newLine k ++ r⟩ = ([' '], true, ⟨m.steps (newLine k), r⟩) := by
  have hspan : (⟨m, '\n' :: (spaces k ++ r)⟩ : Cursor).span (· == ' ') =
      ([], ⟨m, '\n' :: (spaces k ++ r)⟩) := span_of_ends (ends_cons_iff.mpr (by decide)) m
  have hbreak : isBreak '\n' = true := by decide
  rw [newLine, List.cons_append, readPlainGap, hspan]
  simp only [hbreak, if_true, takeBreak, next_cons, hmark, Bool.false_eq_true, if_false,
    readPlainBreaks_spaces hr]
  rfl

/-- One word with the gap after it. -/
theorem readPlainRest_word (hw : IsPlainWord w) (hr : plainStops false r = true) {gap : List Char}
    {ended : Bool} {after : Cursor} (hgap : readPlainGap ⟨m.steps w, r⟩ = (gap, ended, after))
    (fuel : Nat) (acc before : List Char) (lineEnded : Bool) :
    readPlainRest false parent (fuel + 1) acc before lineEnded ⟨m, w ++ r⟩ =
      if gap.isEmpty || after.rest.head? == some '#' || decide ((after.mark.column : Int) < parent)
      then (acc ++ before ++ w, ended, after)
      else readPlainRest false parent fuel (acc ++ before ++ w) gap ended after := by
  have hhash : ((w ++ r).head? == some '#') = false := by
    obtain ⟨c, w, rfl⟩ := List.exists_cons_of_ne_nil hw.ne_nil
    exact beq_false_of_ne hw.head
  have hne : w.isEmpty = false := List.isEmpty_eq_false_iff.mpr hw.ne_nil
  rw [readPlainRest, if_neg (by simp only [hhash]; decide), readPlainWord_append hw hr]
  simp only [hne, Bool.false_eq_true, if_false, hgap, Bool.not_false, Bool.true_and]

/-- A plain scalar is read up to what stops it and the gap after it. -/
theorem readPlainRest_plainText {tail gap : List Char} {ended : Bool} {after : Cursor}
    (h : PlainText indent s t) (hpos : 0 < indent) (hparent : parent ≤ indent)
    (hcolumn : parent ≤ m.column + 1) (hstop : plainStops false tail = true)
    (hgap : readPlainGap ⟨m.steps t, tail⟩ = (gap, ended, after))
    (hend : gap = [] ∨ after.rest.head? = some '#' ∨ (after.mark.column : Int) < parent)
    {fuel : Nat} (hfuel : t.length < fuel) (acc before : List Char) (lineEnded : Bool) :
    readPlainRest false parent fuel acc before lineEnded ⟨m, t ++ tail⟩ =
      (acc ++ before ++ s, ended, after) := by
  induction h generalizing m acc before lineEnded fuel with
  | word hw =>
    -- the last word: the gap after it is empty, or what follows it is not of the scalar
    obtain ⟨fuel, rfl⟩ : ∃ f, fuel = f + 1 := ⟨fuel - 1, by omega⟩
    rw [readPlainRest_word hw hstop hgap, if_pos]
    rcases hend with rfl | h | h <;> simp [*]
  | @gap w s t n hw hn h ih =>
    -- a word and spaces: the next word stands further to the right
    obtain ⟨fuel, rfl⟩ : ∃ f, fuel = f + 1 := ⟨fuel - 1, by omega⟩
    obtain ⟨c, r, rfl, hc, hhash⟩ := h.exists_cons
    obtain ⟨k, rfl⟩ : ∃ k, n = k + 1 := ⟨n - 1, by omega⟩
    have hmark : m.column + 1 ≤ ((m.steps w).steps (spaces (k + 1))).column := by
      have hw' : m.column ≤ (m.steps w).column :=
        (Mark.steps_of_no_break fun d hd => (isSolid_iff.mp (hw.solid d hd)).2.2).2
      rw [Mark.column_steps_spaces]
      omega
    have hstop' : plainStops false (spaces (k + 1) ++ c :: (r ++ tail)) = true := rfl
    have hgap' := readPlainGap_spaces (r := r ++ tail) hc (k + 1) (m.steps w)
    have hinside : ¬ (((m.steps w).steps (spaces (k + 1))).column : Int) < parent := by omega
    have hlength : 0 < w.length := List.length_pos_iff.mpr hw.ne_nil
    rw [List.append_assoc, List.append_assoc, List.cons_append, readPlainRest_word hw hstop' hgap',
      decide_eq_false hinside, if_neg (by simp [hhash, spaces_succ]), ← List.cons_append,
      ih (by omega) (by simpa using hgap) (by simp at hfuel ⊢; omega)]
    simp
  | @fold w s t hw h ih =>
    -- a word and a new line: the next word stands at the indentation
    obtain ⟨fuel, rfl⟩ : ∃ f, fuel = f + 1 := ⟨fuel - 1, by omega⟩
    obtain ⟨c, r, rfl, hc, hhash⟩ := h.exists_cons
    have hcolumn' : ((m.steps w).steps (newLine indent)).column = indent := by simp
    have hstop' : plainStops false (newLine indent ++ c :: (r ++ tail)) = true := rfl
    have hends : Ends (fun c => c == ' ' || isBreak c) (c :: (r ++ tail)) := by
      obtain ⟨hspace, -, hbreak⟩ := isSolid_iff.mp hc
      exact ends_cons_iff.mpr (by simp [hspace, hbreak])
    have hgap' := readPlainGap_newLine (m := m.steps w) hends (atDocumentMark_spaces hpos _ _)
    have hinside : ¬ (((m.steps w).steps (newLine indent)).column : Int) < parent := by omega
    have hlength : 0 < w.length := List.length_pos_iff.mpr hw.ne_nil
    rw [List.append_assoc, List.append_assoc, List.cons_append, readPlainRest_word hw hstop' hgap',
      decide_eq_false hinside, if_neg (by simp [hhash]), ← List.cons_append,
      ih (by omega) (by simpa using hgap) (by simp at hfuel ⊢; omega)]
    simp

/-- A plain scalar before a lower line. -/
theorem readPlain_newLine {k : Nat} {n : Int} (h : PlainText indent s t) (hpos : 0 < indent)
    (hindent : n < indent) (hcolumn : n ≤ m.column) (hk : k ≤ n) (hr : StartsToken r) :
    readPlain false n ⟨m, t ++ (newLine k ++ r)⟩ =
      (String.ofList s, true, ⟨m.steps (t ++ newLine k), r⟩) := by
  have hends : Ends (fun c => c == ' ' || isBreak c) r := by
    intro c hc
    obtain ⟨hspace, hbreak, -⟩ := hr.solid c hc
    simp [hspace, hbreak]
  have hgap := readPlainGap_newLine (m := m.steps t) hends (hr.atDocumentMark_spaces k _)
  have hlow : (((m.steps t).steps (newLine k)).column : Int) < n + 1 := by
    rw [Mark.column_steps_newLine]
    omega
  rw [readPlain, readPlainRest_plainText h hpos (by omega) (by omega) rfl hgap (.inr (.inr hlow))
    (by rw [List.length_append]; omega), Mark.steps_append]
  rfl

/-- A plain scalar before the colon that makes it a key. -/
theorem readPlain_colon {n : Int} (h : PlainText indent s t) (hpos : 0 < indent)
    (hindent : n < indent) (hcolumn : n ≤ m.column) (hr : atGap r = true) :
    readPlain false n ⟨m, t ++ ':' :: r⟩ = (String.ofList s, false, ⟨m.steps t, ':' :: r⟩) := by
  have hspan : (⟨m.steps t, ':' :: r⟩ : Cursor).span (· == ' ') = ([], ⟨m.steps t, ':' :: r⟩) :=
    span_of_ends (ends_cons_iff.mpr (by decide)) _
  have hbreak : isBreak ':' = false := by decide
  have hgap : readPlainGap ⟨m.steps t, ':' :: r⟩ = ([], false, ⟨m.steps t, ':' :: r⟩) := by
    rw [readPlainGap, hspan]
    simp only [hbreak, Bool.false_eq_true, if_false]
  have hstop : plainStops false (':' :: r) = true := by simp [plainStops, hr]
  rw [readPlain, readPlainRest_plainText h hpos (by omega) (by omega) hstop hgap (.inl rfl)
    (by rw [List.length_append]; omega)]
  rfl

end Cursor

end RouteDocs.Yaml
