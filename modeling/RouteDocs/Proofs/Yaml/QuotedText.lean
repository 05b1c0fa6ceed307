import Mathlib.Data.Bool.AllAny
import RouteDocs.Proofs.Yaml.Escapes
import RouteDocs.Proofs.Yaml.PlainText

/-!
# RouteDocs.Proofs.Yaml.QuotedText — texts between quotes

Between quotes a text is words with gaps of spaces or breaks between them.  `QuotedText` relates what
is written to the text, and what is so written is read as the text (`readQuoted_append`).
-/

namespace RouteDocs.Yaml

/-- The text is empty or starts with a solid character. -/
def StartsSolid (t : List Char) : Prop := ∀ c ∈ t.head?, IsSolid c

/-- The quote around a text. -/
def quoteMark (double : Bool) : Char := if double then '"' else '\''

/-- A part of a text without gaps, as it is written between double or single quotes. -/
inductive QuotedWord (double : Bool) : (written text : List Char) → Prop
  | nil : QuotedWord double [] []
  | plain {c : Char} {t s : List Char} (hc : Cursor.isQuotedPlain c = true)
      (ha : isAllowed c = true) (h : QuotedWord double t s) : QuotedWord double (c :: t) (c :: s)
  | other {c : Char} {t s : List Char} (hc : c ∈ if double then ['\''] else ['"', '\\'])
      (h : QuotedWord double t s) : QuotedWord double (c :: t) (c :: s)
  | twice {t s : List Char} (hd : double = false) (h : QuotedWord double t s) :
      QuotedWord double ('\'' :: '\'' :: t) ('\'' :: s)
  | escape {e t s : List Char} {c : Char} (hd : double = true) (he : IsEscape e c)
      (h : QuotedWord double t s) : QuotedWord double (e ++ t) (c :: s)
  | fold {indent : Nat} {t s : List Char} (hd : double = true) (hpos : 0 < indent) (hne : t ≠ [])
      (hsolid : StartsSolid t) (h : QuotedWord double t s) :
      QuotedWord double ('\\' :: newLine indent ++ t) s

/-- A gap between words, as it is written between quotes. -/
inductive QuotedGap (double : Bool) : (written text : List Char) → Prop
  | blank (n : Nat) : QuotedGap double (spaces (n + 1)) (spaces (n + 1))
  | fold {indent : Nat} (hd : double = false) (hpos : 0 < indent) :
      QuotedGap double (newLine indent) [' ']
  | breaks {indent : Nat} {b : List Char} (hd : double = false) (hpos : 0 < indent) (hne : b ≠ [])
      (hbreak : ∀ c ∈ b, isBreak c = true) (hnext : '\x85' ∉ b) :
      QuotedGap double (foldBreaks indent b) b

/-- A text as it is written between quotes. -/
inductive QuotedText (double : Bool) : (written text : List Char) → Prop
  | word {t s : List Char} (h : QuotedWord double t s) : QuotedText double t s
  | gap {w v g x t s : List Char} (hw : QuotedWord double w v) (hg : QuotedGap double g x)
      (hsolid : StartsSolid t) (h : QuotedText double t s) :
      QuotedText double (w ++ (g ++ t)) (v ++ (x ++ s))

theorem QuotedGap.exists_cons {g x : List Char} (h : QuotedGap double g x) :
    ∃ a g', g = a :: g' ∧ ¬ IsSolid a := by
  have hspace : ¬ IsSolid ' ' := by unfold IsSolid; decide
  have hbreak : ∀ {a}, isBreak a = true → ¬ IsSolid a := by
    intro a ha h
    rw [(isSolid_iff.mp h).2.2] at ha
    cases ha
  cases h with
  | blank n => exact ⟨' ', spaces n, rfl, hspace⟩
  | @fold indent => exact ⟨'\n', spaces indent, rfl, hbreak (by decide)⟩
  | @breaks indent b hd hpos hne hb =>
    obtain ⟨a, b, rfl⟩ := List.exists_cons_of_ne_nil hne
    by_cases hline : a = '\n'
    · exact ⟨'\n', a :: b ++ spaces indent, by simp [foldBreaks, hline], hbreak (by decide)⟩
    · exact ⟨a, b ++ spaces indent, by simp [foldBreaks, hline], hbreak (hb a List.mem_cons_self)⟩

/-! ### Reading -/

namespace Cursor

variable {double : Bool} {c : Char} {t s r acc : List Char} {m : Mark} {fuel : Nat}

/-- What comes right after a word: the closing quote or a gap. -/
def EndsWord (double : Bool) (r : List Char) : Prop :=
  (∃ r', r = quoteMark double :: r' ∧ (double = false → r'.head? ≠ some '\'')) ∨
    ∃ c r', r = c :: r' ∧ ¬ IsSolid c

theorem isQuotedPlain_iff : isQuotedPlain c = true ↔ IsSolid c ∧ c ≠ '\'' ∧ c ≠ '"' ∧ c ≠ '\\' := by
  simp only [isQuotedPlain, isSolid_iff, Bool.not_eq_true', Bool.or_eq_false_iff, beq_eq_false_iff_ne,
    ne_eq]
  tauto

theorem readQuotedWord_plain (hc : isQuotedPlain c = true) :
    readQuotedWord double (fuel + 1) acc ⟨m, c :: r⟩ =
      readQuotedWord double (fuel + 1) (acc ++ [c]) ⟨m.step c, r⟩ := by
  rw [readQuotedWord, readQuotedWord, span_cons hc]
  generalize (⟨m.step c, r⟩ : Cursor).span isQuotedPlain = taken
  simp only [List.append_assoc, List.singleton_append]

theorem span_special (hc : isQuotedPlain c = false) :
    (⟨m, c :: r⟩ : Cursor).span isQuotedPlain = ([], ⟨m, c :: r⟩) :=
  span_of_ends (ends_cons_iff.mpr hc) m

theorem readQuotedWord_other (hc : c ∈ if double then ['\''] else ['"', '\\']) :
    readQuotedWord double (fuel + 1) acc ⟨m, c :: r⟩ =
      readQuotedWord double fuel (acc ++ [c]) ⟨m.step c, r⟩ := by
  cases double with
  | true =>
    obtain rfl : c = '\'' := by simpa using hc
    rw [readQuotedWord, span_special (by decide)]
    simp only [List.append_nil]
    split
    · rfl
    · rfl
    all_goals simp_all
  | false =>
    have hc' : c = '"' ∨ c = '\\' := by simpa using hc
    rcases hc' with rfl | rfl
    all_goals
      rw [readQuotedWord, span_special (by decide)]
      simp only [List.append_nil]
      rfl

theorem readQuotedWord_twice :
    readQuotedWord false (fuel + 1) acc ⟨m, '\'' :: '\'' :: r⟩ =
      readQuotedWord false fuel (acc ++ ['\'']) ⟨(m.step '\'').step '\'', r⟩ := by
  rw [readQuotedWord, span_special (by decide)]
  simp only [List.append_nil]
  rfl

theorem readQuotedWord_escape {e d : List Char} {after : Cursor}
    (h : readEscape ⟨m, '\\' :: e⟩ = .ok (d, after)) :
    readQuotedWord true (fuel + 1) acc ⟨m, '\\' :: e⟩ = readQuotedWord true fuel (acc ++ d) after := by
  rw [readQuotedWord, span_special (by decide)]
  simp only [List.append_nil]
  rw [if_pos trivial, h]
  rfl

theorem readQuotedWord_ends (h : EndsWord double r) :
    readQuotedWord double (fuel + 1) acc ⟨m, r⟩ = .ok (acc, ⟨m, r⟩) := by
  rcases h with ⟨r', rfl, hquote⟩ | ⟨c, r', rfl, hc⟩
  · cases double with
    | true =>
      rw [quoteMark, if_pos rfl, readQuotedWord, span_special (by decide)]
      simp only [List.append_nil]
      rfl
    | false =>
      have hnext := hquote rfl
      rw [quoteMark, if_neg (by decide), readQuotedWord, span_special (by decide)]
      simp only [List.append_nil]
      split
      · simp_all
      · rfl
      all_goals simp_all
  · have hplain : isQuotedPlain c = false := by
      rw [Bool.eq_false_iff, ne_eq, isQuotedPlain_iff]
      exact fun h => hc h.1
    have hmarks : c ≠ '\'' ∧ c ≠ '"' ∧ c ≠ '\\' := by
      refine ⟨?_, ?_, ?_⟩ <;> (rintro rfl; exact hc (by unfold IsSolid; decide))
    rw [readQuotedWord, span_special hplain]
    simp only [List.append_nil]
    split <;> simp_all

theorem atDocumentMark_cons (hhyphen : c ≠ '-') (hpoint : c ≠ '.') :
    (⟨m, c :: r⟩ : Cursor).atDocumentMark = false := by
  unfold atDocumentMark
  split <;> simp_all

/-- Breaks and the indentation after them. -/
theorem readBlankLines_append {b : List Char} (hb : ∀ c ∈ b, isBreak c = true) {n : Nat} (hpos : 0 < n)
    (hc : IsSolid c) (fuel : Nat) (hfuel : b.length < fuel) (acc : List Char) (m : Mark) :
    readBlankLines fuel acc ⟨m, b ++ (spaces n ++ c :: r)⟩ =
      .ok (acc ++ b.map breakText, ⟨m.steps (b ++ spaces n), c :: r⟩) := by
  obtain ⟨hspace, htab, hbreak⟩ := isSolid_iff.mp hc
  obtain ⟨fuel, rfl⟩ : ∃ f, fuel = f + 1 := ⟨fuel - 1, by omega⟩
  induction b generalizing fuel acc m with
  | nil =>
    have hends : Ends (fun a => a == ' ' || a == '\t') (c :: r) := ends_cons_iff.mpr (by simp [*])
    have hspaces : ∀ a ∈ spaces n, (a == ' ' || a == '\t') = true := fun a ha => by
      simp [mem_spaces ha]
    rw [List.nil_append, readBlankLines, atDocumentMark_spaces hpos, if_neg Bool.false_ne_true,
      span_append hspaces hends]
    simp [hbreak]
  | cons a b ih =>
    have ha : isBreak a = true := hb a List.mem_cons_self
    have hmark : (⟨m, a :: (b ++ (spaces n ++ c :: r))⟩ : Cursor).atDocumentMark = false := by
      apply atDocumentMark_cons <;> (rintro rfl; revert ha; decide)
    have hends : Ends (fun a => a == ' ' || a == '\t') (a :: (b ++ (spaces n ++ c :: r))) := by
      refine ends_cons_iff.mpr (Bool.or_eq_false_iff.mpr ⟨?_, ?_⟩) <;>
        (apply beq_false_of_ne; rintro rfl; revert ha; decide)
    obtain ⟨fuel, rfl⟩ : ∃ f, fuel = f + 1 := ⟨fuel - 1, by simp at hfuel; omega⟩
    rw [List.cons_append, readBlankLines, hmark, if_neg Bool.false_ne_true, span_of_ends hends]
    simp only [ha, if_true, next_cons]
    rw [ih (fun x hx => hb x (List.mem_cons_of_mem a hx)) _ _ _ (by simpa using hfuel)]
    simp

theorem readEscape_fold {indent : Nat} (hpos : 0 < indent) (hc : IsSolid c) :
    readEscape ⟨m, '\\' :: newLine indent ++ c :: r⟩ =
      .ok ([], ⟨m.steps ('\\' :: newLine indent), c :: r⟩) := by
  have hlines := readBlankLines_append (b := []) (r := r) (by simp) hpos hc
    ((spaces indent ++ c :: r).length + 1) (by simp) [] ((m.step '\\').step '\n')
  have hbreak : isBreak '\n' = true := by decide
  rw [newLine, List.cons_append, List.cons_append, readEscape]
  simp only [next_cons, namedEscape?, codeDigits?, hbreak, if_true]
  exact hlines

/-- A word is read up to the closing quote or a gap. -/
theorem readQuotedWord_append (h : QuotedWord double t s) (hr : EndsWord double r) (fuel : Nat)
    (hfuel : t.length < fuel) (acc : List Char) (m : Mark) :
    readQuotedWord double fuel acc ⟨m, t ++ r⟩ = .ok (acc ++ s, ⟨m.steps t, r⟩) := by
  obtain ⟨fuel, rfl⟩ : ∃ f, fuel = f + 1 := ⟨fuel - 1, by omega⟩
  induction h generalizing fuel acc m with
  | nil => simpa using readQuotedWord_ends hr
  | plain hc ha h ih =>
    rw [List.cons_append, readQuotedWord_plain hc, ih _ _ _ (by simp at hfuel; omega)]
    simp
  | other hc h ih =>
    obtain ⟨fuel, rfl⟩ : ∃ f, fuel = f + 1 := ⟨fuel - 1, by simp at hfuel; omega⟩
    rw [List.cons_append, readQuotedWord_other hc, ih _ _ _ (by simpa using hfuel)]
    simp
  | twice hd h ih =>
    subst hd
    obtain ⟨fuel, rfl⟩ : ∃ f, fuel = f + 1 := ⟨fuel - 1, by simp at hfuel; omega⟩
    rw [List.cons_append, List.cons_append, readQuotedWord_twice, ih _ _ _ (by simp at hfuel; omega)]
    simp
  | @escape e t s c hd he h ih =>
    subst hd
    obtain ⟨e', rfl⟩ := he.head
    obtain ⟨fuel, rfl⟩ : ∃ f, fuel = f + 1 := ⟨fuel - 1, by simp at hfuel; omega⟩
    have hread := he.read m (t ++ r)
    rw [List.append_assoc]
    rw [List.cons_append] at hread ⊢
    rw [readQuotedWord_escape hread, ih _ _ _ (by simp at hfuel; omega)]
    simp
  | @fold indent t s hd hpos hne hsolid h ih =>
    subst hd
    obtain ⟨c, t, rfl⟩ := List.exists_cons_of_ne_nil hne
    obtain ⟨fuel, rfl⟩ : ∃ f, fuel = f + 1 := ⟨fuel - 1, by simp at hfuel; omega⟩
    have hread := readEscape_fold (m := m) (r := t ++ r) hpos (hsolid c rfl)
    rw [List.append_assoc, List.cons_append, List.cons_append]
    rw [List.cons_append] at hread
    rw [readQuotedWord_escape hread, ← List.cons_append, ih _ _ _ (by simp at hfuel ⊢; omega)]
    simp

theorem map_breakText {b : List Char} (h : '\x85' ∉ b) : b.map breakText = b := by
  have hself : ∀ a ∈ b, breakText a = a := by
    intro a ha
    refine if_neg fun he => ?_
    exact h (beq_iff_eq.mp he ▸ ha)
  rw [List.map_congr_left hself, List.map_id']

/-- A break, further breaks and indentation are folded. -/
theorem readQuotedGap_breaks {a : Char} {b : List Char} (ha : isBreak a = true) (hnext : a ≠ '\x85')
    (hb : ∀ c ∈ b, isBreak c = true) (hnextb : '\x85' ∉ b) {n : Nat} (hpos : 0 < n) (hc : IsSolid c)
    (m : Mark) :
    readQuotedGap ⟨m, a :: (b ++ (spaces n ++ c :: r))⟩ =
      .ok (fold [a] b, ⟨m.steps (a :: (b ++ spaces n)), c :: r⟩) := by
  have hends : Ends (fun a => a == ' ' || a == '\t') (a :: (b ++ (spaces n ++ c :: r))) := by
    refine ends_cons_iff.mpr (Bool.or_eq_false_iff.mpr ⟨?_, ?_⟩) <;>
      (apply beq_false_of_ne; rintro rfl; revert ha; decide)
  have htext : breakText a = a := if_neg fun h => hnext (beq_iff_eq.mp h)
  have hlines := readBlankLines_append (r := r) hb hpos hc
    ((b ++ (spaces n ++ c :: r)).length + 1) (by rw [List.length_append]; omega) [] (m.step a)
  rw [readQuotedGap, span_of_ends hends]
  simp only [ha, if_true, takeBreak, next_cons, htext, hlines, map_breakText hnextb]
  rfl

/-- A gap is read up to the next word or the closing quote. -/
theorem readQuotedGap_append {g x : List Char} (h : QuotedGap double g x) (hc : IsSolid c) (m : Mark) :
    readQuotedGap ⟨m, g ++ c :: r⟩ = .ok (x, ⟨m.steps g, c :: r⟩) := by
  cases h with
  | blank n =>
    obtain ⟨hspace, htab, hbreak⟩ := isSolid_iff.mp hc
    have hends : Ends (fun a => a == ' ' || a == '\t') (c :: r) := ends_cons_iff.mpr (by simp [*])
    have hspaces : ∀ a ∈ spaces (n + 1), (a == ' ' || a == '\t') = true := fun a ha => by
      simp [mem_spaces ha]
    rw [readQuotedGap, span_append hspaces hends]
    simp [hbreak]
  | fold hd hpos =>
    exact readQuotedGap_breaks (b := []) (by decide) (by decide) (by simp) (by simp) hpos hc m
  | @breaks indent b hd hpos hne hbreak hnext =>
    obtain ⟨a, b, rfl⟩ := List.exists_cons_of_ne_nil hne
    have ha : isBreak a = true := hbreak a List.mem_cons_self
    have hnexta : a ≠ '\x85' := fun h => hnext (h ▸ List.mem_cons_self)
    by_cases hline : a = '\n'
    · subst hline
      -- the line feed that is written before it is read as nothing
      have hread := readQuotedGap_breaks (r := r) (by decide : isBreak '\n' = true) hnexta hbreak hnext
        hpos hc m
      have hbreaks : foldBreaks indent ('\n' :: b) = '\n' :: ('\n' :: b ++ spaces indent) := rfl
      rw [hbreaks]
      simpa [fold] using hread
    · have hread := readQuotedGap_breaks (r := r) ha hnexta
        (fun x hx => hbreak x (List.mem_cons_of_mem a hx)) (fun h => hnext (List.mem_cons_of_mem a h))
        hpos hc m
      have hbreaks : foldBreaks indent (a :: b) = a :: (b ++ spaces indent) := by
        simp [foldBreaks, hline]
      rw [hbreaks]
      simpa [fold, hline] using hread

theorem isSolid_quoteMark (double : Bool) : IsSolid (quoteMark double) := by
  cases double <;> (unfold IsSolid; decide)

/-- A text is read up to its closing quote. -/
theorem readQuotedRest_append (h : QuotedText double t s)
    (hr : double = false → r.head? ≠ some '\'') (fuel : Nat) (hfuel : t.length < fuel)
    (acc : List Char) (m : Mark) :
    readQuotedRest double fuel acc ⟨m, t ++ quoteMark double :: r⟩ =
      .ok (acc ++ s, ⟨m.steps (t ++ [quoteMark double]), r⟩) := by
  induction h generalizing fuel acc m with
  | @word t s hw =>
    obtain ⟨fuel, rfl⟩ : ∃ f, fuel = f + 1 := ⟨fuel - 1, by omega⟩
    have hword := readQuotedWord_append hw (.inl ⟨r, rfl, hr⟩)
      ((t ++ quoteMark double :: r).length + 1) (by rw [List.length_append]; omega) [] m
    rw [readQuotedRest, hword]
    simp [quoteMark, bind, Except.bind, pure, Except.pure]
  | @gap w v g x t s hw hg hsolid h ih =>
    obtain ⟨fuel, rfl⟩ : ∃ f, fuel = f + 1 := ⟨fuel - 1, by omega⟩
    obtain ⟨a, g', rfl, ha⟩ := hg.exists_cons
    obtain ⟨c, r', htail, hc⟩ : ∃ c r', t ++ quoteMark double :: r = c :: r' ∧ IsSolid c := by
      cases t with
      | nil => exact ⟨_, r, rfl, isSolid_quoteMark double⟩
      | cons c t => exact ⟨c, t ++ quoteMark double :: r, rfl, hsolid c rfl⟩
    have hquote : (a == if double then '"' else '\'') = false := by
      apply beq_false_of_ne
      rintro rfl
      exact ha (isSolid_quoteMark double)
    have hword := readQuotedWord_append (r := (a :: g') ++ c :: r') hw (.inr ⟨a, _, rfl, ha⟩)
      ((w ++ ((a :: g') ++ c :: r')).length + 1) (by rw [List.length_append]; omega) [] m
    have hgap := readQuotedGap_append (r := r') hg hc (m.steps w)
    rw [List.append_assoc, List.append_assoc, htail, readQuotedRest, hword]
    simp only [bind, Except.bind, List.nil_append, List.cons_append, hquote, Bool.false_eq_true,
      if_false]
    rw [← List.cons_append, hgap]
    simp only
    rw [← htail, ih _ (by simp at hfuel; omega)]
    simp

/-- A quoted scalar is read as its text. -/
theorem readQuoted_append (h : QuotedText double t s) (hr : double = false → r.head? ≠ some '\'')
    (m : Mark) :
    let written := quoteMark double :: t ++ [quoteMark double]
    readQuoted double ⟨m, written ++ r⟩ = .ok (String.ofList s, ⟨m.steps written, r⟩) := by
  have hrest := readQuotedRest_append h hr
    ((quoteMark double :: t ++ [quoteMark double] ++ r).length + 1) (by simp; omega) []
    (m.step (quoteMark double))
  simp only [readQuoted, List.cons_append, List.append_assoc, next_cons, List.nil_append] at hrest ⊢
  rw [hrest]
  rfl

end Cursor

/-! ### Words and gaps in front of a text -/

section Front

variable {double : Bool} {c : Char} {t t' s s' e : List Char} {indent : Nat}

theorem mem_marks (hc : c ∈ if double then ['\''] else ['"', '\\']) : c ∈ ['\'', '"', '\\'] := by
  cases double with
  | true => exact List.mem_cons.mpr (.inl (List.mem_singleton.mp hc))
  | false => exact List.mem_cons_of_mem _ hc

theorem startsSolid_cons_iff : StartsSolid (c :: t) ↔ IsSolid c := by simp [StartsSolid]

theorem QuotedWord.startsSolid (h : QuotedWord double t s) : StartsSolid t := by
  have hmark : ∀ a ∈ ['\'', '"', '\\'], IsSolid a := by
    unfold IsSolid
    exact List.all_iff_forall_prop.mp (by decide)
  cases h with
  | nil => nofun
  | plain hc => exact startsSolid_cons_iff.mpr (Cursor.isQuotedPlain_iff.mp hc).1
  | other hc =>
    exact startsSolid_cons_iff.mpr (hmark _ (mem_marks hc))
  | twice => exact startsSolid_cons_iff.mpr (hmark _ (by simp))
  | escape _ he =>
    obtain ⟨e', rfl⟩ := he.head
    exact startsSolid_cons_iff.mpr (hmark _ (by simp))
  | fold => exact startsSolid_cons_iff.mpr (hmark _ (by simp))

theorem QuotedWord.eq_nil (h : QuotedWord double [] s) : s = [] := by
  generalize ht : ([] : List Char) = t at h
  cases h with
  | nil => rfl
  | escape _ he =>
    obtain ⟨e', rfl⟩ := he.head
    cases ht
  | plain | other | twice | fold => cases ht

theorem QuotedWord.append (h : QuotedWord double t s) (h' : QuotedWord double t' s') :
    QuotedWord double (t ++ t') (s ++ s') := by
  induction h with
  | nil => exact h'
  | plain hc ha _ ih => exact .plain hc ha ih
  | other hc _ ih => exact .other hc ih
  | twice hd _ ih => exact .twice hd ih
  | escape hd he _ ih =>
    rw [List.append_assoc]
    exact .escape hd he ih
  | @fold indent t s hd hpos hne hsolid _ ih =>
    obtain ⟨a, t, rfl⟩ := List.exists_cons_of_ne_nil hne
    rw [List.append_assoc]
    exact .fold hd hpos (by simp) hsolid ih

theorem QuotedText.prepend (h : QuotedWord double t s) (h' : QuotedText double t' s') :
    QuotedText double (t ++ t') (s ++ s') := by
  cases h' with
  | word hw => exact .word (h.append hw)
  | gap hw hg hsolid h' =>
    rw [← List.append_assoc t, ← List.append_assoc s]
    exact .gap (h.append hw) hg hsolid h'

theorem QuotedText.escape (he : IsEscape e c) (h : QuotedText true t s) :
    QuotedText true (e ++ t) (c :: s) := by
  simpa using QuotedText.prepend (.escape rfl he .nil) h

theorem QuotedText.fold (hpos : 0 < indent) (hne : t ≠ []) (hsolid : StartsSolid t)
    (h : QuotedText true t s) : QuotedText true ('\\' :: newLine indent ++ t) s := by
  cases h with
  | word hw => exact .word (.fold rfl hpos hne hsolid hw)
  | @gap w v g x t s hw hg hsolid' h =>
    cases w with
    | nil =>
      obtain ⟨a, g', rfl, ha⟩ := hg.exists_cons
      exact absurd (hsolid a rfl) ha
    | cons a w =>
      have hfold : QuotedWord true ('\\' :: newLine indent ++ a :: w) v :=
        .fold rfl hpos (List.cons_ne_nil a w) hw.startsSolid hw
      rw [← List.append_assoc]
      exact .gap hfold hg hsolid' h

/-- Spaces come together in one gap. -/
theorem QuotedText.space (h : QuotedText true t s) : QuotedText true (' ' :: t) (' ' :: s) := by
  have hone : ∀ {t s : List Char}, StartsSolid t → QuotedText true t s →
      QuotedText true (' ' :: t) (' ' :: s) := fun hsolid h => .gap .nil (.blank 0) hsolid h
  cases h with
  | word hw => exact hone hw.startsSolid (.word hw)
  | @gap w v g x t s hw hg hsolid h =>
    cases w with
    | nil =>
      obtain rfl := hw.eq_nil
      cases hg with
      | blank n => exact .gap .nil (.blank (n + 1)) hsolid h
      | fold hd => cases hd
      | breaks hd => cases hd
    | cons a w =>
      refine hone ?_ (.gap hw hg hsolid h)
      rintro b hb
      exact hw.startsSolid b hb

/-- What is written between quotes may stand in a text. -/
theorem QuotedWord.allowed (h : QuotedWord double t s) : ∀ a ∈ t, isAllowed a = true := by
  have hmark : ∀ a ∈ ['\'', '"', '\\'], isAllowed a = true :=
    List.all_iff_forall_prop.mp (by decide)
  induction h with
  | nil => nofun
  | plain _ ha _ ih => exact List.forall_mem_cons.mpr ⟨ha, ih⟩
  | other hc _ ih =>
    exact List.forall_mem_cons.mpr ⟨hmark _ (mem_marks hc), ih⟩
  | twice _ _ ih =>
    exact List.forall_mem_cons.mpr ⟨hmark _ (by simp), List.forall_mem_cons.mpr ⟨hmark _ (by simp), ih⟩⟩
  | escape _ he _ ih => exact List.forall_mem_append.mpr ⟨fun a ha => (he.allowed a ha).1, ih⟩
  | fold _ _ _ _ _ ih =>
    exact List.forall_mem_cons.mpr
      ⟨hmark _ (by simp), List.forall_mem_append.mpr ⟨isAllowed_newLine _, ih⟩⟩

theorem QuotedText.allowed (h : QuotedText double t s) : ∀ a ∈ t, isAllowed a = true := by
  induction h with
  | word hw => exact hw.allowed
  | gap hw hg _ _ ih =>
    refine List.forall_mem_append.mpr ⟨hw.allowed, List.forall_mem_append.mpr ⟨?_, ih⟩⟩
    cases hg with
    | blank n => exact isAllowed_spaces _
    | fold => exact isAllowed_newLine _
    | @breaks indent b _ _ _ hbreak =>
      refine List.forall_mem_append.mpr ⟨List.forall_mem_append.mpr ⟨?_, fun a ha =>
        isAllowed_of_isBreak (hbreak a ha)⟩, isAllowed_spaces _⟩
      split <;> simp
      decide

end Front

end RouteDocs.Yaml
