import Mathlib.Data.List.Forall2
import RouteDocs.Proofs.Text.LowerCase
import RouteDocs.Rules.Basic

/-!
# RouteDocs.Proofs.Rules.Marks — marks before the values of rules

A rule starts with a mark up to letter case if it starts with a text whose lower case is the mark.  This
is told from the lower case of the whole rule, where a character may have become two and a sigma depends
on its neighbours.  But neither happens before the end of a mark, which is made of ASCII characters and
ends in a colon, so what follows the mark begins at the same place in both (`tail?_eq_some_iff`).
-/

namespace RouteDocs

open Text

namespace Text

/-- A character whose lower case is one character, whatever its neighbours are. -/
def Folds (c m : Char) : Prop := ∀ before after, lowerInContext before c after = [m]

section Folding

variable {before after head tail rest s word mark : List Char} {c m : Char}

/-- Lower case that starts with an ASCII character comes from a character of its own, but for the small
letter under the dot of a dotted capital. -/
theorem folds_of_lowerInContext (h : lowerInContext before c after = m :: rest) (hm : m.toNat < 128) :
    (Folds c m ∧ rest = []) ∨ (m = 'i' ∧ rest = [Char.ofNat 0x307]) := by
  by_cases hsigma : (c == 'Σ') = true
  · rw [lowerInContext, if_pos hsigma] at h
    obtain ⟨rfl, -⟩ := List.cons.inj h
    split at hm <;> exact absurd hm (by decide)
  · by_cases hdot : (c == 'İ') = true
    · rw [lowerInContext, if_neg hsigma, if_pos hdot] at h
      obtain ⟨rfl, rfl⟩ := List.cons.inj h
      exact .inr ⟨rfl, rfl⟩
    · have hone : Folds c (lowerChar c) :=
        lowerInContext_of_ne (by simpa using hsigma) (by simpa using hdot)
      rw [hone] at h
      obtain ⟨rfl, rfl⟩ := List.cons.inj h
      exact .inl ⟨hone, rfl⟩

/-- Characters that fold one by one stand before the lower case of the rest. -/
theorem lowerFrom_append (h : List.Forall₂ Folds head mark) (before tail : List Char) :
    lowerFrom before (head ++ tail) = mark ++ lowerFrom (head.reverse ++ before) tail := by
  induction h generalizing before with
  | nil => rfl
  | @cons c m head mark hc _ ih =>
    rw [List.cons_append, lowerFrom, hc, ih, List.reverse_cons, List.append_assoc]
    rfl

/-- A text whose lower case is ASCII folds character by character. -/
theorem forall₂_of_lowerFrom_eq (hmark : ∀ m ∈ mark, m.toNat < 128)
    (h : lowerFrom before head = mark) : List.Forall₂ Folds head mark := by
  induction head generalizing before mark with
  | nil =>
    obtain rfl : [] = mark := h
    exact .nil
  | cons c head ih =>
    rw [lowerFrom] at h
    obtain ⟨m, rest, hc⟩ := List.exists_cons_of_ne_nil (lowerInContext_ne_nil before c head)
    rw [hc, List.cons_append] at h
    subst h
    obtain ⟨hm, hrest⟩ := List.forall_mem_cons.mp hmark
    rcases folds_of_lowerInContext hc hm with ⟨hfolds, rfl⟩ | ⟨-, rfl⟩
    · exact .cons hfolds (ih hrest rfl)
    · exact absurd (hrest (Char.ofNat 0x307) List.mem_cons_self) (by decide)

/-- If the lower case of a text starts with ASCII characters, the text starts with a character that folds
to the first of them, unless that is the small letter of a dotted capital. -/
theorem exists_cons_of_prefix (hm : m.toNat < 128) (h : m :: mark <+: lowerFrom before s)
    (hnext : m = 'i' → ∃ d rest, mark = d :: rest ∧ d.toNat < 128) :
    ∃ c after, s = c :: after ∧ Folds c m ∧ mark <+: lowerFrom (c :: before) after := by
  cases s with
  | nil => exact absurd (List.eq_nil_of_prefix_nil h) (List.cons_ne_nil m mark)
  | cons c after =>
    rw [lowerFrom] at h
    obtain ⟨d, rest, hc⟩ := List.exists_cons_of_ne_nil (lowerInContext_ne_nil before c after)
    rw [hc, List.cons_append, List.cons_prefix_cons] at h
    obtain ⟨rfl, h⟩ := h
    rcases folds_of_lowerInContext hc hm with ⟨hfolds, rfl⟩ | ⟨hi, rfl⟩
    · exact ⟨c, after, rfl, hfolds, h⟩
    · -- the dot would have to go on the mark
      obtain ⟨e, rest, rfl, he⟩ := hnext hi
      obtain ⟨rfl, -⟩ := List.cons_prefix_cons.mp h
      exact absurd he (by decide)

/-- If the lower case of a text starts with a mark, the text starts with characters that fold to it. -/
theorem exists_head_of_mark (hword : ∀ m ∈ word, m.toNat < 128)
    (h : word ++ [':'] <+: lowerFrom before s) :
    ∃ head tail, s = head ++ tail ∧ List.Forall₂ Folds head (word ++ [':']) := by
  induction word generalizing before s with
  | nil =>
    obtain ⟨c, after, rfl, hfolds, -⟩ := exists_cons_of_prefix (by decide) h
      fun hcolon => absurd hcolon (by decide)
    exact ⟨[c], after, rfl, .cons hfolds .nil⟩
  | cons m word ih =>
    obtain ⟨hm, hword⟩ := List.forall_mem_cons.mp hword
    have hnext : ∃ d rest, word ++ [':'] = d :: rest ∧ d.toNat < 128 := by
      cases word with
      | nil => exact ⟨':', [], rfl, by decide⟩
      | cons d word => exact ⟨d, _, rfl, hword d List.mem_cons_self⟩
    obtain ⟨c, after, rfl, hfolds, hafter⟩ := exists_cons_of_prefix hm h fun _ => hnext
    obtain ⟨head, tail, rfl, hhead⟩ := ih hword hafter
    exact ⟨c :: head, tail, rfl, .cons hfolds hhead⟩

end Folding

end Text

/-! ### Marks -/

/-- A rule that starts with a mark up to letter case, and what follows the mark. -/
def Rule.Marked (mark : String) (r : Rule) (tail : String) : Prop :=
  ∃ head, lowered head = mark ∧ r.text = head ++ tail

/-- ASCII characters before a colon. -/
def IsMark (mark : String) : Prop :=
  ∃ word, mark.toList = word ++ [':'] ∧ ∀ m ∈ word, m.toNat < 128

section Marks

variable {mark word head tail : String} {r : Rule} {rules : List Rule}

theorem toList_lowered (s : String) : (lowered s).toList = lower s.toList := String.toList_ofList

theorem IsMark.ascii (h : IsMark mark) : ∀ m ∈ mark.toList, m.toNat < 128 := by
  obtain ⟨word, hmark, hword⟩ := h
  rw [hmark]
  exact List.forall_mem_append.mpr ⟨hword, by simp⟩

/-- A text whose lower case is a mark folds to it character by character. -/
theorem IsMark.folds (h : IsMark mark) (hhead : lowered head = mark) :
    List.Forall₂ Folds head.toList mark.toList :=
  forall₂_of_lowerFrom_eq h.ascii (by rw [← hhead, toList_lowered, lower])

/-- The lower case of a marked rule is the mark and then the lower case of what follows it, which is read
with the characters of the mark before it. -/
theorem toList_folded (hmark : IsMark mark) (hhead : lowered head = mark) (htext : r.text = head ++ tail) :
    r.folded.toList = mark.toList ++ lowerFrom head.toList.reverse tail.toList := by
  rw [Rule.folded, toList_lowered, htext, String.toList_append, lower,
    lowerFrom_append (hmark.folds hhead), List.append_nil]

/-- What follows a mark in the lower case of a rule is what follows it in the rule. -/
theorem tail?_eq_some_iff (hmark : IsMark mark) : r.tail? mark = some tail ↔ r.Marked mark tail := by
  rw [Rule.tail?]
  constructor
  · intro h
    obtain ⟨hstart, htail⟩ := Option.ite_none_right_eq_some.mp h
    obtain ⟨word, hword, hascii⟩ := hmark
    rw [List.isPrefixOf_iff_prefix, Rule.folded, toList_lowered, hword] at hstart
    obtain ⟨head, rest, htext, hfolds⟩ := exists_head_of_mark hascii hstart
    rw [← hword] at hfolds
    have hhead : lower head = mark.toList := by
      simpa [lower, lowerFrom] using lowerFrom_append hfolds [] []
    have hrest : rest = tail.toList := by
      rw [htext, ← hfolds.length_eq, List.drop_left] at htail
      rw [← Option.some.inj htail, String.toList_ofList]
    refine ⟨String.ofList head, ?_, ?_⟩
    · rw [lowered, String.toList_ofList, hhead, String.ofList_toList]
    · rw [← String.toList_inj, htext, hrest, String.toList_append, String.toList_ofList]
  · rintro ⟨head, hhead, htext⟩
    have hstart : mark.toList.isPrefixOf r.folded.toList = true := by
      rw [List.isPrefixOf_iff_prefix, toList_folded hmark hhead htext]
      exact List.prefix_append _ _
    rw [if_pos hstart, htext, String.toList_append, ← (hmark.folds hhead).length_eq, List.drop_left,
      String.ofList_toList]

/-- A rule starts with a mark up to letter case if its first characters, as many as the mark has, are the
mark in lower case. -/
theorem marked_iff (hmark : IsMark mark) :
    r.Marked mark tail ↔ lower (r.text.toList.take mark.length) = mark.toList ∧
      String.ofList (r.text.toList.drop mark.length) = tail := by
  constructor
  · rintro ⟨head, hhead, htext⟩
    rw [← String.length_toList, ← (hmark.folds hhead).length_eq, htext, String.toList_append,
      List.take_left, List.drop_left, String.ofList_toList, ← toList_lowered, hhead]
    exact ⟨rfl, rfl⟩
  · rintro ⟨hhead, rfl⟩
    refine ⟨String.ofList (r.text.toList.take mark.length), ?_, ?_⟩
    · rw [lowered, String.toList_ofList, hhead, String.ofList_toList]
    · rw [← String.toList_inj, String.toList_append, String.toList_ofList, String.toList_ofList,
        List.take_append_drop]

/-- The test on the lower case of a whole rule is one on its first characters alone. -/
theorem tail?_eq_ite (hmark : IsMark mark) :
    r.tail? mark = if lower (r.text.toList.take mark.length) = mark.toList
      then some (String.ofList (r.text.toList.drop mark.length)) else none := by
  refine Option.ext fun value => ?_
  rw [tail?_eq_some_iff hmark, marked_iff hmark, Option.ite_none_right_eq_some, Option.some.injEq]

theorem hasRule_iff : hasRule rules word = true ↔ ∃ r ∈ rules, lowered r.text = word := by
  simp [hasRule, Rule.folded]

/-- **The values after a mark** are what follows as many characters as the mark has, in the rules that
start with as many characters whose lower case is the mark, in the order of the rules.  The cut is the same
in a rule and in its lower case: the value is all of the rule but a text that folds to the mark, and the
lower case of the rule is the mark and what the value folds to. -/
theorem ruleValues_eq (hmark : IsMark mark) (spec : Value) :
    ruleValues (rulesOf spec) mark =
        ((rulesOf spec).filter fun r => lower (r.text.toList.take mark.length) = mark.toList).map
          (fun r => String.ofList (r.text.toList.drop mark.length)) ∧
      ∀ r ∈ rulesOf spec, ∀ value, r.tail? mark = some value →
        ∃ head, r.text = head ++ value ∧ head.length = mark.length ∧ lowered head = mark ∧
          r.folded.toList = mark.toList ++ lowerFrom head.toList.reverse value.toList := by
  constructor
  · rw [ruleValues, ← List.filterMap_eq_map', List.filterMap_filter]
    simp only [tail?_eq_ite hmark, decide_eq_true_eq]
  · intro r _ value h
    obtain ⟨head, hhead, htext⟩ := (tail?_eq_some_iff hmark).mp h
    refine ⟨head, htext, ?_, hhead, toList_folded hmark hhead htext⟩
    rw [← String.length_toList, ← String.length_toList, (hmark.folds hhead).length_eq]

/-- The Kelvin sign folds to the last letter of a mark, the dotless i does not fold to a letter of it; a
value keeps its dotted capital, whose lower case is two characters, and its sigma. -/
theorem ruleValues_eq_link :
    IsMark "link:" ∧
      ruleValues (rulesOf (.str "required| LIN\u212a:İΣ |link:b|l\u0131nk:c")) "link:" = ["İΣ", "b"] :=
  have hmark : IsMark "link:" := ⟨"link".toList, rfl, by simp⟩
  ⟨hmark, (ruleValues_eq hmark _).1.trans (by decide +kernel)⟩

end Marks

end RouteDocs
