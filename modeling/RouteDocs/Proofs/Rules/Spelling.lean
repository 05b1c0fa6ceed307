import Mathlib.Data.List.Forall2
import RouteDocs.Proofs.Interspersed
import RouteDocs.Proofs.Rules.Bounds

/-!
# RouteDocs.Proofs.Rules.Spelling — letter case and unknown rules

Texts that differ in the case of ASCII letters alone (`SameLetters`) have one lower case, since such a
letter is cased and no letter is passed over when a final sigma is looked for.  So rules are recognised in
any case, and no bound that is a number has letters.  A rule that is no known word and starts with no known
mark demands nothing.  All that rules demand is read from them in four ways (`SameDemands`).
-/

namespace RouteDocs

open Text Decimal

namespace Text

/-! ### Letters -/

/-- Two texts differ in the case of ASCII letters at most. -/
def SameLetters (s t : List Char) : Prop := s.map Char.toLower = t.map Char.toLower

instance (s t : List Char) : Decidable (SameLetters s t) := inferInstanceAs (Decidable (_ = _))

section Letters

variable {α : Type} {c d : Char} {s t before before' : List Char} {p : Char → Bool}

theorem sameLetters_iff :
    SameLetters s t ↔ List.Forall₂ (fun c d => c.toLower = d.toLower) s t := by
  rw [SameLetters, ← List.forall₂_eq_eq_eq, List.forall₂_map_left_iff, List.forall₂_map_right_iff]

theorem exists_of_isUpper (h : c.isUpper = true) : ∃ n < 26, c = Char.ofNat (65 + n) := by
  obtain ⟨hlow, hhigh⟩ : 65 ≤ c.toNat ∧ c.toNat ≤ 90 := of_decide_eq_true h
  refine ⟨c.toNat - 65, by omega, ?_⟩
  rw [Nat.add_sub_cancel' hlow, Char.ofNat_toNat]

/-- What is the same for every capital letter as for its small one is the same for all characters that
differ in case alone. -/
theorem eq_of_toLower_eq (f : Char → α)
    (hf : ∀ n < 26, f (Char.ofNat (65 + n)) = f (Char.ofNat (65 + n)).toLower)
    (h : c.toLower = d.toLower) : f c = f d := by
  have hlower : ∀ c : Char, f c = f c.toLower := by
    intro c
    by_cases hc : c.isUpper = true
    · obtain ⟨n, hn, rfl⟩ := exists_of_isUpper hc
      exact hf n hn
    · have hsame : c.toLower = c := dif_neg fun hrange => hc (decide_eq_true hrange)
      rw [hsame]
  rw [hlower c, hlower d, h]

theorem isBlank_eq (h : c.toLower = d.toLower) : isBlank c = isBlank d :=
  eq_of_toLower_eq isBlank (by decide) h

theorem isCased_eq (h : c.toLower = d.toLower) : isCased c = isCased d :=
  eq_of_toLower_eq isCased (by decide) h

theorem isCaseIgnorable_eq (h : c.toLower = d.toLower) : isCaseIgnorable c = isCaseIgnorable d :=
  eq_of_toLower_eq isCaseIgnorable (by decide) h

theorem isAlpha_eq (h : c.toLower = d.toLower) : c.isAlpha = d.isAlpha :=
  eq_of_toLower_eq Char.isAlpha (by decide) h

theorem lowerInContext_eq (before after : List Char) (h : c.toLower = d.toLower) :
    lowerInContext before c after = lowerInContext before d after := by
  have hparts := eq_of_toLower_eq (fun c => (c == 'Σ', c == 'İ', lowerChar c)) (by decide) h
  simp only [Prod.mk.injEq] at hparts
  rw [lowerInContext, lowerInContext, hparts.1, hparts.2.1, hparts.2.2]

/-! ### Lower case -/

theorem meetsCased_eq (h : SameLetters s t) : meetsCased s = meetsCased t := by
  rw [sameLetters_iff] at h
  induction h with
  | nil => rfl
  | @cons c d s t hc _ ih =>
    unfold meetsCased at ih ⊢
    rw [List.dropWhile_cons, List.dropWhile_cons, isCaseIgnorable_eq hc]
    by_cases hd : isCaseIgnorable d = true
    · rw [if_pos hd, if_pos hd]
      exact ih
    · rw [if_neg hd, if_neg hd]
      exact isCased_eq hc

theorem lowerFrom_eq (hbefore : SameLetters before before') (h : SameLetters s t) :
    lowerFrom before s = lowerFrom before' t := by
  have hpairs := sameLetters_iff.mp h
  clear h
  induction hpairs generalizing before before' with
  | nil => rfl
  | @cons c d s t hc hrest ih =>
    have hnext : SameLetters (c :: before) (d :: before') := by
      rw [SameLetters, List.map_cons, List.map_cons, hc, hbefore]
    have hhere : lowerInContext before c s = lowerInContext before' d t := by
      rw [lowerInContext_eq before s hc]
      unfold lowerInContext
      rw [meetsCased_eq hbefore, meetsCased_eq (sameLetters_iff.mpr hrest)]
    rw [lowerFrom, lowerFrom, hhere, ih hnext]

/-- The case of ASCII letters is lost in lower case. -/
theorem lower_eq (h : SameLetters s t) : lower s = lower t := lowerFrom_eq rfl h

/-! ### Trimming -/

theorem SameLetters.dropEndWhile (h : SameLetters s t)
    (hp : ∀ c d : Char, c.toLower = d.toLower → p c = p d) :
    SameLetters (dropEndWhile p s) (dropEndWhile p t) := by
  rw [sameLetters_iff] at h ⊢
  induction h with
  | nil => exact .nil
  | @cons c d s t hc _ ih =>
    rw [Text.dropEndWhile, Text.dropEndWhile]
    generalize Text.dropEndWhile p s = s', Text.dropEndWhile p t = t' at ih
    cases ih with
    | nil =>
      dsimp only
      rw [hp c d hc]
      by_cases hd : p d = true
      · rw [if_pos hd, if_pos hd]
        exact .nil
      · rw [if_neg hd, if_neg hd]
        exact .cons hc .nil
    | cons hnext hrest => exact .cons hc (.cons hnext hrest)

theorem SameLetters.dropWhile (h : SameLetters s t)
    (hp : ∀ c d : Char, c.toLower = d.toLower → p c = p d) :
    SameLetters (s.dropWhile p) (t.dropWhile p) := by
  rw [sameLetters_iff] at h
  induction h with
  | nil => rfl
  | @cons c d s t hc hrest ih =>
    rw [List.dropWhile_cons, List.dropWhile_cons, hp c d hc]
    by_cases hd : p d = true
    · rw [if_pos hd, if_pos hd]
      exact ih
    · rw [if_neg hd, if_neg hd]
      exact sameLetters_iff.mpr (.cons hc hrest)

theorem SameLetters.trim (h : SameLetters s t) : SameLetters (trim s) (trim t) :=
  (h.dropWhile fun _ _ => isBlank_eq).dropEndWhile fun _ _ => isBlank_eq

theorem SameLetters.drop (h : SameLetters s t) (n : ℕ) : SameLetters (s.drop n) (t.drop n) := by
  rw [SameLetters, List.map_drop, List.map_drop, h]

/-- Texts without letters that differ in case alone are equal. -/
theorem SameLetters.eq_or_isAlpha (h : SameLetters s t) :
    s = t ∨ (∃ c ∈ s, c.isAlpha = true) ∧ ∃ d ∈ t, d.isAlpha = true := by
  rw [sameLetters_iff] at h
  induction h with
  | nil => exact .inl rfl
  | @cons c d s t hc _ ih =>
    by_cases hletter : c.isAlpha = true
    · exact .inr ⟨⟨c, List.mem_cons_self, hletter⟩, d, List.mem_cons_self, isAlpha_eq hc ▸ hletter⟩
    · have hnot : ∀ e : Char, ¬ e.isAlpha = true → e.toLower = e := by
        intro e he
        refine dif_neg fun hrange => he ?_
        exact Bool.or_eq_true_iff.mpr (.inl (decide_eq_true hrange))
      have hsame : c = d := by
        rw [← hnot c hletter, hc, hnot d (isAlpha_eq hc ▸ hletter)]
      rcases ih with rfl | ⟨⟨c', hc', hl⟩, d', hd', hl'⟩
      · exact .inl (by rw [hsame])
      · exact .inr ⟨⟨c', List.mem_cons_of_mem c hc', hl⟩, d', List.mem_cons_of_mem d hd', hl'⟩

/-- What holds of the ASCII letters holds of all letters there are. -/
theorem of_isAlpha {P : Char → Prop}
    (h : ∀ n < 128, (Char.ofNat n).isAlpha = true → P (Char.ofNat n)) (hc : c.isAlpha = true) : P c := by
  have hascii : c.toNat < 128 := by
    rcases Bool.or_eq_true_iff.mp hc with hupper | hlower
    · obtain ⟨-, hhigh⟩ : 65 ≤ c.toNat ∧ c.toNat ≤ 90 := of_decide_eq_true hupper
      omega
    · have hhigh : c.toNat ≤ 122 := of_decide_eq_true (Bool.and_eq_true_iff.mp hlower).2
      omega
  have hletter := h c.toNat hascii
  rw [Char.ofNat_toNat] at hletter
  exact hletter hc

end Letters

end Text

/-! ### Bounds -/

section Bounds

variable {s : List Char} {text text' : String} {type : FieldType}

/-- The shape of a number is made of digits, a sign and a point. -/
theorem mem_of_numberShape_ne (h : numberShape s ≠ .none) {c : Char} (hc : c ∈ s) :
    isDecimalDigit c = true ∨ c = '-' ∨ c = '.' := by
  have hsigned : ∀ {sign : List Char}, IsSign sign → c ∈ sign → c = '-' := by
    rintro sign (rfl | rfl) hmem
    · exact absurd hmem List.not_mem_nil
    · exact List.mem_singleton.mp hmem
  cases hshape : numberShape s with
  | none => exact absurd hshape h
  | whole =>
    obtain ⟨sign, ds, hsign, -, hd, rfl⟩ := exists_digits_of_whole hshape
    rcases List.mem_append.mp hc with hc | hc
    · exact .inr (.inl (hsigned hsign hc))
    · exact .inl (hd c hc)
  | fractional =>
    obtain ⟨sign, ds, fraction, hsign, -, hd, -, hf, rfl⟩ := exists_digits_of_fractional hshape
    rcases List.mem_append.mp hc with hc | hc
    · rcases List.mem_append.mp hc with hc | hc
      · exact .inr (.inl (hsigned hsign hc))
      · exact .inl (hd c hc)
    · rcases List.mem_cons.mp hc with rfl | hc
      · exact .inr (.inr rfl)
      · exact .inl (hf c hc)

/-- A text with a letter is no bound. -/
theorem readBound_of_isAlpha (type : FieldType) {c : Char} (hc : c ∈ text.toList)
    (hletter : c.isAlpha = true) : readBound type text = .ok none := by
  have hletters : isBlank c = false ∧ isDecimalDigit c = false ∧ c ≠ '-' ∧ c ≠ '.' :=
    of_isAlpha (P := fun c => isBlank c = false ∧ isDecimalDigit c = false ∧ c ≠ '-' ∧ c ≠ '.')
      (by decide) hletter
  obtain ⟨hblank, hdigit, hminus, hpoint⟩ := hletters
  have hshape : numberShape (trim text.toList) = .none := by
    by_contra hne
    rcases mem_of_numberShape_ne hne (mem_trim hc hblank) with h | h | h
    · rw [hdigit] at h
      cases h
    · exact hminus h
    · exact hpoint h
  rw [readBound, hshape]

/-- A bound is read from texts that differ in letter case alone as the same. -/
theorem readBound_eq (type : FieldType) (h : SameLetters text.toList text'.toList) :
    readBound type text = readBound type text' := by
  rcases h.eq_or_isAlpha with heq | ⟨⟨c, hc, hletter⟩, d, hd, hletter'⟩
  · rw [String.toList_inj.mp heq]
  · rw [readBound_of_isAlpha type hc hletter, readBound_of_isAlpha type hd hletter']

theorem lastBound_eq (type : FieldType) {ts ts' : List String}
    (h : List.Forall₂ (fun t t' => SameLetters t.toList t'.toList) ts ts') :
    lastBound type ts = lastBound type ts' := by
  induction h with
  | nil => rfl
  | cons ht _ ih => rw [lastBound, lastBound, readBound_eq type ht, ih]

end Bounds

/-! ### Rules -/

/-- The words that rules are recognised by. -/
def knownWords : List String :=
  ["required", "nullable", "file", "image", "integer", "numeric", "boolean", "array"]

/-- The marks that rules are recognised by. -/
def knownMarks : List String := ["mimes", "mimetypes", "in:", "min:", "max:"]

/-- A text in lower case that is no known word and starts with no known mark. -/
structure IsUnknown (folded : String) : Prop where
  word : folded ∉ knownWords
  mark : ∀ mark ∈ knownMarks, ¬ mark.toList <+: folded.toList

instance (folded : String) : Decidable (IsUnknown folded) :=
  decidable_of_iff (folded ∉ knownWords ∧ ∀ mark ∈ knownMarks, ¬ mark.toList <+: folded.toList)
    ⟨fun h => ⟨h.1, h.2⟩, fun h => ⟨h.word, h.mark⟩⟩

/-- Two rules differ in the case of ASCII letters at most, and not in a list of values. -/
structure Rule.Respelled (r r' : Rule) : Prop where
  letters : SameLetters r.text.toList r'.text.toList
  values : "in:".toList <+: r.folded.toList → r.text.toList.drop 3 = r'.text.toList.drop 3

/-- Two lists of rules demand the same of a field, in every way in which demands are read from them. -/
structure SameDemands (rules rules' : List Rule) : Prop where
  words : ∀ word ∈ knownWords, hasRule rules word = hasRule rules' word
  uploads : rules.any FieldType.asksForFile = rules'.any FieldType.asksForFile
  values : ruleValues rules "in:" = ruleValues rules' "in:"
  bounds : ∀ type, ∀ mark ∈ knownMarks,
    lastBound type (ruleValues rules mark) = lastBound type (ruleValues rules' mark)

section Demands

variable {r r' : Rule} {rules rules' rules'' : List Rule} {mark : String}

theorem SameDemands.refl (rules : List Rule) : SameDemands rules rules :=
  ⟨fun _ _ => rfl, rfl, rfl, fun _ _ _ => rfl⟩

theorem SameDemands.trans (h : SameDemands rules rules') (h' : SameDemands rules' rules'') :
    SameDemands rules rules'' where
  words word hword := (h.words word hword).trans (h'.words word hword)
  uploads := h.uploads.trans h'.uploads
  values := h.values.trans h'.values
  bounds type mark hmark := (h.bounds type mark hmark).trans (h'.bounds type mark hmark)

/-- The type of a field is read from its rules in these ways. -/
theorem SameDemands.ofRules_eq (h : SameDemands rules rules') :
    FieldType.ofRules rules = FieldType.ofRules rules' := by
  rw [FieldType.ofRules, FieldType.ofRules, h.uploads, h.words "integer" (by decide),
    h.words "numeric" (by decide), h.words "boolean" (by decide), h.words "array" (by decide)]

/-- So are its constraints. -/
theorem SameDemands.constraintsOf_eq (h : SameDemands rules rules') (type : FieldType) :
    constraintsOf rules type = constraintsOf rules' type := by
  have henum : enumOf type rules = enumOf type rules' := by
    rw [enumOf, enumOf, h.values]
  rw [constraintsOf, constraintsOf, h.bounds type "min:" (by decide), h.bounds type "max:" (by decide),
    h.words "required" (by decide), h.words "nullable" (by decide), henum]

/-! ### Unknown rules -/

theorem tail?_of_isUnknown (h : IsUnknown r.folded) (hmark : mark ∈ knownMarks) :
    r.tail? mark = none := by
  have hnot : ¬ mark.toList.isPrefixOf r.folded.toList = true := by
    rw [List.isPrefixOf_iff_prefix]
    exact h.mark mark hmark
  exact if_neg hnot

theorem asksForFile_of_isUnknown (h : IsUnknown r.folded) : FieldType.asksForFile r = false := by
  have hmark : ∀ mark ∈ knownMarks, mark.toList.isPrefixOf r.folded.toList = false := by
    intro mark hmem
    rw [← Bool.not_eq_true, List.isPrefixOf_iff_prefix]
    exact h.mark mark hmem
  have hword : ∀ word ∈ knownWords, (r.folded == word) = false := by
    intro word hmem
    apply beq_false_of_ne
    rintro rfl
    exact h.word hmem
  rw [FieldType.asksForFile, hmark "mimes" (by decide), hmark "mimetypes" (by decide),
    hword "file" (by decide), hword "image" (by decide)]
  rfl

/-- Unknown rules demand nothing. -/
theorem sameDemands_of_interspersed
    (h : Interspersed (fun r : Rule => IsUnknown r.folded) rules rules') :
    SameDemands rules rules' where
  words word hword := by
    refine (h.any_eq fun r hr => ?_).symm
    apply beq_false_of_ne
    rintro rfl
    exact hr.word hword
  uploads := (h.any_eq fun r hr => asksForFile_of_isUnknown hr).symm
  values := (h.filterMap_eq fun r hr => tail?_of_isUnknown hr (by decide)).symm
  bounds type mark hmark := by
    unfold ruleValues
    rw [h.filterMap_eq fun r hr => tail?_of_isUnknown hr hmark]

/-! ### Letter case -/

theorem Rule.Respelled.folded_eq (h : r.Respelled r') : r.folded = r'.folded :=
  congrArg String.ofList (lower_eq h.letters)

theorem Rule.Respelled.tail?_in (h : r.Respelled r') : r.tail? "in:" = r'.tail? "in:" := by
  unfold Rule.tail?
  rw [← h.folded_eq]
  by_cases hstart : "in:".toList.isPrefixOf r.folded.toList = true
  · rw [if_pos hstart, if_pos hstart]
    exact congrArg (fun s => some (String.ofList s)) (h.values (List.isPrefixOf_iff_prefix.mp hstart))
  · rw [if_neg hstart, if_neg hstart]

/-- What follows a mark differs in letter case at most. -/
theorem Rule.Respelled.tail?_cases (h : r.Respelled r') (mark : String) :
    (r.tail? mark = none ∧ r'.tail? mark = none) ∨
      ∃ t t', r.tail? mark = some t ∧ r'.tail? mark = some t' ∧ SameLetters t.toList t'.toList := by
  unfold Rule.tail?
  rw [← h.folded_eq]
  by_cases hstart : mark.toList.isPrefixOf r.folded.toList = true
  · rw [if_pos hstart, if_pos hstart]
    refine .inr ⟨_, _, rfl, rfl, ?_⟩
    rw [String.toList_ofList, String.toList_ofList]
    exact h.letters.drop mark.toList.length
  · rw [if_neg hstart, if_neg hstart]
    exact .inl ⟨rfl, rfl⟩

theorem forall₂_ruleValues (h : List.Forall₂ Rule.Respelled rules rules') (mark : String) :
    List.Forall₂ (fun t t' => SameLetters t.toList t'.toList) (ruleValues rules mark)
      (ruleValues rules' mark) := by
  unfold ruleValues
  induction h with
  | nil => exact .nil
  | cons hr _ ih =>
    rcases hr.tail?_cases mark with ⟨hnone, hnone'⟩ | ⟨t, t', hsome, hsome', hletters⟩
    · rwa [List.filterMap_cons_none hnone, List.filterMap_cons_none hnone']
    · rw [List.filterMap_cons_some hsome, List.filterMap_cons_some hsome']
      exact .cons hletters ih

theorem any_eq_of_folded {p : Rule → Bool} (hp : ∀ r r' : Rule, r.folded = r'.folded → p r = p r')
    (h : List.Forall₂ Rule.Respelled rules rules') : rules.any p = rules'.any p := by
  induction h with
  | nil => rfl
  | cons hr _ ih => rw [List.any_cons, List.any_cons, hp _ _ hr.folded_eq, ih]

/-- Rules demand the same in any letter case. -/
theorem sameDemands_of_respelled (h : List.Forall₂ Rule.Respelled rules rules') :
    SameDemands rules rules' where
  words word _ := any_eq_of_folded (fun r r' hr => by rw [hr]) h
  uploads := any_eq_of_folded (fun r r' hr => by unfold FieldType.asksForFile; rw [hr]) h
  values := by
    unfold ruleValues
    induction h with
    | nil => rfl
    | cons hr _ ih => rw [List.filterMap_cons, List.filterMap_cons, hr.tail?_in, ih]
  bounds type mark _ := lastBound_eq type (forall₂_ruleValues h mark)

end Demands

end RouteDocs
