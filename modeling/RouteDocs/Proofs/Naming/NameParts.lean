import Mathlib.Data.List.Chain
import RouteDocs.Proofs.Naming.Phrases

/-!
# RouteDocs.Proofs.Naming.NameParts — the words of a name put together from parts

A name in mixed case is put together from capitalised words and acronyms.  Inside a part no word starts,
and one starts at each part but the first: a capital starts a word behind the last letter or digit of a
capitalised word, and behind an acronym if a small letter follows it.  Two acronyms in a row would be one.
So the words of a name are its parts in lower case.
-/

namespace RouteDocs.Naming

open Text

/-! ### Parts -/

/-- A capital, a small letter, and any more small letters and digits. -/
def IsCapitalized : List Char → Prop
  | c :: d :: r => isCapital c = true ∧ isSmall d = true ∧
    ∀ e ∈ r, isSmall e = true ∨ isAsciiDigit e = true
  | _ => False

/-- One capital or more. -/
def IsAcronym (s : List Char) : Prop := s ≠ [] ∧ ∀ c ∈ s, isCapital c = true

/-- A part of a name. -/
def IsNamePart (s : List Char) : Prop := IsCapitalized s ∨ IsAcronym s

/-- Two parts that are not both acronyms. -/
def AreApart (p q : List Char) : Prop := ¬ (IsAcronym p ∧ IsAcronym q)

instance : DecidablePred IsCapitalized
  | c :: d :: r => decidable_of_iff (isCapital c = true ∧ isSmall d = true ∧
      (r.all fun e => isSmall e || isAsciiDigit e) = true) (by simp [IsCapitalized])
  | [_] => .isFalse id
  | [] => .isFalse id

instance : DecidablePred IsAcronym := fun s =>
  decidable_of_iff (s ≠ [] ∧ s.all isCapital = true) (by simp [IsAcronym])

instance : DecidablePred IsNamePart := fun s =>
  inferInstanceAs (Decidable (IsCapitalized s ∨ IsAcronym s))

instance : DecidableRel AreApart := fun p q =>
  inferInstanceAs (Decidable (¬ (IsAcronym p ∧ IsAcronym q)))

section Parts

variable {c : Char} {p q u v : List Char} {parts : List (List Char)}

theorem isAsciiDigit_iff : isAsciiDigit c = true ↔ 48 ≤ c.toNat ∧ c.toNat ≤ 57 := by
  rw [isAsciiDigit, Bool.and_eq_true, decide_eq_true_iff, decide_eq_true_iff]
  rfl

theorem isDecimalDigit_of_isAsciiDigit (h : isAsciiDigit c = true) : isDecimalDigit c = true := by
  have hascii : c.toNat < 128 := by
    rw [isAsciiDigit_iff] at h
    omega
  rw [isDecimalDigit, digitValue?, if_pos hascii, if_pos h]
  rfl

theorem IsCapitalized.eq_cons (hp : IsCapitalized p) :
    ∃ c d r, p = c :: d :: r ∧ isCapital c = true ∧ isSmall d = true ∧
      ∀ e ∈ r, isSmall e = true ∨ isAsciiDigit e = true := by
  match p, hp with
  | c :: d :: r, hp => exact ⟨c, d, r, rfl, hp⟩

theorem IsNamePart.exists_capital (hp : IsNamePart p) : ∃ c r, p = c :: r ∧ isCapital c = true := by
  rcases hp with hp | ⟨hne, hall⟩
  · obtain ⟨c, d, r, rfl, hc, -⟩ := hp.eq_cons
    exact ⟨c, d :: r, rfl, hc⟩
  · obtain ⟨c, r, rfl⟩ := List.exists_cons_of_ne_nil hne
    exact ⟨c, r, rfl, hall c List.mem_cons_self⟩

/-- A capitalised word ends in a small letter or a digit. -/
theorem IsCapitalized.getLast? (hp : IsCapitalized p) :
    ∃ e, p.getLast? = some e ∧ (isSmall e || isDecimalDigit e) = true := by
  obtain ⟨c, d, r, rfl, -, hd, hr⟩ := hp.eq_cons
  have hend : ∀ e ∈ d :: r, (isSmall e || isDecimalDigit e) = true := by
    refine List.forall_mem_cons.mpr ⟨by rw [hd, Bool.true_or], fun e he => ?_⟩
    rw [Bool.or_eq_true]
    exact (hr e he).imp_right isDecimalDigit_of_isAsciiDigit
  have hne : d :: r ≠ [] := List.cons_ne_nil d r
  refine ⟨(d :: r).getLast hne, ?_, hend _ (List.getLast_mem hne)⟩
  rw [List.getLast?_cons_cons, List.getLast?_eq_some_getLast hne]

theorem IsAcronym.getLast? (hp : IsAcronym p) : ∃ e, p.getLast? = some e ∧ isCapital e = true := by
  obtain ⟨hne, hall⟩ := hp
  exact ⟨p.getLast hne, List.getLast?_eq_some_getLast hne, hall _ (List.getLast_mem hne)⟩

/-- A word starts at a part that comes after another one. -/
theorem startsWord_part (hp : IsNamePart p) (hq : IsNamePart (c :: u)) (hpq : AreApart p (c :: u))
    (v : List Char) : startsWord p.getLast? c (u ++ v).head? = true := by
  have hc : isCapital c = true := by
    obtain ⟨c', r, hcr, hc'⟩ := hq.exists_capital
    rwa [(List.cons.inj hcr).1]
  rcases hp with hp | hp
  · obtain ⟨e, he, hend⟩ := hp.getLast?
    rw [startsWord, he, hc, Option.any_some, hend]
    rfl
  · rcases hq with hq | hq
    · obtain ⟨c', d, r, hcr, -, hd, -⟩ := hq.eq_cons
      obtain ⟨e, he, hcapital⟩ := hp.getLast?
      obtain rfl := (List.cons.inj hcr).2
      simp [startsWord, he, hc, hcapital, hd]
    · exact absurd ⟨hp, hq⟩ hpq

/-- No word starts inside an acronym that no small letter follows. -/
theorem spacedFrom_capitals {a : Char} (ha : isCapital a = true) (hu : ∀ c ∈ u, isCapital c = true)
    (hv : v.head?.any isSmall = false) :
    spacedFrom (some a) (u ++ v) = u ++ spacedFrom (u.getLast?.or (some a)) v := by
  induction u generalizing a with
  | nil => rfl
  | cons c u ih =>
    rw [List.forall_mem_cons] at hu
    have hnext : (u ++ v).head?.any isSmall = false := by
      cases u with
      | nil => exact hv
      | cons d u => exact isSmall_eq_false (hu.2 d List.mem_cons_self)
    have hword : ¬ startsWord (some a) c (u ++ v).head? = true := by
      rw [startsWord, Option.any_some, isSmall_eq_false ha, isDecimalDigit_eq_false ha, hnext]
      simp
    rw [List.cons_append, spacedFrom, if_neg hword, ih hu.1 hu.2, getLast?_cons_eq_or, Option.or_assoc]
    rfl

/-- No word starts inside a part. -/
theorem spacedFrom_part (hp : IsNamePart (c :: u)) (hv : v.head?.any isSmall = false) :
    spacedFrom (some c) (u ++ v) = u ++ spacedFrom (c :: u).getLast? v := by
  rw [getLast?_cons_eq_or]
  rcases hp with hp | ⟨-, hall⟩
  · obtain ⟨c', d, r, hcr, -, hd, hr⟩ := hp.eq_cons
    obtain rfl := (List.cons.inj hcr).2
    refine spacedFrom_append _ (List.forall_mem_cons.mpr ⟨isCapital_eq_false hd, fun e he => ?_⟩) v
    rw [Bool.eq_false_iff, ne_eq, isCapital_iff]
    have hletter := hr e he
    rw [isSmall_iff, isAsciiDigit_iff] at hletter
    omega
  · rw [List.forall_mem_cons] at hall
    exact spacedFrom_capitals hall.1 hall.2 hv

theorem head?_flatten_parts (hparts : ∀ q ∈ parts, IsNamePart q) :
    parts.flatten.head?.any isSmall = false := by
  cases parts with
  | nil => rfl
  | cons q rest =>
    obtain ⟨c, r, rfl, hc⟩ := (hparts q List.mem_cons_self).exists_capital
    exact isSmall_eq_false hc

/-- Behind a part, every other part has a space before it. -/
theorem spacedFrom_flatten (hp : IsNamePart p) (hparts : ∀ q ∈ parts, IsNamePart q)
    (hchain : (p :: parts).IsChain AreApart) :
    spacedFrom p.getLast? parts.flatten = parts.flatMap (' ' :: ·) := by
  induction parts generalizing p with
  | nil => rfl
  | cons q rest ih =>
    rw [List.forall_mem_cons] at hparts
    obtain ⟨hq, hrest⟩ := hparts
    obtain ⟨hpq, hchain⟩ := List.isChain_cons_cons.mp hchain
    obtain ⟨c, u, rfl, -⟩ := hq.exists_capital
    rw [List.flatten_cons, List.cons_append, spacedFrom, if_pos (startsWord_part hp hq hpq _),
      spacedFrom_part hq (head?_flatten_parts hrest), ih hq hrest hchain]
    rfl

theorem intercalate_cons (p : List Char) (parts : List (List Char)) :
    [' '].intercalate (p :: parts) = p ++ parts.flatMap (' ' :: ·) := by
  induction parts generalizing p with
  | nil => simp
  | cons q rest ih =>
    rw [List.intercalate_cons_cons, ih]
    simp

/-- A name is cut where its parts meet. -/
theorem spacedFrom_parts (hparts : ∀ q ∈ parts, IsNamePart q) (hchain : parts.IsChain AreApart) :
    spacedFrom none parts.flatten = [' '].intercalate parts := by
  cases parts with
  | nil => rfl
  | cons p rest =>
    rw [List.forall_mem_cons] at hparts
    obtain ⟨hp, hrest⟩ := hparts
    have hlater := spacedFrom_flatten hp hrest hchain
    obtain ⟨c, u, rfl, -⟩ := hp.exists_capital
    have hword : ¬ startsWord none c (u ++ rest.flatten).head? = true := by simp [startsWord]
    rw [List.flatten_cons, List.cons_append, spacedFrom, if_neg hword,
      spacedFrom_part hp (head?_flatten_parts hrest), hlater, intercalate_cons]
    rfl

/-! ### Words -/

theorem IsNamePart.letter (hp : IsNamePart p) (hc : c ∈ p) :
    isCapital c = true ∨ isSmall c = true ∨ isAsciiDigit c = true := by
  rcases hp with hp | ⟨-, hall⟩
  · obtain ⟨d, e, r, rfl, hd, he, hr⟩ := hp.eq_cons
    rcases List.mem_cons.mp hc with rfl | hc
    · exact .inl hd
    · rcases List.mem_cons.mp hc with rfl | hc
      · exact .inr (.inl he)
      · exact .inr (hr c hc)
  · exact .inl (hall c hc)

/-- No character of a part is a gap, or one whose lower case is not told from it alone. -/
theorem IsNamePart.plain (hp : IsNamePart p) (hc : c ∈ p) : isGap c = false ∧ c ≠ 'Σ' ∧ c ≠ 'İ' := by
  have hcode : c.toNat ∈ List.range' 65 26 ++ List.range' 97 26 ++ List.range' 48 10 := by
    have hletter := hp.letter hc
    rw [isCapital_iff, isSmall_iff, isAsciiDigit_iff] at hletter
    rw [List.mem_append, List.mem_append, List.mem_range'_1, List.mem_range'_1, List.mem_range'_1]
    omega
  have hall : ∀ n ∈ List.range' 65 26 ++ List.range' 97 26 ++ List.range' 48 10,
      isGap (Char.ofNat n) = false ∧ Char.ofNat n ≠ 'Σ' ∧ Char.ofNat n ≠ 'İ' := by decide
  have hplain := hall c.toNat hcode
  rwa [Char.ofNat_toNat] at hplain

theorem spaced_flatMap (hparts : ∀ q ∈ parts, IsNamePart q) :
    Spaced false (parts.flatMap (' ' :: ·)) := by
  induction parts with
  | nil => exact .nil
  | cons q rest ih =>
    rw [List.forall_mem_cons] at hparts
    obtain ⟨c, u, hq, -⟩ := hparts.1.exists_capital
    have hne : q ≠ [] := hq ▸ List.cons_ne_nil c u
    exact .space (List.append_ne_nil_of_left_ne_nil hne _)
      (.append (fun d hd => (hparts.1.plain hd).1) hne (ih hparts.2))

theorem spaced_parts (hparts : ∀ q ∈ parts, IsNamePart q) : Spaced true ([' '].intercalate parts) := by
  cases parts with
  | nil => exact .nil
  | cons p rest =>
    rw [List.forall_mem_cons] at hparts
    obtain ⟨c, u, hp, -⟩ := hparts.1.exists_capital
    rw [intercalate_cons]
    exact .append (fun d hd => (hparts.1.plain hd).1) (hp ▸ List.cons_ne_nil c u)
      (spaced_flatMap hparts.2)

theorem lower_parts (hparts : ∀ q ∈ parts, IsNamePart q) :
    lower ([' '].intercalate parts) = [' '].intercalate (parts.map lower) := by
  cases parts with
  | nil => rfl
  | cons p rest =>
    rw [List.forall_mem_cons] at hparts
    obtain ⟨hp, hrest⟩ := hparts
    have hlower : ∀ {q}, IsNamePart q → lower q = q.map lowerChar := fun hq =>
      lowerFrom_eq_map [] fun c hc => (hq.plain hc).2
    have hall : ∀ c ∈ p ++ rest.flatMap (' ' :: ·), c ≠ 'Σ' ∧ c ≠ 'İ' := by
      refine List.forall_mem_append.mpr ⟨fun c hc => (hp.plain hc).2, fun c hc => ?_⟩
      obtain ⟨q, hq, hc⟩ := List.mem_flatMap.mp hc
      rcases List.mem_cons.mp hc with rfl | hc
      · decide
      · exact ((hrest q hq).plain hc).2
    have hlater : rest.flatMap (fun q => (' ' :: q).map lowerChar) = rest.flatMap (' ' :: lower ·) :=
      List.flatMap_congr fun q hq => by
        rw [hlower (hrest q hq)]
        rfl
    rw [List.map_cons, intercalate_cons, intercalate_cons, lower, lowerFrom_eq_map [] hall,
      List.map_append, List.map_flatMap, hlater, ← hlower hp, List.flatMap_map]

end Parts

/-- **Words undo the joining of parts.**  A name that is put together from capitalised words and acronyms,
no two acronyms in a row, has its parts in lower case for words. -/
theorem words_join {parts : List String} (hparts : ∀ p ∈ parts, IsNamePart p.toList)
    (hchain : parts.IsChain fun p q => AreApart p.toList q.toList) :
    words (String.join parts) = " ".intercalate (parts.map lowered) := by
  have hparts' : ∀ p ∈ parts.map String.toList, IsNamePart p := List.forall_mem_map.mpr hparts
  have hchain' : (parts.map String.toList).IsChain AreApart := (List.isChain_map _).mpr hchain
  have hspaced := spaced_parts hparts'
  have hlowered : (parts.map lowered).map String.toList = (parts.map String.toList).map lower := by
    rw [List.map_map, List.map_map]
    exact List.map_congr_left fun p _ => String.toList_ofList
  rw [← String.toList_inj, String.toList_intercalate, hlowered, words, String.toList_ofList,
    String.toList_join, List.flatMap_def, wordChars, spacedFrom_parts hparts' hchain',
    singleGaps_of_spaced hspaced.after_word, trim_of_spaced hspaced, lower_parts hparts']
  rfl

theorem words_join_mixed : words "APIKey2XAb" = "api key2 x ab" := by
  have hjoin := @words_join ["API", "Key2", "X", "Ab"] (by decide) (by decide)
  have hlowered : ["API", "Key2", "X", "Ab"].map lowered = ["api", "key2", "x", "ab"] := by decide
  rw [hlowered] at hjoin
  exact hjoin

end RouteDocs.Naming
