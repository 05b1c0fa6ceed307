import Mathlib.Data.List.TakeWhile
import RouteDocs.Proofs.Decimal.Written
import RouteDocs.Proofs.Text.LowerCase
import RouteDocs.Proofs.Text.Split
import RouteDocs.Yaml.Content
import RouteDocs.Yaml.Print

/-!
# RouteDocs.Proofs.Yaml.Numbers — numbers as plain scalars

A written number stands without quotes (`allowsPlain_number`), is taken for a number of its type
(`plainTag_intChars`, `plainTag_realScalar`), and its value is read from it (`intOf_intChars`,
`realOf_realScalar`).
-/

namespace RouteDocs.Yaml

open Text Decimal Real64

/-- A text of the characters of numbers that starts with a digit. -/
structure IsUnsigned (s : List Char) : Prop where
  starts : ∃ d r, s = d :: r ∧ d.isDigit = true
  number : ∀ c ∈ s, c ∈ numberChars

section Texts

variable {s word : List Char} {negative : Bool} {c : Char}

theorem IsUnsigned.signed (h : IsUnsigned s) (negative : Bool) :
    ∀ c ∈ signChars negative ++ s, c ∈ numberChars := by
  refine List.forall_mem_append.mpr ⟨?_, h.number⟩
  cases negative with
  | false => nofun
  | true => exact fun c hc => by rw [List.mem_singleton.mp hc]; decide

/-- A written number starts with a digit or a hyphen. -/
theorem IsUnsigned.exists_head (h : IsUnsigned s) (negative : Bool) :
    ∃ c r, signChars negative ++ s = c :: r ∧ (c.isDigit = true ∨ c = '-') := by
  obtain ⟨d, r, rfl, hd⟩ := h.starts
  cases negative with
  | false => exact ⟨d, r, rfl, .inl hd⟩
  | true => exact ⟨'-', d :: r, rfl, .inr rfl⟩

theorem takeSign_number (h : IsUnsigned s) (negative : Bool) :
    takeSign (signChars negative ++ s) = (negative, s) := by
  obtain ⟨d, r, rfl, hd⟩ := h.starts
  cases negative with
  | false => exact takeSign_of_isDigit hd r
  | true => rfl

theorem unsigned_number (h : IsUnsigned s) (negative : Bool) :
    unsigned (signChars negative ++ s) = s := by
  obtain ⟨d, r, rfl, hd⟩ := h.starts
  cases negative with
  | true => rfl
  | false =>
    have hminus : d ≠ '-' := ne_of_isDigit hd (by decide)
    have hplus : d ≠ '+' := ne_of_isDigit hd (by decide)
    simp [signChars, unsigned, hminus, hplus]

theorem isAsciiDigit_of_isDigit (hc : c.isDigit = true) : isAsciiDigit c = true := by
  have hall : ∀ d ∈ "0123456789".toList, isAsciiDigit d = true :=
    List.all_iff_forall_prop.mp (by decide)
  exact hall c (mem_digits hc)

theorem isDigitOrBar_of_isDigit (hc : c.isDigit = true) : isDigitOrBar c = true := by
  rw [isDigitOrBar, isAsciiDigit_of_isDigit hc, Bool.true_or]

theorem isDigits_of_isDigitText (h : IsDigitText s) : isDigits s = true := by
  obtain ⟨c, r, rfl⟩ := List.exists_cons_of_ne_nil h.ne_nil
  rw [isDigits, isAsciiDigit_of_isDigit (h.digit c List.mem_cons_self), Bool.true_and, List.all_eq_true]
  exact fun d hd => isDigitOrBar_of_isDigit (h.digit d (List.mem_cons_of_mem _ hd))

theorem filter_number (h : ∀ c ∈ s, c ∈ numberChars) : s.filter (· != '_') = s := by
  have hall : ∀ c ∈ numberChars, (c != '_') = true := List.all_iff_forall_prop.mp (by decide)
  exact List.filter_eq_self.mpr fun c hc => hall c (h c hc)

theorem dropFinalBreak_number (h : ∀ c ∈ s, c ∈ numberChars) : dropFinalBreak s = s := by
  unfold dropFinalBreak
  split
  · rename_i hlast
    exact absurd (h _ (List.mem_of_getLast? hlast)) (by decide)
  · rfl

/-- A word is spelled with its first letter, small or capital. -/
theorem head_of_isSpelling {w t : List Char} (h : isSpelling (c :: w) t = true) :
    t.head? = some c ∨ t.head? = some c.toUpper := by
  simp only [isSpelling, Bool.or_eq_true, beq_iff_eq] at h
  rcases h with (rfl | rfl) | rfl
  · exact .inl rfl
  · exact .inr rfl
  · exact .inr rfl

/-- No number is a word. -/
theorem not_isSpelling_number (h : IsUnsigned s) (negative : Bool)
    (hc : c ∉ '-' :: "0123456789".toList ∧ c.toUpper ∉ '-' :: "0123456789".toList) (w : List Char) :
    isSpelling (c :: w) (signChars negative ++ s) = false := by
  by_contra hspelling
  obtain ⟨d, r, hdr, hd⟩ := h.exists_head negative
  rw [Bool.not_eq_false] at hspelling
  have hhead := head_of_isSpelling hspelling
  rw [hdr, List.head?_cons, Option.some_inj, Option.some_inj] at hhead
  have hmem : d ∈ '-' :: "0123456789".toList := by
    rcases hd with hd | rfl
    · exact List.mem_cons_of_mem _ (mem_digits hd)
    · exact List.mem_cons_self
  rcases hhead with rfl | rfl
  · exact hc.1 hmem
  · exact hc.2 hmem

theorem not_isTruth_number (h : IsUnsigned s) (negative : Bool) :
    isTruth (signChars negative ++ s) = false := by
  have hword := fun c hc w => not_isSpelling_number (c := c) h negative hc w
  have hyes := hword 'y' (by decide) ['e', 's']
  have hno := hword 'n' (by decide) ['o']
  have htrue := hword 't' (by decide) ['r', 'u', 'e']
  have hfalse := hword 'f' (by decide) ['a', 'l', 's', 'e']
  have hon := hword 'o' (by decide) ['n']
  have hoff := hword 'o' (by decide) ['f', 'f']
  simp [isTruth, truthWords, hyes, hno, htrue, hfalse, hon, hoff]

/-- A written number is taken for a number. -/
theorem plainTag_number (h : IsUnsigned s) (negative : Bool) {tag : Tag}
    (htag : isFloat (signChars negative ++ s) = true ∧ tag = .float ∨
      isFloat (signChars negative ++ s) = false ∧ isInt (signChars negative ++ s) = true ∧ tag = .int) :
    plainTag (signChars negative ++ s) = tag := by
  obtain ⟨c, r, hcr, -⟩ := h.exists_head negative
  have hempty : (signChars negative ++ s).isEmpty = false := by rw [hcr]; rfl
  unfold plainTag
  simp only [dropFinalBreak_number (h.signed negative), hempty, not_isTruth_number h negative,
    Bool.false_eq_true, if_false]
  rcases htag with ⟨hfloat, rfl⟩ | ⟨hfloat, hint, rfl⟩
  · rw [if_pos hfloat]
  · rw [if_neg (by simp [hfloat]), if_pos hint]

theorem hasInnerIndicator_eq_false {previous : Char} (h : ∀ c ∈ s, c ≠ ':' ∧ c ≠ '#') :
    hasInnerIndicator previous s = false := by
  induction s generalizing previous with
  | nil => rfl
  | cons c s ih =>
    obtain ⟨hcolon, hsign⟩ := h c List.mem_cons_self
    rw [hasInnerIndicator, ih fun x hx => h x (List.mem_cons_of_mem _ hx)]
    simp [hcolon, hsign]

/-- A written number may stand without quotes. -/
theorem allowsPlain_number (h : IsUnsigned s) (negative : Bool) :
    allowsPlain (signChars negative ++ s) = true := by
  have hnumber := h.signed negative
  have hwritable : ∀ c ∈ numberChars, isWritable c = true :=
    List.all_iff_forall_prop.mp (by decide)
  have hbreak : ∀ c ∈ numberChars, isBreak c = false := List.all_iff_forall_prop.mp (by decide)
  have hspace : ' ' ∉ numberChars := by decide
  have hmark : ∀ c ∈ numberChars, c ≠ ':' ∧ c ≠ '#' := List.all_iff_forall_prop.mp (by decide)
  have hindicator : hasIndicator (signChars negative ++ s) = false := by
    obtain ⟨d, r, rfl, hd⟩ := h.starts
    have hmem := mem_digits hd
    have hinner : ∀ previous, hasInnerIndicator previous r = false := fun previous =>
      hasInnerIndicator_eq_false fun c hc => hmark c (h.number c (List.mem_cons_of_mem _ hc))
    have hother : ∀ d ∈ "0123456789".toList, d ≠ '-' ∧ d ≠ '.' ∧ d ≠ '?' ∧ d ≠ ':' ∧ d ≠ '#' ∧
        isGap d = false ∧ d ∉ "#,[]\x7b\x7d&*!|>'\"%@\x60".toList :=
      List.all_iff_forall_prop.mp (by decide)
    obtain ⟨hhyphen, hpoint, hquestion, hcolon, hsign, hgap, hlist⟩ := hother d hmem
    cases negative with
    | false =>
      simp only [signChars, Bool.false_eq_true, if_false, List.nil_append, hasIndicator, hinner]
      simp [List.isPrefixOf, hquestion, hcolon, hhyphen, Ne.symm hhyphen, Ne.symm hpoint]
      simpa using hlist
    | true =>
      have hlead : hasInnerIndicator '-' (d :: r) = false := by
        simp [hasInnerIndicator, hinner, hcolon, hsign]
      simp only [signChars, if_true, List.singleton_append, hasIndicator, hlead]
      simp [List.isPrefixOf, startsWithGap, hgap, Ne.symm hhyphen]
  simp only [allowsPlain, hindicator, Bool.not_false, Bool.and_true, Bool.and_eq_true, List.all_eq_true,
    Bool.not_eq_true', bne_iff_ne]
  refine ⟨⟨⟨fun c hc => hwritable c (hnumber c hc), ?_⟩, fun hhead => ?_⟩, fun hlast => ?_⟩
  · rw [isMultiline, List.any_eq_false]
    exact fun c hc => by simp [hbreak c (hnumber c hc)]
  · exact hspace (hnumber _ (List.mem_of_head? hhead))
  · exact hspace (hnumber _ (List.mem_of_getLast? hlast))

end Texts

/-! ### Integers -/

section Integers

variable {i : ℤ}

theorem isUnsigned_natChars (n : ℕ) : IsUnsigned (natChars n) := by
  have hdigits := isDigitText_natChars n
  obtain ⟨c, r, hcr⟩ := List.exists_cons_of_ne_nil hdigits.ne_nil
  exact ⟨⟨c, r, hcr, hdigits.digit c (by rw [hcr]; simp)⟩,
    fun c hc => mem_numberChars (hdigits.digit c hc)⟩

theorem intChars_eq (i : ℤ) : intChars i = signChars (decide (i < 0)) ++ natChars i.natAbs := by
  cases i with
  | ofNat n => rfl
  | negSucc n =>
    have hneg : decide (Int.negSucc n < 0) = true := by simp
    rw [hneg]
    rfl

/-- Only zero starts with the digit zero. -/
theorem isInt_natChars (n : ℕ) (negative : Bool) :
    isInt (signChars negative ++ natChars n) = true := by
  unfold isInt
  rw [unsigned_number (isUnsigned_natChars n)]
  rcases Nat.eq_zero_or_pos n with rfl | hn
  · rfl
  · have hdigits := isDigitText_natChars n
    obtain ⟨c, r, hcr, hc, hzero⟩ := natChars_eq_cons hn
    have hcolon : ':' ∉ c :: r := by
      intro hmem
      rw [← hcr] at hmem
      exact absurd (hdigits.digit _ hmem) (by decide)
    have hall : ∀ x ∈ c :: r, isAsciiDigit x = true := by
      rw [← hcr]
      exact fun x hx => isAsciiDigit_of_isDigit (hdigits.digit x hx)
    have hcounting : isCounting (c :: r) = true := by
      simp only [isCounting, Bool.and_eq_true, bne_iff_ne, List.all_eq_true]
      refine ⟨⟨hall c List.mem_cons_self, hzero⟩, fun x hx => ?_⟩
      rw [isDigitOrBar, hall x (List.mem_cons_of_mem _ hx), Bool.true_or]
    rw [hcr]
    split
    · rename_i heq
      exact absurd (List.cons.inj heq).1 hzero
    · rename_i heq
      exact absurd (List.cons.inj heq).1 hzero
    · rename_i heq
      exact absurd (List.cons.inj heq).1 hzero
    · rename_i heq
      exact absurd (List.cons.inj heq).1 hzero
    · rw [splitAt_eq_singleton hcolon]
      simp [hcounting]

theorem not_isFloat_natChars (n : ℕ) (negative : Bool) :
    isFloat (signChars negative ++ natChars n) = false := by
  have hpoint : (natChars n).dropWhile (· != '.') = [] := by
    rw [List.dropWhile_eq_nil_iff]
    intro c hc
    have hne : c ≠ '.' := ne_of_isDigit ((isDigitText_natChars n).digit c hc) (by decide)
    simpa using hne
  unfold isFloat
  rw [unsigned_number (isUnsigned_natChars n)]
  dsimp only
  rw [hpoint]

theorem plainTag_intChars (i : ℤ) : plainTag (intChars i) = .int ∧ allowsPlain (intChars i) = true := by
  rw [intChars_eq]
  have hnumber := isUnsigned_natChars i.natAbs
  exact ⟨plainTag_number hnumber _ (.inr ⟨not_isFloat_natChars _ _, isInt_natChars _ _, rfl⟩),
    allowsPlain_number hnumber _⟩

theorem signed_natAbs (i : ℤ) :
    (if decide (i < 0) = true then -(i.natAbs : ℤ) else i.natAbs) = i := by
  by_cases hneg : i < 0
  · rw [if_pos (decide_eq_true hneg)]
    omega
  · rw [if_neg (by simpa using hneg)]
    omega

/-- An integer that can be written is read back. -/
theorem intOf_intChars (h : isWritableInt i = true) : intOf (intChars i) = .ok i := by
  have hsize := length_natChars_le (by decide) (of_decide_eq_true h)
  rcases eq_or_ne i 0 with rfl | hi
  · rfl
  · have hnumber := isUnsigned_natChars i.natAbs
    obtain ⟨c, r, hcr, hc, hzero⟩ := natChars_eq_cons (n := i.natAbs) (by omega)
    have hread := readInt?_natChars hsize
    have hcolon : (natChars i.natAbs).contains ':' = false := by
      rw [List.contains_eq_mem, decide_eq_false_iff_not]
      exact fun hmem => absurd ((isDigitText_natChars _).digit _ hmem) (by decide)
    have hempty : (signChars (decide (i < 0)) ++ natChars i.natAbs).isEmpty = false := by
      rw [hcr]
      cases signChars (decide (i < 0)) <;> rfl
    unfold intOf
    rw [intChars_eq, filter_number (hnumber.signed _)]
    dsimp only
    rw [hempty, if_neg Bool.false_ne_true, takeSign_number hnumber]
    dsimp only
    rw [hcr] at hread hcolon ⊢
    simp only [List.cons.injEq, hzero, hread, hcolon, false_and, imp_self, implies_true,
      Bool.false_eq_true, if_false]
    rw [signed_natAbs]

end Integers

/-! ### Doubles -/

section Doubles

variable {s : List Char} {v : ℚ} {m : ℕ} {q : ℤ} {negative : Bool} {x : Real64}

theorem isUnsigned_decimalText (h : DecimalText s v) : IsUnsigned s := ⟨h.exists_cons, h.number⟩

/-- A single digit with an exponent gets a point before the mark of the exponent. -/
theorem flatMap_exponent (sign : Char) {c : Char} {ds : List Char} (hc : c.isDigit = true)
    (hsign : sign = '-' ∨ sign = '+') (hd : IsDigitText ds) (negative : Bool) :
    (signChars negative ++ c :: 'e' :: sign :: ds).contains '.' = false ∧
      (signChars negative ++ c :: 'e' :: sign :: ds).flatMap
          (fun c => if c == 'e' then ".0e".toList else [c]) =
        signChars negative ++ ([c] ++ '.' :: (['0'] ++ 'e' :: sign :: ds)) := by
  have hdigit : ∀ {d : Char}, d.isDigit = true → d ≠ '.' ∧ d ≠ 'e' := fun h =>
    ⟨ne_of_isDigit h (by decide), ne_of_isDigit h (by decide)⟩
  have hkeep : ∀ {d : Char}, d ≠ 'e' → (if d == 'e' then ".0e".toList else [d]) = [d] := fun h =>
    if_neg (by simpa using h)
  have hds : ds.flatMap (fun c => if c == 'e' then ".0e".toList else [c]) = ds :=
    calc ds.flatMap (fun c => if c == 'e' then ".0e".toList else [c]) = ds.flatMap fun c => [c] :=
          List.flatMap_congr fun d h => hkeep (hdigit (hd.digit d h)).2
      _ = ds := List.flatMap_singleton' ds
  have hpoint : '.' ∉ ds := fun h => (hdigit (hd.digit _ h)).1 rfl
  have hc' := hdigit hc
  have hsign' : sign ≠ '.' ∧ sign ≠ 'e' := by rcases hsign with rfl | rfl <;> decide
  constructor
  · rw [List.contains_eq_mem, decide_eq_false_iff_not]
    cases negative <;> simp [signChars, hpoint, Ne.symm hc'.1, Ne.symm hsign'.1]
  · have hrest : (c :: 'e' :: sign :: ds).flatMap (fun c => if c == 'e' then ".0e".toList else [c]) =
        c :: '.' :: '0' :: 'e' :: sign :: ds := by
      rw [List.flatMap_cons, List.flatMap_cons, List.flatMap_cons, hds, hkeep hc'.2, hkeep hsign'.2]
      rfl
    rw [List.flatMap_append, hrest]
    cases negative <;> rfl

/-- A finite double is written as its sign and a text with a point. -/
theorem realScalar_finite (negative : Bool) (hfits : Fits m q) :
    ∃ s v, realScalar (.finite negative m q hfits) = signChars negative ++ s ∧ DecimalText s v ∧
      (m = 0 ∧ v = 0 ∨ 0 < m ∧ RoundsTo m q v) := by
  have hzero : IsDigitText ['0'] := ⟨by simp, by simp⟩
  rcases Nat.eq_zero_or_pos m with rfl | hm
  · refine ⟨['0', '.', '0'], 0, by cases negative <;> rfl, ?_, .inl ⟨rfl, rfl⟩⟩
    have htext := DecimalText.mk hzero hzero .none
    have hvalue : digitsNumber (['0'] ++ ['0']) = 0 := rfl
    rw [hvalue, Nat.cast_zero, zero_mul] at htext
    exact htext
  · obtain ⟨ds, top, hchars, hdigits, hrounds⟩ := realChars_finite hfits hm
    rcases layDigits_standardLayout hdigits top with htext | ⟨c, rfl, hlaid⟩
    · refine ⟨_, _, ?_, htext, .inr ⟨hm, hrounds⟩⟩
      have hpoint : (signChars negative ++ layDigits standardLayout ds top).contains '.' = true := by
        rw [List.contains_eq_mem, decide_eq_true_eq]
        exact List.mem_append_right _ htext.point
      unfold realScalar
      dsimp only
      rw [hchars, if_pos hpoint]
    · have hc : c.isDigit = true := hdigits.digit c (by simp)
      obtain ⟨hpadded, -⟩ := isDigitText_padded 2 top.natAbs
      have htext := DecimalText.of_eq [c] top 1 hdigits hzero
        (exponentText_padded 2 top)
        (by rw [digitsNumber_append _ hzero.decimal]; rfl)
        (by simp only [List.length_singleton]; push_cast; ring)
      refine ⟨_, _, ?_, htext, .inr ⟨hm, hrounds⟩⟩
      obtain ⟨hpoint, hflat⟩ := flatMap_exponent (if top < 0 then '-' else '+') hc
        (by split <;> simp) hpadded negative
      unfold realScalar
      dsimp only
      rw [hchars, hlaid, hpoint, if_neg Bool.false_ne_true, hflat]

theorem isExponent_of_exponentText {e : List Char} {x : ℤ} (h : ExponentText e x) :
    isExponent e = true := by
  have hall : ∀ {ds : List Char}, IsDigitText ds → ds.isEmpty = false ∧ ds.all isAsciiDigit = true :=
    fun h => ⟨by simpa using h.ne_nil,
      List.all_eq_true.mpr fun c hc => isAsciiDigit_of_isDigit (h.digit c hc)⟩
  cases h with
  | none => rfl
  | plus h => simp [isExponent, hall h]
  | minus h => simp [isExponent, hall h]

/-- The digits after the point end where the exponent starts. -/
theorem dropWhile_fraction {fraction e : List Char} {x : ℤ} (hf : IsDigitText fraction)
    (he : ExponentText e x) : (fraction ++ e).dropWhile isDigitOrBar = e := by
  rw [List.dropWhile_append_of_pos fun c hc => isDigitOrBar_of_isDigit (hf.digit c hc)]
  cases he with
  | none => rfl
  | plus => rfl
  | minus => rfl

/-- A text with a point is taken for a double. -/
theorem isFloat_decimalText (h : DecimalText s v) (negative : Bool) :
    isFloat (signChars negative ++ s) = true := by
  unfold isFloat
  rw [unsigned_number (isUnsigned_decimalText h)]
  obtain ⟨hw, hf, he⟩ := h
  rename_i whole fraction e x
  have hpoint : ∀ c ∈ whole, (c != '.') = true := fun c hc => by
    simpa using ne_of_isDigit (hw.digit c hc) (by decide)
  have hcolon : ':' ∉ whole := fun hmem => absurd (hw.digit _ hmem) (by decide)
  have htake : (whole ++ '.' :: (fraction ++ e)).takeWhile (· != '.') = whole := by
    rw [List.takeWhile_append_of_pos hpoint, List.takeWhile_cons_of_neg (by simp), List.append_nil]
  have hdrop : (whole ++ '.' :: (fraction ++ e)).dropWhile (· != '.') = '.' :: (fraction ++ e) := by
    rw [List.dropWhile_append_of_pos hpoint, List.dropWhile_cons_of_neg (by simp)]
  dsimp only
  rw [hdrop, htake]
  dsimp only
  rw [dropWhile_fraction hf he, splitAt_eq_singleton hcolon]
  split
  · rename_i heq
    exact absurd (List.cons.inj heq).1 hw.ne_nil
  · rename_i heq
    obtain rfl := (List.cons.inj heq).1
    rw [isDigits_of_isDigitText hw, isExponent_of_exponentText he]
    rfl
  · rename_i hne heq
    obtain ⟨rfl, rfl⟩ := List.cons.inj heq
    exact (hne rfl).elim
  · rename_i heq
    cases heq

/-- A double is taken for one, without quotes. -/
theorem plainTag_realScalar (x : Real64) :
    plainTag (realScalar x) = .float ∧ allowsPlain (realScalar x) = true := by
  cases x with
  | nan => decide
  | infinite negative => cases negative <;> decide
  | finite negative m q hfits =>
    obtain ⟨s, v, hs, htext, -⟩ := realScalar_finite negative hfits
    rw [hs]
    have hnumber := isUnsigned_decimalText htext
    exact ⟨plainTag_number hnumber _ (.inl ⟨isFloat_decimalText htext _, rfl⟩),
      allowsPlain_number hnumber _⟩

/-- The magnitude of a double is read from digits that are rounded to it. -/
theorem readReal?_roundsTo (hfits : Fits m q) (h : DecimalText s v)
    (hvalue : m = 0 ∧ v = 0 ∨ 0 < m ∧ RoundsTo m q v) :
    readReal? s = some (.finite false m q hfits) := by
  obtain ⟨digits, exponent, hread, rfl⟩ := readReal?_decimalText h
  rw [hread]
  rcases hvalue with ⟨rfl, hzero⟩ | ⟨hm, hrounds⟩
  · have hdigits : digits = 0 := by
      have hten : (10 : ℚ) ^ exponent ≠ 0 := by positivity
      simpa [hten] using hzero
    have hq : q = minExponent := by
      rcases (fits_iff.mp hfits).2.2.2 with hnormal | hq
      · exact absurd hnormal (by norm_num)
      · exact hq
    subst hdigits hq
    rfl
  · exact congrArg some (ofDecimal_eq hfits hm hrounds)

/-- A written number is read as its sign and what is read without it. -/
theorem realOf_number (h : IsUnsigned s) (negative : Bool) (hread : readReal? s = some x) :
    realOf (signChars negative ++ s) = .ok (if negative then x.negate else x) := by
  have hall := h.signed negative
  have hlower : lower (signChars negative ++ s) = signChars negative ++ s := by
    have hchars : ∀ c ∈ numberChars, lowerChar c = c := List.all_iff_forall_prop.mp (by decide)
    exact lowerFrom_eq_self [] fun c hc => hchars c (hall c hc)
  obtain ⟨c, r, hcr, hc⟩ := h.starts
  have hword : ∀ word : List Char, word.head?.any Char.isDigit = false → s ≠ word := by
    rintro word hhead rfl
    rw [hcr, List.head?_cons, Option.any_some, hc] at hhead
    cases hhead
  have hinf : s ≠ ".inf".toList := hword _ (by decide)
  have hnan : s ≠ ".nan".toList := hword _ (by decide)
  have hcolon : s.contains ':' = false := by
    rw [List.contains_eq_mem, decide_eq_false_iff_not]
    exact fun hmem => absurd (h.number _ hmem) (by decide)
  have hempty : (signChars negative ++ s).isEmpty = false := by
    rw [hcr]
    cases negative <;> rfl
  unfold realOf
  rw [filter_number hall, hlower]
  dsimp only
  have hmagnitude : magnitudeOf s = .ok x := by
    rw [magnitudeOf, if_neg hinf, if_neg hnan, hcolon, if_neg Bool.false_ne_true, hread]
  rw [hempty, if_neg Bool.false_ne_true, takeSign_number h]
  dsimp only
  rw [hmagnitude]
  rfl

/-- A double is read back. -/
theorem realOf_realScalar (x : Real64) : realOf (realScalar x) = .ok x := by
  cases x with
  | nan => rfl
  | infinite negative => cases negative <;> rfl
  | finite negative m q hfits =>
    obtain ⟨s, v, hs, htext, hvalue⟩ := realScalar_finite negative hfits
    rw [hs, realOf_number (isUnsigned_decimalText htext) negative (readReal?_roundsTo hfits htext hvalue)]
    cases negative <;> rfl

end Doubles

end RouteDocs.Yaml
