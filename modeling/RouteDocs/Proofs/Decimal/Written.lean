import Mathlib.Data.Bool.AllAny
import Mathlib.Tactic.IntervalCases
import RouteDocs.Decimal.Layout
import RouteDocs.Proofs.Decimal.Numeral
import RouteDocs.Proofs.Decimal.Shortest

/-!
# RouteDocs.Proofs.Decimal.Written — written numbers are read back

An integer of not too many digits is read back from its digits (`readInt?_natChars`).  A double is written
as digits around a point, with an exponent or not (`DecimalText`), and from such a text the double is read
that its value is rounded to (`readReal?_decimalText`).
-/

namespace RouteDocs.Decimal

open Text Real64

/-! ### Digits -/

/-- The characters of written numbers. -/
def numberChars : List Char := "0123456789.-+e".toList

/-- A text of digits, not empty. -/
structure IsDigitText (s : List Char) : Prop where
  ne_nil : s ≠ []
  digit : ∀ c ∈ s, c.isDigit = true

section Digits

variable {c : Char} {s t : List Char} {n : ℕ}

theorem mem_digits (h : c.isDigit = true) : c ∈ "0123456789".toList := by
  obtain ⟨hlow, hhigh⟩ := Char.isDigit_iff_toNat.mp h
  have hc : c = Char.ofNat c.toNat := (Char.ofNat_toNat c).symm
  have hlow' : 48 ≤ c.toNat := hlow
  have hhigh' : c.toNat ≤ 57 := hhigh
  rw [hc]
  generalize c.toNat = n at hlow' hhigh'
  interval_cases n <;> decide

theorem mem_numberChars (h : c.isDigit = true) : c ∈ numberChars := by
  have hsub : ∀ c ∈ "0123456789".toList, c ∈ numberChars := List.all_iff_forall_prop.mp (by decide)
  exact hsub c (mem_digits h)

theorem digitValue?_of_isDigit (h : c.isDigit = true) : digitValue? c = some (c.toNat - 48) := by
  have hall : ∀ c ∈ "0123456789".toList, digitValue? c = some (c.toNat - 48) :=
    List.all_iff_forall_prop.mp (by decide)
  exact hall c (mem_digits h)

theorem isDecimalDigit_of_isDigit (h : c.isDigit = true) : isDecimalDigit c = true := by
  rw [isDecimalDigit, digitValue?_of_isDigit h]
  rfl

/-- A digit is none of the other characters of numbers. -/
theorem ne_of_isDigit {d : Char} (h : c.isDigit = true) (hd : d.isDigit = false) : c ≠ d := by
  rintro rfl
  rw [h] at hd
  cases hd

theorem IsDigitText.decimal (h : IsDigitText s) : ∀ c ∈ s, isDecimalDigit c = true :=
  fun c hc => isDecimalDigit_of_isDigit (h.digit c hc)

theorem IsDigitText.append (h : IsDigitText s) (ht : ∀ c ∈ t, c.isDigit = true) :
    IsDigitText (s ++ t) :=
  ⟨List.append_ne_nil_of_left_ne_nil h.ne_nil t, List.forall_mem_append.mpr ⟨h.digit, ht⟩⟩

theorem isDigit_zeros (n : ℕ) : ∀ c ∈ List.replicate n '0', c.isDigit = true := by
  intro c hc
  rw [List.eq_of_mem_replicate hc]
  rfl

theorem isDecimalDigit_zeros (n : ℕ) : ∀ c ∈ List.replicate n '0', isDecimalDigit c = true :=
  fun c hc => isDecimalDigit_of_isDigit (isDigit_zeros n c hc)

/-- Zeros in front of digits. -/
theorem IsDigitText.zeros_append (h : IsDigitText s) (n : ℕ) :
    IsDigitText (List.replicate n '0' ++ s) :=
  ⟨List.append_ne_nil_of_right_ne_nil _ h.ne_nil, List.forall_mem_append.mpr ⟨isDigit_zeros n, h.digit⟩⟩

/-- Digits are read as the library reads them. -/
theorem digitsNumber_of_isDigit (h : ∀ c ∈ s, c.isDigit = true) :
    digitsNumber s = Nat.ofDigitChars 10 s 0 := by
  have hfold : ∀ n, (s.filterMap digitValue?).foldl (fun n d => n * 10 + d) n = Nat.ofDigitChars 10 s n := by
    induction s with
    | nil => exact fun _ => rfl
    | cons c s ih =>
      intro n
      rw [List.filterMap_cons_some (digitValue?_of_isDigit (h c List.mem_cons_self)), List.foldl_cons,
        ih fun x hx => h x (List.mem_cons_of_mem _ hx), Nat.ofDigitChars_cons, Nat.mul_comm]
      rfl
  exact hfold 0

theorem digitsNumber_zeros (n : ℕ) : digitsNumber (List.replicate n '0') = 0 := by
  rw [digitsNumber_of_isDigit (isDigit_zeros n), Nat.ofDigitChars_replicate_zero, Nat.mul_zero]

theorem isDigitText_zero : IsDigitText ['0'] := ⟨List.cons_ne_nil _ _, isDigit_zeros 1⟩

theorem digitsNumber_zero : digitsNumber ['0'] = 0 := digitsNumber_zeros 1

/-! ### Texts of numbers are read as they stand -/

theorem trim_of_number (h : ∀ c ∈ s, c ∈ numberChars) : trim s = s := by
  have hall : ∀ c ∈ numberChars, isBlank c = false := List.all_iff_forall_prop.mp (by decide)
  exact trim_eq_self fun c hc => hall c (h c hc)

theorem takeSign_of_isDigit (h : c.isDigit = true) (s : List Char) :
    takeSign (c :: s) = (false, c :: s) := by
  have hminus : c ≠ '-' := ne_of_isDigit h (by decide)
  have hplus : c ≠ '+' := ne_of_isDigit h (by decide)
  unfold takeSign
  split
  · rename_i heq
    exact absurd (List.cons.inj heq).1 hminus
  · rename_i heq
    exact absurd (List.cons.inj heq).1 hplus
  · rfl

end Digits

/-! ### Integers -/

section Integers

variable {n : ℕ}

theorem isDigitText_natChars (n : ℕ) : IsDigitText (natChars n) :=
  ⟨Nat.toDigits_ne_nil, fun _ hc => Nat.isDigit_of_mem_toDigits (by decide) (by decide) hc⟩

theorem digitsNumber_natChars (n : ℕ) : digitsNumber (natChars n) = n := by
  rw [digitsNumber_of_isDigit (isDigitText_natChars n).digit]
  exact Nat.ofDigitChars_ten_toDigits

theorem length_natChars_le {k : ℕ} (hk : 0 < k) (hn : n < Nat.pow 10 k) : (natChars n).length ≤ k :=
  (Nat.length_toDigits_le_iff (by decide) hk).mpr hn

/-- The first digit of a number above zero is not zero. -/
theorem natChars_eq_cons (hn : 0 < n) : ∃ c r, natChars n = c :: r ∧ c.isDigit = true ∧ c ≠ '0' := by
  induction n using Nat.strongRecOn with
  | ind n ih =>
    rw [natChars, Nat.toDigits_eq_if (by decide)]
    split
    · rename_i hlt
      refine ⟨_, _, rfl, ?_⟩
      interval_cases n <;> decide
    · obtain ⟨c, r, hcr, hc⟩ := ih (n / 10) (by omega) (by omega)
      rw [natChars] at hcr
      exact ⟨c, r ++ [(n % 10).digitChar], by rw [hcr, List.cons_append], hc⟩

/-- A number of not too many digits is read back. -/
theorem readInt?_natChars (hn : (natChars n).length ≤ maxDigits) :
    readInt? 10 (natChars n) = some (n : ℤ) := by
  have hdigits := isDigitText_natChars n
  have htake : takeSign (natChars n) = (false, natChars n) := by
    obtain ⟨c, r, hcr⟩ := List.exists_cons_of_ne_nil hdigits.ne_nil
    rw [hcr]
    exact takeSign_of_isDigit (hdigits.digit c (by rw [hcr]; simp)) r
  have hmark : dropBaseMark 10 (natChars n) = natChars n := rfl
  unfold readInt?
  rw [trim_of_number fun c hc => mem_numberChars (hdigits.digit c hc), htake]
  dsimp only
  rw [hmark, digitValues?_digits hdigits.ne_nil hdigits.decimal, Option.bind_some,
    length_filterMap_digitValue? hdigits.decimal, ← digitsNumber, digitsNumber_natChars]
  have hfits : ¬ maxDigits < (natChars n).length := by omega
  simp [hfits]

end Integers

/-! ### Doubles -/

/-- The exponent of a written number: none, or a mark, a sign and digits. -/
inductive ExponentText : List Char → ℤ → Prop
  | none : ExponentText [] 0
  | plus {ds : List Char} (h : IsDigitText ds) : ExponentText ('e' :: '+' :: ds) (digitsNumber ds)
  | minus {ds : List Char} (h : IsDigitText ds) : ExponentText ('e' :: '-' :: ds) (-digitsNumber ds)

/-- Digits around a point, and an exponent or none, with their value. -/
inductive DecimalText : List Char → ℚ → Prop
  | mk {whole fraction e : List Char} {x : ℤ} (hw : IsDigitText whole) (hf : IsDigitText fraction)
      (he : ExponentText e x) : DecimalText (whole ++ '.' :: (fraction ++ e))
        (digitsNumber (whole ++ fraction) * 10 ^ (x - fraction.length))

section Doubles

variable {ds e s : List Char} {top x : ℤ} {m : ℕ} {q : ℤ} {v : ℚ}

theorem ExponentText.number (h : ExponentText e x) : ∀ c ∈ e, c ∈ numberChars := by
  cases h with
  | none => nofun
  | plus h =>
    refine List.forall_mem_cons.mpr ⟨by decide, List.forall_mem_cons.mpr ⟨by decide, ?_⟩⟩
    exact fun c hc => mem_numberChars (h.digit c hc)
  | minus h =>
    refine List.forall_mem_cons.mpr ⟨by decide, List.forall_mem_cons.mpr ⟨by decide, ?_⟩⟩
    exact fun c hc => mem_numberChars (h.digit c hc)

theorem ExponentText.endsDigits (h : ExponentText e x) : EndsDigits e := by
  cases h with
  | none => exact endsDigits_nil
  | plus h =>
    rintro c r heq
    obtain rfl := (List.cons.inj heq).1
    exact ⟨rfl, by decide⟩
  | minus h =>
    rintro c r heq
    obtain rfl := (List.cons.inj heq).1
    exact ⟨rfl, by decide⟩

theorem DecimalText.number (h : DecimalText s v) : ∀ c ∈ s, c ∈ numberChars := by
  obtain ⟨hw, hf, he⟩ := h
  refine List.forall_mem_append.mpr ⟨fun c hc => mem_numberChars (hw.digit c hc), ?_⟩
  refine List.forall_mem_cons.mpr ⟨by decide, List.forall_mem_append.mpr ⟨?_, he.number⟩⟩
  exact fun c hc => mem_numberChars (hf.digit c hc)

theorem DecimalText.exists_cons (h : DecimalText s v) : ∃ c r, s = c :: r ∧ c.isDigit = true := by
  obtain ⟨hw, hf, he⟩ := h
  obtain ⟨c, r, rfl⟩ := List.exists_cons_of_ne_nil hw.ne_nil
  exact ⟨c, _, rfl, hw.digit c List.mem_cons_self⟩

theorem DecimalText.point (h : DecimalText s v) : '.' ∈ s := by
  obtain ⟨hw, hf, he⟩ := h
  simp

/-! ### Writing -/

theorem exists_stripZeros (h : IsDigitText ds) (hpos : 0 < digitsNumber ds) :
    IsDigitText (stripZeros ds) ∧ ∃ k, ds = stripZeros ds ++ List.replicate k '0' := by
  let zeros := ds.reverse.takeWhile (· == '0')
  have hzeros : zeros = List.replicate zeros.length '0' := by
    refine List.eq_replicate_of_mem fun c hc => ?_
    simpa using List.all_eq_true.mp List.all_takeWhile c hc
  have hsplit : ds = stripZeros ds ++ List.replicate zeros.length '0' := by
    calc ds = (zeros ++ ds.reverse.dropWhile (· == '0')).reverse := by
          rw [List.takeWhile_append_dropWhile, List.reverse_reverse]
      _ = stripZeros ds ++ List.replicate zeros.length '0' := by
          rw [List.reverse_append, hzeros, List.reverse_replicate, List.length_replicate]
          rfl
  refine ⟨⟨fun hnil => ?_, fun c hc => h.digit c ?_⟩, zeros.length, hsplit⟩
  · rw [hsplit, hnil, List.nil_append, digitsNumber_zeros] at hpos
    exact Nat.lt_irrefl 0 hpos
  · rw [hsplit]
    exact List.mem_append_left _ hc

theorem isDigitText_padded (width n : ℕ) :
    IsDigitText (padded width n) ∧ digitsNumber (padded width n) = n := by
  refine ⟨(isDigitText_natChars n).zeros_append _, ?_⟩
  rw [padded, digitsNumber_append _ (isDigitText_natChars n).decimal, digitsNumber_zeros,
    digitsNumber_natChars, Nat.zero_mul, Nat.zero_add]

theorem exponentText_padded (width : ℕ) (x : ℤ) :
    ExponentText ('e' :: (if x < 0 then '-' else '+') :: padded width x.natAbs) x := by
  obtain ⟨hdigits, hvalue⟩ := isDigitText_padded width x.natAbs
  split
  · have hx : x = -(digitsNumber (padded width x.natAbs) : ℤ) := by
      rw [hvalue]
      omega
    have htext := ExponentText.minus hdigits
    rwa [← hx] at htext
  · have hx : x = (digitsNumber (padded width x.natAbs) : ℤ) := by
      rw [hvalue]
      omega
    have htext := ExponentText.plus hdigits
    rwa [← hx] at htext

/-- A text with a point for digits and the place of the first of them. -/
theorem DecimalText.of_eq (ds : List Char) (top : ℤ) (k : ℕ) {whole fraction : List Char}
    (hw : IsDigitText whole) (hf : IsDigitText fraction) (he : ExponentText e x)
    (hdigits : digitsNumber (whole ++ fraction) = digitsNumber ds * 10 ^ k)
    (hexp : x - fraction.length + k = top + 1 - ds.length) :
    DecimalText (whole ++ '.' :: (fraction ++ e)) (digitsNumber ds * 10 ^ (top + 1 - ds.length)) := by
  have htext := DecimalText.mk hw hf he
  have hvalue : (digitsNumber (whole ++ fraction) : ℚ) * 10 ^ (x - fraction.length) =
      digitsNumber ds * 10 ^ (top + 1 - ds.length) := by
    rw [hdigits, ← hexp, zpow_add₀ (by norm_num), zpow_natCast]
    push_cast
    ring
  rwa [hvalue] at htext

/-- Below one, zeros stand between the point and the digits. -/
theorem DecimalText.below_one (h : IsDigitText ds) (htop : top < 0) :
    DecimalText ('0' :: '.' :: List.replicate (-top - 1).toNat '0' ++ ds)
      (digitsNumber ds * 10 ^ (top + 1 - ds.length)) := by
  have hvalue : digitsNumber (['0'] ++ (List.replicate (-top - 1).toNat '0' ++ ds)) =
      digitsNumber ds * 10 ^ 0 := by
    rw [digitsNumber_append _ (h.zeros_append _).decimal, digitsNumber_append _ h.decimal,
      digitsNumber_zeros, digitsNumber_zero]
    simp
  have hexp : (0 : ℤ) - (List.replicate (-top - 1).toNat '0' ++ ds).length + (0 : ℕ) =
      top + 1 - ds.length := by
    rw [List.length_append, List.length_replicate]
    omega
  simpa using of_eq ds top 0 isDigitText_zero (h.zeros_append _) .none hvalue hexp

/-- A whole number has zeros after the digits and one behind the point. -/
theorem DecimalText.whole (h : IsDigitText ds) (htop : ¬ top < 0) (hle : ds.length ≤ top.toNat + 1) :
    DecimalText (ds ++ List.replicate (top.toNat + 1 - ds.length) '0' ++ ['.', '0'])
      (digitsNumber ds * 10 ^ (top + 1 - ds.length)) := by
  have hvalue : digitsNumber ((ds ++ List.replicate (top.toNat + 1 - ds.length) '0') ++ ['0']) =
      digitsNumber ds * 10 ^ (top.toNat + 1 - ds.length + 1) := by
    rw [digitsNumber_append _ isDigitText_zero.decimal, digitsNumber_append _ (isDecimalDigit_zeros _),
      digitsNumber_zeros, digitsNumber_zero, List.length_replicate, List.length_singleton, Nat.pow_succ]
    ring
  have hexp : (0 : ℤ) - ['0'].length + (top.toNat + 1 - ds.length + 1 : ℕ) = top + 1 - ds.length := by
    rw [List.length_singleton]
    omega
  simpa using of_eq ds top _ (h.append (isDigit_zeros _)) isDigitText_zero .none hvalue hexp

/-- Elsewhere the point parts the digits. -/
theorem DecimalText.parted (h : IsDigitText ds) (htop : ¬ top < 0) (hlt : top.toNat + 1 < ds.length) :
    DecimalText (ds.take (top.toNat + 1) ++ '.' :: ds.drop (top.toNat + 1))
      (digitsNumber ds * 10 ^ (top + 1 - ds.length)) := by
  have hwhole : IsDigitText (ds.take (top.toNat + 1)) :=
    ⟨fun hnil => h.ne_nil (by simpa using hnil), fun c hc => h.digit c (List.mem_of_mem_take hc)⟩
  have hfraction : IsDigitText (ds.drop (top.toNat + 1)) :=
    ⟨fun hnil => by rw [List.drop_eq_nil_iff] at hnil; omega,
      fun c hc => h.digit c (List.mem_of_mem_drop hc)⟩
  have hvalue : digitsNumber (ds.take (top.toNat + 1) ++ ds.drop (top.toNat + 1)) =
      digitsNumber ds * 10 ^ 0 := by
    rw [List.take_append_drop, Nat.pow_zero, Nat.mul_one]
  have hexp : (0 : ℤ) - (ds.drop (top.toNat + 1)).length + (0 : ℕ) = top + 1 - ds.length := by
    rw [List.length_drop]
    omega
  simpa using of_eq ds top 0 hwhole hfraction .none hvalue hexp

/-- With an exponent, the point stands after the first of several digits. -/
theorem DecimalText.scientific {c d : Char} {r : List Char} (h : IsDigitText (c :: d :: r))
    (he : ExponentText e top) :
    DecimalText (c :: '.' :: d :: r ++ e)
      (digitsNumber (c :: d :: r) * 10 ^ (top + 1 - (c :: d :: r).length)) := by
  have hwhole : IsDigitText [c] := ⟨List.cons_ne_nil _ _, by simpa using h.digit c List.mem_cons_self⟩
  have hfraction : IsDigitText (d :: r) :=
    ⟨List.cons_ne_nil _ _, fun x hx => h.digit x (List.mem_cons_of_mem _ hx)⟩
  have hvalue : digitsNumber ([c] ++ d :: r) = digitsNumber (c :: d :: r) * 10 ^ 0 := by
    rw [Nat.pow_zero, Nat.mul_one, List.singleton_append]
  have hexp : top - (d :: r).length + (0 : ℕ) = top + 1 - (c :: d :: r).length := by
    simp only [List.length_cons]
    push_cast
    ring
  simpa using of_eq (c :: d :: r) top 0 hwhole hfraction he hvalue hexp

/-- Digits in the standard layout: with a point, or one digit with an exponent. -/
theorem layDigits_standardLayout (h : IsDigitText ds) (top : ℤ) :
    DecimalText (layDigits standardLayout ds top) (digitsNumber ds * 10 ^ (top + 1 - ds.length)) ∨
      ∃ c, ds = [c] ∧ layDigits standardLayout ds top =
        c :: 'e' :: (if top < 0 then '-' else '+') :: padded 2 top.natAbs := by
  unfold layDigits
  split
  · refine .inl ?_
    split
    · rename_i hneg
      exact .below_one h hneg
    · dsimp only
      split
      · rename_i hneg hle
        exact .whole h hneg hle
      · rename_i hneg hlt
        exact .parted h hneg (not_le.mp hlt)
  · obtain ⟨c, r, rfl⟩ := List.exists_cons_of_ne_nil h.ne_nil
    cases r with
    | nil => exact .inr ⟨c, rfl, rfl⟩
    | cons d r =>
      have htext := DecimalText.scientific h (exponentText_padded standardLayout.exponentWidth top)
      exact .inl (by simpa using htext)

/-- The sign of a written number. -/
def signChars (negative : Bool) : List Char := if negative then ['-'] else []

/-- The zeros that are stripped from a number are in its exponent. -/
theorem digitsNumber_stripZeros {n : ℕ} (hn : 0 < n) (e : ℤ) :
    IsDigitText (stripZeros (natChars n)) ∧
      (digitsNumber (stripZeros (natChars n)) : ℚ) *
        10 ^ (e + (natChars n).length - 1 + 1 - (stripZeros (natChars n)).length) = n * 10 ^ e := by
  obtain ⟨hstrip, k, hk⟩ := exists_stripZeros (isDigitText_natChars n) (by rwa [digitsNumber_natChars])
  have hdigits : n = digitsNumber (stripZeros (natChars n)) * 10 ^ k := by
    have happend := digitsNumber_append (stripZeros (natChars n)) (isDecimalDigit_zeros k)
    rwa [← hk, digitsNumber_natChars, digitsNumber_zeros, List.length_replicate, Nat.add_zero] at happend
  have hlength := congrArg List.length hk
  rw [List.length_append, List.length_replicate] at hlength
  have hexp : e + (natChars n).length - 1 + 1 - (stripZeros (natChars n)).length = k + e := by omega
  refine ⟨hstrip, ?_⟩
  calc (digitsNumber (stripZeros (natChars n)) : ℚ) *
        10 ^ (e + (natChars n).length - 1 + 1 - (stripZeros (natChars n)).length)
      = digitsNumber (stripZeros (natChars n)) * 10 ^ k * 10 ^ e := by
        rw [hexp, zpow_add₀ (by norm_num), zpow_natCast, mul_assoc]
    _ = ((digitsNumber (stripZeros (natChars n)) * 10 ^ k : ℕ) : ℚ) * 10 ^ e := by
        push_cast
        rfl
    _ = n * 10 ^ e := by rw [← hdigits]

/-- The digits with which a double is written are rounded to it. -/
theorem realChars_finite {negative : Bool} (hfits : Fits m q) (hm : 0 < m) :
    ∃ ds top, realChars standardLayout (.finite negative m q hfits) =
        signChars negative ++ layDigits standardLayout ds top ∧ IsDigitText ds ∧
      RoundsTo m q (digitsNumber ds * 10 ^ (top + 1 - ds.length)) := by
  have hrounds := roundsTo_shortest hfits hm
  have hchars : realChars standardLayout (.finite negative m q hfits) =
      signChars negative ++ layDigits standardLayout (stripZeros (natChars (shortest m q).digits))
        ((shortest m q).exponent + (natChars (shortest m q).digits).length - 1) := by
    rw [realChars]
    dsimp only
    rw [if_neg hm.ne']
    rfl
  have hpos : 0 < (shortest m q).digits := by
    have hvalue := hrounds.pos hm
    rcases Nat.eq_zero_or_pos (shortest m q).digits with hnone | hpos
    · rw [hnone, Nat.cast_zero, zero_mul] at hvalue
      exact absurd hvalue (lt_irrefl 0)
    · exact hpos
  obtain ⟨hstrip, hvalue⟩ := digitsNumber_stripZeros hpos (shortest m q).exponent
  refine ⟨_, _, hchars, hstrip, ?_⟩
  rwa [hvalue]

/-! ### Reading -/

theorem readExponent?_exponentText {ds : List Char} (h : IsDigitText ds) (negative : Bool) :
    readExponent? ((if negative then '-' else '+') :: ds) =
      some (if negative then -(digitsNumber ds : ℤ) else digitsNumber ds) := by
  have htake : takeSign ((if negative then '-' else '+') :: ds) = (negative, ds) := by
    cases negative <;> rfl
  have hspan := spanDigits_append h.decimal endsDigits_nil
  rw [List.append_nil] at hspan
  have hempty := isEmpty_filterMap_digitValue? h.ne_nil h.decimal
  unfold readExponent?
  rw [htake]
  dsimp only
  rw [hspan]
  cases hvalues : ds.filterMap digitValue? with
  | nil =>
    rw [hvalues] at hempty
    cases hempty
  | cons d values =>
    dsimp only
    rw [← hvalues, ← digitsNumber]

/-- What is read from a text with a point. -/
theorem readReal?_decimalText (h : DecimalText s v) :
    ∃ digits exponent, readReal? s = some (ofDecimal false digits exponent) ∧
      v = digits * 10 ^ exponent := by
  have htrim := trim_of_number h.number
  obtain ⟨c, r, hcr, hc⟩ := h.exists_cons
  have htake : takeSign s = (false, s) := by
    rw [hcr]
    exact takeSign_of_isDigit hc r
  have hword : ∀ word : List Char, word.head?.any Char.isDigit = false →
      s.map Char.toLower ≠ word := by
    rintro word hhead rfl
    have hall : ∀ c ∈ "0123456789".toList, c.toLower = c := List.all_iff_forall_prop.mp (by decide)
    rw [hcr, List.map_cons, List.head?_cons, hall c (mem_digits hc), Option.any_some, hc] at hhead
    cases hhead
  have hinf : s.map Char.toLower ≠ "inf".toList := hword _ (by decide)
  have hinfinity : s.map Char.toLower ≠ "infinity".toList := hword _ (by decide)
  have hnan : s.map Char.toLower ≠ "nan".toList := hword _ (by decide)
  unfold readReal?
  rw [htrim, htake]
  simp only [hinf, hinfinity, hnan, decide_false, Bool.or_self, Bool.false_eq_true, if_false]
  clear htrim htake hword hinf hinfinity hnan hcr hc
  obtain ⟨hw, hf, he⟩ := h
  rename_i whole fraction e x
  have hempty := isEmpty_filterMap_digitValue? hw.ne_nil hw.decimal
  have hlength := length_filterMap_digitValue? hf.decimal
  have hvalue : ofDigitValues 10 (whole.filterMap digitValue? ++ fraction.filterMap digitValue?) =
      digitsNumber (whole ++ fraction) := by
    rw [← List.filterMap_append, digitsNumber]
  rw [spanDigits_append hw.decimal (endsDigits_point _)]
  simp only [spanDigits_append hf.decimal he.endsDigits]
  rw [hempty, Bool.false_and, if_neg Bool.false_ne_true, hvalue, hlength]
  refine ⟨digitsNumber (whole ++ fraction), x - fraction.length, ?_, rfl⟩
  cases he with
  | none => rfl
  | plus h =>
    have hread := readExponent?_exponentText h false
    simp only [Bool.false_eq_true, if_false] at hread
    simp [hread]
  | minus h =>
    have hread := readExponent?_exponentText h true
    simp only [if_true] at hread
    simp [hread]

/-- All doubles are far below the power of ten from which on a decimal is infinite. -/
theorem two_zpow_le_ten_zpow : (2 : ℚ) ^ (1300 : ℤ) ≤ 10 ^ (400 : ℤ) :=
  calc (2 : ℚ) ^ (1300 : ℤ) = (2 ^ 13) ^ 100 := by
        rw [← pow_mul]
        rfl
    _ ≤ (10 ^ 4) ^ 100 := pow_le_pow_left₀ (by norm_num) (by norm_num) 100
    _ = 10 ^ (400 : ℤ) := by
        rw [← pow_mul]
        rfl

/-- What is rounded to a double above zero is no smaller than a decimal that is read as zero. -/
theorem ten_zpow_le_of_roundsTo {v : ℚ} (hfits : Fits m q) (hm : 0 < m)
    (h : RoundsTo m q v) :
    (10 : ℚ) ^ (-400 : ℤ) ≤ v :=
  have hone : (1 : ℚ) ≤ m := by exact_mod_cast hm
  have hhalf : 1 / 2 ≤ (m : ℚ) - halfBelow m q := by
    have := halfBelow_le m q
    linarith
  have hmin : (2 : ℚ) ^ (-1074 : ℤ) ≤ 2 ^ q := zpow_le_zpow_right₀ (by norm_num) hfits.2.1
  calc (10 : ℚ) ^ (-400 : ℤ) = (10 ^ (400 : ℤ))⁻¹ := zpow_neg 10 400
    _ ≤ (2 ^ (1300 : ℤ))⁻¹ := by
        have htwo := two_zpow_le_ten_zpow
        gcongr
    _ = 2 ^ (-1300 : ℤ) := (zpow_neg 2 1300).symm
    _ ≤ 2 ^ (-1075 : ℤ) := zpow_le_zpow_right₀ (by norm_num) (by norm_num)
    _ = 1 / 2 * 2 ^ (-1074 : ℤ) := by
        rw [show (-1075 : ℤ) = -1 + -1074 by norm_num, zpow_add₀ two_ne_zero]
        norm_num
    _ ≤ (m - halfBelow m q) * 2 ^ q := mul_le_mul hhalf hmin (by positivity) (by linarith)
    _ ≤ v := h.low

/-- What is rounded to a double is smaller than a decimal that is read as infinite. -/
theorem lt_ten_zpow_of_roundsTo {v : ℚ} (hfits : Fits m q) (h : RoundsTo m q v) : v < 10 ^ (400 : ℤ) :=
  have hbits : (m : ℚ) + 1 ≤ 2 ^ (53 : ℤ) := by exact_mod_cast (fits_iff.mp hfits).1
  have hmax : (2 : ℚ) ^ q ≤ 2 ^ (971 : ℤ) := zpow_le_zpow_right₀ (by norm_num) hfits.2.2.1
  calc v ≤ (m + 1 / 2) * 2 ^ q := h.high
    _ ≤ 2 ^ (53 : ℤ) * 2 ^ (971 : ℤ) := by
        gcongr
        linarith
    _ = 2 ^ (53 + 971 : ℤ) := (zpow_add₀ two_ne_zero 53 971).symm
    _ < 2 ^ (1300 : ℤ) := zpow_lt_zpow_right₀ (by norm_num) (by norm_num)
    _ ≤ 10 ^ (400 : ℤ) := two_zpow_le_ten_zpow

/-- A decimal is told within a power of ten by its exponent and the number of its digits. -/
theorem decimal_bounds {digits : ℕ} (hdigits : 0 < digits) (exponent : ℤ) :
    (10 : ℚ) ^ ((Nat.toDigits 10 digits).length + exponent - 1) ≤ digits * 10 ^ exponent ∧
      (digits * 10 ^ exponent : ℚ) < 10 ^ ((Nat.toDigits 10 digits).length + exponent) := by
  have hlength : 0 < (Nat.toDigits 10 digits).length := List.length_pos_iff.mpr Nat.toDigits_ne_nil
  have hlow := pow_length_le hdigits
  have hhigh := lt_pow_length digits
  generalize (Nat.toDigits 10 digits).length = k at hlength hlow hhigh ⊢
  constructor
  · calc (10 : ℚ) ^ ((k : ℤ) + exponent - 1) = 10 ^ (((k - 1 : ℕ) : ℤ) + exponent) := by
          congr 1
          omega
      _ = 10 ^ (k - 1) * 10 ^ exponent := by rw [zpow_add₀ (by norm_num), zpow_natCast]
      _ ≤ digits * 10 ^ exponent := by
          gcongr
          exact_mod_cast hlow
  · calc (digits * 10 ^ exponent : ℚ) < 10 ^ k * 10 ^ exponent := by
          gcongr
          exact_mod_cast hhigh
      _ = 10 ^ ((k : ℤ) + exponent) := by rw [zpow_add₀ (by norm_num), zpow_natCast]

/-- A decimal between the middles around a double is read as the double. -/
theorem ofDecimal_eq {negative : Bool} {digits : ℕ} {exponent : ℤ}
    (hfits : Fits m q) (hm : 0 < m) (h : RoundsTo m q (digits * 10 ^ exponent)) :
    ofDecimal negative digits exponent = .finite negative m q hfits := by
  have hdigits : 0 < digits := by
    have hpos := h.pos hm
    rcases Nat.eq_zero_or_pos digits with rfl | hdigits
    · simp at hpos
    · exact hdigits
  obtain ⟨hlow, hhigh⟩ := decimal_bounds hdigits exponent
  have hsmall := lt_of_le_of_lt (ten_zpow_le_of_roundsTo hfits hm h) hhigh
  have hlarge := lt_of_le_of_lt hlow (lt_ten_zpow_of_roundsTo hfits h)
  rw [zpow_lt_zpow_iff_right₀ (by norm_num)] at hsmall hlarge
  have hnot : (decide (digits = 0) ||
      decide (((Nat.toDigits 10 digits).length : ℤ) + exponent < -400)) = false := by
    rw [decide_eq_false hdigits.ne', decide_eq_false (by omega), Bool.or_self]
  unfold ofDecimal
  dsimp only
  rw [hnot, if_neg Bool.false_ne_true, if_neg (by omega)]
  split
  · rename_i hnonneg
    refine nearest_eq hfits (Nat.mul_pos hdigits (Nat.pow_pos (by decide))) Nat.one_pos ?_
    have hvalue : ((digits * Nat.pow 10 exponent.toNat : ℕ) : ℚ) / (1 : ℕ) = digits * 10 ^ exponent := by
      rw [Nat.pow_eq, Nat.cast_mul, Nat.cast_pow, ← zpow_natCast, Int.toNat_of_nonneg hnonneg,
        Nat.cast_one, div_one]
      rfl
    rwa [hvalue]
  · rename_i hneg
    refine nearest_eq hfits hdigits (Nat.pow_pos (by decide)) ?_
    have hvalue : (digits : ℚ) / (Nat.pow 10 (-exponent).toNat : ℕ) = digits * 10 ^ exponent := by
      rw [Nat.pow_eq, Nat.cast_pow, ← zpow_natCast, Int.toNat_of_nonneg (by omega), zpow_neg, div_inv_eq_mul]
      rfl
    rwa [hvalue]

end Doubles

end RouteDocs.Decimal
