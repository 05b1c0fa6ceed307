import Mathlib.Data.List.Induction
import Mathlib.Data.Nat.Digits.Defs
import RouteDocs.Decimal.Numeral
import RouteDocs.Proofs.Text.Blank

/-!
# RouteDocs.Proofs.Decimal.Numeral — digits of any script are read as numbers

A text of decimal digits, whatever their script, is read as the integer they stand for unless it has more
than `maxDigits` of them (`readInt?_digits`), and two such texts around a point are read as the number
nearest to what they stand for (`readReal?_fraction`).
-/

namespace RouteDocs

open Text Decimal

namespace Text

/-! ### Digits -/

section Digits

variable {c : Char} {d : ℕ}

theorem isDecimalDigit_iff : isDecimalDigit c = true ↔ ∃ d, digitValue? c = some d :=
  Option.isSome_iff_exists

theorem digitValue?_lt (h : digitValue? c = some d) : d < 10 := by
  unfold digitValue? at h
  split at h
  · split at h
    · rename_i hc
      have hd : '0' ≤ c ∧ c ≤ '9' := by simpa [isAsciiDigit] using hc
      have hle : c.toNat ≤ 57 := hd.2
      cases h
      omega
    · cases h
  · obtain ⟨n, -, rfl⟩ := Option.map_eq_some_iff.mp h
    exact Nat.mod_lt _ (by decide)

theorem ne_of_isDecimalDigit {e : Char} (h : isDecimalDigit c = true) (he : digitValue? e = none) :
    c ≠ e := by
  rintro rfl
  rw [isDecimalDigit, he] at h
  cases h

/-- The code points of white space. -/
def blankCodes : List ℕ :=
  List.range' 9 5 ++ List.range' 28 5 ++ [0x85, 0xA0, 0x1680] ++ List.range' 0x2000 11 ++
    [0x2028, 0x2029, 0x202F, 0x205F, 0x3000]

theorem mem_blankCodes_of_isBlank (h : isBlank c = true) : c.toNat ∈ blankCodes := by
  simp only [isBlank, Bool.or_eq_true, Bool.and_eq_true, decide_eq_true_eq, beq_iff_eq] at h
  simp only [blankCodes, List.mem_append, List.mem_range'_1, List.mem_cons, List.not_mem_nil]
  omega

/-- White space is no digit. -/
theorem isDecimalDigit_of_isBlank (h : isBlank c = true) : isDecimalDigit c = false := by
  have hall : ∀ n ∈ blankCodes, isDecimalDigit (Char.ofNat n) = false := by decide
  have hc := hall c.toNat (mem_blankCodes_of_isBlank h)
  rwa [Char.ofNat_toNat] at hc

end Digits

end Text

namespace Decimal

variable {c : Char} {d : ℕ} {s ds fraction : List Char}

/-! ### Integers -/

theorem placeValue?_of_digitValue? (h : digitValue? c = some d) : placeValue? c = some d := by
  rw [placeValue?, h]

/-- Every digit of a text has its value. -/
theorem length_filterMap_digitValue? (hd : ∀ c ∈ ds, isDecimalDigit c = true) :
    (ds.filterMap digitValue?).length = ds.length := by
  induction ds with
  | nil => rfl
  | cons c ds ih =>
    obtain ⟨d, hc⟩ := isDecimalDigit_iff.mp (hd c List.mem_cons_self)
    rw [List.filterMap_cons_some hc, List.length_cons, ih fun x hx => hd x (List.mem_cons_of_mem _ hx),
      List.length_cons]

theorem digitValues?_digits (hne : ds ≠ []) (hd : ∀ c ∈ ds, isDecimalDigit c = true) :
    digitValues? 10 ds = some (ds.filterMap digitValue?) := by
  induction ds with
  | nil => exact absurd rfl hne
  | cons c r ih =>
    obtain ⟨d, hc⟩ := isDecimalDigit_iff.mp (hd c List.mem_cons_self)
    have hlt := digitValue?_lt hc
    rw [List.filterMap_cons_some hc]
    cases r with
    | nil => simp [digitValues?, placeValue?_of_digitValue? hc, hlt]
    | cons c' r =>
      have hvalues := ih (List.cons_ne_nil _ _) fun x hx => hd x (List.mem_cons_of_mem _ hx)
      have hc' : c' ≠ '_' := ne_of_isDecimalDigit (hd c' (by simp)) rfl
      simp [digitValues?, placeValue?_of_digitValue? hc, hlt, hvalues, hc']

/-- A sign before digits, or none. -/
def IsSign (sign : List Char) : Prop := sign = [] ∨ sign = ['-']

theorem takeSign_digits {sign : List Char} (hsign : IsSign sign) (hne : ds ≠ [])
    (hd : ∀ c ∈ ds, isDecimalDigit c = true) (rest : List Char) :
    takeSign (sign ++ ds ++ rest) = (decide (sign = ['-']), ds ++ rest) := by
  rcases hsign with rfl | rfl
  · cases ds with
    | nil => exact absurd rfl hne
    | cons c r =>
      have hminus : c ≠ '-' := ne_of_isDecimalDigit (hd c List.mem_cons_self) rfl
      have hplus : c ≠ '+' := ne_of_isDecimalDigit (hd c List.mem_cons_self) rfl
      simp [takeSign, hminus, hplus]
  · rfl

/-- The number of a text in terms of the library's digits, which have the least significant first. -/
theorem digitsNumber_eq_ofDigits (s : List Char) :
    digitsNumber s = Nat.ofDigits 10 (s.filterMap digitValue?).reverse := by
  rw [digitsNumber, ofDigitValues, Nat.ofDigits_eq_foldr, List.foldr_reverse]
  simp only [Nat.cast_id, Nat.add_comm, Nat.mul_comm]

theorem digitsNumber_append (s : List Char) (hd : ∀ c ∈ ds, isDecimalDigit c = true) :
    digitsNumber (s ++ ds) = digitsNumber s * 10 ^ ds.length + digitsNumber ds := by
  rw [digitsNumber_eq_ofDigits, digitsNumber_eq_ofDigits, digitsNumber_eq_ofDigits,
    List.filterMap_append, List.reverse_append, Nat.ofDigits_append, List.length_reverse,
    length_filterMap_digitValue? hd, Nat.add_comm, Nat.mul_comm]

/-- Digits are read as an integer unless there are too many of them. -/
theorem readInt?_digits {sign : List Char} (hsign : IsSign sign) (hne : ds ≠ [])
    (hd : ∀ c ∈ ds, isDecimalDigit c = true) (htrim : trim s = sign ++ ds) :
    readInt? 10 s = if ds.length ≤ maxDigits then
      some (if sign = ['-'] then -(digitsNumber ds : ℤ) else digitsNumber ds) else none := by
  have htake := takeSign_digits hsign hne hd []
  rw [List.append_nil, List.append_nil] at htake
  have hmark : dropBaseMark 10 ds = ds := rfl
  unfold readInt?
  rw [htrim, htake]
  dsimp only
  rw [hmark, digitValues?_digits hne hd, Option.bind_some, length_filterMap_digitValue? hd,
    ← digitsNumber]
  by_cases hlong : maxDigits < ds.length
  · simp [hlong]
  · simp [hlong, Nat.le_of_not_lt hlong]

theorem readInt?_digits_isSome {sign : List Char} (hsign : IsSign sign) (hne : ds ≠ [])
    (hd : ∀ c ∈ ds, isDecimalDigit c = true) (htrim : trim s = sign ++ ds) :
    (readInt? 10 s).isSome = true ↔ ds.length ≤ maxDigits := by
  rw [readInt?_digits hsign hne hd htrim]
  simp

/-! ### Numbers with a fraction -/

/-- A text that no digits go on with. -/
def EndsDigits (s : List Char) : Prop := ∀ c r, s = c :: r → digitValue? c = none ∧ c ≠ '_'

theorem spanDigits_append (hd : ∀ c ∈ ds, isDecimalDigit c = true) {rest : List Char}
    (hrest : EndsDigits rest) : spanDigits (ds ++ rest) = (ds.filterMap digitValue?, rest) := by
  induction ds with
  | nil =>
    cases rest with
    | nil => rfl
    | cons c r => simp [spanDigits, (hrest c r rfl).1]
  | cons c ds ih =>
    obtain ⟨d, hc⟩ := isDecimalDigit_iff.mp (hd c List.mem_cons_self)
    have hvalues := ih fun x hx => hd x (List.mem_cons_of_mem _ hx)
    have hnext : ∀ c' r, ds ++ rest = c' :: r → c' ≠ '_' := by
      intro c' r h
      cases ds with
      | nil => exact (hrest c' r h).2
      | cons x ds =>
        obtain rfl := (List.cons.inj h).1
        exact ne_of_isDecimalDigit (hd x (by simp)) rfl
    rw [List.cons_append, spanDigits, hc, List.filterMap_cons_some hc]
    dsimp only
    split
    · rename_i c' r h
      exact absurd rfl (hnext _ _ h)
    · rw [hvalues]

theorem endsDigits_nil : EndsDigits [] := nofun

theorem endsDigits_point (s : List Char) : EndsDigits ('.' :: s) := by
  rintro c r h
  obtain rfl := (List.cons.inj h).1
  exact ⟨rfl, by decide⟩

theorem isEmpty_filterMap_digitValue? (hne : ds ≠ []) (hd : ∀ c ∈ ds, isDecimalDigit c = true) :
    (ds.filterMap digitValue?).isEmpty = false := by
  have hlength := length_filterMap_digitValue? hd
  cases hvalues : ds.filterMap digitValue? with
  | nil =>
    rw [hvalues] at hlength
    exact absurd (List.length_eq_zero_iff.mp hlength.symm) hne
  | cons _ _ => rfl

/-- A text with a point is none of the words for an infinity or a number that is none. -/
theorem map_toLower_ne (hpoint : '.' ∈ s) {word : List Char} (hword : '.' ∉ word) :
    s.map Char.toLower ≠ word := by
  rintro rfl
  exact hword (List.mem_map.mpr ⟨'.', hpoint, by decide⟩)

/-- Digits around a point are read as the number nearest to what they stand for. -/
theorem readReal?_fraction {sign : List Char} (hsign : IsSign sign) (hne : ds ≠ [])
    (hd : ∀ c ∈ ds, isDecimalDigit c = true) (hf : ∀ c ∈ fraction, isDecimalDigit c = true)
    (htrim : trim s = sign ++ ds ++ '.' :: fraction) :
    readReal? s = some (Real64.ofDecimal (decide (sign = ['-'])) (digitsNumber (ds ++ fraction))
      (-fraction.length)) := by
  have htake := takeSign_digits hsign hne hd ('.' :: fraction)
  have hwhole := spanDigits_append hd (endsDigits_point fraction)
  have hpart := spanDigits_append hf endsDigits_nil
  rw [List.append_nil] at hpart
  have hempty := isEmpty_filterMap_digitValue? hne hd
  have hpoint : '.' ∈ ds ++ '.' :: fraction := List.mem_append_right _ List.mem_cons_self
  have hinf : (ds ++ '.' :: fraction).map Char.toLower ≠ "inf".toList :=
    map_toLower_ne hpoint (by decide)
  have hinfinity : (ds ++ '.' :: fraction).map Char.toLower ≠ "infinity".toList :=
    map_toLower_ne hpoint (by decide)
  have hnan : (ds ++ '.' :: fraction).map Char.toLower ≠ "nan".toList :=
    map_toLower_ne hpoint (by decide)
  unfold readReal?
  rw [htrim, htake]
  dsimp only
  rw [decide_eq_false hinf, decide_eq_false hinfinity, Bool.or_self, if_neg Bool.false_ne_true,
    if_neg hnan, hwhole, digitsNumber, List.filterMap_append]
  simp [hempty, hpart, length_filterMap_digitValue? hf]

end Decimal

end RouteDocs
