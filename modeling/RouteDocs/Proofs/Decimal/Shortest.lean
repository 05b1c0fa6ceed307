import Mathlib.Tactic.FieldSimp
import RouteDocs.Decimal.Shortest
import RouteDocs.Proofs.Decimal.Rounding

/-!
# RouteDocs.Proofs.Decimal.Shortest — the fewest digits are rounded back

A grid finer than the rounding interval has a point in it next to the value
(`exists_gridPoint?`), and with seventeen digits the grid is so fine.  So the decimal of fewest digits
lies in the rounding interval (`roundsTo_shortest`).
-/

namespace RouteDocs.Decimal

open Real64

/-- A number in a rounding interval, at an end of it only if the interval is closed. -/
structure Rounding.Contains (r : Rounding) (v : ℚ) : Prop where
  low : (r.low : ℚ) / r.denominator ≤ v
  high : v ≤ (r.high : ℚ) / r.denominator
  inner : r.closed = false → (r.low : ℚ) / r.denominator < v ∧ v < (r.high : ℚ) / r.denominator

section Grid

variable {r : Rounding} {e : ℤ} {c up unit : ℕ}

/-- The unit of a grid over the denominator of an interval. -/
theorem gridUnit_eq (den : ℕ) (e : ℤ) :
    ((den * if 0 ≤ e then Nat.pow 10 e.toNat else 1 : ℕ) : ℚ) =
      (if 0 ≤ e then 1 else Nat.pow 10 (-e).toNat : ℕ) * den * 10 ^ e := by
  split
  · rename_i he
    rw [Nat.cast_mul, Nat.pow_eq, Nat.cast_pow, ← zpow_natCast, Int.toNat_of_nonneg he]
    push_cast
    ring
  · rename_i he
    rw [Nat.mul_one, Nat.pow_eq, Nat.cast_pow, ← zpow_natCast, Int.toNat_of_nonneg (by omega), zpow_neg]
    have hten : (10 : ℚ) ^ e ≠ 0 := by positivity
    push_cast
    field_simp

/-- Whether a grid point is in an interval, by whole numbers. -/
theorem contains_iff (hden : 0 < r.denominator) (hup : 0 < up)
    (hunit : (unit : ℚ) = up * r.denominator * 10 ^ e) :
    (if r.closed then decide (r.low * up ≤ c * unit) && decide (c * unit ≤ r.high * up)
      else decide (r.low * up < c * unit) && decide (c * unit < r.high * up)) = true ↔
      r.Contains (c * 10 ^ e) := by
  have hden' : (0 : ℚ) < r.denominator := by exact_mod_cast hden
  have hup' : (0 : ℚ) < up := by exact_mod_cast hup
  have hle : ∀ a b : ℕ, a * up ≤ b * unit ↔ (a : ℚ) / r.denominator ≤ b * 10 ^ e := by
    intro a b
    rw [← Nat.cast_le (α := ℚ), Nat.cast_mul, Nat.cast_mul, hunit, div_le_iff₀ hden']
    rw [show (b : ℚ) * (up * r.denominator * 10 ^ e) = b * 10 ^ e * r.denominator * up by ring]
    exact mul_le_mul_iff_left₀ hup'
  have hge : ∀ a b : ℕ, b * unit ≤ a * up ↔ (b * 10 ^ e : ℚ) ≤ a / r.denominator := by
    intro a b
    rw [← Nat.cast_le (α := ℚ), Nat.cast_mul, Nat.cast_mul, hunit, le_div_iff₀ hden']
    rw [show (b : ℚ) * (up * r.denominator * 10 ^ e) = b * 10 ^ e * r.denominator * up by ring]
    exact mul_le_mul_iff_left₀ hup'
  have hlt : r.low * up < c * unit ↔ (r.low : ℚ) / r.denominator < c * 10 ^ e := by
    rw [← not_le, hge, not_le]
  have hgt : c * unit < r.high * up ↔ (c * 10 ^ e : ℚ) < r.high / r.denominator := by
    rw [← not_le, hle, not_le]
  cases hclosed : r.closed with
  | true =>
    simp only [if_true, Bool.and_eq_true, decide_eq_true_eq, hle, hge]
    exact ⟨fun h => ⟨h.1, h.2, by simp [hclosed]⟩, fun h => ⟨h.low, h.high⟩⟩
  | false =>
    simp only [Bool.false_eq_true, if_false, Bool.and_eq_true, decide_eq_true_eq, hlt, hgt]
    exact ⟨fun h => ⟨h.1.le, h.2.le, fun _ => h⟩, fun h => h.inner hclosed⟩

theorem gridUp_pos (e : ℤ) : 0 < if 0 ≤ e then 1 else Nat.pow 10 (-e).toNat := by
  split
  · exact Nat.one_pos
  · exact Nat.pow_pos (by decide)

/-- A grid point that is found is in the interval. -/
theorem contains_gridPoint? (hden : 0 < r.denominator) (h : gridPoint? r e = some c) :
    r.Contains (c * 10 ^ e) := by
  have hup := gridUp_pos e
  have hunit := gridUnit_eq r.denominator e
  unfold gridPoint? at h
  dsimp only at h
  generalize (if 0 ≤ e then 1 else Nat.pow 10 (-e).toNat) = up at hup hunit h
  generalize (r.denominator * if 0 ≤ e then Nat.pow 10 e.toNat else 1) = unit at hunit h
  generalize r.value * up / unit = k at h
  split at h
  · rename_i h₁ h₂
    split at h
    · cases h
      exact (contains_iff hden hup hunit).mp h₁
    · cases h
      exact (contains_iff hden hup hunit).mp h₂
  · rename_i h₁ h₂
    cases h
    exact (contains_iff hden hup hunit).mp h₁
  · rename_i h₁ h₂
    cases h
    exact (contains_iff hden hup hunit).mp h₂
  · cases h

/-- Of the two multiples of `unit` next to a value, one is inside an interval that is wider than `unit`:
if the lower one is not inside it is too low, and then the upper one is not too high. -/
theorem neighbour_inside {low value high k : ℕ} (hlow : low < value) (hhigh : value < high)
    (hbelow : k * unit ≤ value) (habove : value < (k + 1) * unit) (hwidth : unit + low < high) :
    low < k * unit ∧ k * unit < high ∨ low < (k + 1) * unit ∧ (k + 1) * unit < high := by
  have hstep : (k + 1) * unit = k * unit + unit := by ring
  by_cases hk : low < k * unit
  · exact .inl ⟨hk, by omega⟩
  · exact .inr ⟨by omega, by omega⟩

/-- A grid finer than the interval has a point in it. -/
theorem exists_gridPoint? (hden : 0 < r.denominator) (hlow : r.low < r.value) (hhigh : r.value < r.high)
    (hfine : (10 : ℚ) ^ e < (r.high - r.low) / r.denominator) : (gridPoint? r e).isSome = true := by
  have hup := gridUp_pos e
  have hunit := gridUnit_eq r.denominator e
  unfold gridPoint?
  dsimp only
  generalize (if 0 ≤ e then 1 else Nat.pow 10 (-e).toNat) = up at hup hunit ⊢
  generalize (r.denominator * if 0 ≤ e then Nat.pow 10 e.toNat else 1) = unit at hunit ⊢
  have hden' : (0 : ℚ) < r.denominator := by exact_mod_cast hden
  have hup' : (0 : ℚ) < up := by exact_mod_cast hup
  have hunitPos : 0 < unit := by
    have : (0 : ℚ) < unit := by
      rw [hunit]
      positivity
    exact_mod_cast this
  have hbelow : r.value * up / unit * unit ≤ r.value * up := Nat.div_mul_le_self _ _
  have habove : r.value * up < (r.value * up / unit + 1) * unit := by
    rw [Nat.mul_comm (r.value * up / unit + 1)]
    exact Nat.lt_mul_div_succ _ hunitPos
  generalize r.value * up / unit = k at hbelow habove ⊢
  have hwidth : unit + r.low * up < r.high * up := by
    rw [lt_div_iff₀ hden'] at hfine
    have : (unit + r.low * up : ℚ) < r.high * up := by
      rw [hunit]
      nlinarith
    exact_mod_cast this
  have hone := neighbour_inside (Nat.mul_lt_mul_of_pos_right hlow hup)
    (Nat.mul_lt_mul_of_pos_right hhigh hup) hbelow habove hwidth
  split
  · split <;> rfl
  · rfl
  · rfl
  · rename_i h₁ h₂
    exfalso
    rcases hone with hone | hone
    · revert h₁
      cases r.closed <;> simp [hone.1, hone.2, hone.1.le, hone.2.le]
    · revert h₂
      cases r.closed <;> simp [hone.1, hone.2, hone.1.le, hone.2.le]

/-- The first grid with a point gives the decimal. -/
theorem gridPoint?_firstGridPoint (top : ℤ) (left count : ℕ)
    (h : ∃ k < left, (gridPoint? r (top - (count + k : ℕ) + 1)).isSome = true) :
    gridPoint? r (firstGridPoint r top left count).exponent =
      some (firstGridPoint r top left count).digits := by
  induction left generalizing count with
  | zero =>
    obtain ⟨k, hk, -⟩ := h
    exact absurd hk (Nat.not_lt_zero k)
  | succ left ih =>
    unfold firstGridPoint
    dsimp only
    cases hfound : gridPoint? r (top - count + 1) with
    | some c => exact hfound
    | none =>
      refine ih _ ?_
      obtain ⟨k, hk, hsome⟩ := h
      cases k with
      | zero =>
        rw [Nat.add_zero, hfound] at hsome
        cases hsome
      | succ k =>
        refine ⟨k, by omega, ?_⟩
        rwa [show count + 1 + k = count + (k + 1) by omega]

end Grid

/-! ### The decimal exponent -/

theorem pow_length_le {n : ℕ} (hn : 0 < n) : 10 ^ ((Nat.toDigits 10 n).length - 1) ≤ n := by
  by_contra h
  have hlt : n < 10 ^ ((Nat.toDigits 10 n).length - 1) := not_le.mp h
  have hpos : 0 < (Nat.toDigits 10 n).length - 1 := by
    by_contra hzero
    rw [Nat.eq_zero_of_not_pos hzero] at hlt
    omega
  have := (Nat.length_toDigits_le_iff (by decide) hpos).mpr hlt
  omega

theorem lt_pow_length (n : ℕ) : n < 10 ^ (Nat.toDigits 10 n).length :=
  (Nat.length_toDigits_le_iff (by decide)
    (List.length_pos_iff.mpr Nat.toDigits_ne_nil)).mp le_rfl

/-- The power of ten at the decimal exponent is no greater than the quotient. -/
theorem zpow_decimalExponent_le {num den : ℕ} (hnum : 0 < num) (hden : 0 < den) :
    (10 : ℚ) ^ decimalExponent num den ≤ num / den := by
  have hden' : (0 : ℚ) < den := by exact_mod_cast hden
  have hpos : ∀ n : ℕ, 0 < (Nat.toDigits 10 n).length := fun n =>
    List.length_pos_iff.mpr Nat.toDigits_ne_nil
  unfold decimalExponent
  split
  · rename_i hle
    have hquot : 10 ^ ((Nat.toDigits 10 (num / den)).length - 1) ≤ num / den :=
      pow_length_le (Nat.div_pos hle hden)
    have hexp : ((Nat.toDigits 10 (num / den)).length : ℤ) - 1 =
        ((Nat.toDigits 10 (num / den)).length - 1 : ℕ) := by
      have := hpos (num / den)
      omega
    rw [hexp, zpow_natCast, le_div_iff₀ hden']
    have hmul := (Nat.le_div_iff_mul_le hden).mp hquot
    exact_mod_cast hmul
  · rename_i hlt
    dsimp only
    have hd := hpos (den / num)
    have hnext := lt_pow_length (den / num)
    generalize (Nat.toDigits 10 (den / num)).length = d at hd hnext
    split
    · rename_i hexact
      rw [Nat.pow_eq] at hexact
      have hexp : (d : ℤ) - 1 = (d - 1 : ℕ) := by omega
      rw [hexp, zpow_neg, zpow_natCast, ← hexact, le_div_iff₀ (by positivity)]
      push_cast
      have hne : (10 : ℚ) ^ (d - 1) ≠ 0 := by positivity
      field_simp
      exact le_rfl
    · have hmul : den < num * 10 ^ d := by
        rw [Nat.div_lt_iff_lt_mul hnum, Nat.mul_comm] at hnext
        exact hnext
      rw [zpow_neg, zpow_natCast, le_div_iff₀ hden', inv_mul_le_iff₀ (by positivity)]
      have : (den : ℚ) ≤ num * 10 ^ d := by exact_mod_cast hmul.le
      linarith

/-! ### The interval of a double -/

section Shortest

variable {m : ℕ} {q : ℤ}

/-- The bounds of the rounding interval are counted in quarters of `2 ^ q`, a fraction of whole
numbers. -/
theorem exists_quarter (q : ℤ) : ∃ num den : ℕ, 0 < den ∧ (num : ℚ) / den = 2 ^ q / 4 ∧
    (if 2 ≤ q then (Nat.pow 2 (q - 2).toNat, 1) else (1, Nat.pow 2 (2 - q).toNat)) = (num, den) := by
  have hfour : (2 : ℚ) ^ q / 4 = 2 ^ (q - 2) := by
    rw [zpow_sub₀ two_ne_zero]
    norm_num
  rw [hfour]
  split
  · refine ⟨_, _, Nat.one_pos, ?_, rfl⟩
    rw [Nat.pow_eq, Nat.cast_pow, ← zpow_natCast, Int.toNat_of_nonneg (by omega), Nat.cast_one, div_one]
    rfl
  · refine ⟨_, _, Nat.pow_pos (by decide), ?_, rfl⟩
    rw [Nat.cast_pow, ← zpow_natCast, Int.toNat_of_nonneg (by omega),
      show q - 2 = -(2 - q) by ring, zpow_neg, Nat.cast_one, one_div]
    rfl

/-- The quarters up to the lower bound. -/
theorem cast_quartersBelow (hm : 0 < m) (q : ℤ) :
    ((4 * m - (if m = Nat.pow 2 52 && decide (minExponent < q) then 1 else 2) : ℕ) : ℚ) =
      4 * (m - halfBelow m q) := by
  unfold halfBelow
  simp only [Nat.pow_eq, Bool.and_eq_true, decide_eq_true_eq]
  split
  · rw [Nat.cast_sub (by omega)]
    push_cast
    ring
  · rw [Nat.cast_sub (by omega)]
    push_cast
    ring

/-- The rounding interval is that of the quotients rounded to the double. -/
theorem roundingInterval_spec (hm : 0 < m) (q : ℤ) :
    0 < (roundingInterval m q).denominator ∧
      ((roundingInterval m q).low : ℚ) / (roundingInterval m q).denominator =
        (m - halfBelow m q) * 2 ^ q ∧
      ((roundingInterval m q).value : ℚ) / (roundingInterval m q).denominator = m * 2 ^ q ∧
      ((roundingInterval m q).high : ℚ) / (roundingInterval m q).denominator =
        (m + 1 / 2) * 2 ^ q ∧
      ((roundingInterval m q).closed = false ↔ m % 2 = 1) := by
  obtain ⟨num, den, hden, hvalue, hpair⟩ := exists_quarter q
  have hscale : ∀ a : ℚ, a * num / den = a / 4 * 2 ^ q := by
    intro a
    rw [mul_div_assoc, hvalue]
    ring
  unfold roundingInterval
  dsimp only
  rw [hpair]
  dsimp only
  refine ⟨hden, ?_, ?_, ?_, by simp⟩
  · rw [Nat.cast_mul, cast_quartersBelow hm, hscale]
    ring
  · push_cast
    rw [hscale]
    ring
  · push_cast
    rw [hscale]
    ring

/-- The double is inside its rounding interval. -/
theorem roundingInterval_value (hm : 0 < m) (q : ℤ) :
    (roundingInterval m q).low < (roundingInterval m q).value ∧
      (roundingInterval m q).value < (roundingInterval m q).high := by
  obtain ⟨hden, hlow, hvalue, hhigh, -⟩ := roundingInterval_spec hm q
  generalize roundingInterval m q = r at hden hlow hvalue hhigh ⊢
  have hden' : (0 : ℚ) < r.denominator := by exact_mod_cast hden
  constructor
  · have : (r.low : ℚ) / r.denominator < r.value / r.denominator := by
      rw [hlow, hvalue]
      have := halfBelow_pos m q
      gcongr
      linarith
    exact_mod_cast (div_lt_div_iff_of_pos_right hden').mp this
  · have : (r.value : ℚ) / r.denominator < r.high / r.denominator := by
      rw [hvalue, hhigh]
      gcongr
      linarith
    exact_mod_cast (div_lt_div_iff_of_pos_right hden').mp this

/-- With seventeen digits the grid is finer than the rounding interval. -/
theorem grid_lt_width {top : ℤ} (hbits : m < 2 ^ 53) (htop : (10 : ℚ) ^ top ≤ m * 2 ^ q) :
    (10 : ℚ) ^ (top - 16) < (1 / 2 + halfBelow m q) * 2 ^ q := by
  have htwo : (0 : ℚ) < 2 ^ q := by positivity
  have hless : (m : ℚ) / 10 ^ 16 < 1 / 2 + halfBelow m q := by
    have hbits' : (m : ℚ) < 2 ^ 53 := by exact_mod_cast hbits
    unfold halfBelow
    split
    · rename_i hpow
      rw [hpow.1]
      norm_num
    · rw [div_lt_iff₀ (by positivity)]
      norm_num at hbits' ⊢
      linarith
  calc (10 : ℚ) ^ (top - 16) = 10 ^ top / 10 ^ 16 := by
        rw [zpow_sub₀ (by norm_num)]
        rfl
    _ ≤ (m * 2 ^ q : ℚ) / 10 ^ 16 := by gcongr
    _ = (m : ℚ) / 10 ^ 16 * 2 ^ q := by ring
    _ < (1 / 2 + halfBelow m q) * 2 ^ q := by gcongr

/-- The decimal of fewest digits is rounded to the double that it was chosen for. -/
theorem roundsTo_shortest (hfits : Fits m q) (hm : 0 < m) :
    RoundsTo m q ((shortest m q).digits * 10 ^ (shortest m q).exponent) := by
  obtain ⟨hden, hlow, hvalue, hhigh, hclosed⟩ := roundingInterval_spec hm q
  obtain ⟨hlowValue, hvalueHigh⟩ := roundingInterval_value hm q
  unfold shortest
  dsimp only
  generalize roundingInterval m q = r at hden hlow hvalue hhigh hclosed hlowValue hvalueHigh ⊢
  have htop : (10 : ℚ) ^ decimalExponent r.value r.denominator ≤ m * 2 ^ q := by
    rw [← hvalue]
    exact zpow_decimalExponent_le (by omega) hden
  generalize decimalExponent r.value r.denominator = top at htop ⊢
  have hfine : (10 : ℚ) ^ (top - (1 + 16 : ℕ) + 1) < (r.high - r.low) / r.denominator := by
    have hwidth : ((r.high : ℚ) - r.low) / r.denominator = (1 / 2 + halfBelow m q) * 2 ^ q := by
      rw [sub_div, hlow, hhigh]
      ring
    rw [hwidth, show top - ((1 + 16 : ℕ) : ℤ) + 1 = top - 16 by push_cast; ring]
    exact grid_lt_width (fits_iff.mp hfits).1 htop
  have hcontains := contains_gridPoint? hden (gridPoint?_firstGridPoint (r := r) top 17 1
    ⟨16, by decide, exists_gridPoint? hden hlowValue hvalueHigh hfine⟩)
  refine ⟨?_, ?_, fun hodd => ?_⟩
  · rw [← hlow]
    exact hcontains.low
  · rw [← hhigh]
    exact hcontains.high
  · rw [← hlow, ← hhigh]
    exact hcontains.inner (hclosed.mpr hodd)

end Shortest

end RouteDocs.Decimal
