import Mathlib.Algebra.Order.Field.Power
import Mathlib.Data.Rat.Cast.Order
import Mathlib.Tactic.Linarith
import Mathlib.Tactic.NormNum
import Mathlib.Tactic.Positivity
import Mathlib.Tactic.Ring
import RouteDocs.Decimal.Real64

/-!
# RouteDocs.Proofs.Decimal.Rounding — the quotients that are rounded to a double

A quotient is rounded to the double `m · 2 ^ q` if it lies between the middles to the neighbours of
that double (`RoundsTo`), the middles included if `m` is even (`nearest_eq`).
-/

namespace RouteDocs

namespace Real64

theorem fits_iff {m : ℕ} {q : ℤ} : Fits m q ↔ m < 2 ^ 53 ∧ minExponent ≤ q ∧ q ≤ maxExponent ∧
    (2 ^ 52 ≤ m ∨ q = minExponent) := Iff.rfl

theorem ofParts_of_fits {m : ℕ} {q : ℤ} (negative : Bool) (hfits : Fits m q) :
    ofParts negative m q = .finite negative m q hfits := dif_pos hfits

/-- The distance of `m · 2 ^ q` from the middle below it, in units of `2 ^ q`.  Below a power of two the
numbers are twice as dense. -/
def halfBelow (m : ℕ) (q : ℤ) : ℚ := if m = 2 ^ 52 ∧ minExponent < q then 1 / 4 else 1 / 2

/-- A quotient between the middles around `m · 2 ^ q`. -/
structure RoundsTo (m : ℕ) (q : ℤ) (v : ℚ) : Prop where
  low : (m - halfBelow m q) * 2 ^ q ≤ v
  high : v ≤ (m + 1 / 2) * 2 ^ q
  inner : m % 2 = 1 → (m - halfBelow m q) * 2 ^ q < v ∧ v < (m + 1 / 2) * 2 ^ q

section

variable {num den m : ℕ} {q : ℤ} {v : ℚ}

theorem halfBelow_pos (m : ℕ) (q : ℤ) : 0 < halfBelow m q := by
  unfold halfBelow
  split <;> norm_num

theorem halfBelow_le (m : ℕ) (q : ℤ) : halfBelow m q ≤ 1 / 2 := by
  unfold halfBelow
  split <;> norm_num

theorem RoundsTo.pos (hm : 0 < m) (h : RoundsTo m q v) : 0 < v := by
  have hone : (1 : ℚ) ≤ m := by exact_mod_cast hm
  have hhalf := halfBelow_le m q
  have hlow : 0 < (m - halfBelow m q) * 2 ^ q := by
    have hfactor : 0 < m - halfBelow m q := by linarith
    positivity
  exact lt_of_lt_of_le hlow h.low

/-! ### Rounding to an integer -/

/-- Rounding to `n` in whole numbers. -/
theorem roundHalfEven_eq_of_nat {a b n : ℕ} (hlow : 2 * n * b ≤ 2 * a + b)
    (hhigh : 2 * a ≤ 2 * n * b + b)
    (hinner : n % 2 = 1 → 2 * n * b < 2 * a + b ∧ 2 * a < 2 * n * b + b) (hb : 0 < b) :
    roundHalfEven a b = n := by
  have ha := Nat.div_add_mod a b
  have hr := Nat.mod_lt a hb
  unfold roundHalfEven
  generalize a / b = k at ha
  generalize a % b = r at ha hr
  subst ha
  dsimp only
  have hle : n ≤ k + 1 := by
    by_contra hlt
    have hmul : (k + 2) * b ≤ n * b := Nat.mul_le_mul_right b (by omega)
    nlinarith
  have hge : k ≤ n := by
    by_contra hlt
    have hmul : (n + 1) * b ≤ k * b := Nat.mul_le_mul_right b (by omega)
    nlinarith
  have hcases : n = k ∨ n = k + 1 := by omega
  rcases hcases with rfl | rfl
  · have hrb : 2 * r ≤ b := by nlinarith
    have htie : 2 * r = b → n % 2 = 0 := by
      intro htie
      by_contra hodd
      have := (hinner (by omega)).2
      nlinarith
    split
    · rfl
    · rw [if_neg (by omega), htie (by omega), Nat.add_zero]
  · have hrb : b ≤ 2 * r := by nlinarith
    have htie : 2 * r = b → (k + 1) % 2 = 0 := by
      intro htie
      by_contra hodd
      have := (hinner (by omega)).1
      nlinarith
    rw [if_neg (by omega)]
    split
    · rfl
    · have := htie (by omega)
      omega

/-- A quotient no more than a half away from `n` is rounded to `n`; from an odd `n` it has to be
nearer. -/
theorem roundHalfEven_eq {a b n : ℕ} (hb : 0 < b) (hlow : (n : ℚ) - 1 / 2 ≤ a / b)
    (hhigh : (a : ℚ) / b ≤ n + 1 / 2)
    (hinner : n % 2 = 1 → (n : ℚ) - 1 / 2 < a / b ∧ (a : ℚ) / b < n + 1 / 2) :
    roundHalfEven a b = n := by
  have hb' : (0 : ℚ) < b := by exact_mod_cast hb
  refine roundHalfEven_eq_of_nat ?_ ?_ (fun hodd => ?_) hb
  · rw [le_div_iff₀ hb'] at hlow
    have : (2 * n * b : ℚ) ≤ 2 * a + b := by linarith
    exact_mod_cast this
  · rw [div_le_iff₀ hb'] at hhigh
    have : (2 * a : ℚ) ≤ 2 * n * b + b := by linarith
    exact_mod_cast this
  · obtain ⟨hlow', hhigh'⟩ := hinner hodd
    rw [lt_div_iff₀ hb'] at hlow'
    rw [div_lt_iff₀ hb'] at hhigh'
    constructor
    · have : (2 * n * b : ℚ) < 2 * a + b := by linarith
      exact_mod_cast this
    · have : (2 * a : ℚ) < 2 * n * b + b := by linarith
      exact_mod_cast this

/-! ### The exponent of a quotient -/

theorem scaled_snd_pos (num : ℕ) (hden : 0 < den) (e : ℤ) : 0 < (scaled num den e).2 := by
  unfold scaled
  split
  · exact Nat.mul_pos hden (Nat.pow_pos (by decide))
  · exact hden

/-- `scaled` divides by a power of two. -/
theorem scaled_eq (num den : ℕ) (e : ℤ) :
    ((scaled num den e).1 : ℚ) / (scaled num den e).2 = num / den / 2 ^ e := by
  unfold scaled
  split
  · rename_i he
    have hpow : ((Nat.pow 2 e.toNat : ℕ) : ℚ) = 2 ^ e := by
      rw [Nat.pow_eq, Nat.cast_pow, ← zpow_natCast, Int.toNat_of_nonneg he]
      rfl
    rw [Nat.cast_mul, hpow, div_div]
  · rename_i he
    have hpow : ((Nat.pow 2 (-e).toNat : ℕ) : ℚ) = (2 ^ e)⁻¹ := by
      rw [Nat.pow_eq, Nat.cast_pow, ← zpow_natCast, Int.toNat_of_nonneg (by omega), zpow_neg]
      rfl
    rw [Nat.cast_mul, hpow, mul_div_right_comm, ← div_eq_mul_inv]

/-- A quotient is between the powers of two around the difference of the logarithms. -/
theorem log2_bounds (hnum : 0 < num) (hden : 0 < den) :
    (2 : ℚ) ^ ((num.log2 : ℤ) - den.log2 - 1) < num / den ∧
      (num : ℚ) / den < 2 ^ ((num.log2 : ℤ) - den.log2 + 1) := by
  have hden' : (0 : ℚ) < den := by exact_mod_cast hden
  have hnumLow : (2 : ℚ) ^ num.log2 ≤ num := by exact_mod_cast Nat.log2_self_le hnum.ne'
  have hnumHigh : (num : ℚ) < 2 ^ (num.log2 + 1) := by exact_mod_cast Nat.lt_log2_self
  have hdenLow : (2 : ℚ) ^ den.log2 ≤ den := by exact_mod_cast Nat.log2_self_le hden.ne'
  have hdenHigh : (den : ℚ) < 2 ^ (den.log2 + 1) := by exact_mod_cast Nat.lt_log2_self
  constructor
  · rw [lt_div_iff₀ hden']
    calc (2 : ℚ) ^ ((num.log2 : ℤ) - den.log2 - 1) * den
        < 2 ^ ((num.log2 : ℤ) - den.log2 - 1) * 2 ^ (den.log2 + 1) := by gcongr
      _ = 2 ^ num.log2 := by
          rw [← zpow_natCast, ← zpow_natCast, ← zpow_add₀ two_ne_zero]
          congr 1
          push_cast
          ring
      _ ≤ num := hnumLow
  · rw [div_lt_iff₀ hden']
    calc (num : ℚ) < 2 ^ (num.log2 + 1) := hnumHigh
      _ = 2 ^ ((num.log2 : ℤ) - den.log2 + 1) * 2 ^ den.log2 := by
          rw [← zpow_natCast, ← zpow_natCast, ← zpow_add₀ two_ne_zero]
          congr 1
          push_cast
          ring
      _ ≤ 2 ^ ((num.log2 : ℤ) - den.log2 + 1) * den := by gcongr

/-- The exponent for 53 bits, before it is bounded from below. -/
theorem exponentFor_eq_max (hnum : 0 < num) (hden : 0 < den) :
    ∃ e : ℤ, exponentFor num den = max minExponent e ∧ (2 : ℚ) ^ (52 + e) ≤ num / den ∧
      (num : ℚ) / den < 2 ^ (53 + e) := by
  obtain ⟨hlow, hhigh⟩ := log2_bounds hnum hden
  have hspec := scaled_eq num den ((num.log2 : ℤ) - den.log2 - 52)
  have hpos := scaled_snd_pos num hden ((num.log2 : ℤ) - den.log2 - 52)
  unfold exponentFor
  generalize (num.log2 : ℤ) - den.log2 = k at hlow hhigh hspec hpos ⊢
  dsimp only
  generalize scaled num den (k - 52) = s at hspec hpos ⊢
  obtain ⟨a, b⟩ := s
  dsimp only at hspec hpos ⊢
  have hb : (0 : ℚ) < b := by exact_mod_cast hpos
  have htwo : (0 : ℚ) < 2 ^ (k - 52) := by positivity
  have hless : a < Nat.pow 2 52 * b ↔ (num : ℚ) / den < 2 ^ k := by
    rw [← Nat.cast_lt (α := ℚ), Nat.cast_mul, ← div_lt_iff₀ hb, hspec, div_lt_iff₀ htwo]
    have hpow : ((Nat.pow 2 52 : ℕ) : ℚ) * 2 ^ (k - 52) = 2 ^ k := by
      rw [Nat.pow_eq, Nat.cast_pow, ← zpow_natCast, Nat.cast_ofNat, ← zpow_add₀ two_ne_zero]
      congr 1
      push_cast
      ring
    rw [hpow]
  by_cases h : a < Nat.pow 2 52 * b
  · refine ⟨k - 52 - 1, by rw [if_pos h], ?_, ?_⟩
    · rw [show 52 + (k - 52 - 1) = k - 1 by ring]
      exact hlow.le
    · rw [show 53 + (k - 52 - 1) = k by ring]
      exact hless.mp h
  · refine ⟨k - 52, by rw [if_neg h], ?_, ?_⟩
    · rw [show 52 + (k - 52) = k by ring]
      exact not_lt.mp fun hlt => h (hless.mpr hlt)
    · rw [show 53 + (k - 52) = k + 1 by ring]
      exact hhigh

/-- The exponent of a quotient is told by the powers of two around it. -/
theorem exponentFor_eq (hnum : 0 < num) (hden : 0 < den) (hmin : minExponent ≤ q)
    (hlow : q = minExponent ∨ (2 : ℚ) ^ (52 + q) ≤ num / den)
    (hhigh : (num : ℚ) / den < 2 ^ (53 + q)) : exponentFor num den = q := by
  obtain ⟨e, he, helow, hehigh⟩ := exponentFor_eq_max hnum hden
  have hle : e ≤ q := by
    have hlt : (2 : ℚ) ^ (52 + e) < 2 ^ (53 + q) := lt_of_le_of_lt helow hhigh
    have := (zpow_lt_zpow_iff_right₀ (by norm_num : (1 : ℚ) < 2)).mp hlt
    omega
  rw [he]
  rcases hlow with rfl | hlow
  · exact max_eq_left hle
  · have hlt : (2 : ℚ) ^ (52 + q) < 2 ^ (53 + e) := lt_of_le_of_lt hlow hehigh
    have := (zpow_lt_zpow_iff_right₀ (by norm_num : (1 : ℚ) < 2)).mp hlt
    have heq : e = q := by omega
    rw [heq]
    exact max_eq_right hmin

/-! ### Rounding to a double -/

/-- Rounding at the exponent of the quotient, where the significand does not run over. -/
theorem nearest_of_significand {n : ℕ} (negative : Bool) (hnum : 0 < num) (hexp : exponentFor num den = q)
    (hround : roundHalfEven (scaled num den q).1 (scaled num den q).2 = n) (hn : n ≠ 2 ^ 53) :
    nearest negative num den = ofParts negative n q := by
  unfold nearest
  rw [if_neg hnum.ne', hexp]
  dsimp only
  rw [hround]
  simp only [Nat.pow_eq, if_neg hn]

/-- Rounding where the significand runs over to the next power of two. -/
theorem nearest_of_carry (negative : Bool) (hnum : 0 < num) (hexp : exponentFor num den = q - 1)
    (hround : roundHalfEven (scaled num den (q - 1)).1 (scaled num den (q - 1)).2 = 2 ^ 53) :
    nearest negative num den = ofParts negative (2 ^ 52) q := by
  unfold nearest
  rw [if_neg hnum.ne', hexp]
  dsimp only
  rw [hround]
  simp only [Nat.pow_eq, if_true, sub_add_cancel]

/-- At the exponent of a double its significand is the rounded one. -/
theorem roundHalfEven_scaled (hden : 0 < den) (h : RoundsTo m q (num / den)) :
    roundHalfEven (scaled num den q).1 (scaled num den q).2 = m := by
  have htwo : (0 : ℚ) < 2 ^ q := by positivity
  have hbelow : (m - 1 / 2) * (2 : ℚ) ^ q ≤ (m - halfBelow m q) * 2 ^ q := by
    have := halfBelow_le m q
    gcongr
  refine roundHalfEven_eq (scaled_snd_pos _ hden _) ?_ ?_ fun hodd => ⟨?_, ?_⟩
  · rw [scaled_eq, le_div_iff₀ htwo]
    exact le_trans hbelow h.low
  · rw [scaled_eq, div_le_iff₀ htwo]
    exact h.high
  · rw [scaled_eq, lt_div_iff₀ htwo]
    exact lt_of_le_of_lt hbelow (h.inner hodd).1
  · rw [scaled_eq, div_lt_iff₀ htwo]
    exact (h.inner hodd).2

/-- A quotient around a double has all 53 bits at its exponent, but for the quotients below a power of
two, which are as near to it as the numbers there are. -/
theorem le_or_below (hfits : Fits m q) (h : RoundsTo m q v) :
    (q = minExponent ∨ (2 : ℚ) ^ (52 + q) ≤ v) ∨
      m = 2 ^ 52 ∧ minExponent < q ∧ v < 2 ^ (52 + q) := by
  obtain ⟨-, hmin, -, hnormal⟩ := fits_iff.mp hfits
  rcases hnormal with hnormal | hleast
  · by_cases hleast : q = minExponent
    · exact .inl (.inl hleast)
    · by_cases hpower : m = 2 ^ 52
      · rcases le_or_gt ((2 : ℚ) ^ (52 + q)) v with hle | hless
        · exact .inl (.inr hle)
        · exact .inr ⟨hpower, lt_of_le_of_ne hmin (Ne.symm hleast), hless⟩
      · have habove : (2 : ℚ) ^ 52 + 1 ≤ m := by exact_mod_cast (by omega : 2 ^ 52 + 1 ≤ m)
        have hhalf := halfBelow_le m q
        refine .inl (.inr ?_)
        calc (2 : ℚ) ^ (52 + q) = 2 ^ 52 * 2 ^ q := zpow_add₀ two_ne_zero 52 q
          _ ≤ (m - halfBelow m q) * 2 ^ q := by gcongr; linarith
          _ ≤ v := h.low
  · exact .inl (.inl hleast)

/-- Below a power of two the exponent is one less, and rounding runs over. -/
theorem nearest_eq_of_below (negative : Bool) (hnum : 0 < num) (hden : 0 < den)
    (hmin : minExponent < q) (hless : (num : ℚ) / den < 2 ^ (52 + q))
    (h : RoundsTo (2 ^ 52) q (num / den)) :
    nearest negative num den = ofParts negative (2 ^ 52) q := by
  have hpow : (2 : ℚ) ^ (q - 1) * 2 = 2 ^ q := by
    rw [zpow_sub_one₀ two_ne_zero]
    ring
  have hpos : (0 : ℚ) < 2 ^ (q - 1) := by positivity
  -- the quotient is between the two numbers in units of the smaller exponent
  have hlow : ((2 ^ 53 : ℕ) - 1 / 2) * (2 : ℚ) ^ (q - 1) ≤ num / den := by
    refine le_trans (le_of_eq ?_) h.low
    rw [halfBelow, if_pos ⟨rfl, hmin⟩, ← hpow]
    push_cast
    ring
  have hhigh : (num : ℚ) / den < (2 ^ 53 : ℕ) * 2 ^ (q - 1) := by
    refine lt_of_lt_of_eq hless ?_
    rw [show (2 : ℚ) ^ (52 + q) = 2 ^ 52 * 2 ^ q from zpow_add₀ two_ne_zero 52 q, ← hpow]
    push_cast
    ring
  have hexp : exponentFor num den = q - 1 := by
    refine exponentFor_eq hnum hden (by omega) (.inr ?_) ?_
    · refine le_trans ?_ hlow
      rw [show (2 : ℚ) ^ (52 + (q - 1)) = 2 ^ 52 * 2 ^ (q - 1) from zpow_add₀ two_ne_zero 52 (q - 1)]
      gcongr
      norm_num
    · rwa [show 53 + (q - 1) = 52 + q by ring]
  refine nearest_of_carry negative hnum hexp ?_
  refine roundHalfEven_eq (scaled_snd_pos _ hden _) ?_ ?_ (fun hodd => absurd hodd (by norm_num))
  · rwa [scaled_eq, le_div_iff₀ hpos]
  · rw [scaled_eq, div_le_iff₀ hpos]
    refine le_trans hhigh.le ?_
    gcongr
    norm_num

/-- A quotient between the middles around a double is rounded to it. -/
theorem nearest_eq {negative : Bool} (hfits : Fits m q) (hnum : 0 < num) (hden : 0 < den)
    (h : RoundsTo m q (num / den)) : nearest negative num den = .finite negative m q hfits := by
  rw [← ofParts_of_fits]
  rcases le_or_below hfits h with hlow | ⟨rfl, hmin, hless⟩
  · obtain ⟨hbits, hmin, -, -⟩ := fits_iff.mp hfits
    have hbits' : (m : ℚ) + 1 ≤ 2 ^ 53 := by exact_mod_cast hbits
    have hhigh : (num : ℚ) / den < 2 ^ (53 + q) :=
      calc (num : ℚ) / den ≤ (m + 1 / 2) * 2 ^ q := h.high
        _ < 2 ^ 53 * 2 ^ q := by gcongr; linarith
        _ = 2 ^ (53 + q) := (zpow_add₀ two_ne_zero 53 q).symm
    have hexp := exponentFor_eq hnum hden hmin hlow hhigh
    exact nearest_of_significand negative hnum hexp (roundHalfEven_scaled hden h) (by omega)
  · exact nearest_eq_of_below negative hnum hden hmin hless h

end

end Real64

end RouteDocs
