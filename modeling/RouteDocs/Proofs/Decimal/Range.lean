import RouteDocs.Decimal.Numeral
import RouteDocs.Proofs.Decimal.Rounding

/-!
# RouteDocs.Proofs.Decimal.Range — the range of numbers that are read

A quotient is rounded to a finite double unless it is too large for one (`nearest_eq_ofParts`), and an
integer that is read has no more digits than are allowed (`natAbs_lt_of_readInt?`).
-/

namespace RouteDocs

namespace Real64

variable {a b n num den : ℕ}

theorem roundHalfEven_le (hb : 0 < b) (h : a < n * b) : roundHalfEven a b ≤ n := by
  have hq : a / b < n := (Nat.div_lt_iff_lt_mul hb).mpr h
  unfold roundHalfEven
  dsimp only
  split
  · omega
  · split
    · omega
    · have := Nat.mod_lt (a / b) (by decide : 0 < 2)
      omega

theorem le_roundHalfEven (hb : 0 < b) (h : n * b ≤ a) : n ≤ roundHalfEven a b := by
  have hq : n ≤ a / b := (Nat.le_div_iff_mul_le hb).mpr h
  unfold roundHalfEven
  dsimp only
  split
  · exact hq
  · split <;> omega

/-- The quotient at its exponent has at most 53 bits before the point, and no fewer unless the exponent is
the least one. -/
theorem scaled_exponentFor (hnum : 0 < num) (hden : 0 < den) :
    minExponent ≤ exponentFor num den ∧
      (scaled num den (exponentFor num den)).1 < 2 ^ 53 * (scaled num den (exponentFor num den)).2 ∧
      (2 ^ 52 * (scaled num den (exponentFor num den)).2 ≤ (scaled num den (exponentFor num den)).1 ∨
        exponentFor num den = minExponent) := by
  obtain ⟨e, he, hlow, hhigh⟩ := exponentFor_eq_max hnum hden
  generalize exponentFor num den = q at he
  have hq : e ≤ q := he ▸ le_max_right _ _
  have htwo : (0 : ℚ) < 2 ^ q := by positivity
  have hpos := scaled_snd_pos num hden q
  have hvalue := scaled_eq num den q
  generalize scaled num den q = s at hpos hvalue ⊢
  have hb : (0 : ℚ) < s.2 := by exact_mod_cast hpos
  refine ⟨he ▸ le_max_left _ _, ?_, ?_⟩
  · have hless : (s.1 : ℚ) / s.2 < 2 ^ 53 := by
      rw [hvalue, div_lt_iff₀ htwo]
      calc (num : ℚ) / den < 2 ^ (53 + e) := hhigh
        _ ≤ 2 ^ ((53 : ℕ) + q) := zpow_le_zpow_right₀ (by norm_num) (by push_cast; omega)
        _ = 2 ^ 53 * 2 ^ q := by rw [zpow_add₀ two_ne_zero, zpow_natCast]
    rw [div_lt_iff₀ hb] at hless
    exact_mod_cast hless
  · rcases max_choice minExponent e with hmax | hmax
    · exact .inr (he.trans hmax)
    · obtain rfl : q = e := he.trans hmax
      have hmore : (2 : ℚ) ^ 52 ≤ s.1 / s.2 := by
        rw [hvalue, le_div_iff₀ htwo]
        calc (2 : ℚ) ^ 52 * 2 ^ q = 2 ^ ((52 : ℕ) + q) := by rw [zpow_add₀ two_ne_zero, zpow_natCast]
          _ ≤ num / den := hlow
      rw [le_div_iff₀ hb] at hmore
      exact .inl (by exact_mod_cast hmore)

/-- A quotient is rounded to a significand and an exponent that fit unless the exponent is too great, so
that only a quotient that is too large is rounded to an infinity. -/
theorem nearest_eq_ofParts (negative : Bool) (hnum : 0 < num) (hden : 0 < den) :
    ∃ m q, nearest negative num den = ofParts negative m q ∧ (q ≤ maxExponent → Fits m q) := by
  obtain ⟨hmin, hless, hmore⟩ := scaled_exponentFor hnum hden
  have hpos := scaled_snd_pos num hden (exponentFor num den)
  unfold nearest
  rw [if_neg hnum.ne']
  dsimp only
  generalize exponentFor num den = q at hmin hless hmore hpos ⊢
  have hle := roundHalfEven_le hpos hless
  by_cases hcarry : roundHalfEven (scaled num den q).1 (scaled num den q).2 = Nat.pow 2 53
  · rw [if_pos hcarry]
    exact ⟨_, _, rfl, fun hmax => fits_iff.mpr ⟨by norm_num, by dsimp only; omega, hmax, .inl le_rfl⟩⟩
  · rw [if_neg hcarry]
    exact ⟨_, _, rfl, fun hmax =>
      ⟨lt_of_le_of_ne hle hcarry, hmin, hmax, hmore.imp_left (le_roundHalfEven hpos)⟩⟩

end Real64

namespace Decimal

variable {s : List Char} {ds : List ℕ} {i : ℤ}

theorem lt_of_digitValues? {base : ℕ} (h : digitValues? base s = some ds) : ∀ d ∈ ds, d < base := by
  have hone : ∀ {c : Char} {rest : Option (List ℕ)}, (∀ ds, rest = some ds → ∀ d ∈ ds, d < base) →
      ∀ ds, ((placeValue? c).bind fun d => if d < base then rest.map (d :: ·) else none) = some ds →
        ∀ d ∈ ds, d < base := by
    intro c rest hrest ds h
    obtain ⟨d, -, h⟩ := Option.bind_eq_some_iff.mp h
    split at h
    · rename_i hd
      obtain ⟨ds, hds, rfl⟩ := Option.map_eq_some_iff.mp h
      exact List.forall_mem_cons.mpr ⟨hd, hrest ds hds⟩
    · cases h
  fun_induction digitValues? base s generalizing ds with
  | case1 => cases h
  | case2 c =>
    obtain ⟨d, -, h⟩ := Option.bind_eq_some_iff.mp h
    split at h
    · cases h
      simpa
    · cases h
  | case3 c r ih => exact hone (fun _ => ih) ds h
  | case4 c r _ _ ih => exact hone (fun _ => ih) ds h

theorem ofDigitValues_lt_pow_length {base : ℕ} (hds : ∀ d ∈ ds, d < base) :
    ofDigitValues base ds < base ^ ds.length := by
  induction ds using List.reverseRecOn with
  | nil => exact Nat.one_pos
  | append_singleton ds d ih =>
    have hd : d < base := hds d (by simp)
    have hrest := ih fun x hx => hds x (List.mem_append_left _ hx)
    have hconcat : ofDigitValues base (ds ++ [d]) = ofDigitValues base ds * base + d := by
      simp [ofDigitValues, List.foldl_append]
    rw [hconcat, List.length_append, List.length_singleton, Nat.pow_succ]
    have hmul := Nat.mul_le_mul_right base hrest
    rw [Nat.succ_mul] at hmul
    omega

/-- A number of at most `k` digits. -/
theorem ofDigitValues_lt (base k : ℕ) (hbase : 0 < base) (hds : ∀ d ∈ ds, d < base)
    (hk : ds.length ≤ k) : ofDigitValues base ds < Nat.pow base k :=
  lt_of_lt_of_le (ofDigitValues_lt_pow_length hds) (Nat.pow_le_pow_right hbase hk)

/-- An integer that is read has at most `maxDigits` digits. -/
theorem natAbs_lt_of_readInt? (h : readInt? 10 s = some i) : i.natAbs < Nat.pow 10 maxDigits := by
  unfold readInt? at h
  dsimp only at h
  obtain ⟨ds, hds, h⟩ := Option.bind_eq_some_iff.mp h
  split at h
  · cases h
  · rename_i hfits
    have hlength : ds.length ≤ maxDigits := by simpa using hfits
    have habs : i.natAbs = ofDigitValues 10 ds := by
      cases h
      split <;> simp
    have hlt : ∀ k, ds.length ≤ k → ofDigitValues 10 ds < Nat.pow 10 k := fun k =>
      ofDigitValues_lt 10 k (by decide) (lt_of_digitValues? hds)
    rw [habs]
    exact hlt maxDigits hlength

end Decimal

end RouteDocs
