import RouteDocs.Text.Surrogate

/-!
# RouteDocs.Proofs.Text.Surrogate — characters and code points

Every character stands for one code point and is found again from it (`charOfCode_codeOf`), so code points
are compared as the characters are (`codeOf_inj`).
-/

namespace RouteDocs.Text

variable {c d : Char}

/-- A code point is the character's own, or that of a surrogate for which the character stands. -/
theorem codeOf_cases (c : Char) :
    isSurrogateCode (codeOf c) = false ∧ codeOf c = c.toNat ∨
      isSurrogateCode (codeOf c) = true ∧ surrogatePlane + codeOf c = c.toNat := by
  unfold codeOf
  cases hs : isSurrogate c with
  | true =>
    rw [isSurrogate, Bool.and_eq_true, decide_eq_true_eq] at hs
    rw [if_pos rfl]
    exact .inr ⟨hs.2, Nat.add_sub_cancel' hs.1⟩
  | false =>
    have hvalid : c.toNat < 0xD800 ∨ 0xDFFF < c.toNat ∧ c.toNat < 0x110000 := c.valid
    rw [if_neg Bool.false_ne_true]
    refine .inl ⟨?_, rfl⟩
    simp only [isSurrogateCode, Bool.and_eq_false_iff, decide_eq_false_iff_not]
    omega

theorem charOfCode_codeOf (c : Char) : charOfCode (codeOf c) = c := by
  rcases codeOf_cases c with ⟨hs, hcode⟩ | ⟨hs, hcode⟩
  · rw [charOfCode, hs, if_neg Bool.false_ne_true, hcode, Char.ofNat_toNat]
  · rw [charOfCode, hs, if_pos rfl, hcode, Char.ofNat_toNat]

theorem codeOf_inj : codeOf c = codeOf d ↔ c = d := by
  refine ⟨fun h => ?_, congrArg codeOf⟩
  rw [← charOfCode_codeOf c, h, charOfCode_codeOf]

/-- Below the surrogates the code point is the character's own. -/
theorem le_codeOf_iff {n : Nat} (hn : n ≤ 0xD800) : n ≤ codeOf c ↔ n ≤ c.toNat := by
  rcases codeOf_cases c with ⟨-, hcode⟩ | ⟨hs, hcode⟩
  · rw [hcode]
  · simp only [isSurrogateCode, surrogatePlane, Bool.and_eq_true, decide_eq_true_eq] at hs hcode
    omega

theorem codeOf_le_iff {n : Nat} (hn : n < 0xD800) : codeOf c ≤ n ↔ c.toNat ≤ n := by
  rw [← Nat.lt_succ_iff, ← Nat.lt_succ_iff, ← Nat.not_le, ← Nat.not_le,
    le_codeOf_iff (Nat.succ_le_of_lt hn)]

theorem codeOf_le_max (c : Char) : codeOf c ≤ 0x10FFFF := by
  have hvalid : c.toNat < 0xD800 ∨ 0xDFFF < c.toNat ∧ c.toNat < 0x110000 := c.valid
  rcases codeOf_cases c with ⟨-, hcode⟩ | ⟨-, hcode⟩ <;> omega

/-! ### Texts -/

variable {s : String}

theorem hasSurrogate_eq_false_iff :
    hasSurrogate s = false ↔ ∀ c ∈ s.toList, isSurrogate c = false := by
  simp [hasSurrogate]

theorem hasSurrogate_ofList (s : List Char) : hasSurrogate (String.ofList s) = s.any isSurrogate := by
  rw [hasSurrogate, String.toList_ofList]

theorem hasSurrogate_append (s t : String) :
    hasSurrogate (s ++ t) = (hasSurrogate s || hasSurrogate t) := by
  rw [hasSurrogate, String.toList_append, List.any_append]
  rfl

/-- A text between others that are known to have no surrogates. -/
theorem hasSurrogate_between {head tail : List Char} (s : String) (hhead : head.any isSurrogate = false)
    (htail : tail.any isSurrogate = false) :
    hasSurrogate (String.ofList head ++ s ++ String.ofList tail) = hasSurrogate s := by
  rw [hasSurrogate_append, hasSurrogate_append, hasSurrogate_ofList, hasSurrogate_ofList, hhead, htail,
    Bool.false_or, Bool.or_false]

end RouteDocs.Text
