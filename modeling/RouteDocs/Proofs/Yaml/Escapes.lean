import Mathlib.Algebra.Order.Ring.Nat
import RouteDocs.Proofs.Yaml.Runs

/-!
# RouteDocs.Proofs.Yaml.Escapes — escapes between double quotes

A character that cannot be written as it is has an escape, by name or by its number, and the escape is
read as that character (`readEscape_escape`).
-/

namespace RouteDocs.Yaml

open Text

/-! ### Hexadecimal numbers -/

section Hexadecimal

variable {ds r : List Char} {n acc width : Nat}

/-- The number that hexadecimal digits continue. -/
def hexValue (acc : Nat) (ds : List Char) : Option Nat :=
  ds.foldlM (fun n c => (hexDigit? c).map (n * 16 + ·)) acc

theorem takeHex?_append (ds r : List Char) (acc : Nat) :
    takeHex? ds.length acc (ds ++ r) = (hexValue acc ds).map (·, r) := by
  induction ds generalizing acc with
  | nil => rfl
  | cons c ds ih =>
    rw [List.length_cons, List.cons_append, takeHex?, hexValue, List.foldlM_cons]
    cases hexDigit? c with
    | none => rfl
    | some d => exact ih (acc * 16 + d)

theorem hexDigit?_digitChar : ∀ d < 16, hexDigit? (Nat.digitChar d).toUpper = some d := by decide

theorem hexValue_zeros (k : Nat) : hexValue 0 (List.replicate k '0') = some 0 := by
  induction k with
  | zero => rfl
  | succ k ih => exact ih

theorem hexValue_toDigits (n : Nat) : hexValue 0 ((Nat.toDigits 16 n).map Char.toUpper) = some n := by
  induction n using Nat.strongRecOn with
  | _ n ih =>
    rw [Nat.toDigits_eq_if (by decide)]
    by_cases h : n < 16
    · simp [h, hexValue, hexDigit?_digitChar n h]
    · have hrest := ih (n / 16) (by omega)
      have hlast := hexDigit?_digitChar (n % 16) (by omega)
      rw [if_neg h, List.map_append, hexValue, List.foldlM_append, ← hexValue, hrest]
      simp only [List.map_cons, List.map_nil, List.foldlM_cons, List.foldlM_nil, hlast, Option.map_some,
        Option.bind_eq_bind, Option.bind_some, Option.pure_def]
      congr 1
      omega

theorem length_hexPadded (hw : 0 < width) (h : n < 16 ^ width) : (hexPadded width n).length = width := by
  have hle := (Nat.length_toDigits_le_iff (by decide : 1 < 16) hw).mpr h
  simp only [hexPadded, List.length_append, List.length_replicate]
  omega

/-- A number filled with zeros is read as it is. -/
theorem takeHex?_hexPadded (hw : 0 < width) (h : n < 16 ^ width) (r : List Char) :
    takeHex? width 0 ((hexPadded width n).map Char.toUpper ++ r) = some (n, r) := by
  have hlength : ((hexPadded width n).map Char.toUpper).length = width := by
    rw [List.length_map, length_hexPadded hw h]
  have hzero : ('0' : Char).toUpper = '0' := by decide
  have hvalue : hexValue 0 ((hexPadded width n).map Char.toUpper) = some n := by
    rw [hexPadded, List.map_append, List.map_replicate, hzero, hexValue, List.foldlM_append, ← hexValue,
      hexValue_zeros]
    exact hexValue_toDigits n
  have htake := takeHex?_append ((hexPadded width n).map Char.toUpper) r 0
  rw [hlength, hvalue] at htake
  exact htake

end Hexadecimal

/-! ### Escapes -/

namespace Cursor

variable {c : Char} {e r : List Char} {m : Mark}

/-- A letter after a backslash. -/
theorem readEscape_named {a d : Char} (h : namedEscape? a = some d) (m : Mark) (r : List Char) :
    readEscape ⟨m, '\\' :: a :: r⟩ = .ok ([d], ⟨m.steps ['\\', a], r⟩) := by
  simp only [readEscape, next_cons, h, Mark.steps_cons, Mark.steps_nil]

/-- A code point after a backslash. -/
theorem readEscape_code {a : Char} {width : Nat} (hname : namedEscape? a = none)
    (hcode : codeDigits? a = some width) (hw : 0 < width) (hc : codeOf c < 16 ^ width) (m : Mark)
    (r : List Char) :
    let e := '\\' :: a :: (hexPadded width (codeOf c)).map Char.toUpper
    readEscape ⟨m, e ++ r⟩ = .ok ([c], ⟨m.steps e, r⟩) := by
  have hmax : ¬ 0x10FFFF < codeOf c := Nat.not_lt.mpr (codeOf_le_max c)
  have hlength : ((hexPadded width (codeOf c)).map Char.toUpper).length = width := by
    rw [List.length_map, length_hexPadded hw hc]
  intro e
  have hnext := foldl_next e r m
  have hcount : e.length = width + 2 := by simp [e, hlength]
  rw [hcount] at hnext
  simp only [e, List.cons_append] at hnext ⊢
  rw [readEscape]
  simp only [next_cons, hname, hcode, takeHex?_hexPadded hw hc, if_neg hmax, hnext,
    charOfCode_codeOf]

end Cursor

/-- An escape, and the character that it is read as. -/
structure IsEscape (e : List Char) (c : Char) : Prop where
  head : ∃ e', e = '\\' :: e'
  allowed : ∀ a ∈ e, isAllowed a = true ∧ isBreak a = false
  read : ∀ m r, Cursor.readEscape ⟨m, e ++ r⟩ = .ok ([c], ⟨m.steps e, r⟩)

section

variable {c d : Char} {e : List Char} {width : Nat}

theorem isEscape_named (hd : isAllowed d = true ∧ isBreak d = false) (h : Cursor.namedEscape? d = some c) :
    IsEscape ['\\', d] c := by
  refine ⟨⟨_, rfl⟩, fun a ha => ?_, Cursor.readEscape_named h⟩
  rcases List.mem_cons.mp ha with rfl | ha
  · decide
  · rwa [List.mem_singleton.mp ha]

/-- The escape of a character named by its number. -/
theorem isEscape_number {n : Nat} (hn : codeOf c = n) {d : Char}
    (hd : isAllowed d = true ∧ isBreak d = false)
    (h : Cursor.namedEscape? d = some (charOfCode n)) : IsEscape ['\\', d] c := by
  rw [← charOfCode_codeOf c, hn]
  exact isEscape_named hd h

theorem isAllowed_hexDigit : ∀ d < 16, isAllowed (Nat.digitChar d).toUpper = true ∧
    isBreak (Nat.digitChar d).toUpper = false := by decide

theorem isAllowed_hexPadded {n : Nat} : ∀ a ∈ (hexPadded width n).map Char.toUpper,
    isAllowed a = true ∧ isBreak a = false := by
  have hdigits : ∀ n, ∀ a ∈ Nat.toDigits 16 n,
      isAllowed a.toUpper = true ∧ isBreak a.toUpper = false := by
    intro n
    induction n using Nat.strongRecOn with
    | _ n ih =>
      rw [Nat.toDigits_eq_if (by decide)]
      by_cases h : n < 16
      · simpa [h] using isAllowed_hexDigit n h
      · intro a ha
        rw [if_neg h] at ha
        rcases List.mem_append.mp ha with ha | ha
        · exact ih (n / 16) (by omega) a ha
        · rw [List.mem_singleton.mp ha]
          exact isAllowed_hexDigit (n % 16) (by omega)
  intro a ha
  obtain ⟨b, hb, rfl⟩ := List.mem_map.mp ha
  rcases List.mem_append.mp hb with hb | hb
  · rw [List.eq_of_mem_replicate hb]
    decide
  · exact hdigits n b hb

theorem isEscape_code {a : Char} (hname : Cursor.namedEscape? a = none)
    (hcode : Cursor.codeDigits? a = some width) (ha : isAllowed a = true ∧ isBreak a = false) (hw : 0 < width)
    (hc : codeOf c < 16 ^ width) :
    IsEscape ('\\' :: a :: (hexPadded width (codeOf c)).map Char.toUpper) c := by
  refine ⟨⟨_, rfl⟩, fun b hb => ?_, fun m r => Cursor.readEscape_code hname hcode hw hc m r⟩
  rcases List.mem_cons.mp hb with rfl | hb
  · decide
  · rcases List.mem_cons.mp hb with rfl | hb
    · exact ha
    · exact isAllowed_hexPadded b hb

/-- The escape of a character is read as that character. -/
theorem isEscape_of_escape (h : escape? c = some e) : IsEscape e c := by
  have hmax := codeOf_le_max c
  unfold escape? at h
  extract_lets n named digits at h
  rcases ite_eq_iff.mp h with ⟨hc, h⟩ | ⟨-, h⟩
  · rw [Bool.or_eq_true, beq_iff_eq, beq_iff_eq] at hc
    obtain rfl := Option.some.inj h
    rcases hc with rfl | rfl
    · exact isEscape_named (by decide) rfl
    · exact isEscape_named (by decide) rfl
  iterate 3
    rcases ite_eq_iff.mp h with ⟨hn, h⟩ | ⟨-, h⟩
    · exact Option.some.inj h ▸ isEscape_number (beq_iff_eq.mp hn) (by decide) rfl
  rcases ite_eq_iff.mp h with ⟨-, h⟩ | ⟨-, h⟩
  · cases h
  iterate 9
    rcases ite_eq_iff.mp h with ⟨hn, h⟩ | ⟨-, h⟩
    · exact Option.some.inj h ▸ isEscape_number (beq_iff_eq.mp hn) (by decide) rfl
  rcases ite_eq_iff.mp h with ⟨hn, h⟩ | ⟨-, h⟩
  · exact Option.some.inj h ▸ isEscape_code rfl rfl (by decide) (by decide) (by omega)
  rcases ite_eq_iff.mp h with ⟨hn, h⟩ | ⟨-, h⟩
  · exact Option.some.inj h ▸ isEscape_code rfl rfl (by decide) (by decide) (by omega)
  · exact Option.some.inj h ▸ isEscape_code rfl rfl (by decide) (by decide) (by omega)

/-- What has no escape is written as it is. -/
theorem isAllowed_of_no_escape (h : escape? c = none) :
    isAllowed c = true ∧ isBreak c = false ∧ c ≠ '\t' ∧ c ≠ '"' ∧ c ≠ '\\' := by
  unfold escape? at h
  extract_lets n named digits at h
  rcases ite_eq_iff.mp h with ⟨-, h⟩ | ⟨hc, h⟩
  · cases h
  rw [Bool.or_eq_true, beq_iff_eq, beq_iff_eq, not_or] at hc
  rcases ite_eq_iff.mp h with ⟨-, h⟩ | ⟨-, h⟩
  · cases h
  rcases ite_eq_iff.mp h with ⟨-, h⟩ | ⟨hline, h⟩
  · cases h
  rcases ite_eq_iff.mp h with ⟨-, h⟩ | ⟨hparagraph, h⟩
  · cases h
  rcases ite_eq_iff.mp h with ⟨hrange, -⟩ | ⟨-, h⟩
  · rw [beq_iff_eq] at hline hparagraph
    simp only [Bool.and_eq_true, Bool.or_eq_true, decide_eq_true_eq] at hrange
    -- a surrogate is in none of the ranges, so the code point is the character's own
    have hn : c.toNat = n := by
      rcases codeOf_cases c with ⟨-, hcode⟩ | ⟨hs, -⟩
      · exact hcode.symm
      · simp only [isSurrogateCode, Bool.and_eq_true, decide_eq_true_eq] at hs
        omega
    have hallowed : isAllowed c = true := by
      simp only [isAllowed, Bool.or_eq_true, Bool.and_eq_true, decide_eq_true_eq, beq_iff_eq, hn]
      omega
    have hne : ∀ d : Char, (d.toNat < 32 ∨ d.toNat = 133 ∨ d.toNat = 8232 ∨ d.toNat = 8233) →
        c ≠ d := by
      rintro d hd rfl
      omega
    refine ⟨hallowed, ?_, hne _ (by decide), hc.1, hc.2⟩
    simp only [isBreak, Bool.or_eq_false_iff]
    exact ⟨⟨⟨beq_false_of_ne (hne _ (by decide)), beq_false_of_ne (hne _ (by decide))⟩,
      beq_false_of_ne (hne _ (by decide))⟩, beq_false_of_ne (hne _ (by decide))⟩
  · iterate 11
      rcases ite_eq_iff.mp h with ⟨-, h⟩ | ⟨-, h⟩
      · cases h
    cases h

end

end RouteDocs.Yaml
