import Mathlib.Data.List.TakeWhile
import RouteDocs.Proofs.Decimal.Numeral
import RouteDocs.Proofs.Fault
import RouteDocs.Rules.Constraints

/-!
# RouteDocs.Proofs.Rules.Bounds — which bounds are refused

The text of a bound is read whenever it has the shape of a number, with one exception: a whole number of
more than `maxDigits` digits (`LongBound`) is refused.  `Judged` says of a step that this alone decides
how it ends; it passes from one step to the steps made of it, up to the constraints of a field
(`judged_constraintsOf`).
-/

namespace RouteDocs

open Text Decimal

/-! ### Shapes of numbers -/

section Shapes

variable {s : List Char}

/-- The shape of a number, told from what follows its digits. -/
def tailShape : List Char → NumberShape
  | [] => .whole
  | '.' :: r => if !r.isEmpty && r.all isDecimalDigit then .fractional else .none
  | _ => .none

/-- A text is a sign, digits and what follows the digits; its shape is told from the last two. -/
theorem exists_numberShape (s : List Char) :
    ∃ sign ds rest, IsSign sign ∧ s = sign ++ ds ++ rest ∧
      (∀ c ∈ ds, isDecimalDigit c = true) ∧
      numberShape s = if ds.isEmpty then .none else tailShape rest := by
  have hdigits : ∀ t : List Char, ∀ c ∈ t.takeWhile isDecimalDigit, isDecimalDigit c = true :=
    fun t c hc => List.mem_takeWhile_imp hc
  unfold numberShape
  split
  · rename_i r
    refine ⟨['-'], _, _, .inr rfl, ?_, hdigits r, rfl⟩
    simp [List.takeWhile_append_dropWhile]
  · refine ⟨[], _, _, .inl rfl, ?_, hdigits s, rfl⟩
    simp [List.takeWhile_append_dropWhile]

/-- A text with the shape of a whole number is a sign and digits. -/
theorem exists_digits_of_whole (h : numberShape s = .whole) :
    ∃ sign ds, IsSign sign ∧ ds ≠ [] ∧ (∀ c ∈ ds, isDecimalDigit c = true) ∧ s = sign ++ ds := by
  obtain ⟨sign, ds, rest, hsign, hs, hd, hshape⟩ := exists_numberShape s
  rw [h] at hshape
  split at hshape
  · cases hshape
  · rename_i hne
    unfold tailShape at hshape
    split at hshape
    · exact ⟨sign, ds, hsign, by simpa using hne, hd, by simpa using hs⟩
    · split at hshape <;> cases hshape
    · cases hshape

/-- A text with the shape of a number with a fraction is a sign and digits around a point. -/
theorem exists_digits_of_fractional (h : numberShape s = .fractional) :
    ∃ sign ds fraction, IsSign sign ∧ ds ≠ [] ∧ (∀ c ∈ ds, isDecimalDigit c = true) ∧
      fraction ≠ [] ∧ (∀ c ∈ fraction, isDecimalDigit c = true) ∧
      s = sign ++ ds ++ '.' :: fraction := by
  obtain ⟨sign, ds, rest, hsign, hs, hd, hshape⟩ := exists_numberShape s
  rw [h] at hshape
  split at hshape
  · cases hshape
  · rename_i hne
    unfold tailShape at hshape
    split at hshape
    · cases hshape
    · rename_i fraction
      split at hshape
      · rename_i hall
        rw [Bool.and_eq_true, List.all_eq_true] at hall
        exact ⟨sign, ds, fraction, hsign, by simpa using hne, hd, by simpa using hall.1, hall.2, hs⟩
      · cases hshape
    · cases hshape

/-- After a sign and digits, the shape of a number is told from what no digits start. -/
theorem numberShape_append {sign ds rest : List Char} (hsign : IsSign sign) (hne : ds ≠ [])
    (hd : ∀ c ∈ ds, isDecimalDigit c = true) (hrest : rest.takeWhile isDecimalDigit = []) :
    numberShape (sign ++ ds ++ rest) = tailShape rest := by
  have hdrop : rest.dropWhile isDecimalDigit = rest := by
    simpa [hrest] using List.takeWhile_append_dropWhile (p := isDecimalDigit) (l := rest)
  have hshape : ∀ unsigned, unsigned = ds ++ rest →
      (if (unsigned.takeWhile isDecimalDigit).isEmpty then .none
        else tailShape (unsigned.dropWhile isDecimalDigit)) = tailShape rest := by
    rintro _ rfl
    rw [List.takeWhile_append_of_pos hd, List.dropWhile_append_of_pos hd, hrest, hdrop]
    simp [hne]
  rcases hsign with rfl | rfl
  · cases ds with
    | nil => exact absurd rfl hne
    | cons c r =>
      have hminus : c ≠ '-' := ne_of_isDecimalDigit (hd c List.mem_cons_self) rfl
      exact hshape _ (by simp [hminus])
  · exact hshape _ rfl

/-- A sign and digits are a whole number. -/
theorem numberShape_digits {sign ds : List Char} (hsign : IsSign sign) (hne : ds ≠ [])
    (hd : ∀ c ∈ ds, isDecimalDigit c = true) : numberShape (sign ++ ds) = .whole := by
  rw [← List.append_nil (sign ++ ds), numberShape_append hsign hne hd rfl]
  rfl

/-- A sign and digits around a point are a number with a fraction. -/
theorem numberShape_fraction {sign ds fraction : List Char} (hsign : IsSign sign) (hne : ds ≠ [])
    (hd : ∀ c ∈ ds, isDecimalDigit c = true) (hnef : fraction ≠ [])
    (hf : ∀ c ∈ fraction, isDecimalDigit c = true) :
    numberShape (sign ++ ds ++ '.' :: fraction) = .fractional := by
  rw [numberShape_append hsign hne hd (List.takeWhile_cons_of_neg (by decide))]
  have hall : (!fraction.isEmpty && fraction.all isDecimalDigit) = true := by
    simpa [hnef] using hf
  exact if_pos hall

end Shapes

/-! ### One bound -/

/-- A bound that is a whole number of too many digits. -/
def LongBound (t : String) : Prop :=
  numberShape (trim t.toList) = .whole ∧ maxDigits < (trim t.toList).countP isDecimalDigit

instance : DecidablePred LongBound := fun _ => inferInstanceAs (Decidable (_ ∧ _))

theorem countP_isDecimalDigit {sign ds : List Char} (hsign : IsSign sign)
    (hd : ∀ c ∈ ds, isDecimalDigit c = true) : (sign ++ ds).countP isDecimalDigit = ds.length := by
  have hnone : sign.countP isDecimalDigit = 0 := by
    rcases hsign with rfl | rfl <;> rfl
  rw [List.countP_append, hnone, Nat.zero_add, List.countP_eq_length.mpr hd]

/-- A whole number is read unless it is too long. -/
theorem readInt?_isSome_iff {t : String} (h : numberShape (trim t.toList) = .whole) :
    (readInt? 10 (trim t.toList)).isSome = true ↔ ¬ LongBound t := by
  obtain ⟨sign, ds, hsign, hne, hd, hs⟩ := exists_digits_of_whole h
  have htrim : trim (trim t.toList) = sign ++ ds := by rw [trim_trim, hs]
  have hcount : (trim t.toList).countP isDecimalDigit = ds.length := by
    rw [hs, countP_isDecimalDigit hsign hd]
  rw [readInt?_digits_isSome hsign hne hd htrim, LongBound, hcount]
  simp [h]

/-- A number with a fraction is always read. -/
theorem readReal?_isSome {t : String} (h : numberShape (trim t.toList) = .fractional) :
    (readReal? (trim t.toList)).isSome = true := by
  obtain ⟨sign, ds, fraction, hsign, hne, hd, -, hf, hs⟩ := exists_digits_of_fractional h
  rw [readReal?_fraction hsign hne hd hf (by rw [trim_trim, hs])]
  rfl

/-! ### Steps that only a long bound can stop -/

/-- A step that fails exactly when one of some texts is a long bound, and names such a text. -/
inductive Judged {α : Type} (ts : List String) : Except RuleError α → Prop
  | ok {a : α} : (∀ t ∈ ts, ¬ LongBound t) → Judged ts (.ok a)
  | error {t : String} : t ∈ ts → LongBound t → Judged ts (.error (.boundTooLong t))

namespace Judged

variable {α β : Type} {ts ts' : List String} {x : Except RuleError α} {f : α → Except RuleError β}

theorem pure (a : α) : Judged [] (.ok a) := .ok nofun

theorem weaken_left (hts : ∀ t ∈ ts, ¬ LongBound t) (hx : Judged ts' x) : Judged (ts ++ ts') x := by
  cases hx with
  | error hmem hlong => exact .error (List.mem_append_right _ hmem) hlong
  | ok hts' =>
    refine .ok fun t ht => ?_
    rcases List.mem_append.mp ht with ht | ht
    · exact hts t ht
    · exact hts' t ht

theorem bind (hx : Judged ts x) (hf : ∀ a, Judged ts' (f a)) : Judged (ts ++ ts') (x >>= f) := by
  cases hx with
  | error hmem hlong => exact .error (List.mem_append_left _ hmem) hlong
  | ok hts => exact (hf _).weaken_left hts

/-- A step whose result is only taken further. -/
theorem map (hx : Judged ts x) (g : α → β) : Judged ts (x >>= fun a => .ok (g a)) := by
  have h := hx.bind fun a => Judged.pure (g a)
  rwa [List.append_nil] at h

theorem exists_ok_iff (hx : Judged ts x) : (∃ a, x = .ok a) ↔ ∀ t ∈ ts, ¬ LongBound t := by
  cases hx with
  | @ok a hts => exact iff_of_true ⟨a, rfl⟩ hts
  | error hmem hlong => exact iff_of_false nofun fun hts => hts _ hmem hlong

end Judged

section Bounds

variable (type : FieldType)

theorem judged_readBound (t : String) : Judged [t] (readBound type t) := by
  unfold readBound
  dsimp only
  cases hshape : numberShape (trim t.toList) with
  | none => exact .ok (by simp [LongBound, hshape])
  | fractional => exact .ok (by simp [LongBound, hshape])
  | whole =>
    dsimp only
    cases hread : readInt? 10 (trim t.toList) with
    | some i => exact .ok (by simpa [hread] using readInt?_isSome_iff hshape)
    | none =>
      exact .error (List.mem_singleton_self t) (by simpa [hread] using readInt?_isSome_iff hshape)

theorem judged_lastBound (ts : List String) : Judged ts (lastBound type ts) := by
  induction ts with
  | nil => exact .pure _
  | cons t rest ih => exact (judged_readBound type t).bind fun bound => ih.map _

/-- The texts of the bounds in a rule spec. -/
def boundTexts (spec : Value) : List String :=
  ruleValues (rulesOf spec) "min:" ++ ruleValues (rulesOf spec) "max:"

/-- Of all the rules of a field, only a long bound is refused. -/
theorem judged_constraintsOf (spec : Value) :
    Judged (boundTexts spec) (constraintsOf (rulesOf spec) type) :=
  (judged_lastBound type _).bind fun _ => (judged_lastBound type _).map _

end Bounds

/-! ### A bound that is too long -/

/-- A number of many digits, all of them one. -/
def ones (n : ℕ) : List Char := List.replicate (n + 1) '1'

theorem trim_append_ones {s : List Char} {n : ℕ}
    (h : (s ++ ones n).dropWhile isBlank = s ++ ones n) : trim (s ++ ones n) = s ++ ones n := by
  rw [trim, h, ones, List.replicate_succ', ← List.append_assoc,
    dropEndWhile_eq_rdropWhile, List.rdropWhile_concat_neg _ _ _ (by decide)]

/-- With more digits than an integer may have, it is a long bound. -/
theorem longBound_ones {n : ℕ} (h : maxDigits ≤ n) : LongBound (String.ofList (ones n)) := by
  have htrim : trim (ones n) = ones n := trim_append_ones (s := []) rfl
  have hdigits : ∀ c ∈ ones n, isDecimalDigit c = true := fun c hc => by
    rw [List.eq_of_mem_replicate hc]
    rfl
  rw [LongBound, String.toList_ofList, htrim]
  refine ⟨?_, ?_⟩
  · exact numberShape_digits (.inl rfl) (List.cons_ne_nil _ _) hdigits
  · rw [List.countP_eq_length.mpr hdigits, ones, List.length_replicate]
    exact Nat.lt_succ_of_le h

/-- A flag may be given it as its least value. -/
theorem mem_boundTexts_ones (n : ℕ) : String.ofList (ones n) ∈
    boundTexts (.list [.str "boolean", .str (String.ofList ("min:".toList ++ ones n))]) := by
  have hrule : Rule.ofText? ("min:".toList ++ ones n) =
      some ⟨String.ofList ("min:".toList ++ ones n)⟩ := by
    rw [Rule.ofText?, trim_append_ones rfl]
    rfl
  have htail : Rule.tail? "min:" ⟨String.ofList ("min:".toList ++ ones n)⟩ =
      some (String.ofList (ones n)) := by
    have htext : (String.ofList ("min:".toList ++ ones n)).toList = "min:".toList ++ ones n :=
      String.toList_ofList
    have hfolded : (lowered (String.ofList ("min:".toList ++ ones n))).toList =
        lower ("min:".toList ++ ones n) := by
      rw [lowered, htext]
      exact String.toList_ofList
    unfold Rule.tail? Rule.folded
    rw [hfolded, htext]
    exact if_pos rfl
  have htexts : "min:".toList ++ ones n ∈
      specTexts (.list [.str "boolean", .str (String.ofList ("min:".toList ++ ones n))]) := by
    simp [specTexts]
  exact List.mem_append_left _
    (List.mem_filterMap.mpr ⟨_, List.mem_filterMap.mpr ⟨_, htexts, hrule⟩, htail⟩)

end RouteDocs
