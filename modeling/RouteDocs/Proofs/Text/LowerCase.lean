import Mathlib.Data.Bool.AllAny
import RouteDocs.Proofs.Decimal.Numeral
import RouteDocs.Text.Case

/-!
# RouteDocs.Proofs.Text.LowerCase — lower case has no lower case of its own

The runs that make lower case move each code point to one that none of them moves on, and to none of a
list of others.  Both are checked run by run (`CaseRun.misses`), not code point by code point.  So a
character in lower case stays as it is (`lowerChar_lowerChar`), and so does a text in lower case
(`lowerChar_of_mem_lower`, `lowerFrom_eq_self`), whatever the neighbours of a sigma are.
-/

namespace RouteDocs.Text

/-! ### Runs that miss each other -/

namespace CaseRun

/-- Where the first code point of the run moves. -/
def start (r : CaseRun) : ℕ := ((r.first : ℤ) + r.shift).toNat

/-- Where the last code point of the run moves. -/
def stop (r : CaseRun) : ℕ := ((r.last : ℤ) + r.shift).toNat

/-- The code points that a run moves end up apart from those that another run moves, before or behind them
or between those of every second place. -/
def misses (r r' : CaseRun) : Bool :=
  -- `Nat.blt` is evaluated by the kernel in one step: this is checked for all pairs of runs
  Nat.blt r.stop r'.first || Nat.blt r'.last r.start ||
    r'.stride == 2 && (r.stride == 2 || r.first == r.last) && (r.start + r'.first) % 2 == 1

/-- The run moves code points to code points of characters. -/
def isValid (r : CaseRun) : Bool :=
  (0 : ℤ) ≤ r.first + r.shift && (r.stop < 0xD800 || (0xDFFF < r.start && r.stop < 0x110000))

/-- One code point, as a run that leaves it where it is. -/
def point (n : ℕ) : CaseRun := ⟨n, n, 1, 0⟩

variable {r r' : CaseRun} {m n : ℕ}

theorem image?_eq_some_iff :
    r.image? n = some m ↔
      r.first ≤ n ∧ n ≤ r.last ∧ (n - r.first) % r.stride = 0 ∧ ((n : ℤ) + r.shift).toNat = m := by
  rw [image?, Option.ite_none_right_eq_some, Bool.and_eq_true, Bool.and_eq_true, decide_eq_true_iff,
    decide_eq_true_iff, beq_iff_eq, Option.some_inj, and_assoc, and_assoc]

theorem image?_point (n : ℕ) : (point n).image? n = some n := by
  simp [image?_eq_some_iff, point]

/-- What a run moves is not moved on by a run that it misses. -/
theorem image?_eq_none_of_misses (hvalid : r.isValid = true) (h : r.misses r' = true)
    (hm : r.image? n = some m) : r'.image? m = none := by
  obtain ⟨hfirst, hlast, hstride, rfl⟩ := image?_eq_some_iff.mp hm
  have hpos : (0 : ℤ) ≤ r.first + r.shift := by
    rw [isValid, Bool.and_eq_true, decide_eq_true_eq] at hvalid
    exact hvalid.1
  rw [Option.eq_none_iff_forall_ne_some]
  intro k hk
  obtain ⟨hfirst', hlast', hstride', -⟩ := image?_eq_some_iff.mp hk
  simp only [misses, start, stop, Nat.blt_eq, Bool.or_eq_true, Bool.and_eq_true, beq_iff_eq] at h
  rcases h with (hbefore | hbehind) | ⟨⟨htwo, hplaces⟩, hodd⟩
  · omega
  · omega
  · rw [htwo] at hstride'
    rcases hplaces with hevery | hone
    · rw [hevery] at hstride
      omega
    · omega

theorem isValidChar_of_image? (hvalid : r.isValid = true) (hm : r.image? n = some m) :
    m.isValidChar := by
  obtain ⟨hfirst, hlast, -, rfl⟩ := image?_eq_some_iff.mp hm
  simp only [isValid, Bool.and_eq_true, Bool.or_eq_true, decide_eq_true_eq] at hvalid
  rw [start, stop] at hvalid
  rw [Nat.isValidChar]
  omega

end CaseRun

theorem mapRuns_cases (runs : List CaseRun) (n : ℕ) :
    mapRuns runs n = n ∨ ∃ r ∈ runs, r.image? n = some (mapRuns runs n) := by
  induction runs with
  | nil => exact .inl rfl
  | cons r runs ih =>
    rw [mapRuns]
    cases hr : r.image? n with
    | some m => exact .inr ⟨r, List.mem_cons_self, hr⟩
    | none => exact ih.imp_right fun ⟨r', hr', hm⟩ => ⟨r', List.mem_cons_of_mem r hr', hm⟩

/-! ### Lower case of a character -/

/-- Code points to which no other one is moved: the hyphen, the underscore, the capital with a dot and
white space. -/
def unreachedCodes : List ℕ := [0x2D, 0x5F, 0x130] ++ blankCodes

theorem isValid_of_mem_lowerRuns {r : CaseRun} (hr : r ∈ lowerRuns) : r.isValid = true := by
  have hall : lowerRuns.all CaseRun.isValid = true := by decide +kernel
  exact List.all_eq_true.mp hall r hr

theorem misses_of_mem_lowerRuns {r r' : CaseRun} (hr : r ∈ lowerRuns) (hr' : r' ∈ lowerRuns) :
    r.misses r' = true := by
  have hall : (lowerRuns.all fun r => lowerRuns.all fun r' => r.misses r') = true := by decide +kernel
  exact List.all_eq_true.mp (List.all_eq_true.mp hall r hr) r' hr'

theorem misses_point_of_mem_lowerRuns {r : CaseRun} {n : ℕ} (hr : r ∈ lowerRuns)
    (hn : n ∈ unreachedCodes) : r.misses (CaseRun.point n) = true := by
  have hall : (lowerRuns.all fun r => unreachedCodes.all fun n => r.misses (CaseRun.point n)) = true := by
    decide +kernel
  exact List.all_eq_true.mp (List.all_eq_true.mp hall r hr) n hn

section Characters

variable {c d : Char} {before after s : List Char}

/-- The lower case of a character is the character itself, or where one of the runs moves it. -/
theorem lowerChar_cases (c : Char) :
    lowerChar c = c ∨ c = 'İ' ∨ ∃ r ∈ lowerRuns, r.image? c.toNat = some (lowerChar c).toNat := by
  by_cases hascii : c.toNat < 128
  · have hall : ∀ n < 128, lowerChar (Char.ofNat n) = Char.ofNat n ∨
        (CaseRun.mk 65 90 1 32).image? n = some (lowerChar (Char.ofNat n)).toNat := by decide
    have hc := hall c.toNat hascii
    rw [Char.ofNat_toNat] at hc
    exact hc.imp_right fun hrun => .inr ⟨_, List.mem_cons_self, hrun⟩
  · by_cases hdot : c.toNat = 0x130
    · exact .inr (.inl (Char.toNat_inj.mp hdot))
    · have hlower : lowerChar c = Char.ofNat (mapRuns lowerRuns c.toNat) := by
        rw [lowerChar, if_neg hascii, if_neg (by simpa using hdot)]
      rcases mapRuns_cases lowerRuns c.toNat with hsame | ⟨r, hr, himage⟩
      · rw [hlower, hsame, Char.ofNat_toNat]
        exact .inl rfl
      · have hchar := CaseRun.isValidChar_of_image? (isValid_of_mem_lowerRuns hr) himage
        refine .inr (.inr ⟨r, hr, ?_⟩)
        rw [himage, hlower, Char.ofNat, dif_pos hchar]
        rfl

theorem lowerChar_eq_of_mem (h : (lowerChar c).toNat ∈ unreachedCodes) : lowerChar c = c := by
  rcases lowerChar_cases c with hsame | rfl | ⟨r, hr, himage⟩
  · exact hsame
  · exact absurd h (by decide)
  · have hnone := CaseRun.image?_eq_none_of_misses (isValid_of_mem_lowerRuns hr)
      (misses_point_of_mem_lowerRuns hr h) himage
    rw [CaseRun.image?_point] at hnone
    cases hnone

/-- Lower case is not moved on. -/
theorem lowerChar_lowerChar (c : Char) : lowerChar (lowerChar c) = lowerChar c := by
  rcases lowerChar_cases c with hsame | rfl | ⟨r, hr, himage⟩
  · rw [hsame, hsame]
  · decide
  · rcases lowerChar_cases (lowerChar c) with hfixed | hdot | ⟨r', hr', himage'⟩
    · exact hfixed
    · have hunmoved : lowerChar c = c := lowerChar_eq_of_mem (by rw [hdot]; decide)
      rw [hunmoved, hunmoved]
    · have hnone := CaseRun.image?_eq_none_of_misses (isValid_of_mem_lowerRuns hr)
        (misses_of_mem_lowerRuns hr hr') himage
      rw [hnone] at himage'
      cases himage'

/-! ### Lower case of a text -/

/-- What lower case is made of: lower case of the character, or one of the characters of a sigma or of a
capital with a dot. -/
theorem mem_lowerInContext (h : d ∈ lowerInContext before c after) :
    d = lowerChar c ∨ d ∈ ['ς', 'σ', 'i', Char.ofNat 0x307] := by
  unfold lowerInContext at h
  split at h
  · rw [List.mem_singleton] at h
    split at h <;> simp [h]
  · split at h
    · right
      simp only [List.mem_cons, List.not_mem_nil, or_false] at h ⊢
      tauto
    · exact .inl (List.mem_singleton.mp h)

theorem lowerChar_of_mem_lowerInContext (h : d ∈ lowerInContext before c after) : lowerChar d = d := by
  rcases mem_lowerInContext h with rfl | hd
  · exact lowerChar_lowerChar c
  · have hall : ∀ d ∈ ['ς', 'σ', 'i', Char.ofNat 0x307], lowerChar d = d :=
      List.all_iff_forall_prop.mp (by decide)
    exact hall d hd

/-- A character that is neither a capital sigma nor a capital with a dot is mapped by itself. -/
theorem lowerInContext_of_ne (hsigma : c ≠ 'Σ') (hdot : c ≠ 'İ') (before after : List Char) :
    lowerInContext before c after = [lowerChar c] := by
  rw [lowerInContext, if_neg (by simpa using hsigma), if_neg (by simpa using hdot)]

theorem lowerInContext_ne_nil (before : List Char) (c : Char) (after : List Char) :
    lowerInContext before c after ≠ [] := by
  unfold lowerInContext
  split
  · exact List.cons_ne_nil _ _
  · split <;> exact List.cons_ne_nil _ _

theorem mem_lowerFrom (h : d ∈ lowerFrom before s) :
    ∃ c ∈ s, ∃ before after, d ∈ lowerInContext before c after := by
  induction s generalizing before with
  | nil => exact absurd h List.not_mem_nil
  | cons c s ih =>
    rw [lowerFrom, List.mem_append] at h
    rcases h with hhere | hlater
    · exact ⟨c, List.mem_cons_self, before, s, hhere⟩
    · obtain ⟨c', hc', hrest⟩ := ih hlater
      exact ⟨c', List.mem_cons_of_mem c hc', hrest⟩

theorem lowerFrom_eq_map (before : List Char) (h : ∀ c ∈ s, c ≠ 'Σ' ∧ c ≠ 'İ') :
    lowerFrom before s = s.map lowerChar := by
  induction s generalizing before with
  | nil => rfl
  | cons c s ih =>
    rw [List.forall_mem_cons] at h
    rw [lowerFrom, lowerInContext_of_ne h.1.1 h.1.2, ih _ h.2]
    rfl

theorem lowerFrom_eq_self (before : List Char) (h : ∀ c ∈ s, lowerChar c = c) :
    lowerFrom before s = s := by
  have hplain : ∀ c ∈ s, c ≠ 'Σ' ∧ c ≠ 'İ' := by
    intro c hc
    constructor <;>
    · rintro rfl
      exact absurd (h _ hc) (by decide)
  rw [lowerFrom_eq_map before hplain, List.map_congr_left h, List.map_id']

/-- Lower case is made of characters that are their own lower case. -/
theorem lowerChar_of_mem_lower (h : d ∈ lower s) : lowerChar d = d := by
  obtain ⟨c, -, before, after, hdc⟩ := mem_lowerFrom h
  exact lowerChar_of_mem_lowerInContext hdc

end Characters

end RouteDocs.Text
