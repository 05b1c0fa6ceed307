import RouteDocs.Proofs.Yaml.QuotedWriting
import RouteDocs.Proofs.Yaml.Scanning

/-!
# RouteDocs.Proofs.Yaml.Scalars — scalars as tokens

A scalar is written plain or between quotes (`isScalar_writeScalar`), and in either form the scanner
passes over it with one more token, be it before a lower line (`passes_scalar`) or as a key
(`passes_keyScalar`).
-/

namespace RouteDocs.Yaml

/-- A text that is read as it was written with an indentation. -/
def LegibleText (indent : Nat) (s : List Char) : Prop :=
  (allowsSingle s = true → '\x85' ∉ s) ∧
    (allowsSingle s = false → indent < lineWidth ∨
      hasNeighbours (fun c => (escape? c).isSome) isSpace s = false)

/-- A scalar as it is written, plain or between quotes. -/
inductive IsScalar (indent : Nat) : (plain : Bool) → (text written : List Char) → Prop
  | plain {s t : List Char} (hs : allowsPlain s = true) (h : PlainText indent s t) :
      IsScalar indent true s t
  | quoted {double : Bool} {s t : List Char} (h : QuotedText double t s) :
      IsScalar indent false s (quoteMark double :: t ++ [quoteMark double])

section

variable {indent : Nat} {s t r : List Char} {plain : Bool} {tag : Tag} {p : Place}

theorem writeQuoted_eq (h : p.isKey = true → isMultiline s = false) :
    writeQuoted p s = if allowsSingle s then writeSingle p s
      else '"' :: writeDouble p.indent (!p.isKey) (p.column + 1) true true s ++ ['"'] := by
  unfold writeQuoted
  cases hkey : p.isKey
  · simp
  · simp [h hkey]

theorem isScalar_writeQuoted (hpos : 0 < p.indent) (h : LegibleText p.indent s)
    (hline : p.isKey = true → isMultiline s = false) :
    IsScalar p.indent false s (writeQuoted p s) := by
  rw [writeQuoted_eq hline]
  cases hsingle : allowsSingle s with
  | true => exact .quoted (quotedText_single hpos hsingle (h.1 hsingle) _ _)
  | false => exact .quoted (quotedText_double hpos s (h.2 hsingle) _ _ _)

/-- A scalar is plain if its text says its type and may stand so; any other text is quoted. -/
theorem isScalar_writeScalar (hpos : 0 < p.indent) (hs : plainTag s = tag → s ≠ [])
    (htag : tag ≠ .str → plainTag s = tag ∧ allowsPlain s = true) (h : LegibleText p.indent s)
    (hline : p.isKey = true → isMultiline s = false) :
    IsScalar p.indent (plainTag s = tag && allowsPlain s) s (writeScalar p tag s) := by
  unfold writeScalar
  by_cases hplain : plainTag s = tag ∧ allowsPlain s = true
  · obtain ⟨hsame, hallowed⟩ := hplain
    simp only [hsame, hallowed, decide_true, Bool.and_self, if_true]
    exact .plain hallowed (plainText_writePlain (hs hsame) hallowed p)
  · have hstr : tag = .str := by
      by_contra hne
      exact hplain (htag hne)
    have hfalse : (decide (plainTag s = tag) && allowsPlain s) = false := by simpa using hplain
    rw [hfalse, if_neg Bool.false_ne_true, if_pos hstr]
    exact isScalar_writeQuoted hpos h hline

theorem IsScalar.allowed (h : IsScalar indent plain s t) : ∀ c ∈ t, isAllowed c = true := by
  cases h with
  | plain hs h =>
    simp only [allowsPlain, Bool.and_eq_true, List.all_eq_true] at hs
    exact h.allowed fun c hc => isAllowed_of_isWritable (hs.1.1.1.1 c hc)
  | @quoted double s t h =>
    have hmark : isAllowed (quoteMark double) = true := by cases double <;> decide
    have htext := h.allowed
    simpa [or_imp, forall_and, hmark] using htext

/-! ### The first characters -/

/-- What is written starts with the first word of the text. -/
theorem PlainText.exists_word (h : PlainText indent s t) :
    ∃ w s' t', IsPlainWord w ∧ s = w ++ s' ∧ t = w ++ t' ∧ startsWithGap s' = true ∧
      ∀ c ∈ t'.head?, c = ' ' ∨ c = '\n' := by
  cases h with
  | word hw => exact ⟨s, [], [], hw, by simp, by simp, rfl, nofun⟩
  | @gap w s t n hw hn h =>
    obtain ⟨n, rfl⟩ : ∃ k, n = k + 1 := ⟨n - 1, by omega⟩
    exact ⟨w, _, _, hw, rfl, rfl, rfl, fun c hc => .inl (Option.some.inj hc).symm⟩
  | fold hw h => exact ⟨_, _, _, hw, rfl, rfl, rfl, fun c hc => .inr (Option.some.inj hc).symm⟩

/-- A plain scalar is taken for nothing else. -/
theorem beginsPlain_append (hs : allowsPlain s = true) (h : PlainText indent s t) {x : Char}
    (hx : x = ':' ∨ x = '\n') (r : List Char) :
    ∃ c r', t ++ x :: r = c :: r' ∧ Scanner.BeginsPlain c r' := by
  simp only [allowsPlain, Bool.and_eq_true, List.all_eq_true, Bool.not_eq_true', bne_iff_ne] at hs
  obtain ⟨⟨⟨⟨hwritable, -⟩, hindicator⟩, -⟩, -⟩ := hs
  obtain ⟨w, s', t', hw, rfl, rfl, hgap, hnext⟩ := h.exists_word
  obtain ⟨c, w, rfl⟩ := List.exists_cons_of_ne_nil hw.ne_nil
  simp only [hasIndicator, List.cons_append, Bool.or_eq_false_iff] at hindicator
  obtain ⟨⟨hhyphens, hpoints⟩, ⟨hother, hlead⟩, -⟩ := hindicator
  have hafter : ∃ y r', t' ++ x :: r = y :: r' ∧ y ≠ '-' ∧ y ≠ '.' := by
    cases t' with
    | nil => exact ⟨x, r, rfl, by rcases hx with rfl | rfl <;> decide⟩
    | cons y t' => exact ⟨y, t' ++ x :: r, rfl, by rcases hnext y rfl with rfl | rfl <;> decide⟩
  obtain ⟨y, r', hr', hy⟩ := hafter
  refine ⟨c, w ++ (t' ++ x :: r), by simp, ?_, ?_, ?_, ?_, ?_⟩
  · exact hw.solid c List.mem_cons_self
  · simpa using hother
  · intro hc
    cases w with
    | nil =>
      exfalso
      simp at hc
      rcases hc with rfl | rfl | rfl <;> simp [hgap] at hlead
    | cons d w => exact hw.solid d (by simp)
  · intro m
    rw [hr']
    unfold Cursor.atDocumentMark
    split
    · rename_i heq
      exfalso
      rcases w with _ | ⟨a, _ | ⟨b, w⟩⟩ <;> simp at heq hhyphens <;> simp_all
    · rename_i heq
      exfalso
      rcases w with _ | ⟨a, _ | ⟨b, w⟩⟩ <;> simp at heq hpoints <;> simp_all
    · rfl
  · exact ne_of_isWritable (hwritable c (by simp)) (by decide)

theorem IsScalar.startsToken (h : IsScalar indent plain s t) {x : Char} (hx : x = ':' ∨ x = '\n')
    (r : List Char) : StartsToken (t ++ x :: r) := by
  cases h with
  | plain hs h =>
    obtain ⟨c, r', hr', hbegin⟩ := beginsPlain_append hs h hx r
    rw [hr']
    exact hbegin.startsToken
  | @quoted double s t h =>
    cases double <;> exact Scanner.startsToken_indicator (by simp [quoteMark]) (by simp [quoteMark])

end

/-! ### Keys on one line -/

section Keys

variable {indent indent' : Nat} {word : List Char → List Char} {s : List Char}

/-- A text without breaks that is not to be split is written the same at any place. -/
theorem writeRuns_unsplit (indent indent' : Nat) (word : List Char → List Char) {rs : List (List Char)} (hb : ∀ c ∈ rs.flatten, isBreak c = false)
    (column column' : Nat) (first first' : Bool) :
    writeRuns indent false word column first rs = writeRuns indent' false word column' first' rs := by
  induction rs generalizing column column' first first' with
  | nil => rfl
  | cons r rs ih =>
    have hrest := ih fun c hc => hb c (List.mem_append_right r hc)
    cases r with
    | nil =>
      simp only [writeRuns, List.head?_nil, Option.map_none]
      rw [hrest]
    | cons c r =>
      have hc : isBreak c = false := hb c (by simp)
      simp only [writeRuns, List.head?_cons, Option.map_some]
      cases hkind : runKind c with
      | lineBreak => exact absurd (isBreak_of_lineBreak hkind) (by simp [hc])
      | space =>
        simp only [Bool.and_false, Bool.false_and, Bool.false_eq_true, if_false]
        rw [hrest]
      | word =>
        simp only
        rw [hrest]

theorem not_isBreak_writeRuns (indent : Nat) {rs : List (List Char)} (hb : ∀ c ∈ rs.flatten, isBreak c = false)
    (hword : ∀ r, (∀ c ∈ r, isBreak c = false) → ∀ c ∈ word r, isBreak c = false) (column : Nat)
    (first : Bool) : ∀ c ∈ writeRuns indent false word column first rs, isBreak c = false := by
  induction rs generalizing column first with
  | nil => nofun
  | cons r rs ih =>
    have hrest := ih fun c hc => hb c (List.mem_append_right r hc)
    have hr : ∀ c ∈ r, isBreak c = false := fun c hc => hb c (List.mem_append_left _ hc)
    unfold writeRuns
    split
    · rename_i hkind
      obtain ⟨c, hc, hc'⟩ := Option.map_eq_some_iff.mp hkind
      have hmem : c ∈ r := List.mem_of_head? hc
      exact absurd (isBreak_of_lineBreak hc') (by simp [hr c hmem])
    · simp only [Bool.and_false, Bool.false_and, Bool.false_eq_true, if_false]
      exact List.forall_mem_append.mpr ⟨hr, hrest _ _⟩
    · exact List.forall_mem_append.mpr ⟨hword r hr, hrest _ _⟩

theorem writeDouble_unsplit (indent indent' : Nat) (s : List Char) (column column' : Nat) (fresh fresh' first first' : Bool) :
    writeDouble indent false column fresh first s = writeDouble indent' false column' fresh' first' s := by
  induction s generalizing column column' fresh fresh' first first' with
  | nil => rfl
  | cons c r ih =>
    unfold writeDouble
    simp only [Bool.false_and, Bool.false_eq_true, if_false]
    split <;> rw [ih]

theorem not_isBreak_writeDouble (indent : Nat) (s : List Char) (column : Nat) (fresh first : Bool) :
    ∀ c ∈ writeDouble indent false column fresh first s, isBreak c = false := by
  induction s generalizing column fresh first with
  | nil => nofun
  | cons c r ih =>
    unfold writeDouble
    simp only [Bool.false_and, Bool.false_eq_true, if_false]
    split
    · rename_i e he
      exact List.forall_mem_append.mpr
        ⟨fun a ha => ((isEscape_of_escape he).allowed a ha).2, ih _ _ _⟩
    · rename_i he
      exact List.forall_mem_cons.mpr ⟨(isAllowed_of_no_escape he).2.1, ih _ _ _⟩

theorem not_isBreak_doubleQuotes (r : List Char) (hr : ∀ c ∈ r, isBreak c = false) :
    ∀ c ∈ doubleQuotes r, isBreak c = false := by
  intro c hc
  obtain ⟨d, hd, hcd⟩ := List.mem_flatMap.mp hc
  split at hcd
  · simp at hcd
    rw [hcd]
    decide
  · rw [List.mem_singleton.mp hcd]
    exact hr d hd

variable {p p' : Place}

theorem writeScalar_str (p : Place) (s : List Char) :
    writeScalar p .str s =
      if plainTag s = .str && allowsPlain s then writePlain p s else writeQuoted p s := rfl

theorem not_isBreak_runsOf (hline : isMultiline s = false) :
    ∀ c ∈ (runsOf s).flatten, isBreak c = false := by
  rw [flatten_runsOf]
  simpa [isMultiline] using hline

/-- A key on one line is written the same at any place. -/
theorem writeScalar_key (hp : p.isKey = true) (hp' : p'.isKey = true) (hline : isMultiline s = false) :
    writeScalar p .str s = writeScalar p' .str s := by
  have hruns := fun word => writeRuns_unsplit p.indent p'.indent word
    (not_isBreak_runsOf hline)
  have hdouble := writeDouble_unsplit p.indent p'.indent s
  rw [writeScalar_str, writeScalar_str, writeQuoted_eq fun _ => hline, writeQuoted_eq fun _ => hline]
  simp only [writePlain, writeSingle, hp, hp', Bool.not_true]
  rw [hruns id _ p'.column _ true, hruns doubleQuotes _ (p'.column + 1) _ true,
    hdouble _ (p'.column + 1) _ true _ true]

theorem not_isBreak_writeScalar (hp : p.isKey = true) (hline : isMultiline s = false) :
    ∀ c ∈ writeScalar p .str s, isBreak c = false := by
  have hb := not_isBreak_runsOf hline
  have hmarks : isBreak '\'' = false ∧ isBreak '"' = false := by decide
  rw [writeScalar_str, writeQuoted_eq fun _ => hline]
  split
  · rw [writePlain, hp]
    exact not_isBreak_writeRuns _ hb (fun _ h => h) _ _
  · split
    · rw [writeSingle, hp]
      have hwritten := not_isBreak_writeRuns p.indent hb not_isBreak_doubleQuotes
        (p.column + 1) true
      simpa [or_imp, forall_and, hmarks] using hwritten
    · rw [hp]
      have hwritten := not_isBreak_writeDouble p.indent s (p.column + 1) true true
      simpa [or_imp, forall_and, hmarks] using hwritten

end Keys

/-! ### Passing over a scalar -/

namespace Scanner

variable {indent k n : Nat} {s t r : List Char} {plain : Bool} {m : Mark} {i : Int}
  {outer outer' : List Int} {T T' : List Token} {ka : Bool}

/-- A scalar before a lower line. -/
theorem passes_scalar (h : IsScalar indent plain s t) (hpos : 0 < indent) (hi : i ≤ m.column)
    (hindent : i < indent) (hkey : ka = true → i ≠ m.column) (hk : k ≤ i) (hr : StartsToken r) :
    (before m (t ++ (newLine k ++ r)) T i outer ka).Passes
      (before (m.steps (t ++ newLine k)) r (.scalar (String.ofList s) plain :: T) i outer true) := by
  have hlower : m.line < (m.steps (t ++ newLine k)).line := by
    rw [Mark.steps_append]
    exact Nat.lt_of_le_of_lt (Mark.line_le_steps m t) (Mark.line_lt_steps_newLine _ k)
  cases h with
  | plain hs h =>
    obtain ⟨c, r', hr', hbegin⟩ := beginsPlain_append hs h (.inr rfl) (spaces k ++ r)
    have hread := Cursor.readPlain_newLine (m := m) h hpos hindent hi hk hr
    have hlt : r.length < (t ++ (newLine k ++ r)).length := by
      simp [newLine]
      omega
    have htext : t ++ (newLine k ++ r) = c :: r' := hr'
    rw [htext] at hread hlt ⊢
    refine (passes_plain hbegin hi hread hlt).trans (passes_pending hr (skipGap_startsToken hr _) ?_
      (Nat.le_refl _) hkey hlower)
    intro hbom
    exact (hr.solid _ hbom).2.2.2 rfl
  | @quoted double s t h =>
    have hread := Cursor.readQuoted_append (r := newLine k ++ r) h (fun _ => by simp [newLine]) m
    have hlt : (newLine k ++ r).length < (t ++ [quoteMark double] ++ (newLine k ++ r)).length + 1 := by
      simp
      omega
    refine (passes_quoted hi hread hlt).trans ?_
    rw [Mark.steps_append _ _ (newLine k)] at hlower ⊢
    refine passes_pending hr (skipGap_newLine hr k _) ?_ (by simp) hkey hlower
    intro hbom
    exact absurd (Option.some.inj hbom) (by decide)

/-- A scalar on one line before a colon is a key. -/
theorem passes_keyScalar (h : IsScalar indent plain s t) (hpos : 0 < indent)
    (hline : ∀ c ∈ t, isBreak c = false) (hlength : t.length ≤ 1024)
    (ho : Opens .mappingStart n i outer T outer' T') (hm : m.column = n) (hindent : i < indent)
    (hr : atGap r = true) :
    (before m (t ++ ':' :: r) T i outer true).Passes
      (before (m.steps (t ++ [':'])) r
        (.value :: .scalar (String.ofList s) plain :: .key :: T') n outer' false) := by
  have hle := ho.le
  have hi : i ≤ m.column := by omega
  obtain ⟨hsame, hcolumn⟩ := Mark.steps_of_no_break (m := m) hline
  have hindex := Mark.index_steps m t
  have hcolon : Passes
      { before (m.steps t) (':' :: r) (.scalar (String.ofList s) plain :: T) i outer false with
        keys := pending true T i m }
      (before (m.steps (t ++ [':'])) r
        (.value :: .scalar (String.ofList s) plain :: .key :: T') n outer' false) := by
    rw [Mark.steps_append]
    exact passes_simpleKey ho hm hsame (by omega) (by omega) hr
  cases h with
  | plain hs h =>
    obtain ⟨c, r', hr', hbegin⟩ := beginsPlain_append hs h (.inl rfl) r
    have hread := Cursor.readPlain_colon (m := m) h hpos hindent hi hr
    have hlt : (':' :: r).length < (t ++ ':' :: r).length := by
      obtain ⟨c, t, rfl, -⟩ := h.exists_cons
      simp only [List.cons_append, List.length_cons, List.length_append]
      omega
    rw [hr'] at hread hlt ⊢
    exact (passes_plain hbegin hi hread hlt).trans hcolon
  | @quoted double s t h =>
    have hread := Cursor.readQuoted_append (r := ':' :: r) h (fun _ => by simp) m
    have hlt : (':' :: r).length < (t ++ [quoteMark double] ++ ':' :: r).length + 1 := by
      simp
      omega
    exact (passes_quoted hi hread hlt).trans hcolon

end Scanner

end RouteDocs.Yaml
