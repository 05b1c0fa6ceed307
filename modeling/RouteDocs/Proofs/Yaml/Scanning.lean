import RouteDocs.Proofs.Yaml.QuotedText
import RouteDocs.Yaml.Token.Stream

/-!
# RouteDocs.Proofs.Yaml.Scanning — passing from token to token

A scanner completes if it comes to the end of its text from there on (`Scanner.Completes`), and it
passes to another if it completes whenever that one does (`Scanner.Passes`).  A step that reads
something passes on, and so does going to the next token: the scanners that are considered stand right
before a token, outside flow collections, with no key pending (`Scanner.before`).
-/

namespace RouteDocs.Yaml

namespace Scanner

/-- The scanner comes to the end of its text with the given result. -/
def Completes (s w : Scanner) : Prop := ∀ fuel, s.cursor.rest.length < fuel → s.run fuel = (w, none)

/-- The scanner completes as the other one does. -/
def Passes (u v : Scanner) : Prop := ∀ w, v.Completes w → u.Completes w

theorem Passes.trans {u v w : Scanner} (h : u.Passes v) (h' : v.Passes w) : u.Passes w :=
  fun x hx => h x (h' x hx)

/-- A step that reads something. -/
theorem passes_of_step {u v : Scanner} (h : u.step = .ok v) (hdone : v.done = false)
    (hlt : v.cursor.rest.length < u.cursor.rest.length) : u.Passes v := by
  intro w hv fuel hfuel
  obtain ⟨fuel, rfl⟩ : ∃ f, fuel = f + 1 := ⟨fuel - 1, by omega⟩
  rw [run, h]
  simp only [hdone, Bool.false_eq_true, if_false]
  exact hv fuel (by omega)

/-- Two scanners with the same next step. -/
theorem passes_of_step_eq {u v : Scanner} (h : u.step = v.step)
    (hle : v.cursor.rest.length ≤ u.cursor.rest.length) : u.Passes v := by
  intro w hv fuel hfuel
  obtain ⟨fuel, rfl⟩ : ∃ f, fuel = f + 1 := ⟨fuel - 1, by omega⟩
  have hrun := hv (fuel + 1) (by omega)
  rw [run] at hrun ⊢
  rw [h]
  cases hstep : v.step with
  | error f =>
    rw [hstep] at hrun
    cases hrun
  | ok v' =>
    rw [hstep] at hrun
    exact hrun

/-- The next step depends on where the scanner goes to and the blocks that are left there. -/
theorem step_congr {u v u' v' : Scanner} (hu : u.toToken.dropStaleKeys = .ok u')
    (hv : v.toToken.dropStaleKeys = .ok v')
    (h : u'.unwind u'.cursor.mark.column = v'.unwind v'.cursor.mark.column) : u.step = v.step := by
  unfold step
  rw [hu, hv]
  simp only [bind, Except.bind, h]

/-! ### Before a token -/

/-- Before a token, outside flow collections, with no key pending. -/
def before (m : Mark) (r : List Char) (T : List Token) (i : Int) (outer : List Int)
    (keyAllowed : Bool) : Scanner :=
  { cursor := ⟨m, r⟩, tokens := T, indent := i, outer, keyAllowed }

section

variable {m : Mark} {r : List Char} {T : List Token} {i : Int} {outer : List Int} {ka : Bool}

theorem isStale_of_line_ne {k : KeyPlace} (h : k.mark.line ≠ m.line) : k.isStale m = true := by
  simp [KeyPlace.isStale, h]

theorem not_isStale {k : KeyPlace} (hline : m.line = k.mark.line) (hindex : m.index ≤ k.mark.index + 1024) :
    k.isStale m = false := by
  have hnear : ¬ 1024 < m.index - k.mark.index := by omega
  simp [KeyPlace.isStale, hline, hnear]

/-- Going to the next token over a gap, with keys pending that cannot be keys any more. -/
theorem toToken_dropStaleKeys {u : Scanner} {c : Cursor} {ka : Bool} (hflow : u.flowLevel = 0)
    (hmark : u.cursor.rest.head? ≠ some byteOrderMark)
    (hgap : skipGap false false u.keyAllowed u.cursor.mark u.cursor.rest = (ka, c))
    (hkeys : ∀ e ∈ u.keys, e.2.needed = false ∧ e.2.mark.line ≠ c.mark.line) :
    u.toToken.dropStaleKeys = .ok { u with cursor := c, keyAllowed := ka, keys := [] } := by
  have hto : u.toToken = { u with cursor := c, keyAllowed := ka } := by
    unfold toToken
    have hbom : (u.cursor.rest.head? == some byteOrderMark) = false := beq_false_of_ne hmark
    simp only [hbom, Bool.and_false, Bool.false_eq_true, if_false, hflow, bne_self_eq_false, hgap]
  rw [hto, dropStaleKeys]
  dsimp only
  rw [if_neg]
  · congr 2
    rw [List.filter_eq_nil_iff]
    intro e he
    simp [isStale_of_line_ne (hkeys e he).2]
  · rw [Bool.not_eq_true, List.any_eq_false]
    intro e he
    simp [(hkeys e he).1]

theorem skipGap_startsToken (h : StartsToken r) (m : Mark) :
    skipGap false false ka m r = (ka, ⟨m, r⟩) := by
  cases r with
  | nil => rfl
  | cons c r =>
    obtain ⟨hspace, hbreak, hhash, -⟩ := h.solid c rfl
    simp [skipGap, hspace, hbreak, hhash]

theorem skipGap_spaces (h : StartsToken r) (n : Nat) (m : Mark) :
    skipGap false false ka m (spaces n ++ r) = (ka, ⟨m.steps (spaces n), r⟩) := by
  induction n generalizing m with
  | zero => exact skipGap_startsToken h m
  | succ n ih =>
    have hbreak : isBreak ' ' = false := by decide
    rw [spaces_succ, List.cons_append, skipGap, hbreak]
    simpa using ih (m.step ' ')

theorem skipGap_newLine (h : StartsToken r) (n : Nat) (m : Mark) :
    skipGap false false ka m (newLine n ++ r) = (true, ⟨m.steps (newLine n), r⟩) := by
  have hbreak : isBreak '\n' = true := by decide
  rw [newLine, List.cons_append, skipGap, hbreak]
  simpa using skipGap_spaces h n (m.step '\n')

theorem unwind_of_le {c : Int} (h : i ≤ c) (hflow : (before m r T i outer ka).flowLevel = 0 := rfl) :
    (before m r T i outer ka).unwind c = before m r T i outer ka := by
  have hnot : ¬ c < i := Int.not_lt.mpr h
  cases outer <;> simp [unwind, before, endBlocks, hnot]

theorem toToken_before (h : StartsToken r) :
    (before m r T i outer ka).toToken.dropStaleKeys = .ok (before m r T i outer ka) := by
  refine toToken_dropStaleKeys rfl ?_ (skipGap_startsToken h m) nofun
  intro hbom
  exact (h.solid _ hbom).2.2.2 rfl

/-- The space after a lead or a colon. -/
theorem passes_space (h : StartsToken r) :
    (before m (' ' :: r) T i outer ka).Passes (before (m.step ' ') r T i outer ka) := by
  refine passes_of_step_eq (step_congr ?_ (toToken_before h) rfl) (Nat.le_succ _)
  refine toToken_dropStaleKeys rfl ?_ (skipGap_spaces h 1 m) nofun
  intro hbom
  exact absurd (Option.some.inj hbom) (by decide)

/-- A new line. -/
theorem passes_newLine (outer : List Int) (ka : Bool) (h : StartsToken r) (n : Nat) :
    (before m (newLine n ++ r) T i outer ka).Passes (before (m.steps (newLine n)) r T i outer true) := by
  refine passes_of_step_eq (step_congr ?_ (toToken_before h) rfl) ?_
  · refine toToken_dropStaleKeys rfl ?_ (skipGap_newLine h n m) nofun
    intro hbom
    exact absurd (Option.some.inj hbom) (by decide)
  · simp [before]

/-- The end of a block, before a token to the left of it. -/
theorem passes_blockEnd (outer : List Int) (h : StartsToken r) {n : Nat} (hn : m.column < n) :
    (before m r T n (i :: outer) true).Passes (before m r (.blockEnd :: T) i outer true) := by
  refine passes_of_step_eq (step_congr (toToken_before h) (toToken_before h) ?_) (Nat.le_refl _)
  have hlt : ((m.column : Nat) : Int) < n := by omega
  simp [unwind, before, endBlocks, hlt]

end

/-! ### Blocks -/

/-- A block at a column goes on, or starts to the right of the blocks around it: its indentation, the
columns of those blocks, and the tokens before and after. -/
inductive Opens (t : Token) (n : Nat) :
    (i : Int) → (outer : List Int) → (T : List Token) → (outer' : List Int) → (T' : List Token) → Prop
  | same (outer : List Int) (T : List Token) : Opens t n n outer T outer T
  | start {i : Int} (h : i < n) (outer : List Int) (T : List Token) :
      Opens t n i outer T (i :: outer) (t :: T)

section

variable {m : Mark} {r : List Char} {T T' : List Token} {i : Int} {outer outer' : List Int} {ka : Bool}
  {n : Nat} {t : Token} {c : Char}

theorem Opens.le (h : Opens t n i outer T outer' T') : i ≤ n := by
  cases h with
  | same => exact Int.le_refl _
  | start h => omega

theorem insertAfter_append (X T : List Token) (t : Token) :
    insertAfter T.length t (X ++ T) = X ++ t :: T := by
  simp [insertAfter]

theorem startBlock_opens (h : Opens t n i outer T outer' T') {u : Scanner} (hu : u.indent = i)
    (ho : u.outer = outer) {X : List Token} (hT : u.tokens = X ++ T) :
    u.startBlock n t T.length = { u with indent := n, outer := outer', tokens := X ++ T' } := by
  unfold startBlock
  cases h with
  | same =>
    rw [if_neg (by omega)]
    cases u
    simp_all
  | start h =>
    rw [if_pos (by omega), hT, insertAfter_append, hu, ho]

theorem startsToken_indicator (hc : c ∈ ['-', '?', ':', '[', ']', '\x7b', '\x7d', '\'', '"'])
    (hr : c = '-' → r.head? ≠ some '-') : StartsToken (c :: r) := by
  have hother : ∀ c ∈ ['-', '?', ':', '[', ']', '\x7b', '\x7d', '\'', '"'],
      c ≠ ' ' ∧ isBreak c = false ∧ c ≠ '#' ∧ c ≠ byteOrderMark ∧ c ≠ '.' :=
    List.all_iff_forall_prop.mp (by decide)
  obtain ⟨hspace, hbreak, hhash, hbom, hpoint⟩ := hother c hc
  refine ⟨?_, fun m => ?_⟩
  · rintro d hd
    obtain rfl := Option.some.inj hd
    exact ⟨hspace, hbreak, hhash, hbom⟩
  · unfold Cursor.atDocumentMark
    split <;> simp_all

/-- The indicators of a block, the start of the block, and the token of the indicator. -/
inductive BlockIndicator : (c : Char) → (start token : Token) → Prop
  | entry : BlockIndicator '-' .sequenceStart .blockEntry
  | key : BlockIndicator '?' .mappingStart .key
  | value : BlockIndicator ':' .mappingStart .value

/-- An indicator before a gap. -/
theorem passes_indicator {token : Token} (hc : BlockIndicator c t token)
    (ho : Opens t n i outer T outer' T') (hm : m.column = n) (r : List Char) :
    (before m (c :: ' ' :: r) T i outer true).Passes
      (before (m.step c) (' ' :: r) (token :: T') n outer' true) := by
  have hstart : StartsToken (c :: ' ' :: r) := by
    cases hc <;> exact startsToken_indicator (by simp) (by simp)
  have hle := ho.le
  have hgap : atGap (' ' :: r) = true := rfl
  have hblock := startBlock_opens (X := []) ho
    (u := { cursor := ⟨m, c :: ' ' :: r⟩, tokens := T, indent := i, outer }) rfl rfl rfl
  refine passes_of_step ?_ rfl (by simp [before])
  unfold step
  rw [toToken_before hstart]
  simp only [bind, Except.bind]
  rw [unwind_of_le (by simp only [before]; omega)]
  have hmark := hstart.noMark
  cases hc <;>
    simp [before, hmark, hgap, readBlockEntry, readKey, readValue, bind, Except.bind, hm, hblock, dropKey,
      skip, push, pure, Except.pure]

/-- The places of keys after a token before which a key was allowed. -/
def pending (ka : Bool) (T : List Token) (i : Int) (m : Mark) : List (Nat × KeyPlace) :=
  if ka then [(0, ⟨T.length, i == m.column, m⟩)] else []

theorem saveKey_before (m : Mark) (r : List Char) (T : List Token) (i : Int) (outer : List Int) (ka : Bool) :
    (before m r T i outer ka).saveKey = .ok { before m r T i outer ka with keys := pending ka T i m } := by
  cases ka <;> simp [saveKey, before, pending, dropKey, bind, Except.bind, pure, Except.pure]

theorem lookup_pending : (pending ka T i m).lookup 1 = none := by cases ka <;> rfl

/-- The brackets and tokens of an empty flow collection. -/
inductive EmptyFlow : (a b : Char) → (ta tb : Token) → Prop
  | sequence : EmptyFlow '[' ']' .flowSequenceStart .flowSequenceEnd
  | mapping : EmptyFlow '\x7b' '\x7d' .flowMappingStart .flowMappingEnd

/-- An empty flow collection. -/
theorem passes_emptyFlow {a b : Char} {ta tb : Token} (hflow : EmptyFlow a b ta tb)
    (hi : i ≤ m.column) (r : List Char) :
    (before m (a :: b :: r) T i outer ka).Passes
      { before ((m.step a).step b) r (tb :: ta :: T) i outer false with keys := pending ka T i m } := by
  have hstart : StartsToken (a :: b :: r) := by
    cases hflow <;> exact startsToken_indicator (by simp) (by simp)
  have hsave := saveKey_before m (a :: b :: r) T i outer ka
  let inside : Scanner :=
    { before (m.step a) (b :: r) (ta :: T) i outer true with flowLevel := 1, keys := pending ka T i m }
  have hopen : (before m (a :: b :: r) T i outer ka).step = .ok inside := by
    unfold step
    rw [toToken_before hstart]
    simp only [bind, Except.bind]
    rw [unwind_of_le (by simp only [before]; omega)]
    simp only [before] at hsave
    cases hflow <;>
      simp [before, readFlowStart, bind, Except.bind, hsave, skip, push, pure, Except.pure, inside]
  -- the key that may be here is on this line
  have hto : inside.toToken.dropStaleKeys = .ok inside := by
    have hskip : inside.toToken = inside := by
      cases hflow <;> simp [toToken, inside, before, skipGap, isBreak, byteOrderMark]
    have hline : (m.step a).line = m.line ∧ (m.step a).index = m.index + 1 := by
      refine ⟨(Mark.step_of_not_break ?_).1, Mark.index_step m a⟩
      cases hflow <;> decide
    have hfresh : ∀ n needed, KeyPlace.isStale ⟨n, needed, m⟩ (m.step a) = false := fun _ _ =>
      not_isStale hline.1 (by dsimp only; omega)
    rw [hskip]
    cases ka <;> simp [dropStaleKeys, inside, before, pending, hfresh]
  have hclose : inside.step = .ok { before ((m.step a).step b) r (tb :: ta :: T) i outer false with
      keys := pending ka T i m } := by
    unfold step
    rw [hto]
    simp only [bind, Except.bind]
    cases hflow <;>
      simp [before, unwind, readFlowEnd, bind, Except.bind, dropKey, lookup_pending, skip, push, pure,
        Except.pure, inside]
  exact (passes_of_step hopen rfl (by simp [before, inside])).trans
    (passes_of_step hclose rfl (by simp [before, inside]))

/-- Once the line has ended, what was read is no key. -/
theorem passes_pending {s : List Char} {m' m₀ : Mark} {ka' : Bool} (hr : StartsToken r)
    (hgap : skipGap false false ka' m s = (true, ⟨m', r⟩)) (hbom : s.head? ≠ some byteOrderMark)
    (hlen : r.length ≤ s.length) (hkey : ka = true → i ≠ m₀.column) (hline : m₀.line < m'.line) :
    Passes { before m s T i outer ka' with keys := pending ka T' i m₀ }
      (before m' r T i outer true) := by
  refine passes_of_step_eq (step_congr (toToken_dropStaleKeys rfl hbom hgap ?_) (toToken_before hr) rfl)
    hlen
  intro e he
  cases ka with
  | false => cases he
  | true =>
    obtain rfl := List.mem_singleton.mp he
    exact ⟨beq_false_of_ne (hkey rfl), Nat.ne_of_lt hline⟩

/-! ### Scalars -/

/-- A text that starts with a plain scalar. -/
structure BeginsPlain (c : Char) (r : List Char) : Prop where
  solid : IsSolid c
  other : c ∉ "#,[]\x7b\x7d&*!|>'\"%@\x60".toList
  lead : c ∈ ['?', ':', '-'] → atGap r = false
  noMark : ∀ m, (⟨m, c :: r⟩ : Cursor).atDocumentMark = false
  ne_mark : c ≠ byteOrderMark

theorem BeginsPlain.startsToken (h : BeginsPlain c r) : StartsToken (c :: r) := by
  obtain ⟨hspace, -, hbreak⟩ := isSolid_iff.mp h.solid
  refine ⟨?_, h.noMark⟩
  rintro d hd
  obtain rfl := Option.some.inj hd
  exact ⟨hspace, hbreak, fun hc => h.other (by simp [hc]), h.ne_mark⟩

/-- A plain scalar. -/
theorem passes_plain (h : BeginsPlain c r) (hi : i ≤ m.column) {text : String} {ended : Bool}
    {after : Cursor} (hread : Cursor.readPlain false i ⟨m, c :: r⟩ = (text, ended, after))
    (hlt : after.rest.length < (c :: r).length) :
    (before m (c :: r) T i outer ka).Passes
      { before after.mark after.rest (.scalar text true :: T) i outer ended with
        keys := pending ka T i m } := by
  refine passes_of_step ?_ rfl hlt
  have hsave := saveKey_before m (c :: r) T i outer ka
  have hother := h.other
  have hlead := h.lead
  have hsolid : atGap (c :: r) = false := h.solid
  simp only [String.reduceToList, List.mem_cons, List.not_mem_nil, or_false, not_or] at hother hlead
  unfold step
  rw [toToken_before h.startsToken]
  simp only [bind, Except.bind]
  rw [unwind_of_le (by simp only [before]; omega)]
  simp only [before] at hsave
  have hguard : ∀ d, d = '?' ∨ d = ':' ∨ d = '-' → ¬ (c = d ∧ atGap r = true) := by
    rintro d hd ⟨rfl, hr⟩
    rw [hlead hd] at hr
    cases hr
  have hplain : plainStarts false (c :: r) = true := by
    by_cases hc : c = '?' ∨ c = ':' ∨ c = '-'
    · have hr := hlead hc
      rcases hc with rfl | rfl | rfl <;> simp [plainStarts, hr]
    · simp only [not_or] at hc
      simp [plainStarts, hsolid, hother, hc]
  simp [before, h.noMark, hother, hguard, hplain, readPlainScalar, bind, Except.bind, hsave, hread,
    push, pure, Except.pure]

/-- A quoted scalar. -/
theorem passes_quoted {double : Bool} (hi : i ≤ m.column) {text : String} {after : Cursor}
    (hread : Cursor.readQuoted double ⟨m, quoteMark double :: r⟩ = .ok (text, after))
    (hlt : after.rest.length < r.length + 1) :
    (before m (quoteMark double :: r) T i outer ka).Passes
      { before after.mark after.rest (.scalar text false :: T) i outer false with
        keys := pending ka T i m } := by
  refine passes_of_step ?_ rfl hlt
  have hsave := saveKey_before m (quoteMark double :: r) T i outer ka
  have hstart : StartsToken (quoteMark double :: r) := by
    cases double <;> exact startsToken_indicator (by simp [quoteMark]) (by simp [quoteMark])
  unfold step
  rw [toToken_before hstart]
  simp only [bind, Except.bind]
  rw [unwind_of_le (by simp only [before]; omega)]
  simp only [before] at hsave
  cases double <;>
    simp [quoteMark] at hread hsave <;>
    simp [before, quoteMark, readQuotedScalar, bind, Except.bind, hsave, hread, push, pure, Except.pure]

/-! ### Keys -/

/-- A colon after a scalar on one line, which is its key. -/
theorem passes_simpleKey {m' : Mark} (ho : Opens .mappingStart n i outer T outer' T') (hm : m.column = n)
    (hline : m'.line = m.line) (hindex : m'.index ≤ m.index + 1024) (hcolumn : n ≤ m'.column)
    (hr : atGap r = true) :
    Passes { before m' (':' :: r) (t :: T) i outer false with keys := pending true T i m }
      (before (m'.step ':') r (.value :: t :: .key :: T') n outer' false) := by
  have hle := ho.le
  have hstart : StartsToken (':' :: r) := startsToken_indicator (by simp) (by simp)
  let keyed : Scanner := { before m' (':' :: r) (t :: T) i outer false with keys := pending true T i m }
  have hto : keyed.toToken.dropStaleKeys = .ok keyed := by
    have hskip : keyed.toToken = keyed := by
      simp [toToken, keyed, before, skipGap, isBreak, byteOrderMark]
    rw [hskip]
    have hfresh : ∀ n needed, KeyPlace.isStale ⟨n, needed, m⟩ m' = false := fun _ _ =>
      not_isStale hline hindex
    simp [dropStaleKeys, keyed, before, pending, hfresh]
  have hblock := startBlock_opens (X := [t, .key]) ho
    (u := { cursor := ⟨m', ':' :: r⟩, tokens := t :: .key :: T, indent := i, outer, keyAllowed := false })
    rfl rfl rfl
  have hinsert : insertAfter T.length .key (t :: T) = t :: .key :: T := insertAfter_append [t] T .key
  have hunwind : keyed.unwind keyed.cursor.mark.column = keyed := by
    have hnot : ¬ (m'.column : Int) < i := by omega
    cases outer <;> simp [unwind, keyed, before, endBlocks, hnot]
  refine passes_of_step ?_ rfl (by simp [before])
  unfold step
  rw [hto]
  simp only [bind, Except.bind]
  rw [hunwind]
  simp [keyed, before, hr, readValue, pending, hinsert, hm, hblock, skip, push, pure, Except.pure]

/-! ### The end of the text -/

/-- Where all of a block mapping is read, so is the whole text. -/
theorem tokensOf_of_passes {text : List Char} (m : Mark)
    (h : (before {} text [] (-1) [] true).Passes (before m [] T 0 [-1] true)) :
    tokensOf text = (T.reverse ++ [.blockEnd, .streamEnd], none) := by
  let ended : Scanner :=
    { before m [] (.streamEnd :: .blockEnd :: T) (-1) [] false with done := true }
  have hstep : (before m [] T 0 [-1] true).step = .ok ended := by
    have hlow : ¬ (m.column : Int) < 0 := by omega
    unfold step
    rw [toToken_before startsToken_nil]
    simp only [bind, Except.bind]
    rw [unwind_of_le (by simp only [before]; omega)]
    simp [before, ended, readEnd, unwind, endBlocks, dropKey, push, bind, Except.bind, pure, Except.pure]
  have hend : (before m [] T 0 [-1] true).Completes ended := by
    intro fuel hfuel
    obtain ⟨fuel, rfl⟩ : ∃ f, fuel = f + 1 := ⟨fuel - 1, by omega⟩
    rw [run, hstep]
    rfl
  have hrun := h ended hend (text.length + 2) (by simp [before])
  rw [tokensOf]
  simp only [before] at hrun
  rw [hrun]
  simp [ended, before]

end

end Scanner

end RouteDocs.Yaml
