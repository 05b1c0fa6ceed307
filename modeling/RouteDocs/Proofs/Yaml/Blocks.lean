import RouteDocs.Proofs.Text.Split
import RouteDocs.Proofs.Yaml.Portable

/-!
# RouteDocs.Proofs.Yaml.Blocks — the tokens of a written value

The scanner passes over the lines of a value with the tokens of the value (`valueTokens`).  A piece of a
block is read inside the block (`Inside`), or starts it if it is the first (`Heads`); a stack of pieces is
read piece by piece.
-/

namespace RouteDocs.Yaml

open Scanner

/-- Whether a scalar value is written plain. -/
def isPlainScalar (tag : Tag) (s : List Char) : Bool := plainTag s = tag && allowsPlain s

/-- The token of a scalar value. -/
def scalarTokens (v : Value) : List Token :=
  match scalarText? v with
  | some (tag, s) => [.scalar (String.ofList s) (isPlainScalar tag s)]
  | none => []

mutual

/-- The tokens of a value; a sequence that is `loose` is no block of its own. -/
def valueTokens (loose : Bool) : Value → List Token
  | .list [] => [.flowSequenceStart, .flowSequenceEnd]
  | .list (v :: rest) =>
    if loose then itemTokens (v :: rest)
    else .sequenceStart :: itemTokens (v :: rest) ++ [.blockEnd]
  | .map [] => [.flowMappingStart, .flowMappingEnd]
  | .map (e :: rest) => .mappingStart :: entryTokens (e :: rest) ++ [.blockEnd]
  | v => scalarTokens v

/-- The tokens of the items of a sequence. -/
def itemTokens : List Value → List Token
  | [] => []
  | v :: rest => .blockEntry :: valueTokens false v ++ itemTokens rest

/-- The tokens of the entries of a mapping. -/
def entryTokens : List (Value × Value) → List Token
  | [] => []
  | (k, v) :: rest =>
    .key :: scalarTokens k ++ .value :: valueTokens (isLineKey k) v ++ entryTokens rest

end

/-! ### Pieces of blocks -/

/-- A text at a column, inside a block, is passed over with some tokens. -/
structure Inside (n column : Nat) (t : List Char) (toks : List Token) : Prop where
  allowed : ∀ c ∈ t, isAllowed c = true
  starts : ∀ k r, StartsToken (t ++ (newLine k ++ r))
  reads : ∀ {m : Mark} {o : List Int} {T : List Token} {k : Nat} {r : List Char},
    m.column = column → k ≤ n → StartsToken r →
      (before m (t ++ (newLine k ++ r)) T n o true).Passes
        (before (m.steps (t ++ newLine k)) r (toks.reverse ++ T) n o true)

/-- A text that goes on with a block, or starts it, is passed over with some tokens. -/
structure Heads (start : Token) (n : Nat) (t : List Char) (toks : List Token) : Prop where
  allowed : ∀ c ∈ t, isAllowed c = true
  starts : ∀ k r, StartsToken (t ++ (newLine k ++ r))
  reads : ∀ {m : Mark} {i : Int} {outer outer' : List Int} {T T' : List Token} {k : Nat}
    {r : List Char}, Opens start n i outer T outer' T' → m.column = n → k ≤ n → StartsToken r →
      (before m (t ++ (newLine k ++ r)) T i outer true).Passes
        (before (m.steps (t ++ newLine k)) r (toks.reverse ++ T') n outer' true)

section Pieces

variable {start : Token} {n c : Nat} {t t' : List Char} {toks toks' : List Token}

/-- A whole block inside another one. -/
theorem Heads.inside (h : Heads start c t toks) (hc : n < c) :
    Inside n c t (start :: toks ++ [.blockEnd]) := by
  refine ⟨h.allowed, h.starts, fun {m outer T k r} hm hk hr => ?_⟩
  have hopens : Opens start c (n : Int) outer T (n :: outer) (start :: T) :=
    .start (by omega) outer T
  have hcolumn : (m.steps (t ++ newLine k)).column < c := by
    rw [Mark.steps_append, Mark.column_steps_newLine]
    omega
  have hend := passes_blockEnd (T := toks.reverse ++ start :: T) (i := n) outer hr hcolumn
  refine (h.reads hopens hm (by omega) hr).trans ?_
  simpa using hend

/-- The items of a sequence that is no block of its own. -/
theorem Heads.loose (h : Heads start n t toks) : Inside n n t toks :=
  ⟨h.allowed, h.starts, fun hm hk hr => h.reads (.same _ _) hm hk hr⟩

/-- A piece with another one below it. -/
theorem Heads.append (h : Heads start n t toks) (h' : Inside n n t' toks') :
    Heads start n (t ++ (newLine n ++ t')) (toks ++ toks') := by
  refine ⟨?_, fun k r => ?_, fun {m i outer outer' T T' k r} ho hm hk hr => ?_⟩
  · exact List.forall_mem_append.mpr
      ⟨h.allowed, List.forall_mem_append.mpr ⟨isAllowed_newLine n, h'.allowed⟩⟩
  · simpa using h.starts n (t' ++ (newLine k ++ r))
  · have hcolumn : (m.steps (t ++ newLine n)).column = n := by
      rw [Mark.steps_append, Mark.column_steps_newLine]
    have hfirst := h.reads ho hm (Nat.le_refl n) (h'.starts k r)
    have hsecond := h'.reads (T := toks.reverse ++ T') (o := outer') hcolumn hk hr
    have hboth := hfirst.trans hsecond
    simpa using hboth

/-- What comes after a lead and its space. -/
theorem Inside.after_lead (h : Inside n (n + 2) t toks) {a : Char} {m : Mark} (hm : m.column = n)
    (ha : isBreak a = false ∧ a ≠ byteOrderMark) {outer : List Int} {T : List Token} {k : Nat}
    {r : List Char} (hk : k ≤ n) (hr : StartsToken r) :
    (before (m.step a) (' ' :: (t ++ (newLine k ++ r))) T n outer true).Passes
      (before (m.steps (a :: ' ' :: t ++ newLine k)) r (toks.reverse ++ T) n outer true) := by
  have hcolumn : ((m.step a).step ' ').column = n + 2 := by
    have hspace : ∀ m : Mark, (m.step ' ').column = m.column + 1 := fun _ => rfl
    rw [hspace, Mark.step, ha.1, if_neg Bool.false_ne_true]
    simp [ha.2, hm]
  have hread := h.reads (T := T) (o := outer) hcolumn hk hr
  exact (passes_space (h.starts k r)).trans hread

theorem Inside.allowed_lead {c : Nat} (h : Inside n c t toks) {a : Char} (ha : isAllowed a = true) :
    ∀ c ∈ a :: ' ' :: t, isAllowed c = true :=
  List.forall_mem_cons.mpr ⟨ha, List.forall_mem_cons.mpr ⟨by decide, h.allowed⟩⟩

/-- A hyphen before an item. -/
theorem Inside.item (h : Inside n (n + 2) t toks) :
    Heads .sequenceStart n ('-' :: ' ' :: t) (.blockEntry :: toks) := by
  refine ⟨h.allowed_lead (by decide), fun k r => startsToken_indicator (by simp) (by simp),
    fun {_ _ _ _ _ _ k r} ho hm hk hr => ?_⟩
  have hread := (passes_indicator .entry ho hm (t ++ (newLine k ++ r))).trans
    (h.after_lead hm (by decide) hk hr)
  simpa using hread

/-- A question mark before a key. -/
theorem Inside.key (h : Inside n (n + 2) t toks) :
    Heads .mappingStart n ('?' :: ' ' :: t) (.key :: toks) := by
  refine ⟨h.allowed_lead (by decide), fun k r => startsToken_indicator (by simp) (by simp),
    fun {_ _ _ _ _ _ k r} ho hm hk hr => ?_⟩
  have hread := (passes_indicator .key ho hm (t ++ (newLine k ++ r))).trans (h.after_lead hm (by decide) hk hr)
  simpa using hread

/-- A colon before the value of a key that has lines of its own. -/
theorem Inside.value (h : Inside n (n + 2) t toks) :
    Inside n n (':' :: ' ' :: t) (.value :: toks) := by
  refine ⟨h.allowed_lead (by decide), fun k r => startsToken_indicator (by simp) (by simp),
    fun {m outer T k r} hm hk hr => ?_⟩
  have hcolon := passes_indicator .value (.same outer T) hm (t ++ (newLine k ++ r))
  have hread := hcolon.trans (h.after_lead hm (by decide) hk hr)
  simpa using hread

end Pieces

/-! ### Values without lines of their own -/

section Flat

variable {v : Value} {p : Place} {s : List Char} {n k : Nat} {m : Mark} {outer : List Int}
  {T : List Token} {ka : Bool} {r : List Char} {tag : Tag}

/-- A scalar value is written as a scalar of its type. -/
theorem isScalar_of_portable (hv : IsPortable v) (hscalar : scalarText? v = some (tag, s))
    (hpos : 0 < p.indent) (hlegible : Legible p.indent v)
    (hline : p.isKey = true → isMultiline s = false) :
    IsScalar p.indent (isPlainScalar tag s) s (writeScalar p tag s) := by
  obtain ⟨hne, htag⟩ := scalarText_typed hv hscalar
  by_cases hstr : tag = .str
  · have htext : LegibleText p.indent s := by
      cases v <;> simp_all [scalarText?, Legible]
    exact isScalar_writeScalar hpos hne htag htext hline
  · obtain ⟨hsame, hallowed⟩ := htag hstr
    have hplain : (decide (plainTag s = tag) && allowsPlain s) = true := by simp [hsame, hallowed]
    have hplain' : isPlainScalar tag s = true := hplain
    rw [hplain', writeScalar, if_pos hplain]
    exact .plain hallowed (plainText_writePlain (hne hsame) hallowed p)

theorem flat?_eq_some (hv : IsPortable v) (hs : flat? p v = some s) :
    (∃ tag u, scalarText? v = some (tag, u) ∧ s = writeScalar p tag u) ∨
      (v = .list [] ∧ s = ['[', ']']) ∨ (v = .map [] ∧ s = ['\x7b', '\x7d']) := by
  cases v with
  | null | bool | int | real | str =>
    obtain rfl := Option.some.inj hs
    exact .inl ⟨_, _, rfl, rfl⟩
  | list items =>
    cases items with
    | nil => exact .inr (.inl ⟨rfl, (Option.some.inj hs).symm⟩)
    | cons => cases hs
  | map entries =>
    cases entries with
    | nil => exact .inr (.inr ⟨rfl, (Option.some.inj hs).symm⟩)
    | cons => cases hs
  | bytes | date | moment | tuple | set => exact hv.elim

theorem valueTokens_scalar {u : List Char} (hscalar : scalarText? v = some (tag, u)) (loose : Bool) :
    valueTokens loose v = [.scalar (String.ofList u) (isPlainScalar tag u)] := by
  cases v <;> simp_all [scalarText?, valueTokens, scalarTokens]

/-- An empty flow collection before a lower line. -/
theorem passes_emptyFlow_newLine {a b : Char} {ta tb : Token} (hflow : EmptyFlow a b ta tb)
    (hi : n ≤ m.column) (hcolumn : ka = true → m.column ≠ n) (hr : StartsToken r) :
    (before m (a :: b :: (newLine k ++ r)) T n outer ka).Passes
      (before (m.steps (a :: b :: newLine k)) r (tb :: ta :: T) n outer true) := by
  have hlower : m.line < (((m.step a).step b).steps (newLine k)).line := by
    have hle := Mark.line_le_steps m [a, b]
    have hlt := Mark.line_lt_steps_newLine ((m.step a).step b) k
    simp only [Mark.steps_cons, Mark.steps_nil] at hle
    omega
  refine (passes_emptyFlow hflow (by omega) (newLine k ++ r)).trans
    (passes_pending hr (skipGap_newLine hr k _) ?_ (by simp) ?_ hlower)
  · intro hbom
    exact absurd (Option.some.inj hbom) (by decide)
  · intro hka
    have hne := hcolumn hka
    omega

/-- A scalar or an empty collection before a lower line. -/
theorem passes_flat (outer : List Int) (ka : Bool) (hv : IsPortable v) (hs : flat? p v = some s) (hkey : p.isKey = false)
    (hlegible : Legible p.indent v) (hindent : n < p.indent) (hi : n ≤ m.column)
    (hcolumn : ka = true → m.column ≠ n) (hk : k ≤ n) (hr : StartsToken r) (loose : Bool) :
    (before m (s ++ (newLine k ++ r)) T n outer ka).Passes
      (before (m.steps (s ++ newLine k)) r ((valueTokens loose v).reverse ++ T) n outer true) := by
  rcases flat?_eq_some hv hs with ⟨tag, u, hscalar, rfl⟩ | ⟨rfl, rfl⟩ | ⟨rfl, rfl⟩
  · have hwritten := isScalar_of_portable (p := p) hv hscalar (by omega) hlegible (by simp [hkey])
    rw [valueTokens_scalar hscalar]
    refine passes_scalar hwritten (by omega) (by omega) (by omega) (fun hka => ?_) (by omega) hr
    have hne := hcolumn hka
    omega
  · simpa [valueTokens] using passes_emptyFlow_newLine .sequence hi hcolumn hr
  · simpa [valueTokens] using passes_emptyFlow_newLine .mapping hi hcolumn hr

theorem isAllowed_flat (hv : IsPortable v) (hs : flat? p v = some s) (hkey : p.isKey = false)
    (hpos : 0 < p.indent) (hlegible : Legible p.indent v) : ∀ c ∈ s, isAllowed c = true := by
  rcases flat?_eq_some hv hs with ⟨tag, u, hscalar, rfl⟩ | ⟨rfl, rfl⟩ | ⟨rfl, rfl⟩
  · exact (isScalar_of_portable hv hscalar hpos hlegible (by simp [hkey])).allowed
  · exact List.all_iff_forall_prop.mp (by decide)
  · exact List.all_iff_forall_prop.mp (by decide)

theorem startsToken_flat (hv : IsPortable v) (hs : flat? p v = some s) (hkey : p.isKey = false)
    (hpos : 0 < p.indent) (hlegible : Legible p.indent v) (k : Nat) (r : List Char) :
    StartsToken (s ++ (newLine k ++ r)) := by
  rcases flat?_eq_some hv hs with ⟨tag, u, hscalar, rfl⟩ | ⟨rfl, rfl⟩ | ⟨rfl, rfl⟩
  · exact (isScalar_of_portable hv hscalar hpos hlegible (by simp [hkey])).startsToken (.inr rfl) _
  · exact startsToken_indicator (by simp) (by simp)
  · exact startsToken_indicator (by simp) (by simp)

end Flat

/-! ### Keys on one line -/

section Keyed

variable {n : Nat} {k : String} {v : Value} {s t : List Char} {toks : List Token}

/-- A key on one line. -/
def keyText (n : Nat) (s : String) : List Char :=
  writeScalar { column := n, indent := n + indentStep, isKey := true } .str s.toList

theorem key?_str (n : Nat) (s : String) :
    key? n (.str s) = if isLineKey (.str s) then some (keyText n s) else none := rfl

theorem isMultiline_of_lineKey (h : isLineKey (.str k) = true) : isMultiline k.toList = false := by
  simp only [isLineKey, isSimpleKey, Bool.and_eq_true, Bool.not_eq_true'] at h
  exact h.2

theorem isScalar_keyText (hkey : isLineKey (.str k) = true) (hlegible : LegibleKey (n + indentStep) k) :
    IsScalar (n + indentStep) (isPlainScalar .str k.toList) k.toList (keyText n k) :=
  isScalar_of_portable (v := .str k)
    (p := { column := n, indent := n + indentStep, isKey := true }) trivial rfl (Nat.succ_pos _)
    hlegible.1 fun _ => isMultiline_of_lineKey hkey

/-- A key on one line with what comes after its colon. -/
theorem heads_keyed (hkey : isLineKey (.str k) = true) (hlegible : LegibleKey (n + indentStep) k)
    (hgap : ∀ r, atGap (t ++ r) = true) (ht : ∀ c ∈ t, isAllowed c = true)
    (h : ∀ {m : Mark} {outer : List Int} {T : List Token} {k : Nat} {r : List Char},
      n < m.column → k ≤ n → StartsToken r →
        (before m (t ++ (newLine k ++ r)) T n outer false).Passes
          (before (m.steps (t ++ newLine k)) r (toks.reverse ++ T) n outer true)) :
    Heads .mappingStart n (keyText n k ++ ':' :: t)
      (.key :: scalarTokens (.str k) ++ .value :: toks) := by
  have hscalar := isScalar_keyText hkey hlegible
  have hmulti := isMultiline_of_lineKey hkey
  have hline : ∀ c ∈ keyText n k, isBreak c = false := not_isBreak_writeScalar rfl hmulti
  have hlength : (keyText n k).length ≤ 1024 := by
    have hsame : keyText n k =
        writeScalar { column := 0, indent := 0, isKey := true } .str k.toList :=
      writeScalar_key rfl rfl hmulti
    rw [hsame]
    exact hlegible.2 hkey
  refine ⟨?_, fun j r => ?_, fun {m i outer outer' T T' j r} ho hm hj hr => ?_⟩
  · exact List.forall_mem_append.mpr ⟨hscalar.allowed, List.forall_mem_cons.mpr ⟨by decide, ht⟩⟩
  · simpa using hscalar.startsToken (.inl rfl) (t ++ (newLine j ++ r))
  · have hcolon := passes_keyScalar hscalar (Nat.succ_pos _) hline hlength ho hm
      (by have hle := ho.le; simp only [indentStep]; omega) (hgap (newLine j ++ r))
    have hcolumn : n < (m.steps (keyText n k ++ [':'])).column := by
      have hle := (Mark.steps_of_no_break (m := m) hline).2
      have hstep : ∀ m : Mark, (m.step ':').column = m.column + 1 := fun _ => rfl
      rw [Mark.steps_append, Mark.steps_cons, Mark.steps_nil, hstep]
      omega
    have hread := hcolon.trans (h hcolumn hj hr)
    simpa [scalarTokens, scalarText?] using hread

/-- A value on the line of its key. -/
theorem heads_keyed_flat (hkey : isLineKey (.str k) = true) (hlegible : LegibleKey (n + indentStep) k)
    (hv : IsPortable v) (hvlegible : Legible (n + indentStep) v) {column : Nat}
    (hs : flat? { column, indent := n + indentStep } v = some s) (loose : Bool) :
    Heads .mappingStart n (keyText n k ++ ':' :: ' ' :: s)
      (.key :: scalarTokens (.str k) ++ .value :: valueTokens loose v) := by
  have hallowed := isAllowed_flat hv hs rfl (Nat.succ_pos _) hvlegible
  refine heads_keyed hkey hlegible (fun _ => rfl)
    (List.forall_mem_cons.mpr ⟨by decide, hallowed⟩) fun {m outer T j r} hm hj hr => ?_
  have hstarts := startsToken_flat hv hs rfl (Nat.succ_pos _) hvlegible j r
  have hflat := passes_flat (m := m.step ' ') (T := T) (n := n) outer false hv hs rfl
    hvlegible (by simp only [indentStep]; omega)
    (by have hstep : (m.step ' ').column = m.column + 1 := rfl; omega) nofun hj hr loose
  exact (passes_space hstarts).trans hflat

/-- A value below its key. -/
theorem heads_keyed_block (hkey : isLineKey (.str k) = true) (hlegible : LegibleKey (n + indentStep) k)
    {c : Nat} (h : Inside n c t toks) :
    Heads .mappingStart n (keyText n k ++ ':' :: (newLine c ++ t))
      (.key :: scalarTokens (.str k) ++ .value :: toks) := by
  refine heads_keyed hkey hlegible (fun _ => rfl)
    (List.forall_mem_append.mpr ⟨isAllowed_newLine c, h.allowed⟩) fun {m outer T j r} hm hj hr => ?_
  have hbelow := h.reads (m := m.steps (newLine c)) (T := T) (o := outer) (by simp) hj hr
  have hline := passes_newLine (m := m) (T := T) (i := n) outer false (h.starts j r) c
  have hread := hline.trans hbelow
  simpa using hread

end Keyed

/-! ### Values -/

/-- What comes after a lead. -/
def ledText (n : Nat) (v : Value) : List Char :=
  match flat? { column := n + indentStep, indent := n + indentStep } v with
  | some s => s
  | none => block (n + indentStep) v

/-- What comes after the colon of a key on one line. -/
def keyedText (key : List Char) (n : Nat) (v : Value) : List Char :=
  match flat? { column := n + key.length + 2, indent := n + indentStep } v with
  | some s => ' ' :: s
  | none => newLine (valueIndent n v) ++ block (valueIndent n v) v

section Pieces

variable {start : Token} {n : Nat} {v : Value} {bs cs : List (List Char)} {toks toks' : List Token}

theorem blockMark_eq_nil (hv : IsPortable v) : blockMark v = [] := by
  cases v with
  | set => exact hv.elim
  | _ => rfl

theorem led_eq (hv : IsPortable v) (lead : Char) (n : Nat) :
    led lead n v (block (n + indentStep) v) = lead :: ' ' :: ledText n v := by
  simp only [led, ledText, blockMark_eq_nil hv]
  cases flat? { column := n + indentStep, indent := n + indentStep } v <;> rfl

theorem keyed_eq (hv : IsPortable v) (key : List Char) (n : Nat) :
    keyed key n v (block (valueIndent n v) v) = key ++ ':' :: keyedText key n v := by
  simp only [keyed, keyedText, blockMark_eq_nil hv]
  cases flat? { column := n + key.length + 2, indent := n + indentStep } v <;> simp

theorem stack_append (hbs : bs ≠ []) (hcs : cs ≠ []) :
    stack n (bs ++ cs) = stack n bs ++ (newLine n ++ stack n cs) := by
  rw [stack, Text.joinWith_append hbs hcs, List.append_assoc]

/-- The first pieces of a block, and the others if there are any. -/
theorem Heads.stack_append (bs : List (List Char)) (toks : List Token) (h : Heads start n (stack n bs) toks) (hbs : bs ≠ [])
    (h' : cs ≠ [] → Heads start n (stack n cs) toks') (hnil : cs = [] → toks' = []) :
    Heads start n (stack n (bs ++ cs)) (toks ++ toks') := by
  by_cases hcs : cs = []
  · rw [hnil hcs, hcs, List.append_nil, List.append_nil]
    exact h
  · rw [Yaml.stack_append hbs hcs]
    exact h.append (h' hcs).loose

/-- A scalar or an empty collection after a lead. -/
theorem inside_flat (hv : IsPortable v) (hl : Legible (n + indentStep) v) {s : List Char}
    (hs : flat? { column := n + indentStep, indent := n + indentStep } v = some s) :
    Inside n (n + 2) (ledText n v) (valueTokens false v) := by
  rw [ledText, hs]
  refine ⟨isAllowed_flat hv hs rfl (Nat.succ_pos _) hl, startsToken_flat hv hs rfl (Nat.succ_pos _) hl,
    fun hm hk hr => ?_⟩
  exact passes_flat _ _ hv hs rfl hl (by simp only [indentStep]; omega) (by omega) (fun _ => by omega) hk hr
    false

/-- A value on the line of its key has the indentation of a value after a lead. -/
theorem legible_of_flat {p : Place} {s : List Char} (hs : flat? p v = some s)
    (hl : Legible (valueIndent n v) v) : Legible (n + indentStep) v := by
  cases v with
  | list items =>
    cases items with
    | nil => trivial
    | cons => cases hs
  | _ => exact hl

/-- An entry is one piece, or two if its key has lines of its own. -/
theorem entryBlocks_cons {k : String} (hv : IsPortable v) (rest : List (Value × Value)) :
    entryBlocks n ((.str k, v) :: rest) =
      (if isLineKey (.str k) then [keyText n k ++ ':' :: keyedText (keyText n k) n v]
        else ['?' :: ' ' :: ledText n (.str k), ':' :: ' ' :: ledText n v]) ++ entryBlocks n rest := by
  have hkey : IsPortable (.str k) := trivial
  rw [entryBlocks, key?_str, led_eq hkey, led_eq hv]
  cases isLineKey (.str k) with
  | true => simp only [if_true, keyed_eq hv]
  | false => rfl

end Pieces

mutual

/-- The tokens of a value after a lead. -/
theorem inside_ledText : (v : Value) → (n : Nat) → IsPortable v → Legible (n + indentStep) v →
    Inside n (n + 2) (ledText n v) (valueTokens false v)
  | .list (v :: rest), n, hv, hl =>
    (heads_items (v :: rest) (n + 2) (List.cons_ne_nil v rest) hv hl).inside (by omega)
  | .map (e :: rest), n, hv, hl =>
    (heads_entries (e :: rest) (n + 2) (List.cons_ne_nil e rest) hv.1 hl).inside (by omega)
  | .null, _, hv, hl | .bool _, _, hv, hl | .int _, _, hv, hl | .real _, _, hv, hl | .str _, _, hv, hl
  | .list [], _, hv, hl | .map [], _, hv, hl => inside_flat hv hl rfl

/-- The tokens of a value below its key. -/
theorem inside_below : (v : Value) → (n : Nat) → IsPortable v → Legible (valueIndent n v) v →
    (p : Place) → flat? p v = none →
    Inside n (valueIndent n v) (block (valueIndent n v) v) (valueTokens true v)
  | .list (v :: rest), n, hv, hl, _, _ =>
    (heads_items (v :: rest) n (List.cons_ne_nil v rest) hv hl).loose
  | .map (e :: rest), n, hv, hl, _, _ =>
    (heads_entries (e :: rest) (n + 2) (List.cons_ne_nil e rest) hv.1 hl).inside (by omega)
  | .null, _, _, _, _, h | .bool _, _, _, _, _, h | .int _, _, _, _, _, h | .real _, _, _, _, _, h
  | .str _, _, _, _, _, h | .list [], _, _, _, _, h | .map [], _, _, _, _, h => nomatch h

/-- The tokens of the items of a sequence. -/
theorem heads_items : (items : List Value) → (n : Nat) → items ≠ [] → ArePortable items →
    LegibleItems n items → Heads .sequenceStart n (stack n (itemBlocks n items)) (itemTokens items)
  | [], _, hne, _, _ => absurd rfl hne
  | v :: rest, n, _, hv, hl => by
    have hitem := (inside_ledText v n hv.1 hl.1).item
    rw [← led_eq hv.1] at hitem
    refine Heads.stack_append [_] _ hitem (List.cons_ne_nil _ _) (fun hne => ?_) fun hnil => ?_
    · refine heads_items rest n ?_ hv.2 hl.2
      rintro rfl
      exact hne rfl
    · cases rest with
      | nil => rfl
      | cons => cases hnil

/-- The tokens of the entries of a mapping. -/
theorem heads_entries : (entries : List (Value × Value)) → (n : Nat) → entries ≠ [] →
    ArePortableEntries entries → LegibleEntries n entries →
    Heads .mappingStart n (stack n (entryBlocks n entries)) (entryTokens entries)
  | [], _, hne, _, _ => absurd rfl hne
  | (k, v) :: rest, n, _, ⟨hk, hv, hrest⟩, ⟨hkey, hl, hlrest⟩ => by
    obtain ⟨k, rfl⟩ := hk
    have hkey := hkey k rfl
    rw [entryBlocks_cons hv]
    refine Heads.stack_append _ (.key :: scalarTokens (.str k) ++
      .value :: valueTokens (isLineKey (.str k)) v) ?_ (by split <;> simp) (fun hne => ?_) fun hnil => ?_
    · cases hline : isLineKey (.str k) with
      | true =>
        rw [entryIndent, hline, if_pos rfl] at hl
        rw [if_pos rfl, keyedText]
        cases hs : flat? { column := n + (keyText n k).length + 2, indent := n + indentStep } v with
        | none => exact heads_keyed_block hline hkey (inside_below v n hv hl _ hs)
        | some s => exact heads_keyed_flat hline hkey hv (legible_of_flat hs hl) hs true
      | false =>
        rw [entryIndent, hline, if_neg Bool.false_ne_true] at hl
        rw [if_neg Bool.false_ne_true]
        have hlead : Inside n (n + 2) (ledText n (.str k)) (scalarTokens (.str k)) :=
          inside_flat trivial hkey.1 rfl
        have hboth := hlead.key.append (inside_ledText v n hv hl).value
        simpa [stack, Text.joinWith] using hboth
    · refine heads_entries rest n ?_ hrest hlrest
      rintro rfl
      exact hne rfl
    · cases rest with
      | nil => rfl
      | cons e rest =>
        exfalso
        obtain ⟨k', v'⟩ := e
        revert hnil
        unfold entryBlocks
        split <;> simp

end

/-- A mapping as a document is read as its tokens. -/
theorem tokensOf_documentText {e : Value × Value} {rest : List (Value × Value)}
    (hv : IsPortable (.map (e :: rest))) (hl : Legible 0 (.map (e :: rest))) :
    (∀ c ∈ documentText (.map (e :: rest)), isAllowed c = true) ∧
      tokensOf (documentText (.map (e :: rest))) =
        (valueTokens false (.map (e :: rest)) ++ [.streamEnd], none) := by
  have hentries := heads_entries (e :: rest) 0 (List.cons_ne_nil e rest) hv.1 hl
  have htext : documentText (.map (e :: rest)) =
      stack 0 (entryBlocks 0 (e :: rest)) ++ (newLine 0 ++ []) := by
    simp [documentText, flat?, scalarText?, blockMark, block, newLine, spaces]
  have hopens : Opens .mappingStart 0 (-1) [] [] [-1] [.mappingStart] := .start (by omega) [] []
  have hread := hentries.reads (m := {}) hopens rfl (Nat.le_refl 0) startsToken_nil
  rw [htext]
  refine ⟨List.forall_mem_append.mpr ⟨hentries.allowed, List.all_iff_forall_prop.mp (by decide)⟩, ?_⟩
  rw [tokensOf_of_passes _ hread]
  simp [valueTokens]

end RouteDocs.Yaml
