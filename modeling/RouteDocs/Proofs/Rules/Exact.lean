import RouteDocs.Proofs.Rules.Bounds
import RouteDocs.Proofs.Rules.Marks
import RouteDocs.Proofs.Text.Split

/-!
# RouteDocs.Proofs.Rules.Exact — the constraints of a field, told from its rules

The allowed values are those of the first rule that lists any, and a bound is that of the last rule with a
number that counts for the type of the field.  `Constraints.Exact` says so of constraints without a look
at how rules are read, and those of a field are exact unless a bound is too long (`exists_exact`).
-/

namespace RouteDocs

open Text Decimal

/-! ### First and last members -/

/-- What a relation gives for the first member of a list for which it gives anything. -/
inductive FirstOf {α β : Type} (P : α → β → Prop) : List α → Option β → Prop
  | none {xs : List α} : (∀ x ∈ xs, ∀ b, ¬ P x b) → FirstOf P xs none
  | some {before after : List α} {x : α} {b : β} : (∀ y ∈ before, ∀ b, ¬ P y b) → P x b →
    FirstOf P (before ++ x :: after) (some b)

/-- What a relation gives for the last member of a list for which it gives anything. -/
def LastOf {α β : Type} (P : α → β → Prop) (xs : List α) : Option β → Prop := FirstOf P xs.reverse

section Members

variable {α β : Type} {P : α → β → Prop} {xs : List α} {x : α} {o o' : Option β}

theorem FirstOf.cons (hx : ∀ b, o = .some b ↔ P x b) (h : FirstOf P xs o') :
    FirstOf P (x :: xs) (o.or o') := by
  cases o with
  | some b =>
    have hfirst : FirstOf P ([] ++ x :: xs) (Option.some b) :=
      .some (List.forall_mem_nil _) ((hx b).mp rfl)
    exact hfirst
  | none =>
    have hnone : ∀ b, ¬ P x b := fun b hb => nomatch (hx b).mpr hb
    cases h with
    | none hxs => exact .none (List.forall_mem_cons.mpr ⟨hnone, hxs⟩)
    | @some before after y b hbefore hb =>
      have hlater : FirstOf P ((x :: before) ++ y :: after) (Option.some b) :=
        .some (List.forall_mem_cons.mpr ⟨hnone, hbefore⟩) hb
      exact hlater

theorem FirstOf.concat (h : FirstOf P xs o) (hx : ∀ b, o' = .some b ↔ P x b) :
    FirstOf P (xs ++ [x]) (o.or o') := by
  cases h with
  | some hbefore hb =>
    rw [List.append_assoc]
    exact .some hbefore hb
  | none hxs =>
    cases o' with
    | some b => exact .some hxs ((hx b).mp rfl)
    | none =>
      refine .none (List.forall_mem_append.mpr ⟨hxs, ?_⟩)
      intro y hy b hb
      obtain rfl := List.mem_singleton.mp hy
      cases (hx b).mpr hb

theorem LastOf.cons (hx : ∀ b, o' = some b ↔ P x b) (h : LastOf P xs o) :
    LastOf P (x :: xs) (o.or o') := by
  rw [LastOf, List.reverse_cons]
  exact h.concat hx

/-- The first result of a partial function on a list. -/
theorem firstOf_filterMap {f : α → Option β} (hf : ∀ x b, f x = some b ↔ P x b) (xs : List α) :
    FirstOf P xs (xs.filterMap f).head? := by
  induction xs with
  | nil => exact .none (List.forall_mem_nil _)
  | cons x xs ih =>
    have hcons := ih.cons (hf x)
    cases hx : f x with
    | none => simpa [List.filterMap_cons, hx] using hcons
    | some b => simpa [List.filterMap_cons, hx] using hcons

end Members

/-! ### Bounds -/

/-- Decimal digits of any script, at least one. -/
structure IsDigits (s : List Char) : Prop where
  ne_nil : s ≠ []
  decimal : ∀ c ∈ s, isDecimalDigit c = true

/-- What a text says as a bound for a field of a type: a whole number, or for a number one with digits
after a point, as the double nearest to it. -/
inductive BoundText (type : FieldType) (text : String) : Number → Prop
  | whole {sign ds : List Char} : IsSign sign → IsDigits ds → trim text.toList = sign ++ ds →
    BoundText type text (.int (if sign = ['-'] then -(digitsNumber ds : ℤ) else digitsNumber ds))
  | fractional {sign ds fraction : List Char} : type = .number → IsSign sign → IsDigits ds →
    IsDigits fraction → trim text.toList = sign ++ ds ++ '.' :: fraction →
    BoundText type text (.real (Real64.ofDecimal (decide (sign = ['-'])) (digitsNumber (ds ++ fraction))
      (-fraction.length)))

/-- A rule that gives a bound after a mark. -/
def GivesBound (mark : String) (type : FieldType) (r : Rule) (n : Number) : Prop :=
  ∃ tail, r.Marked mark tail ∧ BoundText type tail n

section Bounds

variable {type : FieldType} {text mark : String} {n : Number} {rules : List Rule}

theorem readBound_of_boundText (h : BoundText type text n) (hlong : ¬ LongBound text) :
    readBound type text = .ok (some n) := by
  unfold readBound
  cases h with
  | @whole sign ds hsign hd htrim =>
    have hshape := numberShape_digits hsign hd.ne_nil hd.decimal
    have hlength : ds.length ≤ maxDigits := by
      rw [LongBound, htrim, hshape, countP_isDecimalDigit hsign hd.decimal] at hlong
      simpa using hlong
    have hread := readInt?_digits hsign hd.ne_nil hd.decimal ((trim_trim text.toList).trans htrim)
    dsimp only
    rw [htrim, hshape, ← htrim, hread, if_pos hlength]
  | @fractional sign ds fraction htype hsign hd hf htrim =>
    have hshape := numberShape_fraction hsign hd.ne_nil hd.decimal hf.ne_nil hf.decimal
    have hread := readReal?_fraction hsign hd.ne_nil hd.decimal hf.decimal
      ((trim_trim text.toList).trans htrim)
    dsimp only
    rw [htrim, hshape, ← htrim, hread, if_pos htype]
    rfl

theorem boundText_of_readBound (h : readBound type text = .ok (some n)) : BoundText type text n := by
  unfold readBound at h
  dsimp only at h
  cases hshape : numberShape (trim text.toList) with
  | none =>
    rw [hshape] at h
    cases h
  | whole =>
    obtain ⟨sign, ds, hsign, hne, hd, htrim⟩ := exists_digits_of_whole hshape
    rw [hshape, readInt?_digits hsign hne hd ((trim_trim text.toList).trans htrim)] at h
    by_cases hlength : ds.length ≤ maxDigits
    · rw [if_pos hlength] at h
      obtain rfl := Option.some.inj (Except.ok.inj h)
      exact .whole hsign ⟨hne, hd⟩ htrim
    · rw [if_neg hlength] at h
      cases h
  | fractional =>
    obtain ⟨sign, ds, fraction, hsign, hne, hd, hnef, hf, htrim⟩ := exists_digits_of_fractional hshape
    rw [hshape, readReal?_fraction hsign hne hd hf ((trim_trim text.toList).trans htrim)] at h
    obtain ⟨htype, hn⟩ := Option.ite_none_right_eq_some.mp (Except.ok.inj h)
    rw [← Option.some.inj hn]
    exact .fractional htype hsign ⟨hne, hd⟩ ⟨hnef, hf⟩ htrim

/-- A text that is not too long is read as the bound that it says. -/
theorem exists_readBound (type : FieldType) (h : ¬ LongBound text) :
    ∃ o, readBound type text = .ok o ∧ ∀ n, o = some n ↔ BoundText type text n := by
  obtain ⟨o, ho⟩ := (judged_readBound type text).exists_ok_iff.mpr (by simpa using h)
  refine ⟨o, ho, fun n => ⟨?_, fun hn => ?_⟩⟩
  · rintro rfl
    exact boundText_of_readBound ho
  · exact Except.ok.inj (ho.symm.trans (readBound_of_boundText hn h))

/-- Of the rules with a mark, the last one with a bound gives it. -/
theorem exists_lastBound (hmark : IsMark mark) (type : FieldType)
    (h : ∀ t ∈ ruleValues rules mark, ¬ LongBound t) :
    ∃ o, lastBound type (ruleValues rules mark) = .ok o ∧ LastOf (GivesBound mark type) rules o := by
  induction rules with
  | nil => exact ⟨none, rfl, .none (List.forall_mem_nil _)⟩
  | cons r rules ih =>
    unfold ruleValues at h ih ⊢
    cases hr : r.tail? mark with
    | none =>
      rw [List.filterMap_cons_none hr] at h ⊢
      obtain ⟨later, hlater, hlast⟩ := ih h
      have hnone : ∀ n, none = some n ↔ GivesBound mark type r n := by
        refine fun n => iff_of_false nofun ?_
        rintro ⟨tail, htail, -⟩
        rw [← tail?_eq_some_iff hmark, hr] at htail
        cases htail
      have hcons := hlast.cons hnone
      rw [Option.or_none] at hcons
      exact ⟨later, hlater, hcons⟩
    | some tail =>
      rw [List.filterMap_cons_some hr] at h ⊢
      obtain ⟨hfits, hrest⟩ := List.forall_mem_cons.mp h
      obtain ⟨later, hlater, hlast⟩ := ih hrest
      obtain ⟨bound, hbound, hiff⟩ := exists_readBound type hfits
      have hgives : ∀ n, bound = some n ↔ GivesBound mark type r n := by
        intro n
        rw [hiff n]
        constructor
        · exact fun hn => ⟨tail, (tail?_eq_some_iff hmark).mp hr, hn⟩
        · rintro ⟨tail', htail', hn⟩
          rw [← tail?_eq_some_iff hmark, hr] at htail'
          rwa [Option.some.inj htail']
      refine ⟨later.or bound, ?_, hlast.cons hgives⟩
      rw [lastBound, hbound, hlater]
      rfl

end Bounds

/-! ### Allowed values -/

/-- The texts between the commas of a text. -/
structure IsCommaSplit (text : String) (values : List String) : Prop where
  ne_nil : values ≠ []
  no_comma : ∀ v ∈ values, ',' ∉ v.toList
  join : ",".intercalate values = text

/-- The values of a list are the texts between its commas. -/
theorem isCommaSplit_pieces (text : String) : IsCommaSplit text (pieces ',' text) := by
  refine ⟨?_, ?_, ?_⟩
  · rw [pieces, ne_eq, List.map_eq_nil_iff]
    exact splitAt_ne_nil ',' text.toList
  · intro v hv
    obtain ⟨p, hp, rfl⟩ := List.mem_map.mp hv
    rw [String.toList_ofList]
    exact not_mem_of_mem_splitAt hp
  · have hpieces : (pieces ',' text).map String.toList = splitAt ',' text.toList := by
      simp [pieces, Function.comp_def]
    rw [← String.toList_inj, String.toList_intercalate, hpieces, ← joinWith_eq_intercalate]
    exact joinWith_splitAt ',' text.toList

/-! ### Constraints -/

/-- The constraints that rules put on a field of a type, told from the rules alone. -/
structure Constraints.Exact (c : Constraints) (rules : List Rule) (type : FieldType) : Prop where
  required : c.required = true ↔ ∃ r ∈ rules, lowered r.text = "required"
  nullable : c.nullable = true ↔ ∃ r ∈ rules, lowered r.text = "nullable"
  flags : type = .boolean → c.enum = some [.int 0, .int 1]
  allowed : type ≠ .boolean → ∃ tail?, FirstOf (Rule.Marked "in:") rules tail? ∧
    match tail? with
    | none => c.enum = none
    | some tail => ∃ values, IsCommaSplit tail values ∧ c.enum = some (values.map .str)
  low : ∃ low, LastOf (GivesBound "min:" type) rules low ∧
    c.minLength = (if type = .string then low else none) ∧
    c.minimum = (if type = .integer ∨ type = .number then low else none)
  high : ∃ high, LastOf (GivesBound "max:" type) rules high ∧
    c.maxLength = (if type = .string then high else none) ∧
    c.maximum = (if type = .integer ∨ type = .number then high else none)

section Exactness

variable {type : FieldType} {spec : Value} {mark : String}

/-- The rules of a spec have no bound of too many digits. -/
def FitsDigits (spec : Value) : Prop :=
  ∀ mark ∈ ["min:", "max:"], ∀ r ∈ rulesOf spec, ∀ tail, r.Marked mark tail →
    ∀ sign ds, IsSign sign → IsDigits ds → trim tail.toList = sign ++ ds → ds.length ≤ maxDigits

theorem isMark_in : IsMark "in:" := ⟨"in".toList, rfl, by simp⟩

theorem isMark_min : IsMark "min:" := ⟨"min".toList, rfl, by simp⟩

theorem isMark_max : IsMark "max:" := ⟨"max".toList, rfl, by simp⟩

/-- That is so if none of the texts of its bounds is too long. -/
theorem fitsDigits_iff : FitsDigits spec ↔
    ∀ mark ∈ ["min:", "max:"], ∀ t ∈ ruleValues (rulesOf spec) mark, ¬ LongBound t := by
  have hmarks : ∀ mark ∈ ["min:", "max:"], IsMark mark :=
    List.forall_mem_cons.mpr ⟨isMark_min, List.forall_mem_singleton.mpr isMark_max⟩
  refine forall₂_congr fun mark hmem => ?_
  have hmark := hmarks mark hmem
  constructor
  · rintro h t ht ⟨hshape, hlong⟩
    obtain ⟨r, hr, htail⟩ := List.mem_filterMap.mp ht
    obtain ⟨sign, ds, hsign, hne, hd, htrim⟩ := exists_digits_of_whole hshape
    rw [htrim, countP_isDecimalDigit hsign hd] at hlong
    have hfits := h r hr t ((tail?_eq_some_iff hmark).mp htail) sign ds hsign ⟨hne, hd⟩ htrim
    exact absurd hlong (Nat.not_lt.mpr hfits)
  · intro h r hr tail htail sign ds hsign hd htrim
    have hmem := List.mem_filterMap.mpr ⟨r, hr, (tail?_eq_some_iff hmark).mpr htail⟩
    have hshort := h tail hmem
    rw [LongBound, htrim, countP_isDecimalDigit hsign hd.decimal,
      numberShape_digits hsign hd.ne_nil hd.decimal] at hshort
    simpa using hshort

theorem enumOf_boolean (rules : List Rule) : enumOf .boolean rules = some [.int 0, .int 1] := rfl

/-- The allowed values of any other type are those of the first rule that lists some. -/
theorem exists_enumOf (rules : List Rule) (htype : type ≠ .boolean) :
    ∃ tail?, FirstOf (Rule.Marked "in:") rules tail? ∧
      match tail? with
      | none => enumOf type rules = none
      | some tail => ∃ values, IsCommaSplit tail values ∧ enumOf type rules = some (values.map .str) := by
  refine ⟨_, firstOf_filterMap (fun _ _ => tail?_eq_some_iff isMark_in) rules, ?_⟩
  rw [enumOf, if_neg htype, ruleValues]
  cases rules.filterMap (Rule.tail? "in:") with
  | nil => rfl
  | cons tail _ => exact ⟨_, isCommaSplit_pieces tail, rfl⟩

/-- **The constraints of a field are exact.**  A rule stands for nothing but what it says: the constraints
are told from the words among the rules, the first list of values and the last bounds that count. -/
theorem exists_exact (spec : Value) (type : FieldType) (h : FitsDigits spec) :
    ∃ c, constraintsOf (rulesOf spec) type = .ok c ∧ c.Exact (rulesOf spec) type := by
  have hshort := fitsDigits_iff.mp h
  obtain ⟨low, hlow, hlast⟩ := exists_lastBound isMark_min type (hshort "min:" (by simp))
  obtain ⟨high, hhigh, hlast'⟩ := exists_lastBound isMark_max type (hshort "max:" (by simp))
  unfold constraintsOf
  rw [hlow, hhigh]
  refine ⟨_, rfl, ?_⟩
  exact {
    required := hasRule_iff
    nullable := hasRule_iff
    flags := by
      rintro rfl
      exact enumOf_boolean (rulesOf spec)
    allowed := exists_enumOf _
    low := ⟨low, hlast, by simp⟩
    high := ⟨high, hlast', by simp⟩ }

/-- The last lower bound of a text that is a whole number counts, whatever the case of its mark. -/
theorem exists_exact_code :
    ∃ c, constraintsOf (rulesOf (.str "Required|min:3|MIN: 10 |min:x|In:A,b|in:c")) .string = .ok c ∧
      c = { required := true, enum := some [.str "A", .str "b"], minLength := some (.int 10) } ∧
      c.Exact (rulesOf (.str "Required|min:3|MIN: 10 |min:x|In:A,b|in:c")) .string := by
  have hfits : FitsDigits (.str "Required|min:3|MIN: 10 |min:x|In:A,b|in:c") :=
    fitsDigits_iff.mpr (by decide)
  obtain ⟨c, hc, hexact⟩ :=
    exists_exact (.str "Required|min:3|MIN: 10 |min:x|In:A,b|in:c") .string hfits
  have hvalue : constraintsOf (rulesOf (.str "Required|min:3|MIN: 10 |min:x|In:A,b|in:c")) .string =
      .ok { required := true, enum := some [.str "A", .str "b"], minLength := some (.int 10) } := rfl
  exact ⟨c, hc, (Except.ok.inj (hvalue.symm.trans hc)).symm, hexact⟩

end Exactness

end RouteDocs
