import Mathlib.Logic.Relation
import RouteDocs.Proofs.Schema.Spelling
import RouteDocs.Proofs.Text.Split

/-!
# RouteDocs.Proofs.Schema.Forms — the forms of a rule spec

A rule spec may be a text with bars between the rules or a list of them, may have items that are no texts,
and may be the list of the rules that were read from another one.  All these forms have the same rules
(`SameForms.rulesOf_eq`), so a rule set compiles to the same body whichever of them its specs have
(`rulesOf_forms`).
-/

namespace RouteDocs

open Text

/-! ### Items that are texts -/

/-- Whether a value is a text. -/
def Value.isText : Value → Bool
  | .str _ => true
  | _ => false

section Forms

variable {spec spec' : Value} {texts : List String} {r : Rule} {s : List Char}

theorem specTexts_texts (texts : List String) :
    specTexts (.list (texts.map .str)) = texts.map String.toList := by
  simp [specTexts, List.filterMap_map]

/-- Texts without bars are what a text is cut into at the bars between them. -/
theorem specTexts_joined (hbars : ∀ t ∈ texts, '|' ∉ t.toList) (hne : texts ≠ []) :
    specTexts (.str ("|".intercalate texts)) = texts.map String.toList := by
  have hpieces : ∀ p ∈ texts.map String.toList, '|' ∉ p := by
    intro p hp
    obtain ⟨t, ht, rfl⟩ := List.mem_map.mp hp
    exact hbars t ht
  rw [specTexts, splitAt_eq_splitOn, String.toList_intercalate]
  exact List.splitOn_intercalate '|' hpieces (by simpa using hne)

/-- A list of texts without bars and the text with bars between them have the same rules. -/
theorem rulesOf_joined (hbars : ∀ t ∈ texts, '|' ∉ t.toList) :
    rulesOf (.str ("|".intercalate texts)) = rulesOf (.list (texts.map .str)) := by
  by_cases hne : texts = []
  · -- the empty text is cut into one piece, which is blank
    rw [hne]
    rfl
  · rw [rulesOf, rulesOf, specTexts_joined hbars hne, specTexts_texts]

/-- Items that are no texts hold no rules. -/
theorem rulesOf_filter_isText (items : List Value) :
    rulesOf (.list (items.filter Value.isText)) = rulesOf (.list items) := by
  rw [rulesOf_list, rulesOf_list, List.filterMap_filter]
  congr 1
  funext v
  cases v <;> rfl

/-- A rule is read from its own text as it is. -/
theorem ofText?_text (h : Rule.ofText? s = some r) : Rule.ofText? r.text.toList = some r := by
  rw [ofText?_eq] at h
  obtain ⟨hne, hr⟩ := Option.ite_none_left_eq_some.mp h
  obtain rfl := Option.some.inj hr
  rw [String.toList_ofList, ofText?_eq, trim_trim, if_neg hne]

/-- The list of the rules of a spec as texts. -/
def ruleTexts (spec : Value) : Value := .list ((rulesOf spec).map fun r => .str r.text)

theorem rulesOf_ruleTexts (spec : Value) : rulesOf (ruleTexts spec) = rulesOf spec := by
  rw [ruleTexts, rulesOf_list, List.filterMap_map]
  have hself : ∀ r ∈ rulesOf spec, (ruleOf? ∘ fun r => .str r.text) r = some r := by
    intro r hr
    obtain ⟨s, -, hs⟩ := List.mem_filterMap.mp hr
    exact ofText?_text hs
  rw [List.filterMap_congr hself, List.filterMap_some]

/-! ### Specs in another form -/

/-- A rule spec and another form of it. -/
inductive OtherForm : Value → Value → Prop
  | joined {texts : List String} (hbars : ∀ t ∈ texts, '|' ∉ t.toList) :
    OtherForm (.str ("|".intercalate texts)) (.list (texts.map .str))
  | texts (items : List Value) : OtherForm (.list items) (.list (items.filter Value.isText))
  | read (spec : Value) : OtherForm spec (ruleTexts spec)

theorem OtherForm.rulesOf_eq (h : OtherForm spec spec') : rulesOf spec = rulesOf spec' := by
  cases h with
  | joined hbars => exact rulesOf_joined hbars
  | texts items => exact (rulesOf_filter_isText items).symm
  | read spec => exact (rulesOf_ruleTexts spec).symm

/-- Two specs are forms of one another, with any number of forms between them. -/
def SameForms : Value → Value → Prop := Relation.EqvGen OtherForm

theorem SameForms.rulesOf_eq (h : SameForms spec spec') : rulesOf spec = rulesOf spec' := by
  induction h with
  | rel spec spec' h => exact h.rulesOf_eq
  | refl spec => rfl
  | symm spec spec' _ ih => exact ih.symm
  | trans spec spec' spec'' _ _ ih ih' => exact ih.trans ih'

end Forms

namespace Schema

/-- A rule set with its specs in other forms. -/
def Reformed (rules rules' : RuleSet) : Prop :=
  List.Forall₂ (fun r r' => r.1 = r'.1 ∧ SameForms r.2 r'.2) rules rules'

theorem compile_congr {rules rules' : RuleSet} (h : Reformed rules rules') :
    compile rules = compile rules' := by
  refine addFields_congr {} (h.imp fun r r' hr => ⟨hr.1, ?_⟩)
  rw [hr.2.rulesOf_eq]
  exact .refl _

/-- **The forms of a rule spec are equivalent.**  Texts without bars give the same rules as a list and as
one text with bars between them, items of a list that are no texts give none, and the rules that were read
are read again as they are; so the form of its specs does not matter to what a rule set compiles to. -/
theorem rulesOf_forms (texts : List String) (items : List Value) (spec : Value)
    (rules rules' : RuleSet) :
    ((∀ t ∈ texts, '|' ∉ t.toList) →
      rulesOf (.str ("|".intercalate texts)) = rulesOf (.list (texts.map .str))) ∧
    rulesOf (.list items) = rulesOf (.list (items.filter Value.isText)) ∧
    rulesOf (.list ((rulesOf spec).map fun r => .str r.text)) = rulesOf spec ∧
    (Reformed rules rules' → compile rules = compile rules') :=
  ⟨rulesOf_joined, (rulesOf_filter_isText items).symm, rulesOf_ruleTexts spec, compile_congr⟩

/-- A code in two forms: a text with blanks and an empty rule, and a list with an item that is no text. -/
theorem rulesOf_forms_code :
    let texts := ["required", " min:3 ", ""]
    let items : List Value := [.str "required", .int 5, .str "min:3"]
    (∀ t ∈ texts, '|' ∉ t.toList) ∧
      Reformed [("code", .str "required| min:3 |")] [("code", .list items)] ∧
      rulesOf (.str "required| min:3 |") = [⟨"required"⟩, ⟨"min:3"⟩] ∧
      rulesOf (.list (texts.map .str)) = [⟨"required"⟩, ⟨"min:3"⟩] ∧
      compile [("code", .str "required| min:3 |")] = compile [("code", .list items)] := by
  intro texts items
  have hbars : ∀ t ∈ texts, '|' ∉ t.toList := by decide
  have hjoined : OtherForm (.str "required| min:3 |") (.list (texts.map .str)) := .joined hbars
  have hread : OtherForm (.list (texts.map .str)) (.list [.str "required", .str "min:3"]) :=
    .read (.list (texts.map .str))
  have htexts : OtherForm (.list items) (.list [.str "required", .str "min:3"]) := .texts items
  have hforms : SameForms (.str "required| min:3 |") (.list items) :=
    .trans _ _ _ (.rel _ _ hjoined) (.trans _ _ _ (.rel _ _ hread) (.symm _ _ (.rel _ _ htexts)))
  have hcode : Reformed [("code", .str "required| min:3 |")] [("code", .list items)] :=
    .cons ⟨rfl, hforms⟩ .nil
  obtain ⟨hsame, -, -, hcompile⟩ := rulesOf_forms texts items (.str "required| min:3 |") _ _
  have hrules : rulesOf (.str "required| min:3 |") = [⟨"required"⟩, ⟨"min:3"⟩] := rfl
  exact ⟨hbars, hcode, hrules, (hsame hbars).symm.trans hrules, hcompile hcode⟩

end Schema

end RouteDocs
