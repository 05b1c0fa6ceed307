import RouteDocs.Proofs.Rules.Spelling
import RouteDocs.Schema.Compile

/-!
# RouteDocs.Proofs.Schema.Spelling — rule sets in other spelling

A rule set may be written in other letter case, the values of a list apart, and with unknown rules and
other items among its rules; it compiles as before (`compile_eq_of_respelled`).
-/

namespace RouteDocs

open Text

/-! ### Items of a rule list -/

/-- Two items of a rule list are the same, or texts that differ in the case of ASCII letters; in a list of
values only the mark may differ. -/
inductive SameItem : Value → Value → Prop
  | refl (v : Value) : SameItem v v
  | text {s t : String} (hletters : SameLetters s.toList t.toList)
    (hvalues : "in:".toList <+: lower (trim s.toList) →
      (trim s.toList).drop 3 = (trim t.toList).drop 3) : SameItem (.str s) (.str t)

/-- An item of a rule list that is no text or holds an unknown rule. -/
def IsIgnored (v : Value) : Prop := ∀ s, v = .str s → IsUnknown (lowered (trimmed s))

/-- A rule spec in another spelling: its items as they are but for letter case, and ignored ones among
them. -/
inductive SpecRespelled : Value → Value → Prop
  | refl (spec : Value) : SpecRespelled spec spec
  | list {items respelled items' : List Value} (hsame : List.Forall₂ SameItem items respelled)
    (hnew : Interspersed IsIgnored respelled items') : SpecRespelled (.list items) (.list items')

/-- The rule that an item of a rule list holds. -/
def ruleOf? : Value → Option Rule
  | .str s => Rule.ofText? s.toList
  | _ => none

section Items

variable {v w spec spec' : Value} {s : List Char} {items items' : List Value}

theorem rulesOf_list (items : List Value) : rulesOf (.list items) = items.filterMap ruleOf? := by
  rw [rulesOf, specTexts, List.filterMap_filterMap]
  congr 1
  funext v
  cases v <;> rfl

theorem ofText?_eq (s : List Char) :
    Rule.ofText? s = if trim s = [] then none else some ⟨String.ofList (trim s)⟩ := by
  rw [Rule.ofText?]
  cases trim s <;> rfl

/-- An item that is the same up to letter case holds a rule that is. -/
theorem SameItem.ruleOf?_cases (h : SameItem v w) :
    (ruleOf? v = none ∧ ruleOf? w = none) ∨
      ∃ r r', ruleOf? v = some r ∧ ruleOf? w = some r' ∧ r.Respelled r' := by
  cases h with
  | refl v =>
    cases hr : ruleOf? v with
    | none => exact .inl ⟨rfl, rfl⟩
    | some r => exact .inr ⟨r, r, rfl, rfl, rfl, fun _ => rfl⟩
  | @text s t hletters hvalues =>
    have htrim := hletters.trim
    rw [ruleOf?, ruleOf?, ofText?_eq, ofText?_eq]
    by_cases hs : trim s.toList = []
    · have ht : trim t.toList = [] := by
        rw [hs] at htrim
        exact List.map_eq_nil_iff.mp htrim.symm
      rw [if_pos hs, if_pos ht]
      exact .inl ⟨rfl, rfl⟩
    · have ht : trim t.toList ≠ [] := by
        intro ht
        rw [ht] at htrim
        exact hs (List.map_eq_nil_iff.mp htrim)
      rw [if_neg hs, if_neg ht]
      refine .inr ⟨_, _, rfl, rfl, ?_, ?_⟩
      · simpa using htrim
      · simpa [Rule.folded, lowered] using hvalues

theorem forall₂_rulesOf (h : List.Forall₂ SameItem items items') :
    List.Forall₂ Rule.Respelled (items.filterMap ruleOf?) (items'.filterMap ruleOf?) := by
  induction h with
  | nil => exact .nil
  | cons hv _ ih =>
    rcases hv.ruleOf?_cases with ⟨hnone, hnone'⟩ | ⟨r, r', hsome, hsome', hr⟩
    · rwa [List.filterMap_cons_none hnone, List.filterMap_cons_none hnone']
    · rw [List.filterMap_cons_some hsome, List.filterMap_cons_some hsome']
      exact .cons hr ih

theorem isIgnored_str {s : String} (h : IsUnknown (lowered (trimmed s))) : IsIgnored (.str s) := by
  rintro t ⟨⟩
  exact h

/-- The rule of an ignored item is unknown. -/
theorem isUnknown_of_isIgnored (h : IsIgnored v) {r : Rule} (hr : ruleOf? v = some r) :
    IsUnknown r.folded := by
  cases v with
  | str s =>
    rw [ruleOf?, ofText?_eq] at hr
    obtain ⟨-, hr⟩ := Option.ite_none_left_eq_some.mp hr
    rw [← Option.some.inj hr]
    exact h s rfl
  | _ => cases hr

/-- A rule spec demands the same in any spelling. -/
theorem SpecRespelled.sameDemands (h : SpecRespelled spec spec') :
    SameDemands (rulesOf spec) (rulesOf spec') := by
  cases h with
  | refl => exact .refl _
  | list hsame hnew =>
    rw [rulesOf_list, rulesOf_list]
    refine (sameDemands_of_respelled (forall₂_rulesOf hsame)).trans ?_
    exact sameDemands_of_interspersed (hnew.filterMap fun v hv r hr => isUnknown_of_isIgnored hv hr)

end Items

/-! ### Rule sets -/

namespace Schema

variable {rules rules' : RuleSet}

/-- A rule set in another spelling: the same fields, and their specs in another spelling. -/
def Respelled (rules rules' : RuleSet) : Prop :=
  List.Forall₂ (fun r r' => r.1 = r'.1 ∧ SpecRespelled r.2 r'.2) rules rules'

theorem addField_eq (b : Body) (field : String) {spec spec' : Value}
    (h : SameDemands (rulesOf spec) (rulesOf spec')) : b.addField field spec = b.addField field spec' := by
  rw [Body.addField, Body.addField, h.ofRules_eq, h.constraintsOf_eq]

/-- Fields whose rules demand the same, one by one, are added to a body alike. -/
theorem addFields_congr (b : Body)
    (h : List.Forall₂ (fun r r' => r.1 = r'.1 ∧ SameDemands (rulesOf r.2) (rulesOf r'.2)) rules rules') :
    b.addFields rules = b.addFields rules' := by
  induction h generalizing b with
  | nil => rfl
  | @cons r r' rest rest' hr _ ih =>
    obtain ⟨field, spec⟩ := r
    obtain ⟨field', spec'⟩ := r'
    obtain ⟨rfl, hspec⟩ := hr
    rw [Body.addFields, Body.addFields, addField_eq b field hspec]
    congr 1
    funext b
    exact ih b

theorem addFields_eq (b : Body) (h : Respelled rules rules') : b.addFields rules = b.addFields rules' :=
  addFields_congr b (h.imp fun _ _ hr => ⟨hr.1, hr.2.sameDemands⟩)

/-- **Unknown rules and letter case never matter.**  A rule set in another spelling compiles to the same
body, content type, properties and required names, or is refused for the same bound. -/
theorem compile_eq_of_respelled (h : Respelled rules rules') : compile rules' = compile rules :=
  (addFields_eq {} h).symm

/-- An age in another spelling: among its rules are then a number, and unknown rules with letters whose
lower case is more than one letter or depends on their neighbours. -/
theorem compile_eq_of_respelled_age :
    let items : List Value := [.str "required", .str " integer ", .str "MIN:3", .str "in:A,b"]
    let items' : List Value := [.str "İnteger", .str "Required", .int 5, .str " INTEGER ", .str "min:3",
      .str "ΣΣ:3", .str "IN:A,b"]
    Respelled [("age", .list items)] [("age", .list items')] ∧
      ∃ b, compile [("age", .list items)] = .ok b ∧ compile [("age", .list items')] = .ok b ∧
        b.required = ["age"] := by
  intro items items'
  have hsame : List.Forall₂ SameItem items
      [.str "Required", .str " INTEGER ", .str "min:3", .str "IN:A,b"] :=
    .cons (.text (by decide) (by decide)) (.cons (.text (by decide) (by decide))
      (.cons (.text (by decide) (by decide)) (.cons (.text (by decide) (by decide)) .nil)))
  have hnew : Interspersed IsIgnored [.str "Required", .str " INTEGER ", .str "min:3", .str "IN:A,b"]
      items' :=
    .add _ (isIgnored_str (by decide)) (.keep _ (.add _ nofun (.keep _ (.keep _
      (.add _ (isIgnored_str (by decide)) (.keep _ .nil))))))
  have hage : Respelled [("age", .list items)] [("age", .list items')] :=
    .cons ⟨rfl, .list hsame hnew⟩ .nil
  obtain ⟨b, hb, hrequired⟩ : ∃ b, compile [("age", .list items)] = .ok b ∧ b.required = ["age"] :=
    ⟨_, rfl, rfl⟩
  exact ⟨hage, b, hb, (compile_eq_of_respelled hage).trans hb, hrequired⟩

end Schema

end RouteDocs
