import RouteDocs.Proofs.Fault
import RouteDocs.Proofs.Schema.Acceptance
import RouteDocs.Schema.Descriptor

/-!
# RouteDocs.Proofs.Schema.Compile — what compiling a rule set gives

A rule set compiles when the rules of each field do (`specLeaf`), and then its body is made in one go
from its fields (`bodyOf`): the tree is that of a run of insertions, the required names are those of
the required fields at the top, and a field for an upload makes the body a form in parts.
-/

namespace RouteDocs.Schema

/-! ### One field -/

/-- The type that a rule spec gives a field. -/
def specType (spec : Value) : FieldType := .ofRules (rulesOf spec)

/-- Whether a rule spec makes a field required. -/
def isRequired (spec : Value) : Bool := hasRule (rulesOf spec) "required"

/-- The leaf that a rule spec gives a field. -/
def specLeaf (spec : Value) : Except RuleError Leaf := do
  return .ofConstraints (specType spec) (← constraintsOf (rulesOf spec) (specType spec))

theorem required_constraintsOf {rules : List Rule} {type : FieldType} {c : Constraints}
    (h : constraintsOf rules type = .ok c) : c.required = hasRule rules "required" := by
  unfold constraintsOf at h
  obtain ⟨low, -, h⟩ := bind_eq_ok_iff.mp h
  obtain ⟨high, -, h⟩ := bind_eq_ok_iff.mp h
  rw [pure_eq_ok_iff.mp h]

theorem type_specLeaf {spec : Value} {l : Leaf} (h : specLeaf spec = .ok l) :
    l.type = specType spec := by
  unfold specLeaf at h
  obtain ⟨c, -, h⟩ := bind_eq_ok_iff.mp h
  rw [pure_eq_ok_iff.mp h]
  rfl

/-- Whether a field is among the required names of its rule set. -/
def isRequiredAtTop (r : String × Value) : Bool := isRequired r.2 && !isNested r.1

/-- The body with one more field of a given leaf. -/
def Body.withLeaf (b : Body) (r : String × Value) (l : Leaf) : Body where
  hasFile := b.hasFile || specType r.2 = .file
  properties := (resolve b.properties r.1 l).2
  required := if isRequiredAtTop r then b.required ++ [r.1] else b.required

theorem addField_eq_ok_iff {b b' : Body} {r : String × Value} :
    b.addField r.1 r.2 = .ok b' ↔ ∃ l, specLeaf r.2 = .ok l ∧ b' = b.withLeaf r l := by
  unfold Body.addField
  rw [bind_eq_ok_iff]
  constructor
  · rintro ⟨c, hc, h⟩
    refine ⟨_, bind_eq_ok_iff.mpr ⟨c, hc, rfl⟩, ?_⟩
    rw [pure_eq_ok_iff.mp h, required_constraintsOf hc]
    rfl
  · rintro ⟨l, hl, rfl⟩
    unfold specLeaf at hl
    obtain ⟨c, hc, h⟩ := bind_eq_ok_iff.mp hl
    refine ⟨c, hc, ?_⟩
    rw [pure_eq_ok_iff.mp h, Body.withLeaf, isRequiredAtTop, isRequired, ← required_constraintsOf hc]
    rfl

/-! ### All fields -/

theorem addFields_concat (b : Body) (rules : RuleSet) (r : String × Value) :
    b.addFields (rules ++ [r]) = b.addFields rules >>= fun b => b.addField r.1 r.2 := by
  induction rules generalizing b with
  | nil =>
    obtain ⟨field, spec⟩ := r
    show (b.addField field spec >>= fun b => b.addFields []) = b.addField field spec
    cases b.addField field spec <;> rfl
  | cons r' rules ih =>
    obtain ⟨field, spec⟩ := r'
    show (b.addField field spec >>= fun b => b.addFields (rules ++ [r])) =
      (b.addField field spec >>= fun b => b.addFields rules) >>= fun b => b.addField r.1 r.2
    cases b.addField field spec with
    | error e => rfl
    | ok b => exact ih b

theorem compile_concat (rules : RuleSet) (r : String × Value) :
    compile (rules ++ [r]) = compile rules >>= fun b => b.addField r.1 r.2 :=
  addFields_concat {} rules r

/-- A field and the leaf of its rules, if they compile. -/
def leafOf? (r : String × Value) : Option (String × Leaf) :=
  (specLeaf r.2).toOption.map fun l => (r.1, l)

/-- The fields of a rule set with their leaves. -/
def leafEntries (rules : RuleSet) : List (String × Leaf) := rules.filterMap leafOf?

/-- The body of a rule set. -/
def bodyOf (rules : RuleSet) : Body where
  hasFile := rules.any fun r => specType r.2 = .file
  properties := (resolveAll (leafEntries rules)).2
  required := (rules.filter isRequiredAtTop).map Prod.fst

theorem leafOf?_of_ok {r : String × Value} {l : Leaf} (h : specLeaf r.2 = .ok l) :
    leafOf? r = some (r.1, l) := by
  rw [leafOf?, h]
  rfl

theorem leafOf?_eq_some_iff {r : String × Value} {f : String × Leaf} :
    leafOf? r = some f ↔ r.1 = f.1 ∧ specLeaf r.2 = .ok f.2 := by
  unfold leafOf?
  cases specLeaf r.2 with
  | error e => simp [Except.toOption]
  | ok l => simp [Except.toOption, Prod.ext_iff]

theorem mem_leafEntries {rules : RuleSet} {f : String × Leaf} :
    f ∈ leafEntries rules ↔ ∃ spec, (f.1, spec) ∈ rules ∧ specLeaf spec = .ok f.2 := by
  unfold leafEntries
  rw [List.mem_filterMap]
  constructor
  · rintro ⟨⟨field, spec⟩, hr, h⟩
    obtain ⟨rfl, hl⟩ := leafOf?_eq_some_iff.mp h
    exact ⟨spec, hr, hl⟩
  · rintro ⟨spec, hr, hl⟩
    exact ⟨(f.1, spec), hr, leafOf?_eq_some_iff.mpr ⟨rfl, hl⟩⟩

theorem map_fst_leafEntries_sublist (rules : RuleSet) :
    ((leafEntries rules).map Prod.fst).Sublist (rules.map Prod.fst) := by
  induction rules with
  | nil => exact .slnil
  | cons r rules ih =>
    unfold leafEntries at ih ⊢
    rw [List.filterMap_cons]
    split
    · exact ih.cons _
    · rename_i f hf
      rw [List.map_cons, List.map_cons, ← (leafOf?_eq_some_iff.mp hf).1]
      exact ih.cons_cons _

theorem bodyOf_concat {rules : RuleSet} {r : String × Value} {l : Leaf} (h : specLeaf r.2 = .ok l) :
    bodyOf (rules ++ [r]) = (bodyOf rules).withLeaf r l := by
  have hleaves : leafEntries (rules ++ [r]) = leafEntries rules ++ [(r.1, l)] := by
    simp [leafEntries, List.filterMap_append, leafOf?_of_ok h]
  unfold bodyOf Body.withLeaf
  rw [hleaves, resolveAll_concat, List.any_append, List.filter_append, List.map_append]
  simp only [resolveNext, List.any_cons, List.any_nil, Bool.or_false, List.filter_cons,
    List.filter_nil]
  cases isRequiredAtTop r <;> simp

/-- A rule set compiles exactly when the rules of each field do, and then to its body. -/
theorem compile_eq_ok_iff {rules : RuleSet} {b : Body} :
    compile rules = .ok b ↔ (∀ r ∈ rules, ∃ l, specLeaf r.2 = .ok l) ∧ b = bodyOf rules := by
  induction rules using List.reverseRecOn generalizing b with
  | nil =>
    show Except.ok {} = Except.ok b ↔ _
    rw [Except.ok.injEq]
    exact ⟨fun h => ⟨fun r hr => absurd hr List.not_mem_nil, h.symm⟩, fun h => h.2.symm⟩
  | append_singleton rules r ih =>
    rw [compile_concat, bind_eq_ok_iff]
    constructor
    · rintro ⟨b₀, hb₀, h⟩
      obtain ⟨hall, rfl⟩ := ih.mp hb₀
      obtain ⟨l, hl, rfl⟩ := addField_eq_ok_iff.mp h
      refine ⟨fun r' hr' => ?_, (bodyOf_concat hl).symm⟩
      rcases List.mem_append.mp hr' with hr' | hr'
      · exact hall r' hr'
      · obtain rfl := List.mem_singleton.mp hr'
        exact ⟨l, hl⟩
    · rintro ⟨hall, rfl⟩
      obtain ⟨l, hl⟩ := hall r (by simp)
      refine ⟨bodyOf rules, ih.mpr ⟨fun r' hr' => hall r' (List.mem_append_left _ hr'), rfl⟩, ?_⟩
      exact addField_eq_ok_iff.mpr ⟨l, hl, bodyOf_concat hl⟩

end RouteDocs.Schema

namespace RouteDocs

/-- A descriptor has the body of its rules. -/
theorem Descriptor.body_eq_ok_iff {d : Descriptor} {b : Schema.Body} :
    d.body = .ok b ↔ Schema.compile d.rules = .ok b := by
  unfold body
  cases Schema.compile d.rules <;> simp

end RouteDocs
