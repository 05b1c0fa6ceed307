import Mathlib.Data.Finset.Lattice.Fold
import Mathlib.Data.Prod.Lex
import Mathlib.Data.String.Basic
import RouteDocs.Rules.FieldType

/-!
# RouteDocs.Proofs.Rules.TypeOrder — the type of a field as the greatest of its rules

The types of fields are in a linear order with the type of texts at its bottom.  A rule by itself stands
for one type, and rules together for the greatest of theirs (`ofRules_eq_sup`).  So two lists of rules one
after the other give the greater of two types, only the set of rules counts, and more rules never give a
lower type (`ofRules_greatest`).
-/

namespace RouteDocs

namespace FieldType

/-! ### The order of types -/

/-- The place of a type in the order.  The types that no rule stands for are above all others. -/
def rank : FieldType → ℕ
  | .string => 0
  | .array => 1
  | .boolean => 2
  | .number => 3
  | .integer => 4
  | .file => 5
  | .other _ => 6

/-- What types are compared by: their places, and their names where those are the same. -/
def key (t : FieldType) : ℕ ×ₗ String := toLex (t.rank, t.name)

theorem key_injective : Function.Injective key := by
  intro t u h
  obtain ⟨hrank, hname⟩ := Prod.mk.inj (toLex.injective h)
  cases t <;> cases u <;> simp_all [rank, name]

instance : LinearOrder FieldType := LinearOrder.lift' key key_injective

theorem lt_of_rank_lt {t u : FieldType} (h : t.rank < u.rank) : t < u := by
  show t.key < u.key
  exact Prod.Lex.toLex_lt_toLex.mpr (.inl h)

instance : OrderBot FieldType where
  bot := .string
  bot_le t := by
    by_cases h : rank .string < t.rank
    · exact (lt_of_rank_lt h).le
    · cases t <;> simp_all [rank]

/-! ### A row of tests -/

/-- The type that comes with the first of some tests that a rule passes. -/
def firstPassed : List ((Rule → Bool) × FieldType) → List Rule → FieldType
  | [], _ => .string
  | (test, t) :: tests, rules => if rules.any test then t else firstPassed tests rules

/-- The tests that the type of a field is found by, in their order. -/
def typeTests : List ((Rule → Bool) × FieldType) :=
  [(asksForFile, .file), (fun r => r.folded == "integer", .integer),
    (fun r => r.folded == "numeric", .number), (fun r => r.folded == "boolean", .boolean),
    (fun r => r.folded == "array", .array)]

theorem ofRules_eq_firstPassed (rules : List Rule) : ofRules rules = firstPassed typeTests rules := rfl

/-- The tests for greater types come first. -/
theorem typeTests_descend : typeTests.Pairwise fun p q => q.2 ≤ p.2 := by
  simp only [typeTests, List.pairwise_cons]
  decide

section Tests

variable {tests : List ((Rule → Bool) × FieldType)} {t : FieldType}

theorem firstPassed_le (h : ∀ p ∈ tests, p.2 ≤ t) (rules : List Rule) :
    firstPassed tests rules ≤ t := by
  induction tests with
  | nil => exact bot_le
  | cons p tests ih =>
    obtain ⟨hp, htests⟩ := List.forall_mem_cons.mp h
    unfold firstPassed
    split
    · exact hp
    · exact ih htests

/-- A test that fails on both lists leaves the matter to those after it, and one that passes on either
gives the greater type. -/
theorem firstPassed_append (h : tests.Pairwise fun p q => q.2 ≤ p.2) (rules rules' : List Rule) :
    firstPassed tests (rules ++ rules') = max (firstPassed tests rules) (firstPassed tests rules') := by
  induction tests with
  | nil => exact (max_self _).symm
  | cons p tests ih =>
    obtain ⟨hfirst, hrest⟩ := List.pairwise_cons.mp h
    have hle := firstPassed_le hfirst rules
    have hle' := firstPassed_le hfirst rules'
    simp only [firstPassed, List.any_append, ih hrest]
    cases rules.any p.1 <;> cases rules'.any p.1 <;> simp [hle, hle']

end Tests

/-! ### The greatest type -/

section Greatest

variable {rules rules' : List Rule}

theorem ofRules_append (rules rules' : List Rule) :
    ofRules (rules ++ rules') = max (ofRules rules) (ofRules rules') := by
  simp only [ofRules_eq_firstPassed]
  exact firstPassed_append typeTests_descend rules rules'

/-- The type of a field is the greatest that one of its rules stands for by itself. -/
theorem ofRules_eq_sup (rules : List Rule) :
    ofRules rules = rules.toFinset.sup fun r => ofRules [r] := by
  induction rules with
  | nil => rfl
  | cons r rules ih =>
    rw [List.toFinset_cons, Finset.sup_insert, ← ih]
    exact ofRules_append [r] rules

theorem ofRules_mono (h : rules ⊆ rules') : ofRules rules ≤ ofRules rules' := by
  rw [ofRules_eq_sup, ofRules_eq_sup]
  exact Finset.sup_mono fun r hr => List.mem_toFinset.mpr (h (List.mem_toFinset.mp hr))

theorem rulesOf_append (a b : List Value) :
    rulesOf (.list (a ++ b)) = rulesOf (.list a) ++ rulesOf (.list b) := by
  simp only [rulesOf, specTexts, List.filterMap_append]

end Greatest

/-- **The type of a field is the greatest that its rules stand for.**  Two lists of rules one after the
other give the greater of their types; specs with the same rules, in any order and any number, give the same
type, and a spec with more rules than another no lower one. -/
theorem ofRules_greatest (a b : List Value) (spec spec' : Value) :
    (FieldType.string < .array ∧ FieldType.array < .boolean ∧ FieldType.boolean < .number ∧
      FieldType.number < .integer ∧ FieldType.integer < .file) ∧
    ofRules (rulesOf (.list (a ++ b))) =
      max (ofRules (rulesOf (.list a))) (ofRules (rulesOf (.list b))) ∧
    ((∀ r, r ∈ rulesOf spec ↔ r ∈ rulesOf spec') →
      ofRules (rulesOf spec) = ofRules (rulesOf spec')) ∧
    (rulesOf spec ⊆ rulesOf spec' → ofRules (rulesOf spec) ≤ ofRules (rulesOf spec')) := by
  refine ⟨by decide, ?_, fun hsame => ?_, ofRules_mono⟩
  · rw [rulesOf_append, ofRules_append]
  · exact le_antisymm (ofRules_mono fun r hr => (hsame r).mp hr)
      (ofRules_mono fun r hr => (hsame r).mpr hr)

/-- A number in an array, in another order with a rule repeated, and with a later rule for an integer. -/
theorem ofRules_greatest_number :
    let a : List Value := [.str "numeric", .int 3, .str "array"]
    let b : List Value := [.str "integer"]
    let spec : Value := .str "array|numeric|array"
    (∀ r, r ∈ rulesOf spec ↔ r ∈ rulesOf (.list a)) ∧ rulesOf spec ⊆ rulesOf (.list a) ∧
      ofRules (rulesOf spec) = .number ∧ ofRules (rulesOf spec) ≤ ofRules (rulesOf (.list a)) ∧
      ofRules (rulesOf (.list (a ++ b))) = .integer := by
  intro a b spec
  have hspec : rulesOf spec = [⟨"array"⟩, ⟨"numeric"⟩, ⟨"array"⟩] := rfl
  have ha : rulesOf (.list a) = [⟨"numeric"⟩, ⟨"array"⟩] := rfl
  have hsame : ∀ r, r ∈ rulesOf spec ↔ r ∈ rulesOf (.list a) := by
    intro r
    simp only [hspec, ha, List.mem_cons, List.not_mem_nil, or_false]
    tauto
  have hsub : rulesOf spec ⊆ rulesOf (.list a) := fun r => (hsame r).mp
  obtain ⟨-, happend, hequal, hle⟩ := ofRules_greatest a b spec (.list a)
  have hnumber : ofRules (rulesOf (.list a)) = .number := by rw [ha]; decide
  have hinteger : ofRules (rulesOf (.list b)) = .integer := by decide
  refine ⟨hsame, hsub, (hequal hsame).trans hnumber, hle hsub, ?_⟩
  rw [happend, hnumber, hinteger]
  decide

end FieldType

end RouteDocs
