import RouteDocs.Proofs.Schema.FieldPath
import RouteDocs.Schema.Insert

/-!
# RouteDocs.Proofs.Schema.Segments — a field path as a list of steps

The steps of a path are names with a step into the items of an array between each two of them, and the
names are what the item separator cuts the field into: it is in none of them, and joins them to the field
again.  Putting a field into the tree may go along these steps as they come (`mergeAlong`): a name is read
at every second step alone, so there is one wherever one is read (`segments_parse`).
-/

namespace RouteDocs.Schema

open Text

/-! ### Names among the steps -/

/-- The name of a step, if it has one. -/
def Segment.name? : Segment → Option String
  | .literal name => some name
  | .items => none

/-- Merges a leaf along steps as they come: the name of a level is read from its first step, the one after
it is passed over, and the rest belongs to the items.  There is no outcome (`none`) if a name is to be read
where a step has none or no step is left. -/
def mergeAlong (leaf : Leaf) : List Segment → Properties → Option (Bool × Properties)
  | [], _ => none
  | .items :: _, _ => none
  | [.literal name], properties =>
    if yields (properties.get? name) then some (true, properties.put name (.leaf leaf))
    else some (false, properties)
  | .literal name :: _ :: rest, properties =>
    let properties := openItems name properties
    match properties.get? name with
    | some (.array (.object inner required)) =>
      (mergeAlong leaf rest inner).map fun (accepted, inner) =>
        (accepted, properties.put name (.array (.object inner required)))
    | _ => some (false, properties)

namespace FieldPath

/-- Along a path, name by name. -/
theorem names_induction {motive : FieldPath → Prop} (last : ∀ name, motive ⟨name, []⟩)
    (items : ∀ name next rest, motive ⟨next, rest⟩ → motive ⟨name, next :: rest⟩) (p : FieldPath) :
    motive p := by
  obtain ⟨name, rest⟩ := p
  induction rest generalizing name with
  | nil => exact last name
  | cons next rest ih => exact items name next rest (ih next)

theorem segments_cons (name next : String) (rest : List String) :
    segments ⟨name, next :: rest⟩ = .literal name :: .items :: segments ⟨next, rest⟩ := rfl

theorem filterMap_segments (p : FieldPath) : p.segments.filterMap Segment.name? = p.names := by
  induction p using names_induction with
  | last name => rfl
  | items name next rest ih => exact congrArg (name :: ·) ih

theorem length_segments (p : FieldPath) : p.segments.length = 2 * p.rest.length + 1 := by
  induction p using names_induction with
  | last name => rfl
  | items name next rest ih =>
    rw [segments_cons, List.length_cons, List.length_cons, ih, List.length_cons, Nat.mul_succ]

theorem exists_getLast?_segments (p : FieldPath) :
    ∃ name, p.segments.getLast? = some (.literal name) := by
  induction p using names_induction with
  | last name => exact ⟨name, rfl⟩
  | items name next rest ih => exact ih

/-- Of two steps in a row one is a name and the other leads into the items of an array. -/
theorem isChain_segments (p : FieldPath) : p.segments.IsChain fun s t => s = .items ↔ t ≠ .items := by
  induction p using names_induction with
  | last name => exact .singleton _
  | items name next rest ih =>
    have hitems : List.IsChain (fun s t => s = .items ↔ t ≠ .items)
        (.items :: segments ⟨next, rest⟩) :=
      List.isChain_cons_cons.mpr ⟨by simp, ih⟩
    exact List.isChain_cons_cons.mpr ⟨by simp, hitems⟩

/-- A name stands wherever one is read on the way into the tree. -/
theorem mergeAlong_segments (leaf : Leaf) (p : FieldPath) (ps : Properties) :
    mergeAlong leaf p.segments ps = some (merge leaf p.first p.rest ps) := by
  induction p using names_induction generalizing ps with
  | last name =>
    show (if _ then _ else _) = some (merge leaf name [] ps)
    rw [merge]
    split <;> rfl
  | items name next rest ih =>
    rw [segments_cons, mergeAlong, merge]
    dsimp only
    cases (openItems name ps).get? name with
    | none => rfl
    | some node =>
      cases node with
      | leaf _ => rfl
      | object _ _ => rfl
      | array node =>
        cases node with
        | object inner required => exact congrArg (Option.map _) (ih inner)
        | leaf _ => rfl
        | array _ => rfl

theorem segments_injective : Function.Injective segments := by
  intro p q h
  have hnames : p.first :: p.rest = q.first :: q.rest :=
    (filterMap_segments p).symm.trans (h ▸ filterMap_segments q)
  rw [List.cons.injEq] at hnames
  exact (mk.injEq ..).mpr hnames

end FieldPath

/-! ### The steps of a field -/

/-- **A field is cut into names by the item separator, and nothing is lost.**  The steps of a field are
names and steps into items in turn, from a name to a name.  The separator is in none of the names and
joins them to the field, so the steps are those of no other field; there is one step alone if the
separator is not in the field, and that is when the field counts as one at the top.  Going along the steps
puts a leaf where the field says, and finds a name wherever it reads one. -/
theorem segments_parse (field : String) :
    let segments := (FieldPath.parse field).segments
    let names := segments.filterMap Segment.name?
    segments ≠ [] ∧ segments.IsChain (fun s t => s = .items ↔ t ≠ .items) ∧
    (∃ name, segments.head? = some (.literal name)) ∧
    (∃ name, segments.getLast? = some (.literal name)) ∧
    (∀ name ∈ names, ¬ itemSeparator.toList <:+: name.toList) ∧
    itemSeparator.intercalate names = field ∧
    (∀ other, (FieldPath.parse other).segments = segments → other = field) ∧
    (segments.length = 1 ↔ ¬ itemSeparator.toList <:+: field.toList) ∧
    (segments.length = 1 ↔ isNested field = false) ∧
    ∀ leaf properties, mergeAlong leaf segments properties = some (resolve properties field leaf) := by
  intro segments names
  have hnames : names = (FieldPath.parse field).names := FieldPath.filterMap_segments _
  have hone : segments.length = 1 ↔ isNested field = false := by
    rw [isNested_eq_false_iff, ← List.length_eq_zero_iff]
    have hlength : segments.length = 2 * (FieldPath.parse field).rest.length + 1 :=
      FieldPath.length_segments _
    omega
  refine ⟨List.cons_ne_nil _ _, FieldPath.isChain_segments _, ⟨_, rfl⟩,
    FieldPath.exists_getLast?_segments _, ?_, ?_, ?_, ?_, hone, ?_⟩
  · intro name hname
    rw [hnames, FieldPath.names_parse] at hname
    obtain ⟨piece, hpiece, rfl⟩ := List.mem_map.mp hname
    rw [String.toList_ofList]
    exact not_infix_of_mem_splitAround itemSeparator_ne_nil hpiece
  · rw [hnames, ← String.toList_inj, String.toList_intercalate, ← joinWith_eq_intercalate]
    exact FieldPath.joinWith_names_parse field
  · intro other hother
    exact FieldPath.names_parse_injective (congrArg FieldPath.names (FieldPath.segments_injective hother))
  · rw [hone, isNested, ← occursIn_iff_isInfix, Bool.not_eq_true]
  · exact fun leaf properties => FieldPath.mergeAlong_segments leaf _ properties

/-- Separators that overlap are cut from the left. -/
example : (FieldPath.parse "a.*.*.b").segments = [.literal "a", .items, .literal "*.b"] := by decide

end RouteDocs.Schema
