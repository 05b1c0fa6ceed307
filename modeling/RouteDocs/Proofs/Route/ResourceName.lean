import RouteDocs.Proofs.Route.Handler
import RouteDocs.Proofs.Text.Split

/-!
# RouteDocs.Proofs.Route.ResourceName — the resource that a controller is for

The class of a controller is what follows the last mark between its segments, whichever of the three marks
those are (`className_append`).  The resource is the class without `Controller`, which is taken out wherever
it occurs: the pieces between its occurrences are what is left (`removeAll_eq_flatten`).  So the resource is
the class without that ending alone if and only if `Controller` does not occur before the ending
(`resourceName_eq_iff`).
-/

namespace RouteDocs

namespace Text

/-! ### Taking a part out of a text -/

section Removing

variable {part rest s : List Char} {c m : Char}

theorem removeFrom_eq_drop (part : List Char) (k : ℕ) (s : List Char) :
    removeFrom part k s = removeAll part (s.drop k) := by
  induction s generalizing k with
  | nil => cases k <;> rfl
  | cons c r ih =>
    cases k with
    | zero => rfl
    | succ k => rw [removeFrom, ih, List.drop_succ_cons]

theorem removeAll_append (hne : part ≠ []) (r : List Char) :
    removeAll part (part ++ r) = removeAll part r := by
  obtain ⟨c, tail, rfl⟩ := List.exists_cons_of_ne_nil hne
  have hp : (c :: tail).isPrefixOf (c :: (tail ++ r)) = true :=
    List.isPrefixOf_iff_prefix.mpr ⟨r, rfl⟩
  show removeFrom (c :: tail) 0 (c :: (tail ++ r)) = _
  rw [removeFrom, if_pos hp, removeFrom_eq_drop]
  simp

theorem removeAll_cons {r : List Char} (h : ¬ part <+: c :: r) :
    removeAll part (c :: r) = c :: removeAll part r := by
  have hp : ¬ part.isPrefixOf (c :: r) = true := fun hp => h (List.isPrefixOf_iff_prefix.mp hp)
  show removeFrom part 0 (c :: r) = _
  rw [removeFrom, if_neg hp]
  rfl

/-- What is left are the pieces between the occurrences. -/
theorem removeAll_eq_flatten (hne : part ≠ []) (s : List Char) :
    removeAll part s = (splitAround part s).flatten := by
  induction s using separator_induction hne with
  | nil => rfl
  | occurrence r ih => rw [removeAll_append hne, splitAround_append hne, ih, List.flatten_cons]; rfl
  | char c r hp ih =>
    obtain ⟨piece, pieces, hr, hcr⟩ := splitAround_cons hp
    rw [removeAll_cons hp, hcr, ih, hr]
    rfl

/-- Taking a part out changes a text exactly if the part occurs in it. -/
theorem removeAll_eq_self_iff (hne : part ≠ []) : removeAll part s = s ↔ ¬ part <:+: s := by
  rw [← splitAround_length_eq_one hne, removeAll_eq_flatten hne]
  have hjoin := joinWith_splitAround hne s
  constructor
  · intro h
    have hlength := length_joinWith part (splitAround_ne_nil part s)
    rw [h, hjoin] at hlength
    have hone : (splitAround part s).length * part.length = 1 * part.length := by omega
    exact Nat.eq_of_mul_eq_mul_right (List.length_pos_of_ne_nil hne) hone
  · intro hone
    obtain ⟨piece, hpiece⟩ := List.length_eq_one_iff.mp hone
    rw [hpiece] at hjoin ⊢
    simpa [joinWith] using hjoin

/-- A part that does not overlap with itself is taken from the end of a text without a change before. -/
theorem removeAll_append_self (hm : m ∉ rest) (u : List Char) :
    removeAll (m :: rest) (u ++ m :: rest) = removeAll (m :: rest) u := by
  have hne : m :: rest ≠ [] := List.cons_ne_nil m rest
  induction u using separator_induction hne with
  | nil =>
    have hself := removeAll_append hne []
    rwa [List.append_nil] at hself
  | occurrence r ih => rw [List.append_assoc, removeAll_append hne, removeAll_append hne, ih]
  | char c r hp ih =>
    have hlater : ¬ m :: rest <+: c :: (r ++ m :: rest) := by
      intro hwhole
      rcases List.prefix_or_prefix_of_prefix hwhole
          (List.prefix_append (c :: r) (m :: rest)) with h | ⟨x, hx⟩
      · exact hp h
      · -- the occurrence would end in the last one, and so hold its first character twice
        have htail : c :: r ++ x <+: c :: r ++ m :: rest := by
          rw [hx]
          exact hwhole
        rw [List.prefix_append_right_inj] at htail
        cases x with
        | nil => exact hp ⟨[], by rw [← hx]; simp⟩
        | cons d x =>
          obtain ⟨rfl, -⟩ := List.cons_prefix_cons.mp htail
          obtain ⟨-, hrest⟩ := List.cons.inj hx
          exact hm (hrest ▸ by simp)
    rw [removeAll_cons hp, List.cons_append, removeAll_cons hlater, ih]

/-! ### Endings -/

/-- A text without an ending, if it ends so. -/
def withoutEnding (ending s : List Char) : List Char :=
  if endsIn ending s then s.take (s.length - ending.length) else s

theorem withoutEnding_append (s ending : List Char) : withoutEnding ending (s ++ ending) = s := by
  have hends : endsIn ending (s ++ ending) = true :=
    List.isSuffixOf_iff_suffix.mpr (List.suffix_append s ending)
  rw [withoutEnding, if_pos hends, List.length_append, Nat.add_sub_cancel, List.take_left]

theorem withoutEnding_of_not_suffix {ending : List Char} (h : ¬ ending <:+ s) :
    withoutEnding ending s = s :=
  if_neg fun hends => h (List.isSuffixOf_iff_suffix.mp hends)

/-- Taking a part out everywhere takes it from the end alone exactly if it occurs nowhere before. -/
theorem removeAll_eq_withoutEnding_iff (hm : m ∉ rest) (s : List Char) :
    removeAll (m :: rest) s = withoutEnding (m :: rest) s ↔
      ¬ m :: rest <:+: withoutEnding (m :: rest) s := by
  have hne : m :: rest ≠ [] := List.cons_ne_nil m rest
  by_cases hends : m :: rest <:+ s
  · obtain ⟨stem, rfl⟩ := hends
    rw [withoutEnding_append, removeAll_append_self hm, removeAll_eq_self_iff hne]
  · rw [withoutEnding_of_not_suffix hends, removeAll_eq_self_iff hne]

end Removing

end Text

/-! ### The class of a controller -/

/-- The marks between the segments of a controller: the backslash, the slash and the point. -/
def isSegmentMark (c : Char) : Bool := c == '\\' || c == '/' || c == '.'

/-- A namespace is empty or ends in a mark between segments. -/
def IsNamespace (s : String) : Prop := ∀ c ∈ s.toList.getLast?, isSegmentMark c = true

/-- The name of a class is one segment. -/
def IsClassName (s : String) : Prop := ∀ c ∈ s.toList, isSegmentMark c = false

instance : DecidablePred IsNamespace := fun s =>
  decidable_of_iff (s.toList.getLast?.all isSegmentMark = true) (by simp [IsNamespace, Option.all_eq_true])

instance : DecidablePred IsClassName := fun s =>
  decidable_of_iff (s.toList.all (!isSegmentMark ·) = true) (by simp [IsClassName])

namespace Handler

open Text

/-- The class of a controller is found behind its namespace, whichever marks that has. -/
theorem className_append {space name : String} (hspace : IsNamespace space)
    (hname : IsClassName name) : className (space ++ name).toList = name.toList := by
  have hmark : ∀ m, isSegmentMark m = true → m ∉ name.toList := by
    intro m hm hmem
    rw [hname m hmem] at hm
    cases hm
  have hpoint : '.' ∉ name.toList := hmark '.' (by decide)
  have hback : '\\' ∉ name.toList := hmark '\\' (by decide)
  have hslash : '/' ∉ name.toList := hmark '/' (by decide)
  have hsame : (name.toList.map fun c => if c == '/' then '\\' else c) = name.toList := by
    refine List.map_congr_left (fun c hc => ?_) |>.trans (List.map_id _)
    exact if_neg (by rintro h; exact hslash (beq_iff_eq.mp h ▸ hc))
  rw [className, String.toList_append, List.map_append, hsame]
  -- the last character of the namespace decides which of the two cuts finds the class
  cases hlast : space.toList.getLast? with
  | none =>
    rw [List.getLast?_eq_none_iff.mp hlast]
    rw [List.map_nil, List.nil_append, afterLast_of_not_mem hback, afterLast_of_not_mem hpoint]
  | some m =>
    obtain ⟨start, hstart⟩ := List.getLast?_eq_some_iff.mp hlast
    have hm : isSegmentMark m = true := hspace m hlast
    rw [hstart, List.map_append, List.map_singleton, List.append_assoc, List.singleton_append]
    by_cases hdot : m = '.'
    · subst hdot
      have hback' : '\\' ∉ '.' :: name.toList := by simp [hback]
      rw [if_neg (by decide), afterLast_append _ hback', afterLast_append_mark _ hpoint]
    · have hboth : (if (m == '/') = true then '\\' else m) = '\\' := by
        by_cases h : m = '/'
        · rw [if_pos (beq_iff_eq.mpr h)]
        · rw [if_neg (by simpa using h)]
          simpa [isSegmentMark, h, hdot] using hm
      rw [hboth, afterLast_append_mark _ hback, afterLast_of_not_mem hpoint]

/-! ### The resource of a controller -/

/-- The ending of the names of controllers. -/
def controllerEnding : List Char := "Controller".toList

/-- **The resource of a controller is its class without the ending, if that occurs nowhere before.**  Else
it is shorter: every `Controller` is taken out of the class, and the pieces between are left. -/
theorem resourceName_eq_iff {space name : String} (method : String) (hspace : IsNamespace space)
    (hname : IsClassName name) :
    ((Handler.mk (space ++ name) method).resourceName =
        String.ofList (withoutEnding controllerEnding name.toList) ↔
      ¬ controllerEnding <:+: withoutEnding controllerEnding name.toList) ∧
    ∃ pieces, name.toList = joinWith controllerEnding pieces ∧
      (∀ piece ∈ pieces, ¬ controllerEnding <:+: piece) ∧
      (Handler.mk (space ++ name) method).resourceName = String.ofList pieces.flatten := by
  have hne : controllerEnding ≠ [] := by decide
  have hresource : (Handler.mk (space ++ name) method).resourceName =
      String.ofList (removeAll controllerEnding name.toList) := by
    rw [resourceName, className_append hspace hname]
    rfl
  rw [hresource, String.ofList_inj]
  refine ⟨removeAll_eq_withoutEnding_iff (by decide) name.toList,
    splitAround controllerEnding name.toList, ?_, ?_, ?_⟩
  · rw [joinWith_splitAround hne]
  · intro piece hpiece
    exact not_infix_of_mem_splitAround hne hpiece
  · rw [removeAll_eq_flatten hne]

/-- Of three different marks the last one counts. -/
theorem resourceName_eq_iff_lines :
    let h : Handler := ⟨"App\\Http/Controllers." ++ "LineController", "show"⟩
    IsNamespace "App\\Http/Controllers." ∧ IsClassName "LineController" ∧
      ¬ controllerEnding <:+: withoutEnding controllerEnding "LineController".toList ∧
      h.resourceName = "Line" := by
  intro h
  have hspace : IsNamespace "App\\Http/Controllers." := by decide
  have hname : IsClassName "LineController" := by decide
  have hbefore : ¬ controllerEnding <:+: withoutEnding controllerEnding "LineController".toList := by
    decide
  exact ⟨hspace, hname, hbefore, (resourceName_eq_iff "show" hspace hname).1.mpr hbefore⟩

/-- A class that starts with the ending loses that too. -/
theorem resourceName_of_inner_controller :
    let h : Handler := ⟨"App\\" ++ "ControllerLogController", "show"⟩
    IsNamespace "App\\" ∧ IsClassName "ControllerLogController" ∧ h.resourceName = "Log" ∧
      String.ofList (withoutEnding controllerEnding "ControllerLogController".toList) =
        "ControllerLog" := by
  decide

end Handler

end RouteDocs
