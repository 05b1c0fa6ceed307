/-!
# RouteDocs.Proofs.Interspersed — lists with new members among their own

What is found in a list is found in the longer one as well, if it is nothing that may be new.
-/

namespace RouteDocs

/-- A list with new members among its own. -/
inductive Interspersed {α : Type} (new : α → Prop) : List α → List α → Prop
  | nil : Interspersed new [] []
  | keep (x : α) {xs ys : List α} : Interspersed new xs ys → Interspersed new (x :: xs) (x :: ys)
  | add (y : α) {xs ys : List α} : new y → Interspersed new xs ys → Interspersed new xs (y :: ys)

namespace Interspersed

variable {α β : Type} {new : α → Prop}

theorem filter_eq {xs ys : List α} (h : Interspersed new xs ys) {p : α → Bool}
    (hp : ∀ y, new y → p y = false) : ys.filter p = xs.filter p := by
  induction h with
  | nil => rfl
  | keep x _ ih => rw [List.filter_cons, List.filter_cons, ih]
  | add y hy _ ih => rw [List.filter_cons_of_neg (by simp [hp y hy]), ih]

theorem any_eq {xs ys : List α} (h : Interspersed new xs ys) {p : α → Bool}
    (hp : ∀ y, new y → p y = false) : ys.any p = xs.any p := by
  induction h with
  | nil => rfl
  | keep x _ ih => rw [List.any_cons, List.any_cons, ih]
  | add y hy _ ih => rw [List.any_cons, hp y hy, Bool.false_or, ih]

/-- What a partial function makes of the members, in which it may make new ones of new ones. -/
theorem filterMap {xs ys : List α} (h : Interspersed new xs ys) {f : α → Option β} {new' : β → Prop}
    (hf : ∀ y, new y → ∀ z, f y = some z → new' z) :
    Interspersed new' (xs.filterMap f) (ys.filterMap f) := by
  induction h with
  | nil => exact .nil
  | keep x _ ih =>
    rw [List.filterMap_cons, List.filterMap_cons]
    cases f x with
    | none => exact ih
    | some z => exact .keep z ih
  | add y hy _ ih =>
    rw [List.filterMap_cons]
    cases hz : f y with
    | none => exact ih
    | some z => exact .add z (hf y hy z hz) ih

theorem filterMap_eq {xs ys : List α} (h : Interspersed new xs ys) {f : α → Option β}
    (hf : ∀ y, new y → f y = none) : ys.filterMap f = xs.filterMap f := by
  induction h with
  | nil => rfl
  | keep x _ ih => rw [List.filterMap_cons, List.filterMap_cons, ih]
  | add y hy _ ih => rw [List.filterMap_cons_none (hf y hy), ih]

theorem lookup_eq [BEq α] [LawfulBEq α] {new : α × β → Prop} {xs ys : List (α × β)}
    (h : Interspersed new xs ys) {k : α} (hk : ∀ y, new y → y.1 ≠ k) : ys.lookup k = xs.lookup k := by
  induction h with
  | nil => rfl
  | keep x _ ih => rw [List.lookup_cons, List.lookup_cons, ih]
  | add y hy _ ih =>
    have hne : (k == y.1) = false := beq_false_of_ne (hk y hy).symm
    rw [List.lookup_cons, hne, ih]

end Interspersed

end RouteDocs
