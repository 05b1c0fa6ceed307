import Mathlib.Data.List.Infix
import RouteDocs.Manifest.Resolver
import RouteDocs.Proofs.Route.ResourceName

/-!
# RouteDocs.Proofs.Manifest.Namespace — the routes of the controllers of a namespace

A controller lives in a namespace if its segments begin with those of the namespace and there is at least
one more (`LivesIn`).  The routes of an interface are chosen by the text of the namespace instead, so a
controller that goes on with another character than a backslash is taken for one of the namespace as well
(`GoesPast`).  The two ways of choosing agree on a route table exactly if no such controller answers a
route of it, and on every route table exactly if the namespace is written with a backslash at its end
(`documentedRoutes_eq_iff`).
-/

namespace RouteDocs

open Text

/-! ### Segments -/

namespace Text

section Segments

variable {separator : Char} {s u : List Char}

/-- The pieces of a text begin with those of another, and there are more of them, if the text goes on
from the other one with the separator. -/
theorem splitAt_prefix_iff :
    splitAt separator s <+: splitAt separator u ∧
        (splitAt separator s).length < (splitAt separator u).length ↔
      s ++ [separator] <+: u := by
  constructor
  · rintro ⟨⟨more, hmore⟩, hlength⟩
    have hne : more ≠ [] := by
      rintro rfl
      rw [← hmore, List.append_nil] at hlength
      exact Nat.lt_irrefl _ hlength
    have hjoin := joinWith_splitAt separator u
    rw [← hmore, joinWith_append (splitAt_ne_nil separator s) hne, joinWith_splitAt] at hjoin
    exact ⟨_, hjoin⟩
  · rintro ⟨v, rfl⟩
    have hpos := List.length_pos_of_ne_nil (splitAt_ne_nil separator v)
    rw [List.append_assoc, List.singleton_append, splitAt_append, List.length_append]
    exact ⟨List.prefix_append _ _, by omega⟩

end Segments

end Text

/-! ### Controllers of a namespace -/

/-- The segments of a controller begin with those of the namespace, where a backslash at its end does not
count, and there is at least one more. -/
def LivesIn (space controller : String) : Prop :=
  let base := pieces '\\' (String.ofList (withoutEnding ['\\'] space.toList))
  base <+: pieces '\\' controller ∧ base.length < (pieces '\\' controller).length

/-- The controller begins with the text of a namespace that does not end in a backslash, and no backslash
follows. -/
def GoesPast (space controller : String) : Prop :=
  ¬ ['\\'] <:+ space.toList ∧ space.toList <+: controller.toList ∧
    ¬ space.toList ++ ['\\'] <+: controller.toList

instance (space : String) : DecidablePred (LivesIn space) := fun _ =>
  inferInstanceAs (Decidable (_ ∧ _))

instance (space : String) : DecidablePred (GoesPast space) := fun _ =>
  inferInstanceAs (Decidable (_ ∧ _))

section Spaces

variable {space controller : String}

theorem livesIn_iff :
    LivesIn space controller ↔ withoutEnding ['\\'] space.toList ++ ['\\'] <+: controller.toList := by
  have hinjective : Function.Injective String.ofList := fun _ _ => String.ofList_inj.mp
  rw [LivesIn, pieces, pieces, String.toList_ofList, List.length_map, List.length_map,
    List.prefix_map_iff_of_injective hinjective, splitAt_prefix_iff]

/-- A controller that begins with the text of a namespace lives in it or goes past it. -/
theorem prefix_iff_livesIn_or_goesPast :
    space.toList <+: controller.toList ↔ LivesIn space controller ∨ GoesPast space controller := by
  rw [livesIn_iff, GoesPast]
  by_cases hends : ['\\'] <:+ space.toList
  · obtain ⟨base, hbase⟩ := hends
    rw [← hbase, withoutEnding_append]
    simp
  · rw [withoutEnding_of_not_suffix hends]
    have hlonger : space.toList ++ ['\\'] <+: controller.toList → space.toList <+: controller.toList :=
      (List.prefix_append _ _).trans
    tauto

theorem GoesPast.not_livesIn (h : GoesPast space controller) : ¬ LivesIn space controller := by
  rw [livesIn_iff, withoutEnding_of_not_suffix h.1]
  exact h.2.2

end Spaces

namespace Manifest

/-! ### The routes of an interface -/

/-- A controller of some kind answers the route, behind the middleware of the interface. -/
def Answers (s : Settings) (kind : String → Prop) (r : Route) : Prop :=
  ∃ h : Handler, h.Names r.action ∧ kind h.controller ∧ s.apiMiddleware ∈ r.middleware

section Routes

variable {s : Settings} {r : Route} {routes : List Route} {kind kind' : String → Prop}

theorem answers_iff :
    Answers s kind r ↔ ∃ h ∈ r.handler?, kind h.controller ∧ s.apiMiddleware ∈ r.middleware := by
  simp only [Answers, ← Handler.parse?_eq_some_iff]
  rfl

instance [DecidablePred kind] : DecidablePred (Answers s kind) := fun _ =>
  decidable_of_iff _ answers_iff.symm

/-- An action names one handler, so controllers of two kinds answer the same route only if one controller
is of both. -/
theorem Answers.and (h : Answers s kind r) (h' : Answers s kind' r) :
    ∃ controller, kind controller ∧ kind' controller := by
  obtain ⟨handler, hhandler, hkind, -⟩ := answers_iff.mp h
  obtain ⟨handler', hhandler', hkind', -⟩ := answers_iff.mp h'
  obtain rfl : handler = handler' := Option.mem_unique hhandler hhandler'
  exact ⟨handler.controller, hkind, hkind'⟩

theorem isDocumented_iff :
    isDocumented s r = true ↔
      Answers s (LivesIn s.controllerNamespace) r ∨ Answers s (GoesPast s.controllerNamespace) r := by
  rw [answers_iff, answers_iff, isDocumented]
  cases r.handler? with
  | none => simp
  | some h => simp [prefix_iff_livesIn_or_goesPast, or_and_right]

theorem documentedRoutes_eq (s : Settings) (routes : List Route) :
    documentedRoutes s routes = routes.filter fun r =>
      Answers s (LivesIn s.controllerNamespace) r ∨ Answers s (GoesPast s.controllerNamespace) r := by
  refine List.filter_congr fun r _ => ?_
  rw [Bool.eq_iff_iff, isDocumented_iff, decide_eq_true_iff]

theorem documentedRoutes_eq_filter_iff :
    documentedRoutes s routes = routes.filter (Answers s (LivesIn s.controllerNamespace) ·) ↔
      ∀ r ∈ routes, ¬ Answers s (GoesPast s.controllerNamespace) r := by
  rw [documentedRoutes_eq]
  constructor
  · intro h r hr hpast
    have hmem : r ∈ routes.filter (Answers s (LivesIn s.controllerNamespace) ·) := by
      rw [← h, List.mem_filter]
      exact ⟨hr, decide_eq_true (.inr hpast)⟩
    obtain ⟨controller, hpasses, hlives⟩ := hpast.and (of_decide_eq_true (List.mem_filter.mp hmem).2)
    exact hpasses.not_livesIn hlives
  · intro h
    refine List.filter_congr fun r hr => ?_
    rw [Bool.eq_iff_iff, decide_eq_true_iff, decide_eq_true_iff]
    exact or_iff_left (h r hr)

/-- Without a backslash at the end of the namespace, a letter after it makes a route that goes past it. -/
theorem exists_goesPast (s : Settings) (h : ¬ ['\\'] <:+ s.controllerNamespace.toList) :
    ∃ r, Answers s (GoesPast s.controllerNamespace) r := by
  let handler : Handler := ⟨s.controllerNamespace ++ "s", "show"⟩
  have hmethod : '@' ∉ "show".toList := by decide
  have hnonempty : "show" ≠ "" := by decide
  refine ⟨{ uri := "", methods := [], action := handler.action, middleware := [s.apiMiddleware] },
    handler, ⟨rfl, hmethod, by simp [handler], hnonempty⟩, ⟨h, ?_, ?_⟩, List.mem_singleton_self _⟩
  · rw [String.toList_append]
    exact List.prefix_append _ _
  · rw [String.toList_append, List.prefix_append_right_inj]
    decide

/-- **The routes of an interface are those of the namespace and those that go past it.**  They are kept in
their order, each as often as it is there.  They are the routes of the namespace alone exactly if none goes
past it, and this holds of every route table exactly if the namespace ends in a backslash. -/
theorem documentedRoutes_eq_iff (s : Settings) :
    (∀ routes,
      (documentedRoutes s routes = routes.filter fun r =>
        Answers s (LivesIn s.controllerNamespace) r ∨ Answers s (GoesPast s.controllerNamespace) r) ∧
      (documentedRoutes s routes = routes.filter (Answers s (LivesIn s.controllerNamespace) ·) ↔
        ∀ r ∈ routes, ¬ Answers s (GoesPast s.controllerNamespace) r)) ∧
    ((∀ routes, documentedRoutes s routes =
        routes.filter (Answers s (LivesIn s.controllerNamespace) ·)) ↔
      ['\\'] <:+ s.controllerNamespace.toList) := by
  refine ⟨fun routes => ⟨documentedRoutes_eq s routes, documentedRoutes_eq_filter_iff⟩, ?_, ?_⟩
  · intro hall
    by_contra hends
    obtain ⟨r, hr⟩ := exists_goesPast s hends
    exact documentedRoutes_eq_filter_iff.mp (hall [r]) r List.mem_cons_self hr
  · intro hends routes
    refine documentedRoutes_eq_filter_iff.mpr fun r _ hr => ?_
    obtain ⟨handler, -, hpast, -⟩ := hr
    exact hpast.1 hends

/-- The controllers of a namespace whose name begins with that of the application are taken for its own. -/
theorem neighbouring_namespace_documented :
    let r : Route :=
      { uri := "api/users", methods := ["GET"], middleware := ["api"],
        action := "App\\Http\\ControllersLegacy\\UserController@show" }
    documentedRoutes {} [r] = [r] ∧
      [r].filter (Answers {} (LivesIn ({} : Settings).controllerNamespace) ·) = [] := by
  decide

end Routes

end Manifest

end RouteDocs
