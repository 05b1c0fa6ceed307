import Mathlib.Computability.Language
import RouteDocs.Pattern.Matcher
import RouteDocs.Proofs.Text.Surrogate

/-!
# RouteDocs.Proofs.Pattern.Preferred — which match a pattern finds

A node tries its ways to match in order of preference, and what follows it decides which of them
stands.  Two judgements keep that apart.  `Node.Prefers` says that a node matches a text first of all:
if what follows is content there, the node ends there.  `Node.Within` says that a node matches nothing
but words of a language, so it fails before a text that starts with none of them (`Node.Fails`).  Both
pass from the parts of a sequence to the whole; a lazy loop goes on to the first place at which what
follows it does not fail.

`Finds` is the scan of a whole text: it passes over places at which the pattern fails and goes on after
each match.
-/

namespace RouteDocs.Pattern

/-! ### Places -/

/-- The place after `u`, with `v` still to come, and with what groups have matched on the way. -/
def State.past (st : State) (u v : List Char) (gs : List (Nat × List Char)) : State :=
  ⟨u.reverse ++ st.before, v, st.position + u.length, gs ++ st.groups⟩

section Places

variable {st : State} {u u' v : List Char} {gs gs' : List (Nat × List Char)} {c : Char}

theorem State.past_nil (h : st.after = v) : st.past [] v [] = st := by
  subst h
  rfl

theorem State.after_advance (st : State) (c : Char) (rest : List Char) :
    (st.advance c rest).after = rest := rfl

theorem State.past_advance : (st.advance c (u ++ v)).past u v gs = st.past (c :: u) v gs := by
  simp [past, advance, Nat.add_assoc, Nat.add_comm 1]

theorem State.past_past :
    (st.past u (u' ++ v) gs).past u' v gs' = st.past (u ++ u') v (gs' ++ gs) := by
  simp [past, Nat.add_assoc]

theorem State.textTo_past (h : st.after = u ++ v) : st.textTo (st.past u v gs) = u := by
  simp [textTo, past, h]

end Places

namespace Node

/-! ### Judgements -/

/-- Before `v` the node matches `u` first of all, its groups `gs` on the way. -/
def Prefers (n : Node) (u v : List Char) (gs : List (Nat × List Char)) : Prop :=
  ∀ st k e, st.after = u ++ v → k (st.past u v gs) = some e → n.run st k = some e

/-- The node matches words of a language only. -/
def Within (n : Node) (L : Language Char) : Prop :=
  ∀ st k e, n.run st k = some e →
    ∃ u ∈ L, ∃ v gs, st.after = u ++ v ∧ k (st.past u v gs) = some e

/-- The node matches nothing at the start of the text. -/
def Fails (n : Node) (a : List Char) : Prop := ∀ st k, st.after = a → n.run st k = none

/-- The node fails at every place of `u`, with `v` after it. -/
def FailsAlong (n : Node) : (u v : List Char) → Prop
  | [], _ => True
  | c :: u, v => n.Fails (c :: u ++ v) ∧ n.FailsAlong u v

section Judgements

variable {n m : Node} {L L' : Language Char} {a u u' v : List Char} {gs gs' : List (Nat × List Char)}

/-- A node fails before a text that starts with no word of its language. -/
theorem Within.fails (h : n.Within L) (ha : ∀ u ∈ L, ¬ u <+: a) : n.Fails a := by
  intro st k hst
  cases hrun : n.run st k with
  | none => rfl
  | some e =>
    obtain ⟨u, hu, v, -, hafter, -⟩ := h st k e hrun
    exact absurd ⟨v, hafter.symm.trans hst⟩ (ha u hu)

theorem failsAlong_append :
    n.FailsAlong (u ++ u') v ↔ n.FailsAlong u (u' ++ v) ∧ n.FailsAlong u' v := by
  induction u with
  | nil => simp [FailsAlong]
  | cons c u ih => simp [FailsAlong, ih, and_assoc]

/-- A node fails along a text if it fails before every end of it that is not empty. -/
theorem failsAlong_of_suffixes (h : ∀ u', u' ≠ [] → u' <:+ u → n.Fails (u' ++ v)) :
    n.FailsAlong u v := by
  induction u with
  | nil => trivial
  | cons c u ih =>
    refine ⟨h _ (List.cons_ne_nil c u) List.suffix_rfl, ih fun u' hne hu' => ?_⟩
    exact h u' hne (hu'.trans (List.suffix_cons c u))

/-! ### Sequences and groups -/

theorem Prefers.seq (hn : n.Prefers u (u' ++ v) gs) (hm : m.Prefers u' v gs') :
    (Node.seq n m).Prefers (u ++ u') v (gs' ++ gs) := by
  intro st k e hst hk
  have hmiddle : m.run (st.past u (u' ++ v) gs) k = some e :=
    hm _ k e rfl (State.past_past ▸ hk)
  exact hn st _ e (hst.trans (List.append_assoc u u' v)) hmiddle

theorem Within.seq (hn : n.Within L) (hm : m.Within L') : (Node.seq n m).Within (L * L') := by
  intro st k e hrun
  obtain ⟨u, hu, w, gs, hst, hmiddle⟩ := hn st _ e hrun
  obtain ⟨u', hu', v, gs', hw, hk⟩ := hm _ k e hmiddle
  obtain rfl : w = u' ++ v := hw
  exact ⟨u ++ u', Language.append_mem_mul hu hu', v, gs' ++ gs,
    hst.trans (List.append_assoc u u' v).symm, State.past_past ▸ hk⟩

theorem Prefers.group {index : ℕ} (hn : n.Prefers u v []) :
    (Node.group index n).Prefers u v [(index, u)] := by
  intro st k e hst hk
  refine hn st _ e hst ?_
  rw [State.textTo_past hst]
  exact hk

theorem Within.group {index : ℕ} (hn : n.Within L) : (Node.group index n).Within L := by
  intro st k e hrun
  obtain ⟨u, hu, v, gs, hst, hk⟩ := hn st _ e hrun
  rw [State.textTo_past hst] at hk
  exact ⟨u, hu, v, (index, u) :: gs, hst, hk⟩

end Judgements

/-! ### Characters -/

/-- The node that matches one given character. -/
def char (c : Char) : Node := .one ⟨[.code (Text.codeOf c)], false⟩ false false

/-- A sequence of given characters before a node. -/
def literally : List Char → Node → Node
  | [], n => n
  | c :: s, n => .seq (char c) (literally s n)

section Characters

variable {test : Char → Bool} {n : Node} {c d : Char} {s a u v : List Char}
  {gs : List (Nat × List Char)}

theorem holds_char :
    (CharClass.mk [.code (Text.codeOf c)] false).holds false false d = true ↔ d = c := by
  simp [CharClass.holds, Item.holds, Text.codeOf_inj]

theorem holds_category {kind : Category} :
    (CharClass.mk [.category kind false] false).holds false false c = kind.holds false c := by
  simp [CharClass.holds, Item.holds]

/-- A node that matches exactly one character tests the next one. -/
theorem run_of_test (hn : n.test? = some test) (st : State) (k : Continuation) :
    n.run st k = match st.after with
      | [] => none
      | c :: r => if test c then k (st.advance c r) else none := by
  cases n with
  | any newlines =>
    obtain rfl := Option.some.inj hn
    rfl
  | one cls ignoreCase ascii =>
    obtain rfl := Option.some.inj hn
    rfl
  | _ => cases hn

theorem prefers_of_test (hn : n.test? = some test) (hc : test c = true) (v : List Char) :
    n.Prefers [c] v [] := by
  intro st k e hst hk
  have hafter : st.after = c :: v := hst
  rw [run_of_test hn, hafter]
  exact (if_pos hc).trans hk

theorem within_of_test (hn : n.test? = some test) : n.Within {w | ∃ c, w = [c] ∧ test c = true} := by
  intro st k e hrun
  rw [run_of_test hn] at hrun
  split at hrun
  · cases hrun
  · rename_i c r hst
    split at hrun
    · rename_i hc
      exact ⟨[c], ⟨c, rfl, hc⟩, r, [], hst, hrun⟩
    · cases hrun

theorem prefers_char (c : Char) (v : List Char) : (char c).Prefers [c] v [] :=
  prefers_of_test rfl (holds_char.mpr rfl) v

theorem within_char (c : Char) : (char c).Within {[c]} := by
  intro st k e hrun
  obtain ⟨-, ⟨d, rfl, hd⟩, hrest⟩ := within_of_test rfl st k e hrun
  obtain rfl := holds_char.mp hd
  exact ⟨[d], rfl, hrest⟩

theorem Prefers.literally (h : n.Prefers u v gs) (s : List Char) :
    (literally s n).Prefers (s ++ u) v gs := by
  induction s with
  | nil => exact h
  | cons c s ih =>
    have hseq := (prefers_char c (s ++ u ++ v)).seq ih
    rwa [List.append_nil] at hseq

/-- Given characters fail before other characters, or with the node that follows them. -/
theorem fails_literally (h : ∀ x, a = s ++ x → n.Fails x) : (literally s n).Fails a := by
  induction s generalizing a with
  | nil => exact h a rfl
  | cons c s ih =>
    intro st k hst
    rw [literally, run, char, run, hst]
    cases a with
    | nil => rfl
    | cons d a =>
      dsimp only
      split
      · rename_i hd
        obtain rfl := holds_char.mp hd
        exact ih (fun x hx => h x (congrArg (d :: ·) hx)) _ k rfl
      · rfl

end Characters

/-! ### Loops -/

/-- What a loop may match after `count` rounds: characters that pass its test, in a number that its
bounds allow. -/
structure IsRun (test : Char → Bool) (least : ℕ) (most : Option ℕ) (count : ℕ) (u : List Char) :
    Prop where
  passes : ∀ c ∈ u, test c = true
  least_le : least ≤ count + u.length
  le_most : ∀ b ∈ most, count + u.length ≤ b

section Loops

variable {body m : Node} {test : Char → Bool} {least count : ℕ} {most : Option ℕ}
  {a u x v : List Char} {c : Char} {gs : List (Nat × List Char)} {found : List State} {st e : State}

theorem roundAllowed_iff : roundAllowed most count = true ↔ ∀ b ∈ most, count < b := by
  cases most <;> simp [roundAllowed]

theorem isRun_nil_iff :
    IsRun test least most count [] ↔ least ≤ count ∧ ∀ b ∈ most, count ≤ b :=
  ⟨fun h => ⟨h.least_le, h.le_most⟩, fun h => ⟨nofun, h.1, h.2⟩⟩

theorem isRun_cons_iff :
    IsRun test least most count (c :: u) ↔ test c = true ∧ IsRun test least most (count + 1) u := by
  have hlength : count + (c :: u).length = count + 1 + u.length := by
    rw [List.length_cons, Nat.add_assoc, Nat.add_comm 1]
  constructor
  · rintro ⟨hpasses, hleast, hmost⟩
    rw [hlength] at hleast hmost
    exact ⟨hpasses c List.mem_cons_self,
      ⟨fun d hd => hpasses d (List.mem_cons_of_mem c hd), hleast, hmost⟩⟩
  · rintro ⟨hc, hpasses, hleast, hmost⟩
    rw [← hlength] at hleast hmost
    exact ⟨List.forall_mem_cons.mpr ⟨hc, hpasses⟩, hleast, hmost⟩

theorem IsRun.roundAllowed (h : IsRun test least most count (c :: u)) :
    Pattern.roundAllowed most count = true := by
  refine roundAllowed_iff.mpr fun b hb => ?_
  have hle := h.le_most b hb
  rw [List.length_cons] at hle
  omega

theorem runPlaces_cons (r : List Char) :
    runPlaces test least most count found st (c :: r) =
      if Pattern.roundAllowed most count && test c then
        runPlaces test least most (count + 1) (if least ≤ count then st :: found else found)
          (st.advance c r) r
      else if least ≤ count then st :: found else found := rfl

/-- A place that a loop may end at: one after a run. -/
def IsPlace (test : Char → Bool) (least : ℕ) (most : Option ℕ) (count : ℕ) (st e : State) : Prop :=
  ∃ u v, st.after = u ++ v ∧ IsRun test least most count u ∧ e = st.past u v []

theorem IsPlace.of_advance {r : List Char} (hst : st.after = c :: r) (hc : test c = true)
    (h : IsPlace test least most (count + 1) (st.advance c r) e) :
    IsPlace test least most count st e := by
  obtain ⟨u, v, hr, hu, rfl⟩ := h
  obtain rfl : r = u ++ v := hr
  exact ⟨c :: u, v, hst, isRun_cons_iff.mpr ⟨hc, hu⟩, State.past_advance⟩

theorem found_eq_append (test : Char → Bool) (least : ℕ) (st : State) (found : List State)
    (hcount : ∀ b ∈ most, count ≤ b) :
    ∃ here, (if least ≤ count then st :: found else found) = here ++ found ∧
      ∀ e ∈ here, IsPlace test least most count st e := by
  by_cases hleast : least ≤ count
  · refine ⟨[st], if_pos hleast, fun e he => ?_⟩
    obtain rfl := List.mem_singleton.mp he
    exact ⟨[], e.after, rfl, isRun_nil_iff.mpr ⟨hleast, hcount⟩, (State.past_nil rfl).symm⟩
  · exact ⟨[], if_neg hleast, nofun⟩

/-- The places of a loop are those after its runs. -/
theorem runPlaces_eq_append (test : Char → Bool) (least : ℕ) (found : List State)
    (hst : st.after = a) (hcount : ∀ b ∈ most, count ≤ b) :
    ∃ places, runPlaces test least most count found st a = places ++ found ∧
      ∀ e ∈ places, IsPlace test least most count st e := by
  induction a generalizing count found st with
  | nil => exact found_eq_append test least st found hcount
  | cons c r ih =>
    rw [runPlaces_cons]
    obtain ⟨here, heq, hhere⟩ := found_eq_append test least st found hcount
    rw [heq]
    by_cases hgo : (Pattern.roundAllowed most count && test c) = true
    · rw [if_pos hgo]
      rw [Bool.and_eq_true, roundAllowed_iff] at hgo
      obtain ⟨places, hplaces, hlater⟩ := ih (here ++ found) (st.after_advance c r) hgo.1
      refine ⟨places ++ here, by rw [hplaces, List.append_assoc], fun e he => ?_⟩
      rcases List.mem_append.mp he with hp | hh
      · exact (hlater e hp).of_advance hst hgo.2
      · exact hhere e hh
    · rw [if_neg hgo]
      exact ⟨here, rfl, hhere⟩

/-- The place after a run stands behind those after longer runs only. -/
theorem runPlaces_append (found : List State) (hu : IsRun test least most count u)
    (hst : st.after = u ++ v) :
    ∃ longer rest,
      runPlaces test least most count found st (u ++ v) = longer ++ st.past u v [] :: rest ∧
      ∀ e ∈ longer, ∃ w x, v = w ++ x ∧ w ≠ [] ∧ IsRun test least most count (u ++ w) ∧
        e = st.past (u ++ w) x [] := by
  induction u generalizing count found st with
  | nil =>
    have hhere : st.past [] v [] = st := State.past_nil hst
    have hleast := (isRun_nil_iff.mp hu).1
    rw [hhere, List.nil_append]
    cases v with
    | nil => exact ⟨[], found, if_pos hleast, nofun⟩
    | cons c r =>
      rw [runPlaces_cons, if_pos hleast]
      by_cases hgo : (Pattern.roundAllowed most count && test c) = true
      · rw [if_pos hgo]
        rw [Bool.and_eq_true, roundAllowed_iff] at hgo
        obtain ⟨longer, hlonger, hall⟩ := runPlaces_eq_append test least (st :: found)
          (st.after_advance c r) hgo.1
        refine ⟨longer, found, hlonger, fun e he => ?_⟩
        obtain ⟨w, x, hr, hw, rfl⟩ := hall e he
        obtain rfl : r = w ++ x := hr
        exact ⟨c :: w, x, rfl, List.cons_ne_nil c w, isRun_cons_iff.mpr ⟨hgo.2, hw⟩,
          State.past_advance⟩
      · rw [if_neg hgo]
        exact ⟨[], found, rfl, nofun⟩
  | cons c u ih =>
    obtain ⟨hc, hrun⟩ := isRun_cons_iff.mp hu
    have hgo : (Pattern.roundAllowed most count && test c) = true := by rw [hu.roundAllowed, hc]; rfl
    rw [List.cons_append, runPlaces_cons, if_pos hgo]
    obtain ⟨longer, rest, hplaces, hall⟩ := ih _ hrun (st.after_advance c (u ++ v))
    refine ⟨longer, rest, by rw [hplaces, State.past_advance], fun e he => ?_⟩
    obtain ⟨w, x, rfl, hne, hw, rfl⟩ := hall e he
    refine ⟨w, x, rfl, hne, isRun_cons_iff.mpr ⟨hc, hw⟩, ?_⟩
    rw [← List.append_assoc, State.past_advance]
    rfl

theorem run_greedy (hbody : body.test? = some test) (st : State) (k : Continuation) :
    (loop .greedy least most body).run st k =
      (runPlaces test least most 0 [] st st.after).findSome? k := by
  unfold run
  rw [hbody]

/-- A greedy loop ends after a run if what follows fails after every longer one. -/
theorem run_greedy_eq_some {k : Continuation} (hbody : body.test? = some test)
    (hu : IsRun test least most 0 u) (hst : st.after = u ++ v) (hk : k (st.past u v []) = some e)
    (hlonger : ∀ w x, v = w ++ x → w ≠ [] → IsRun test least most 0 (u ++ w) →
      k (st.past (u ++ w) x []) = none) :
    (loop .greedy least most body).run st k = some e := by
  obtain ⟨longer, rest, hplaces, hall⟩ := runPlaces_append [] hu hst
  have hnone : longer.findSome? k = none := by
    refine List.findSome?_eq_none_iff.mpr fun place hplace => ?_
    obtain ⟨w, x, hv, hne, hw, rfl⟩ := hall place hplace
    exact hlonger w x hv hne hw
  rw [run_greedy hbody, hst, hplaces, List.findSome?_append, hnone, Option.none_or,
    List.findSome?_cons, hk]

/-- A greedy loop prefers the run that cannot go on. -/
theorem prefers_loop (hbody : body.test? = some test) (hu : IsRun test least most 0 u)
    (hv : ∀ c r, v = c :: r → test c = true → most = some u.length) :
    (loop .greedy least most body).Prefers u v [] := by
  intro st k e hst hk
  refine run_greedy_eq_some hbody hu hst hk fun w x hwx hne hw => ?_
  obtain ⟨c, w, rfl⟩ := List.exists_cons_of_ne_nil hne
  have hc := hw.passes c (List.mem_append_right u List.mem_cons_self)
  have hle := hw.le_most _ (hv c (w ++ x) hwx hc)
  rw [List.length_append, List.length_cons] at hle
  omega

/-- A group of a greedy loop gives back what the node after it needs. -/
theorem Prefers.greedy_group {index : ℕ} (hbody : body.test? = some test)
    (hu : IsRun test least most 0 u) (hm : m.Prefers u' v gs)
    (hlonger : ∀ w x, u' ++ v = w ++ x → w ≠ [] → IsRun test least most 0 (u ++ w) → m.Fails x) :
    (Node.seq (Node.group index (loop .greedy least most body)) m).Prefers (u ++ u') v
      (gs ++ [(index, u)]) := by
  intro st k e hst hk
  rw [List.append_assoc] at hst
  show (loop .greedy least most body).run st
    (fun st' => m.run { st' with groups := (index, st.textTo st') :: st'.groups } k) = some e
  refine run_greedy_eq_some hbody hu hst ?_ fun w x hwx hne hw => hlonger w x hwx hne hw _ k rfl
  rw [State.textTo_past hst]
  refine hm _ k e rfl ?_
  have hgroups : st.past u (u' ++ v) [(index, u)] =
      { st.past u (u' ++ v) [] with groups := (index, u) :: (st.past u (u' ++ v) []).groups } := rfl
  rw [← hgroups, State.past_past]
  exact hk

theorem within_loop (hbody : body.test? = some test) :
    (loop .greedy least most body).Within {u | IsRun test least most 0 u} := by
  intro st k e hrun
  have hcount : ∀ b ∈ most, 0 ≤ b := fun b _ => Nat.zero_le b
  obtain ⟨places, hplaces, hall⟩ := runPlaces_eq_append test least [] rfl hcount
  rw [run_greedy hbody, hplaces, List.append_nil] at hrun
  obtain ⟨place, hplace, hk⟩ := List.exists_of_findSome?_eq_some hrun
  obtain ⟨u, v, hst, hu, rfl⟩ := hall place hplace
  exact ⟨u, hu, v, [], hst, hk⟩

/-- A lazy loop over any characters, and a node after it. -/
def lazily (m : Node) : Node := .seq (.loop .lazy 0 none (.any true)) m

theorem run_lazily (st : State) (k : Continuation) :
    (lazily m).run st k = runLazily (fun _ => true) 0 none (m.run · k) 0 st st.after := rfl

/-- The number of rounds made so far has no part in a lazy loop without bounds. -/
theorem runLazily_count (k : Continuation) (count count' : ℕ) (st : State) (a : List Char) :
    runLazily (fun _ => true) 0 none k count st a =
      runLazily (fun _ => true) 0 none k count' st a := by
  induction a generalizing count count' st with
  | nil => rfl
  | cons c r ih =>
    rw [runLazily, runLazily, ih (count + 1) (count' + 1)]
    rfl

theorem run_lazily_nil (k : Continuation) (hst : st.after = []) :
    (lazily m).run st k = m.run st k := by
  rw [run_lazily, hst]
  rfl

/-- A lazy loop first tries what follows it, and then goes on by a character. -/
theorem run_lazily_cons (k : Continuation) (r : List Char) (hst : st.after = c :: r) :
    (lazily m).run st k = (m.run st k).or ((lazily m).run (st.advance c r) k) := by
  rw [run_lazily, run_lazily, hst, runLazily, runLazily_count _ (0 + 1) 0]
  cases m.run st k <;> rfl

theorem run_lazily_of_eq_some {k : Continuation} (h : m.run st k = some e) :
    (lazily m).run st k = some e := by
  cases hst : st.after with
  | nil => rw [run_lazily_nil k hst, h]
  | cons c r => rw [run_lazily_cons k r hst, h, Option.some_or]

theorem run_lazily_along (hx : m.FailsAlong x v) (k : Continuation) (hst : st.after = x ++ v) :
    (lazily m).run st k = (lazily m).run (st.past x v []) k := by
  induction x generalizing st with
  | nil =>
    have hhere : st.past [] v [] = st := State.past_nil hst
    rw [hhere]
  | cons c x ih =>
    obtain ⟨hhere, hx⟩ := hx
    rw [run_lazily_cons k (x ++ v) hst, hhere st k hst, Option.none_or,
      ih hx (st.after_advance c (x ++ v)), State.past_advance]

/-- A lazy loop ends where what follows it does not fail. -/
theorem Prefers.lazily (hm : m.Prefers u v gs) : (lazily m).Prefers u v gs := by
  intro st k e hst hk
  exact run_lazily_of_eq_some (hm st k e hst hk)

/-- A lazy loop goes on where what follows it fails. -/
theorem Prefers.lazily_along (hx : m.FailsAlong x (u ++ v)) (h : (Node.lazily m).Prefers u v gs) :
    (Node.lazily m).Prefers (x ++ u) v gs := by
  intro st k e hst hk
  rw [List.append_assoc] at hst
  rw [run_lazily_along hx k hst]
  refine h _ k e rfl ?_
  rw [State.past_past, List.append_nil]
  exact hk

theorem fails_lazily_nil (hm : m.Fails []) : (Node.lazily m).Fails [] := by
  intro st k hst
  rw [run_lazily_nil k hst, hm st k hst]

theorem Fails.lazily_along (hx : m.FailsAlong x v) (h : (Node.lazily m).Fails v) :
    (Node.lazily m).Fails (x ++ v) := by
  intro st k hst
  rw [run_lazily_along hx k hst]
  exact h _ k rfl

end Loops

end Node

/-! ### All matches -/

section Scan

variable {p : Pattern} {u v text : List Char} {gs : List (Nat × List Char)} {ms : List Match}
  {st : State}

/-- From any place on, the pattern finds these matches in the text that is still to come. -/
def Finds (p : Pattern) (text : List Char) (ms : List Match) : Prop :=
  ∀ before position, p.findFrom 0 before position text = ms

/-- What a pattern finds where it matches a text with some groups. -/
def matchOf (p : Pattern) (u : List Char) (gs : List (Nat × List Char)) : Match :=
  ⟨u, (List.range p.groupCount).map fun i => (gs.lookup (i + 1)).getD []⟩

theorem findAll_of_finds (h : p.Finds text ms) : p.findAll text = ms := h [] 0

theorem matchesAt_of_fails (h : p.root.Fails st.after) : p.matchesAt st = ([], 1) := by
  rw [matchesAt, matchAt?, h st _ rfl]

theorem matchesAt_of_prefers (h : p.root.Prefers u v gs) (hst : st.after = u ++ v) (hu : u ≠ [])
    (hgroups : st.groups = []) : p.matchesAt st = ([p.matchOf u gs], u.length) := by
  have hmatch : p.matchAt? true st = some (st.past u v gs) := h st _ _ hst rfl
  have hmoved : (st.past u v gs).position ≠ st.position := by
    have hpos := List.length_pos_iff.mpr hu
    show st.position + u.length ≠ st.position
    omega
  have hfound : p.matchBetween st (st.past u v gs) = p.matchOf u gs := by
    rw [matchBetween, State.textTo_past hst]
    simp [matchOf, State.past, hgroups]
  have hstep : (st.past u v gs).position - st.position = u.length := Nat.add_sub_cancel_left _ _
  rw [matchesAt, hmatch]
  dsimp only
  rw [if_neg hmoved, hfound, hstep]

theorem finds_nil (h : p.root.Fails []) : p.Finds [] [] := fun before position => by
  rw [findFrom, matchesAt_of_fails h]

/-- Places at which the pattern fails are passed over. -/
theorem Finds.along (hu : p.root.FailsAlong u v) (hv : p.Finds v ms) : p.Finds (u ++ v) ms := by
  induction u with
  | nil => exact hv
  | cons c u ih =>
    obtain ⟨hhere, hu⟩ := hu
    intro before position
    rw [List.cons_append, findFrom, matchesAt_of_fails hhere]
    exact ih hu _ _

theorem findFrom_skip (u v before : List Char) (position : ℕ) :
    p.findFrom u.length before position (u ++ v) =
      p.findFrom 0 (u.reverse ++ before) (position + u.length) v := by
  induction u generalizing before position with
  | nil => rfl
  | cons c u ih =>
    rw [List.length_cons, List.cons_append, findFrom, ih]
    simp [Nat.add_assoc, Nat.add_comm 1]

/-- After a match the scan goes on with the rest. -/
theorem Finds.after (hu : p.root.Prefers u v gs) (hne : u ≠ []) (hv : p.Finds v ms) :
    p.Finds (u ++ v) (p.matchOf u gs :: ms) := by
  intro before position
  obtain ⟨c, u, rfl⟩ := List.exists_cons_of_ne_nil hne
  rw [List.cons_append, findFrom, matchesAt_of_prefers hu rfl hne rfl]
  dsimp only
  rw [List.length_cons, Nat.add_sub_cancel, findFrom_skip, hv]
  rfl

end Scan

end RouteDocs.Pattern
