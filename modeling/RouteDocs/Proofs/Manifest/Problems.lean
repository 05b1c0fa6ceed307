import Mathlib.Logic.Basic
import RouteDocs.Proofs.Manifest.Sources

/-!
# RouteDocs.Proofs.Manifest.Problems — what is reported as a problem of the manifest

Most of what can be wrong with a manifest or with a source file is reported as a problem of the
manifest, with the path of the file (`Reported`).  The exceptions are few: a path or bytes that are
none, a scalar that is marked as a value of a type and has no such value, and a pattern that is
well-formed and still refused.  They are listed by `Manifest.Escapes` and `Resolver.Escapes`, and there
are no others (`reported_iff`), whatever languages the values and the patterns are written in.
-/

namespace RouteDocs

open Text

/-- A result, or a fault that is a problem of the manifest. -/
def Reported {α : Type} (x : Except Fault α) : Prop :=
  (∃ a, x = .ok a) ∨ ∃ path problem, x = .error (.manifest path problem)

theorem reported_ok {α : Type} (a : α) : Reported (.ok a) := .inl ⟨a, rfl⟩

theorem reported_manifest {α : Type} (path : Path) (problem : ManifestProblem) :
    Reported (.error (.manifest path problem) : Except Fault α) := .inr ⟨path, problem, rfl⟩

theorem not_reported_plain {α : Type} (c : Cause) :
    ¬ Reported (.error (.plain c) : Except Fault α) := by
  rintro (⟨a, h⟩ | ⟨path, problem, h⟩) <;> cases h

/-- A run that is either reported or has one of some causes is reported when it has none of them. -/
theorem reported_iff_of_cases {α : Type} {x : Except Fault α} {P : Cause → Prop}
    (h : (Reported x ∧ ∀ c, ¬ P c) ∨ ∃ c, x = .error (.plain c) ∧ P c) :
    Reported x ↔ ∀ c, ¬ P c := by
  rcases h with ⟨hx, hP⟩ | ⟨c, rfl, hc⟩
  · exact iff_of_true hx hP
  · exact iff_of_false (not_reported_plain c) fun hP => hP c hc

/-! ### Loading -/

namespace Heuristics

/-- Heuristics are refused for a name that none has. -/
theorem exists_unknown_of_ofPairs {pairs : List (String × String)} {c : Cause}
    (h : ofPairs pairs = .error c) : ∃ name, c = .unknownHeuristic name := by
  have hset : ∀ (own : Heuristics) (name value : String), own.set name value = .error c →
      ∃ name, c = .unknownHeuristic name := by
    intro own name value hset
    unfold set at hset
    repeat' split at hset
    all_goals cases hset
    exact ⟨name, rfl⟩
  unfold ofPairs at h
  generalize ({} : Heuristics) = own at h
  induction pairs generalizing own with
  | nil => cases h
  | cons p pairs ih =>
    rw [List.foldlM_cons] at h
    cases hown : own.set p.1 p.2 with
    | error c' =>
      rw [hown] at h
      obtain rfl : c' = c := Except.error.inj h
      exact hset own _ _ hown
    | ok own' =>
      rw [hown] at h
      exact ih own' h

/-- What is wrong with heuristics is wrong with a pattern. -/
theorem exists_pattern_of_checkWith
    {compile : List Char → Except Pattern.Error Pattern} {h : Heuristics} {c : Cause}
    (hcheck : h.checkWith compile = .error c) : ∃ e, c = .pattern e := by
  have herror : ∀ (texts : List String), (texts.forM fun text => do
      let _ ← (compile text.toList).mapError Cause.pattern) = .error c → ∃ e, c = .pattern e := by
    intro texts
    induction texts with
    | nil => exact nofun
    | cons text texts ih =>
      rw [List.forM_eq_forM, List.forM_cons, ← List.forM_eq_forM]
      cases compile text.toList with
      | error e =>
        intro he
        exact ⟨e, (Except.error.inj he).symm⟩
      | ok p => exact ih
  exact herror _ hcheck

end Heuristics

namespace Manifest

variable {α : Type} {l : Languages α} {files : FileTree} {path : Path} {s : List Char} {c : Cause}
  {m : Manifest} {v : α}

/-- What is wrong with the text of a manifest and is not reported: the reader of values or that of
patterns refuses it, but not because it breaks the rules of the language. -/
inductive TextEscapes (l : Languages α) (s : List Char) : Cause → Prop
  | scalar {f : Yaml.Fault} (hread : l.read s = .error f) (hf : f.isSyntactic = false) :
      TextEscapes l s (.yaml f)
  | pattern {v : α} {m : Manifest} {h : Heuristics} {e : Pattern.Error}
      (hread : l.read s = .ok v) (hvalue : l.describe v = .ok m) (hown : m.ownHeuristics = .ok h)
      (hcheck : h.checkWith l.compile = .error (.pattern e)) (he : e.isSyntactic = false) :
      TextEscapes l s (.pattern e)

/-- What is wrong with the file of a manifest and is not reported. -/
inductive Escapes (l : Languages α) (files : FileTree) (path : Path) (c : Cause) : Prop
  | file (h : files.NoText path c)
  | text {s : List Char} (ht : files.Readable path s) (hc : TextEscapes l s c)

/-- A run that is refused for a cause is reported, or the cause is not one of the language and it is
what escapes. -/
theorem refuse_cases {β : Type} {P : Cause → Prop} (path : Path)
    (hP : ∀ c', P c' ↔ c' = c ∧ c.isSyntactic = false) :
    (Reported (refuse path c : Except Fault β) ∧ ∀ c', ¬ P c') ∨
      ∃ c', (refuse path c : Except Fault β) = .error (.plain c') ∧ P c' := by
  unfold refuse
  cases hc : c.isSyntactic with
  | true =>
    refine .inl ⟨reported_manifest path _, fun c' hc' => ?_⟩
    have hfalse := ((hP c').mp hc').2
    rw [hc] at hfalse
    cases hfalse
  | false => exact .inr ⟨c, rfl, (hP c).mpr ⟨rfl, hc⟩⟩

/-- Of a text that is not read only the fault of the reading can escape. -/
theorem textEscapes_iff_of_fault {f : Yaml.Fault} (hread : l.read s = .error f) :
    TextEscapes l s c ↔ c = .yaml f ∧ (Cause.yaml f).isSyntactic = false := by
  constructor
  · rintro (⟨hr, hf⟩ | ⟨hr, -⟩)
    · obtain rfl := Except.error.inj (hread.symm.trans hr)
      exact ⟨rfl, hf⟩
    · rw [hread] at hr
      cases hr
  · rintro ⟨rfl, hf⟩
    exact .scalar hread hf

/-- Of a text that is read, only a pattern of the manifest in it can escape. -/
theorem TextEscapes.exists_pattern (hread : l.read s = .ok v) (hc : TextEscapes l s c) :
    ∃ m, l.describe v = .ok m ∧ m.ownHeuristics.bind (Heuristics.checkWith l.compile) = .error c ∧
      c.isSyntactic = false := by
  rcases hc with ⟨hr, -⟩ | @⟨v', m, h, e, hr, hvalue, hown, hcheck, he⟩
  · rw [hread] at hr
    cases hr
  · obtain rfl := Except.ok.inj (hread.symm.trans hr)
    refine ⟨m, hvalue, ?_, he⟩
    rw [hown]
    exact hcheck

theorem textEscapes_iff_of_check (hread : l.read s = .ok v) (hvalue : l.describe v = .ok m) :
    TextEscapes l s c ↔ m.ownHeuristics.bind (Heuristics.checkWith l.compile) = .error c ∧
      c.isSyntactic = false := by
  constructor
  · intro hc
    obtain ⟨m', hvalue', hcheck⟩ := hc.exists_pattern hread
    obtain rfl := Except.ok.inj (hvalue.symm.trans hvalue')
    exact hcheck
  · rintro ⟨hcheck, hc⟩
    cases hown : m.ownHeuristics with
    | error c' =>
      -- a name that no heuristic has is reported
      obtain ⟨name, rfl⟩ := Heuristics.exists_unknown_of_ofPairs hown
      rw [hown] at hcheck
      obtain rfl := Except.error.inj hcheck
      cases hc
    | ok h =>
      rw [hown] at hcheck
      obtain ⟨e, rfl⟩ := Heuristics.exists_pattern_of_checkWith hcheck
      exact .pattern hread hvalue hown hcheck hc

/-- The text of a manifest is refused with a report, unless what is wrong with it escapes. -/
theorem ofTextIn_cases (l : Languages α) (path : Path) (s : List Char) :
    (Reported (ofTextIn l path s) ∧ ∀ c, ¬ TextEscapes l s c) ∨
      ∃ c, ofTextIn l path s = .error (.plain c) ∧ TextEscapes l s c := by
  unfold ofTextIn
  cases hread : l.read s with
  | error f => exact refuse_cases path fun _ => textEscapes_iff_of_fault hread
  | ok v =>
    dsimp only
    cases hvalue : l.describe v with
    | error problem =>
      refine .inl ⟨reported_manifest _ _, fun c hc => ?_⟩
      obtain ⟨m, hvalue', -⟩ := hc.exists_pattern hread
      rw [hvalue] at hvalue'
      cases hvalue'
    | ok m =>
      have hescapes := fun c => textEscapes_iff_of_check (c := c) hread hvalue
      dsimp only
      cases hcheck : m.ownHeuristics.bind (Heuristics.checkWith l.compile) with
      | error c =>
        refine refuse_cases path fun c' => ?_
        rw [hescapes, hcheck, Except.error.injEq, eq_comm (a := c)]
        exact and_congr_right fun hc => by rw [hc]
      | ok u =>
        refine .inl ⟨?_, fun c hc => ?_⟩
        · dsimp only
          cases m.unknownValidator? with
          | some p => exact reported_manifest _ _
          | none => exact reported_ok m
        · have herror := ((hescapes c).mp hc).1
          rw [hcheck] at herror
          cases herror

theorem loadIn_of_readText (hname : path.isUnencodable = false) (hnul : path.hasNul = false) :
    loadIn l files path = match files.readText path with
      | .error issue => .error (.manifest path (.cannotRead issue))
      | .ok none => .error (.plain .notText)
      | .ok (some s) => ofTextIn l path s :=
  (if_neg (ne_true_of_eq_false hname)).trans (if_neg (ne_true_of_eq_false hnul))

theorem loadIn_of_noText (h : files.NoText path c) : loadIn l files path = .error (.plain c) := by
  cases h with
  | name hname => rw [loadIn, if_pos hname]
  | path hname hnul => rw [loadIn, hname, if_neg Bool.false_ne_true, if_pos hnul]
  | bytes hname hnul hread hbytes =>
    rw [loadIn_of_readText hname hnul, FileTree.readText_eq_none_iff.mpr ⟨_, hread, hbytes⟩]

theorem loadIn_cases (l : Languages α) (files : FileTree) (path : Path) :
    (Reported (loadIn l files path) ∧ ∀ c, ¬ Escapes l files path c) ∨
      ∃ c, loadIn l files path = .error (.plain c) ∧ Escapes l files path c := by
  obtain ⟨c, hc⟩ | ⟨hname, hnul, ⟨issue, hissue⟩ | ⟨s, hs⟩⟩ := files.text_cases path
  · exact .inr ⟨c, loadIn_of_noText hc, .file hc⟩
  · rw [loadIn_of_readText hname hnul, hissue]
    refine .inl ⟨reported_manifest _ _, fun c hc => ?_⟩
    rcases hc with h | ⟨⟨-, -, ht⟩, -⟩
    · exact nomatch hissue.symm.trans (h.readText_eq_none hname hnul)
    · exact nomatch hissue.symm.trans ht
  · rw [loadIn_of_readText hname hnul, hs]
    rcases ofTextIn_cases l path s with ⟨hx, hnone⟩ | ⟨c, hx, hc⟩
    · refine .inl ⟨hx, fun c hc => ?_⟩
      rcases hc with h | ⟨⟨-, -, ht⟩, hc⟩
      · exact nomatch hs.symm.trans (h.readText_eq_none hname hnul)
      · obtain rfl := Option.some.inj (Except.ok.inj (hs.symm.trans ht))
        exact hnone c hc
    · exact .inr ⟨c, hx, .text ⟨hname, hnul, hs⟩ hc⟩

end Manifest

/-! ### Sources -/

namespace Resolver

variable {r : Resolver} {files : FileTree} {h : Handler} {p : Path} {c : Cause}

/-- What is wrong with the source file of a handler and is not reported: it has no text, and none was read
before. -/
def Escapes (r : Resolver) (files : FileTree) (h : Handler) (c : Cause) : Prop :=
  ∃ p span?, r.PointsTo h p span? ∧ r.read.lookup p = none ∧ files.NoText p c

theorem sourceFor_of_escapes (hc : r.Escapes files h c) :
    r.sourceFor files h = .error (.plain c) := by
  obtain ⟨p, span?, hp, hnew, hc⟩ := hc
  rw [sourceFor_of_pointsTo hp, linesOf_of_noText hnew hc]

theorem sourceFor_cases (r : Resolver) (files : FileTree) (h : Handler) :
    (Reported (r.sourceFor files h) ∧ ∀ c, ¬ r.Escapes files h c) ∨
      ∃ c, r.sourceFor files h = .error (.plain c) ∧ r.Escapes files h c := by
  by_cases hex : ∃ c, r.Escapes files h c
  · obtain ⟨c, hc⟩ := hex
    exact .inr ⟨c, sourceFor_of_escapes hc, hc⟩
  · refine .inl ⟨?_, not_exists.mp hex⟩
    rcases needsNoFile_or_pointsTo r h with ⟨s, hs⟩ | ⟨p, span?, hp⟩
    · rw [hs files]
      exact reported_ok _
    · rw [sourceFor_of_pointsTo hp]
      cases hread : r.read.lookup p with
      | some lines =>
        rw [linesOf_of_read hread]
        exact reported_ok _
      | none =>
        obtain ⟨c, hc⟩ | ⟨hname, hnul, ⟨issue, hissue⟩ | ⟨t, ht⟩⟩ := files.text_cases p
        · exact absurd ⟨c, p, span?, hp, hread, hc⟩ hex
        · rw [linesOf_of_issue hread hname hnul hissue]
          exact reported_manifest _ _
        · rw [linesOf_of_readable hread ⟨hname, hnul, ht⟩]
          exact reported_ok _

end Resolver

/-- **What is reported.**  Loading a manifest, in any languages, ends with the manifest or a problem of
it, and looking for the source of a handler with a text or a problem of the manifest, exactly when
nothing escapes. -/
theorem reported_iff {α : Type} (l : Manifest.Languages α) (files : FileTree) (path : Path)
    (r : Resolver) (h : Handler) :
    (Reported (Manifest.loadIn l files path) ↔ ∀ c, ¬ Manifest.Escapes l files path c) ∧
      (Reported (r.sourceFor files h) ↔ ∀ c, ¬ r.Escapes files h c) :=
  ⟨reported_iff_of_cases (Manifest.loadIn_cases l files path),
    reported_iff_of_cases (r.sourceFor_cases files h)⟩

/-- A manifest of one byte that is no text is refused, and not as a problem of the manifest. -/
theorem byte_stops_load :
    let files : FileTree := { entries := [(⟨0, ["api.yaml"]⟩, .file [0xff])] }
    Manifest.load files manifestPath = .error (.plain .notText) ∧
      ¬ Reported (Manifest.load files manifestPath) := by
  intro files
  have hload : Manifest.load files manifestPath = .error (.plain .notText) := by
    have hnone : files.readText manifestPath = .ok none :=
      FileTree.readText_eq_none_iff.mpr ⟨[0xff], rfl, by decide +kernel⟩
    rw [Manifest.load, Manifest.loadIn_of_readText (by decide) (by decide), hnone]
  exact ⟨hload, hload ▸ not_reported_plain _⟩

end RouteDocs
