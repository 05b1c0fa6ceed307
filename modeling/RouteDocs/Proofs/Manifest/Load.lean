import RouteDocs.Manifest.Basic
import RouteDocs.Proofs.Fault

/-!
# RouteDocs.Proofs.Manifest.Load — what stands behind a manifest that is loaded

A manifest is loaded when its file is a text, the text is YAML for a value of the required shape, the
heuristics it gives have known names and patterns that can be read, and every validator that a handler
names is there (`loadIn_eq_ok_iff`, `ofTextIn_eq_ok_iff`).
-/

namespace RouteDocs

open Text

/-- A file with the bytes of a text holds that text, but for the ends of its lines. -/
theorem FileTree.readText_of_read {files : FileTree} {p : Path} {s : String}
    (h : files.read p = .ok s.toUTF8.data.toList) :
    files.readText p = .ok (some (unifyLineEnds s.toList)) := by
  have hs : String.fromUTF8? ⟨s.toUTF8.data.toList.toArray⟩ = some s := dif_pos s.isValidUTF8
  unfold readText
  rw [h]
  exact congrArg (fun t? : Option String => Except.ok (t?.map fun t => unifyLineEnds t.toList)) hs

/-- The path of the manifest where there is no other file. -/
def manifestPath : Path := ⟨.here, ["api.yaml"]⟩

/-- The files of an application of which there is only the text of a manifest. -/
def onlyManifest (text : String) : FileTree :=
  { entries := [(⟨0, ["api.yaml"]⟩, .file text.toUTF8.data.toList)] }

namespace Manifest

variable {path : Path} {s : List Char} {m : Manifest}

theorem not_refuse_eq_ok {α : Type} {c : Cause} {a : α} : ¬ refuse path c = .ok a := by
  unfold refuse
  split <;> exact nofun

/-- A value of the required shape is null, or a record of fields that pass with heuristics whose names
are known. -/
theorem ofValue_cases {v : Value} (h : ofValue v = .ok m) :
    m = {} ∨ ∃ fields own, Shape.recordFields? v = some fields ∧ ofFields fields = .ok m ∧
      m.ownHeuristics = .ok own := by
  unfold ofValue at h
  split at h
  · cases h
    exact .inl rfl
  · rename_i entries
    split at h
    · cases hrecord : Cause.ofChecked (Shape.recordOf ofFields (.map entries)) with
      | error c => rw [hrecord] at h; cases h
      | ok m' =>
        rw [hrecord] at h
        dsimp only at h
        cases hown : Heuristics.ofPairs m'.heuristics with
        | error c => rw [hown] at h; cases h
        | ok own =>
          rw [hown] at h
          obtain rfl : m' = m := Except.ok.inj h
          exact .inr ⟨_, own, rfl, Cause.ofChecked_eq_ok_iff.mp hrecord, hown⟩
    · cases h
  · cases h

section Languages

variable {α : Type} {l : Languages α}

theorem ofTextIn_eq_ok_iff : ofTextIn l path s = .ok m ↔
    (∃ v, l.read s = .ok v ∧ l.describe v = .ok m) ∧
      (∃ h, m.ownHeuristics = .ok h ∧ h.checkWith l.compile = .ok ()) ∧
      m.unknownValidator? = none := by
  have hheuristics : (∃ h, m.ownHeuristics = .ok h ∧ h.checkWith l.compile = .ok ()) ↔
      m.ownHeuristics.bind (Heuristics.checkWith l.compile) = .ok () := bind_eq_ok_iff.symm
  rw [hheuristics]
  unfold ofTextIn
  cases hread : l.read s with
  | error f => exact ⟨fun h => absurd h not_refuse_eq_ok, fun ⟨⟨_, hv, _⟩, _⟩ => nomatch hv⟩
  | ok v =>
    have hvalue : (∃ v', Except.ok (ε := Yaml.Fault) v = .ok v' ∧ l.describe v' = .ok m) ↔
        l.describe v = .ok m :=
      ⟨fun ⟨_, hv, hm⟩ => Except.ok.inj hv ▸ hm, fun hm => ⟨v, rfl, hm⟩⟩
    rw [hvalue]
    dsimp only
    cases hof : l.describe v with
    | error problem => exact ⟨nofun, fun ⟨hm, _⟩ => nomatch hm⟩
    | ok m' =>
      dsimp only
      cases hcheck : m'.ownHeuristics.bind (Heuristics.checkWith l.compile) with
      | error c =>
        refine ⟨fun h => absurd h not_refuse_eq_ok, fun ⟨hm, hh, _⟩ => ?_⟩
        rw [← Except.ok.inj hm, hcheck] at hh
        cases hh
      | ok u =>
        cases hunknown : m'.unknownValidator? with
        | some p =>
          refine ⟨nofun, fun ⟨hm, _, hnone⟩ => ?_⟩
          rw [← Except.ok.inj hm, hunknown] at hnone
          cases hnone
        | none =>
          constructor
          · intro hm
            obtain rfl : m' = m := Except.ok.inj hm
            exact ⟨rfl, hcheck, hunknown⟩
          · exact fun ⟨hm, _, _⟩ => congrArg _ (Except.ok.inj hm)

theorem loadIn_eq_ok_iff {files : FileTree} : loadIn l files path = .ok m ↔
    (path.isUnencodable = false ∧ path.hasNul = false) ∧
      ∃ s, files.readText path = .ok (some s) ∧ ofTextIn l path s = .ok m := by
  unfold loadIn
  cases hn : path.isUnencodable with
  | true => simp
  | false =>
    cases hn' : path.hasNul with
    | true => simp
    | false =>
      rw [if_neg Bool.false_ne_true, if_neg Bool.false_ne_true]
      cases hr : files.readText path with
      | error issue => simp
      | ok s? => cases s? <;> simp

end Languages

end Manifest

end RouteDocs
