import RouteDocs.Proofs.Manifest.Load
import RouteDocs.Proofs.Yaml.Values

/-!
# RouteDocs.Proofs.Manifest.Written — manifests as they are written

A file with the document of a record is loaded as the manifest that the record describes
(`load_of_written`), since what is written is read back.
-/

namespace RouteDocs.Manifest

variable {files : FileTree} {text : String} {m : Manifest}

theorem load_of_written {f : String × Value} {fields : List (String × Value)}
    (hfile : files.read manifestPath = .ok text.toUTF8.data.toList)
    (htext : Text.unifyLineEnds text.toList = Yaml.documentText (.record (f :: fields)))
    (hportable : Yaml.IsPortable (.record (f :: fields)))
    (hlegible : Yaml.Legible 0 (.record (f :: fields)))
    (hm : ofValue (.record (f :: fields)) = .ok m)
    (hheuristics : ∃ h, m.ownHeuristics = .ok h ∧ h.check = .ok ())
    (hknown : m.unknownValidator? = none) : load files manifestPath = .ok m := by
  have hread : Yaml.read (Text.unifyLineEnds text.toList) = .ok (.record (f :: fields)) := by
    rw [htext]
    exact Yaml.read_documentText hportable hlegible
  exact loadIn_eq_ok_iff.mpr ⟨⟨rfl, rfl⟩, _, FileTree.readText_of_read hfile,
    ofTextIn_eq_ok_iff.mpr ⟨⟨_, hread, hm⟩, hheuristics, hknown⟩⟩

end RouteDocs.Manifest
