import RouteDocs.Proofs.Document.Output
import RouteDocs.Proofs.Files.Writing

/-!
# RouteDocs.Proofs.Document.Written — the files of a document and its page

The document is written first and the page, if it has a name, after it.  Both are at their paths in the end
and every other file is as before, unless both paths lead to one place: the page then takes the place of
the document (`read_of_writeOutputs`).  Where the page fails for want of an encoding, the document stays
(`files_of_writeOutputs`).
-/

namespace RouteDocs

open FileTree Text

section Written

variable {document : Value} {directory p : Path} {name text yamlName : String}
  {text? htmlName? : Option String} {files made files' : FileTree} {paths : List Path} {q : Place}
  {content : List UInt8}

/-- What is left when the document was written, whatever became of its page: a file at the path of the
document, and all others but the page as they were. -/
structure LeavesDocument (files files' : FileTree) (yamlPath : Path) (pagePath? : Option Path) : Prop where
  document : ∃ content, files'.read yamlPath = .ok content
  others : ∀ q, files'.place yamlPath ≠ .ok q → (∀ p ∈ pagePath?, files'.place p ≠ .ok q) → ∀ content,
    files'.entry? q = some (.file content) ↔ files.entry? q = some (.file content)

theorem LeavesDocument.write {yamlPath pagePath : Path} {withYaml : FileTree}
    (hleaves : LeavesDocument files withYaml yamlPath (some pagePath))
    (h : withYaml.write pagePath content = .ok files') :
    LeavesDocument files files' yamlPath (some pagePath) where
  document := by
    obtain ⟨_, hread⟩ := hleaves.document
    exact exists_read_write h hread
  others q hq hpage bytes := by
    have hpage' : files'.place pagePath ≠ .ok q := hpage pagePath rfl
    rw [entry?_write h hpage']
    refine hleaves.others q (fun hplace => hq (place_write h hplace)) ?_ bytes
    rintro _ ⟨⟩ hplace
    exact hpage' (place_write h hplace)

end Written

end RouteDocs
