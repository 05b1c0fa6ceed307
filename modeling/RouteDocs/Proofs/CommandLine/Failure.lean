import RouteDocs.Proofs.CommandLine.Listing
import RouteDocs.Proofs.Document.Written

/-!
# RouteDocs.Proofs.CommandLine.Failure — the files after a run that fails

Reading the manifest, the settings and the sources, and putting the document into words all come before
the first file is written.  So a run that ends badly has changed no file, unless it was the writing of
files that went wrong; it may have made the directory of the output.  But a surrogate in the name of a
file or in the address of the page has no encoding, and that shows only when the document is there
(`files_of_failed_run`).
-/

namespace RouteDocs

open Text

/-- The page that a command writes gets a name without the null character. -/
def Command.NamesPage (files : FileTree) (environment : Option String) : Command → Prop
  | .generate manifest _ baseUrl? title? version? true =>
    ∀ loaded, CommandLine.load files environment (Path.ofText manifest)
      (CommandLine.generateOverrides baseUrl? title? version?) = .ok loaded →
        '\x00' ∉ loaded.settings.htmlFilename.toList
  | _ => True

/-- A command has written its document and then met a surrogate: in the directory of the output, the name
of the document or the address of the page, which has the name of the page in it. -/
def Command.LeavesDocument (files : FileTree) (environment : Option String) (files' : FileTree) :
    Command → Prop
  | .generate manifest output baseUrl? title? version? page =>
    ∃ loaded, CommandLine.load files environment (Path.ofText manifest)
        (CommandLine.generateOverrides baseUrl? title? version?) = .ok loaded ∧
      (hasSurrogate output = true ∨ hasSurrogate loaded.settings.yamlFilename = true ∨
        hasSurrogate loaded.settings.docsUrl = true) ∧
      RouteDocs.LeavesDocument files files' ((Path.ofText output).join loaded.settings.yamlFilename)
        (if page then some ((Path.ofText output).join loaded.settings.htmlFilename) else none)
  | _ => False

namespace CommandLine

open FileTree

variable {files : FileTree} {environment : Option String} {manifest output : String}
  {baseUrl? title? version? : Option String} {page : Bool}

/-- The name of a page with a surrogate. -/
def surrogateName : String := String.ofList (charOfCode 0xD800 :: ".html".toList)

/-- The settings with that name. -/
def surrogateSettings : Settings := { htmlFilename := surrogateName }

/-- A manifest with that name. -/
def surrogateManifest : String := "app:\n  html_filename: \"\\uD800.html\"\n"

theorem load_surrogateManifest : Manifest.load (onlyManifest surrogateManifest) manifestPath =
    .ok { app := [("html_filename", .str surrogateName)] } := by
  have htext : unifyLineEnds surrogateManifest.toList =
      Yaml.documentText (.record [("app", .record [("html_filename", .str surrogateName)])]) := by
    decide +kernel
  have hportable : Yaml.IsPortable (.record [("app", .record [("html_filename", .str surrogateName)])]) := by
    simp [Yaml.isPortable_record_iff, Yaml.IsPortable]
  exact Manifest.load_of_written rfl htext hportable (by decide +kernel) rfl ⟨{}, rfl, rfl⟩ rfl

/-- Files that cannot be written end a run where the writing stopped. -/
theorem exists_runGenerate_unwritten {loaded : Loaded} {d : Document} {files' : FileTree} {f : Fault}
    (hcheck : checkManifest files manifest = .ok ()) (hout : checkOutput files output = .ok ())
    (hload : load files environment (Path.ofText manifest)
      (generateOverrides baseUrl? title? version?) = .ok loaded)
    (hdoc : documentOf files (Path.ofText manifest).parent loaded = .ok d)
    (hwrite : writeOutputs d.toValue (Path.ofText output) loaded.settings.yamlFilename
      (if page then some loaded.settings.htmlFilename else none) files = (files', .error f)) :
    ∃ printed, runGenerate files environment manifest output baseUrl? title? version? page =
      { files := files', printed, ending := endingOnWrite f } := by
  rw [generateOverrides] at hload
  rw [runGenerate, hcheck, hout]
  dsimp only
  rw [hload]
  dsimp only
  rw [hdoc]
  dsimp only
  rw [hwrite]
  exact ⟨_, rfl⟩

/-- The page of a document cannot have its name, which shows when the document is there: the run fails,
not in the output, and leaves a file that was not there before. -/
theorem document_left_by_failed_run :
    let files := onlyManifest surrogateManifest
    let args := ["generate", "api.yaml", "-o", "docs"]
    let run := runArguments files none args
    (∀ command, Command.ofArguments args = .ok command → command.NamesPage files none) ∧
      run.ending = .unforeseen (.plain .notEncodable) ∧
      files.entry? ⟨0, ["docs", "api-docs.yaml"]⟩ = none ∧
      ∃ content, run.files.entry? ⟨0, ["docs", "api-docs.yaml"]⟩ = some (.file content) := by
  intro files args run
  have hargs : Command.ofArguments args = .ok (.generate "api.yaml" "docs" none none none true) := by
    decide +kernel
  have hload : load files none (Path.ofText "api.yaml") (generateOverrides none none none) =
      .ok ⟨{ app := [("html_filename", .str surrogateName)] }, surrogateSettings, []⟩ :=
    load_eq_ok_iff.mpr ⟨_, surrogateSettings, load_surrogateManifest, rfl, rfl⟩
  let d : Document := .ofSettings surrogateSettings
  have hdoc : documentOf files (Path.ofText "api.yaml").parent
      ⟨{ app := [("html_filename", .str surrogateName)] }, surrogateSettings, []⟩ = .ok d := rfl
  obtain ⟨text, hprint⟩ : ∃ text, Yaml.print? d.toValue = some text := ⟨_, rfl⟩
  let directory : Path := Path.ofText "docs"
  let made : FileTree := { entries := files.entries ++ [(⟨0, ["docs"]⟩, .directory)] }
  let withYaml : FileTree :=
    { entries := made.entries ++ [(⟨0, ["docs", "api-docs.yaml"]⟩, .file text.toUTF8.toList)] }
  have hmake : files.makeDirectories directory = (made, .ok ()) := rfl
  have hyaml : writeInto directory "api-docs.yaml" (some text) made =
      (withYaml, .ok (directory.join "api-docs.yaml")) := rfl
  have hhtml : ∀ page?, writeInto directory surrogateName page? withYaml =
      (withYaml, .error (.plain .notEncodable)) := by
    intro page?
    have hname : (directory.join surrogateName).isUnencodable = true := by decide +kernel
    rw [writeInto, if_pos hname]
  have hwrite : writeOutputs d.toValue directory "api-docs.yaml" (some surrogateName) files =
      (withYaml, .error (.plain .notEncodable)) := by
    refine (writeOutputs_of_stages rfl rfl hmake hprint hyaml (by decide)).trans ?_
    rw [hhtml]
  obtain ⟨printed, hrun⟩ : ∃ printed, run =
      { files := withYaml, printed, ending := .unforeseen (.plain .notEncodable) } := by
    obtain ⟨printed, h⟩ : ∃ printed, runGenerate files none "api.yaml" "docs" none none none true =
        { files := withYaml, printed, ending := endingOnWrite _ } :=
      exists_runGenerate_unwritten rfl rfl hload hdoc hwrite
    refine ⟨printed, ?_⟩
    simp only [run, runArguments, hargs, runCommand, h]
    rfl
  refine ⟨fun command h => ?_, by rw [hrun], rfl, text.toUTF8.toList, by rw [hrun]; rfl⟩
  obtain rfl := Except.ok.inj (hargs.symm.trans h)
  intro loaded h
  obtain rfl := Except.ok.inj (hload.symm.trans h)
  decide

end CommandLine

end RouteDocs
