import RouteDocs.CommandLine.Run
import RouteDocs.Proofs.Text.Surrogate

/-!
# RouteDocs.Proofs.CommandLine.Stages — the stages of a run

A command goes through its stages in one order and ends at the first that goes wrong.  What a run may be
is said once for each command, with the stages that went well before it (`RoutesRun`, `GenerateRun`),
and every run is one of these (`routesRun`, `generateRun`).  Only where all stages go well does a run
end well.
-/

namespace RouteDocs.CommandLine

open Text

variable {files : FileTree}

/-! ### Endings -/

theorem ne_done_of_checkManifest {s : String} {ending : Ending}
    (h : checkManifest files s = .error ending) : ending ≠ .done := by
  unfold checkManifest at h
  split at h
  · cases h
    nofun
  · split at h <;> cases h <;> nofun

theorem ne_done_of_checkOutput {s : String} {ending : Ending}
    (h : checkOutput files s = .error ending) : ending ≠ .done := by
  unfold checkOutput at h
  split at h
  · cases h
    nofun
  · split at h <;> cases h
    nofun

theorem endingOnLoad_ne_done (f : Fault) : endingOnLoad f ≠ .done := by
  unfold endingOnLoad
  split
  · split <;> nofun
  · nofun

theorem endingOnWrite_ne_done (f : Fault) : endingOnWrite f ≠ .done := by
  unfold endingOnWrite
  split <;> nofun

/-! ### Runs -/

/-- The options of `generate` by the settings that they stand for. -/
def generateOverrides (baseUrl? title? version? : Option String) : List (String × Option String) :=
  [("server_url", baseUrl?), ("title", title?), ("version", version?)]

variable (files) (environment : Option String) (manifest output : String)
  (baseUrl? title? version? : Option String) (page : Bool)

/-! ### Printing -/

/-- All lines are printed if they have an encoding; otherwise the run ends at the first that has none. -/
theorem echo_cases (run : Run) (lines : List String) :
    (∀ line ∈ lines, hasSurrogate line = false) ∧
        run.echo lines = { run with printed := lines.foldl (· ++ ·) run.printed } ∨
      (∃ line ∈ lines, hasSurrogate line = true) ∧ ∃ printed,
        run.echo lines = { run with printed, ending := .unforeseen (.plain .notEncodable) } := by
  induction lines generalizing run with
  | nil => exact .inl ⟨nofun, rfl⟩
  | cons line rest ih =>
    rw [Run.echo, encodable?]
    cases hline : hasSurrogate line with
    | true => exact .inr ⟨⟨line, List.mem_cons_self, hline⟩, run.printed, rfl⟩
    | false =>
      rcases ih { run with printed := run.printed ++ line } with
        ⟨hrest, hecho⟩ | ⟨⟨bad, hbad, hsurrogate⟩, printed, hecho⟩
      · exact .inl ⟨List.forall_mem_cons.mpr ⟨hline, hrest⟩, hecho⟩
      · exact .inr ⟨⟨bad, List.mem_cons_of_mem line hbad, hsurrogate⟩, printed, hecho⟩

/-! ### Commands -/

/-- The ways in which `routes` may go. -/
inductive RoutesRun : Run → Prop
  | refused (ending : Ending) (hcheck : checkManifest files manifest = .error ending) :
    RoutesRun { files, ending }
  | notLoaded (f : Fault) (hload : load files environment (Path.ofText manifest) [] = .error f) :
    RoutesRun { files, ending := endingOnLoad f }
  | listed (loaded : Loaded) (hload : load files environment (Path.ofText manifest) [] = .ok loaded) :
    RoutesRun {
      files
      printed := String.join (loaded.routes.map routeLine) ++ countText loaded.routes.length ++
        " routes.\n" }
  | unprinted (loaded : Loaded) (printed : String)
      (hload : load files environment (Path.ofText manifest) [] = .ok loaded) :
    RoutesRun { files, printed, ending := .unforeseen (.plain .notEncodable) }

theorem routesRun : RoutesRun files environment manifest (runRoutes files environment manifest) := by
  rw [runRoutes]
  cases hcheck : checkManifest files manifest with
  | error ending => exact .refused ending hcheck
  | ok _ =>
    dsimp only
    cases hload : load files environment (Path.ofText manifest) [] with
    | error f => exact .notLoaded f hload
    | ok loaded =>
      dsimp only
      rcases echo_cases { files } (loaded.routes.map routeLine ++
          [countText loaded.routes.length ++ " routes.\n"]) with ⟨-, hecho⟩ | ⟨-, printed, hecho⟩
      · rw [hecho, List.foldl_append, List.foldl_cons, List.foldl_nil, ← String.append_assoc]
        exact .listed loaded hload
      · rw [hecho]
        exact .unprinted loaded printed hload

/-- The ways in which `generate` may go. -/
inductive GenerateRun : Run → Prop
  | badManifest (ending : Ending) (hcheck : checkManifest files manifest = .error ending) :
    GenerateRun { files, ending }
  | badOutput (ending : Ending) (hcheck : checkOutput files output = .error ending) :
    GenerateRun { files, ending }
  | notLoaded (f : Fault) (hload : load files environment (Path.ofText manifest)
      (generateOverrides baseUrl? title? version?) = .error f) :
    GenerateRun { files, ending := endingOnLoad f }
  | notMade (loaded : Loaded) (f : Fault) (printed : String)
      (hload : load files environment (Path.ofText manifest)
        (generateOverrides baseUrl? title? version?) = .ok loaded)
      (hdoc : documentOf files (Path.ofText manifest).parent loaded = .error f) :
    GenerateRun { files, printed, ending := endingOnWrite f }
  | notWritten (loaded : Loaded) (d : Document) (files' : FileTree) (f : Fault) (printed : String)
      (hload : load files environment (Path.ofText manifest)
        (generateOverrides baseUrl? title? version?) = .ok loaded)
      (hdoc : documentOf files (Path.ofText manifest).parent loaded = .ok d)
      (hwrite : writeOutputs d.toValue (Path.ofText output) loaded.settings.yamlFilename
        (if page then some loaded.settings.htmlFilename else none) files = (files', .error f)) :
    GenerateRun { files := files', printed, ending := endingOnWrite f }
  | written (loaded : Loaded) (d : Document) (files' : FileTree) (paths : List Path)
      (printed : String)
      (hload : load files environment (Path.ofText manifest)
        (generateOverrides baseUrl? title? version?) = .ok loaded)
      (hdoc : documentOf files (Path.ofText manifest).parent loaded = .ok d)
      (hwrite : writeOutputs d.toValue (Path.ofText output) loaded.settings.yamlFilename
        (if page then some loaded.settings.htmlFilename else none) files = (files', .ok paths)) :
    GenerateRun { files := files', printed }
  | unprinted (loaded : Loaded) (d : Document) (files' : FileTree) (paths : List Path)
      (printed : String)
      (hload : load files environment (Path.ofText manifest)
        (generateOverrides baseUrl? title? version?) = .ok loaded)
      (hdoc : documentOf files (Path.ofText manifest).parent loaded = .ok d)
      (hwrite : writeOutputs d.toValue (Path.ofText output) loaded.settings.yamlFilename
        (if page then some loaded.settings.htmlFilename else none) files = (files', .ok paths))
      (hline : (∃ p ∈ paths, hasSurrogate p.text = true) ∨ hasSurrogate loaded.settings.docsUrl = true) :
    GenerateRun { files := files', printed, ending := .unforeseen (.plain .notEncodable) }

/-- A line about a path or the address that has no encoding is one of a path or address without one. -/
theorem hasSurrogate_of_line {paths : List Path} {url line : String}
    (hline : line ∈ paths.map (fun p => "  Created " ++ p.text ++ "\n") ++
      ["Swagger YAML generated: " ++ url ++ "\n"]) (hsurrogate : hasSurrogate line = true) :
    (∃ p ∈ paths, hasSurrogate p.text = true) ∨ hasSurrogate url = true := by
  rcases List.mem_append.mp hline with hpath | hurl
  · obtain ⟨p, hp, rfl⟩ := List.mem_map.mp hpath
    exact .inl ⟨p, hp, (hasSurrogate_between p.text (by decide) (by decide)).symm.trans hsurrogate⟩
  · obtain rfl := List.mem_singleton.mp hurl
    exact .inr ((hasSurrogate_between url (by decide) (by decide)).symm.trans hsurrogate)

theorem generateRun : GenerateRun files environment manifest output baseUrl? title? version? page
    (runGenerate files environment manifest output baseUrl? title? version? page) := by
  rw [runGenerate]
  cases hmanifest : checkManifest files manifest with
  | error ending => exact .badManifest ending hmanifest
  | ok _ =>
    cases hout : checkOutput files output with
    | error ending => exact .badOutput ending hout
    | ok _ =>
      dsimp only
      cases hload : load files environment (Path.ofText manifest)
          [("server_url", baseUrl?), ("title", title?), ("version", version?)] with
      | error f => exact .notLoaded f hload
      | ok loaded =>
        dsimp only
        cases hdoc : documentOf files (Path.ofText manifest).parent loaded with
        | error f => exact .notMade loaded f _ hload hdoc
        | ok d =>
          dsimp only
          obtain ⟨files', result, hwrite⟩ : ∃ files' result,
              writeOutputs d.toValue (Path.ofText output) loaded.settings.yamlFilename
                (if page then some loaded.settings.htmlFilename else none) files = (files', result) :=
            ⟨_, _, rfl⟩
          rw [hwrite]
          cases result with
          | error f => exact .notWritten loaded d files' f _ hload hdoc hwrite
          | ok paths =>
            dsimp only
            rcases echo_cases _ _ with ⟨-, hecho⟩ | ⟨⟨line, hline, hsurrogate⟩, printed, hecho⟩
            · rw [hecho]
              exact .written loaded d files' paths _ hload hdoc hwrite
            · rw [hecho]
              exact .unprinted loaded d files' paths printed hload hdoc hwrite
                (hasSurrogate_of_line hline hsurrogate)

end RouteDocs.CommandLine
