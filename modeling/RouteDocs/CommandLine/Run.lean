import RouteDocs.CommandLine.Arguments
import RouteDocs.Document.Output
import RouteDocs.Manifest.Resolver

/-!
# RouteDocs.CommandLine.Run — the commands

`routes` lists the routes of a manifest that have a document, and `generate` writes that document and
its page.  A run takes the files to the files afterwards, and says what it printed and how it ended.
-/

namespace RouteDocs

open Text

/-- A command with its options. -/
inductive Command where
  | help
  | routes (manifest : String)
  | generate (manifest output : String) (baseUrl? title? version? : Option String) (page : Bool)
deriving Repr, DecidableEq

namespace Command

/-- The option that asks for help. -/
def helpOption : OptionSpec := { long := "--help", takesValue := false }

/-- The options before a command. -/
def commonOptions : List OptionSpec :=
  [{ long := "--verbose", short? := some 'v', takesValue := false }, helpOption]

/-- The options of `generate`. -/
def generateOptions : List OptionSpec :=
  [{ long := "--output", short? := some 'o' }, { long := "--base-url" }, { long := "--title" },
    { long := "--api-version" }, { long := "--no-html", takesValue := false }, helpOption]

/-- The only argument of a command. -/
def onlyArgument : List String → Except UsageError String
  | [] => .error .argumentMissing
  | [arg] => .ok arg
  | _ :: extra :: _ => .error (.argumentUnexpected extra)

/-- The command that arguments ask for. -/
def ofArguments (args : List String) : Except UsageError Command := do
  let common ← Arguments.read commonOptions false args
  if common.has "--help" then return .help
  match common.positional with
  | [] => throw .noCommand
  | name :: rest =>
    if name = "routes" then
      let a ← Arguments.read [helpOption] true rest
      if a.has "--help" then return .help
      return .routes (← onlyArgument a.positional)
    else if name = "generate" then
      let a ← Arguments.read generateOptions true rest
      if a.has "--help" then return .help
      let manifest ← onlyArgument a.positional
      match a.value? "--output" with
      | none => throw (.optionMissing "--output")
      | some output =>
        return .generate manifest output (a.value? "--base-url") (a.value? "--title")
          (a.value? "--api-version") (!a.has "--no-html")
    else throw (.unknownCommand name)

end Command

namespace CommandLine

/-! ### Runs -/

/-- How a run ends. -/
inductive Ending where
  | done
  | usage (e : UsageError)
  /-- A fault that is told to the user. -/
  | reported (f : Fault)
  /-- A fault that nothing provides for. -/
  | unforeseen (f : Fault)
deriving Repr, DecidableEq

/-- A run: the files afterwards, what was printed, and how it ended. -/
structure Run where
  files : FileTree
  printed : String := ""
  ending : Ending := .done

/-- The run after lines are printed, up to the first that cannot be encoded. -/
def Run.echo (run : Run) : List String → Run
  | [] => run
  | line :: rest =>
    match encodable? line with
    | none => { run with ending := .unforeseen (.plain .notEncodable) }
    | some line => echo { run with printed := run.printed ++ line } rest

/-- Whether a cause is one of a bad value, as opposed to a bad name or a bad key. -/
def isBadValue : Cause → Bool
  | .shape _ | .rule _ | .integerTooLong | .notText | .badPath | .notEncodable => true
  | .yaml f => f = .number || f = .calendar || f = .codePoint false
  | .pattern e => e = .optionsClash || e = .numberTooLong
  | .unknownHeuristic _ | .nameNotText => false

/-- How a run ends with a fault in reading the manifest. -/
def endingOnLoad (f : Fault) : Ending :=
  match f with
  | .plain c => if isBadValue c then .reported f else .unforeseen f
  | _ => .reported f

/-- How a run ends with a fault in making or writing the document. -/
def endingOnWrite (f : Fault) : Ending :=
  match f with
  | .plain _ => .unforeseen f
  | _ => .reported f

/-- A manifest with its settings and the routes that have a document. -/
structure Loaded where
  manifest : Manifest
  settings : Settings
  routes : List Route

/-- Reads the manifest at a path and resolves the settings. -/
def load (files : FileTree) (environment : Option String) (path : Path)
    (overrides : List (String × Option String)) : Except Fault Loaded := do
  let manifest ← Manifest.load files path
  let given := overrides.filterMap fun (name, v) => v.map fun s => (Value.str name, Value.str s)
  let settings ← Fault.lift
    (Settings.resolve environment (manifest.app.map fun (name, v) => (.str name, v)) given)
  return { manifest, settings, routes := Manifest.documentedRoutes settings manifest.routes }

/-- Checks that a manifest path names a file. -/
def checkManifest (files : FileTree) (s : String) : Except Ending Unit :=
  if s.toList.contains '\x00' then .error (.unforeseen (.plain .badPath))
  else match files.entryAt? s with
    | none => .error (.usage (.noSuchFile s))
    | some .directory => .error (.usage (.isDirectory s))
    | some (.file _) => .ok ()

/-- Checks that an output path does not name a file. -/
def checkOutput (files : FileTree) (s : String) : Except Ending Unit :=
  if s.toList.contains '\x00' then .error (.unforeseen (.plain .badPath))
  else match files.entryAt? s with
    | some (.file _) => .error (.usage (.isFile s))
    | _ => .ok ()

/-- A text filled with spaces to a width. -/
def filled (width : Nat) (s : String) : String :=
  String.ofList (s.toList ++ List.replicate (width - s.toList.length) ' ')

/-- The number of things as text. -/
def countText (n : Nat) : String := String.ofList (Decimal.natChars n)

/-- A route in the list of routes: its methods, its path and its action. -/
def routeLine (r : Route) : String :=
  let methods := (r.methods.filter (!isSkipped ·)).map fun m => (uppered m).toList
  filled 12 (String.ofList (joinWith ['|'] methods)) ++ " " ++ r.path ++ "  " ++ r.action ++ "\n"

/-- Runs `routes`. -/
def runRoutes (files : FileTree) (environment : Option String) (manifest : String) : Run :=
  match checkManifest files manifest with
  | .error ending => { files, ending }
  | .ok () =>
    match load files environment (Path.ofText manifest) [] with
    | .error f => { files, ending := endingOnLoad f }
    | .ok loaded =>
      let lines := loaded.routes.map routeLine ++ [countText loaded.routes.length ++ " routes.\n"]
      Run.echo { files } lines

/-- Generates the document of a manifest that has been read. -/
def documentOf (files : FileTree) (base : Path) (loaded : Loaded) : Except Fault Document := do
  let heuristics ← Fault.lift loaded.manifest.ownHeuristics
  let resolver : Resolver := { manifest := loaded.manifest, base }
  Document.generate loaded.settings heuristics (resolver.evidence files) loaded.routes

/-- Runs `generate`. -/
def runGenerate (files : FileTree) (environment : Option String) (manifest output : String)
    (baseUrl? title? version? : Option String) (page : Bool) : Run :=
  match checkManifest files manifest, checkOutput files output with
  | .error ending, _ => { files, ending }
  | _, .error ending => { files, ending }
  | .ok (), .ok () =>
    let path := Path.ofText manifest
    match load files environment path
        [("server_url", baseUrl?), ("title", title?), ("version", version?)] with
    | .error f => { files, ending := endingOnLoad f }
    | .ok loaded =>
      let start := "Documenting " ++ countText loaded.routes.length ++ " of " ++
        countText loaded.manifest.routes.length ++ " routes...\n"
      match documentOf files path.parent loaded with
      | .error f => { files, printed := start, ending := endingOnWrite f }
      | .ok document =>
        let s := loaded.settings
        match writeOutputs document.toValue (Path.ofText output) s.yamlFilename
            (if page then some s.htmlFilename else none) files with
        | (files, .error f) => { files, printed := start, ending := endingOnWrite f }
        | (files, .ok written) =>
          let created := written.map fun p => "  Created " ++ p.text ++ "\n"
          Run.echo { files, printed := start }
            (created ++ ["Swagger YAML generated: " ++ s.docsUrl ++ "\n"])

/-- Runs a command. -/
def runCommand (files : FileTree) (environment : Option String) : Command → Run
  | .help => { files }
  | .routes manifest => runRoutes files environment manifest
  | .generate manifest output baseUrl? title? version? page =>
    runGenerate files environment manifest output baseUrl? title? version? page

/-- Runs the command that arguments ask for. -/
def runArguments (files : FileTree) (environment : Option String) (args : List String) : Run :=
  match Command.ofArguments args with
  | .error e => { files, ending := .usage e }
  | .ok command => runCommand files environment command

end CommandLine

end RouteDocs
