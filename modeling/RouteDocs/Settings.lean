import RouteDocs.Fault
import RouteDocs.Yaml.Print

/-!
# RouteDocs.Settings — the settings of a document

Every setting is taken from the first of these places that gives it: the options of the command line,
the `app` part of the manifest, the environment (for the address of the server only) and the defaults.
-/

namespace RouteDocs

open Text Shape

/-- The settings of a document. -/
structure Settings where
  title : String := "Documentation"
  version : String := "1.0.0"
  serverUrl : String := "http://localhost"
  serverDescription : String := "Base API URL"
  controllerNamespace : String := "App\\Http\\Controllers"
  apiMiddleware : String := "api"
  authMarker : String := "auth"
  yamlFilename : String := "api-docs.yaml"
  htmlFilename : String := "docs.html"
deriving Repr, DecidableEq, Inhabited

namespace Settings

/-- The settings that fields give; the other ones have their defaults. -/
def ofFields (fields : Fields) : Checked Settings :=
  let setting (name otherwise : String) : Checked String := fieldOr name otherwise text fields
  let standard : Settings := {}
  let head := both mk (setting "title" standard.title) (setting "version" standard.version)
  let head := both id head (setting "server_url" standard.serverUrl)
  let head := both id head (setting "server_description" standard.serverDescription)
  let head := both id head (setting "controller_namespace" standard.controllerNamespace)
  let head := both id head (setting "api_middleware" standard.apiMiddleware)
  let head := both id head (setting "auth_marker" standard.authMarker)
  let head := both id head (setting "yaml_filename" standard.yamlFilename)
  both id head (setting "html_filename" standard.htmlFilename)

/-- The settings by name. -/
def toFields (s : Settings) : List (String × String) :=
  [("title", s.title), ("version", s.version), ("server_url", s.serverUrl),
    ("server_description", s.serverDescription), ("controller_namespace", s.controllerNamespace),
    ("api_middleware", s.apiMiddleware), ("auth_marker", s.authMarker),
    ("yaml_filename", s.yamlFilename), ("html_filename", s.htmlFilename)]

/-- Where the page for readers is found. -/
def docsUrl (s : Settings) : String :=
  String.ofList (dropEndWhile (· == '/') s.serverUrl.toList) ++ "/" ++ s.htmlFilename

/-- The name of a setting under the name that a manifest may give it. -/
def settingName (key : Value) : Value :=
  match key with
  | .str name => .str (if name = "url" then "server_url" else name)
  | key => key

/-- The value of a setting: numbers and truth values count as their texts. -/
def settingValue (v : Value) : Except Cause Value :=
  match v with
  | .int i => if Yaml.isWritableInt i then .ok (.str v.literalText) else .error .integerTooLong
  | .real _ | .bool _ => .ok (.str v.literalText)
  | v => .ok v

/-- Settings by name with those of a manifest put over them. -/
def putApp (values : List (Value × Value)) :
    (app : List (Value × Value)) → Except Cause (List (Value × Value))
  | [] => .ok values
  | (key, v) :: rest => do
    putApp (Value.put (settingName key) (← settingValue v) values) rest

/-- Settings by name with those of the command line put over them; null leaves a setting as it is. -/
def putOverrides (values : List (Value × Value)) (overrides : List (Value × Value)) :
    List (Value × Value) :=
  overrides.foldl (fun values o => match o.2 with
    | .null => values
    | v => Value.put o.1 v values) values

/-- The settings from the environment, the manifest and the command line. -/
def resolve (environment : Option String) (app overrides : List (Value × Value)) :
    Except Cause Settings := do
  let start : List (Value × Value) := match environment with
    | none | some "" => []
    | some url => [(.str "server_url", .str url)]
  let values := putOverrides (← putApp start app) overrides
  if values.all fun v => v.1 matches .str _ then
    Cause.ofChecked (ofFields (values.filterMap fun
      | (.str name, v) => some (name, v)
      | _ => none))
  else .error .nameNotText

end Settings

end RouteDocs
