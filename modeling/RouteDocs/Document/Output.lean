import RouteDocs.Fault
import RouteDocs.Yaml.Print

/-!
# RouteDocs.Document.Output — writing a document and its page

The document is written to one file of a directory, and a page that shows it to another.
-/

namespace RouteDocs

open Text

/-- The page that shows the document at an address. -/
def viewerPage (address : String) : String :=
  "<!DOCTYPE html>
<html lang=\"en\">
<head>
    <meta charset=\"UTF-8\">
    <title>Swagger UI</title>
    <link rel=\"stylesheet\" href=\"https://unpkg.com/swagger-ui-dist/swagger-ui.css\" />
</head>
<body>
<div id=\"swagger-ui\"></div>
<script src=\"https://unpkg.com/swagger-ui-dist/swagger-ui-bundle.js\"></script>
<script>
    SwaggerUIBundle(\x7b
        url: '" ++ address ++ "',
        dom_id: \"#swagger-ui\"
    \x7d);
</script>
</body>
</html>
"

/-- The files after an attempt to write, with the paths written or the fault. -/
abbrev Written := FileTree × Except Fault (List Path)

/-- A text, if it has an encoding. -/
def encodable? (s : String) : Option String := if hasSurrogate s then none else some s

/-- Writes a text to a file of a directory.  The file is there, and empty, before it shows that there is
no text to write. -/
def writeInto (directory : Path) (name : String) (text? : Option String) (files : FileTree) :
    FileTree × Except Fault Path :=
  let p := directory.join name
  if p.isUnencodable then (files, .error (.plain .notEncodable))
  else if p.hasNul then (files, .error (.plain .badPath))
  else match files.writeText p (text?.getD "") with
    | .error issue => (files, .error (.output directory issue))
    | .ok files => (files, if text?.isSome then .ok p else .error (.plain .notEncodable))

/-- Writes a document to a directory, which is made as needed, and a page that shows it if the page
has a name.  The text of a document has escapes for surrogates; that of the page shows the name of the
document as it is. -/
def writeOutputs (document : Value) (directory : Path) (yamlName : String)
    (htmlName? : Option String) (files : FileTree) : Written :=
  if directory.isUnencodable then (files, .error (.plain .notEncodable))
  else if directory.hasNul then (files, .error (.plain .badPath))
  else match files.makeDirectories directory with
    | (files, .error issue) => (files, .error (.output directory issue))
    | (files, .ok ()) =>
      match Yaml.print? document with
      | none => (files, .error (.plain .integerTooLong))
      | some text =>
        match writeInto directory yamlName (some text) files with
        | (files, .error f) => (files, .error f)
        | (files, .ok yamlPath) =>
          match htmlName? with
          | none | some "" => (files, .ok [yamlPath])
          | some htmlName =>
            let page? := encodable? (viewerPage ("/" ++ yamlName))
            match writeInto directory htmlName page? files with
            | (files, .error f) => (files, .error f)
            | (files, .ok htmlPath) => (files, .ok [yamlPath, htmlPath])

end RouteDocs
