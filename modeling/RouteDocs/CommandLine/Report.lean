import RouteDocs.CommandLine.Run

/-!
# RouteDocs.CommandLine.Report — what the user is told

The wording of usage errors and faults, and the exit code of a run.
-/

namespace RouteDocs

open Text

/-- A usage error in words. -/
def UsageError.message : UsageError → String
  | .noCommand => "Missing command."
  | .unknownCommand name => "No such command " ++ quoted name ++ "."
  | .unknownOption name => "No such option: " ++ name
  | .valueMissing name => "Option " ++ quoted name ++ " requires an argument."
  | .valueUnexpected name => "Option " ++ quoted name ++ " does not take a value."
  | .optionMissing name => "Missing option " ++ quoted name ++ "."
  | .argumentMissing => "Missing argument 'MANIFEST_PATH'."
  | .argumentUnexpected text => "Got unexpected extra argument (" ++ text ++ ")"
  | .noSuchFile path => "File " ++ quoted path ++ " does not exist."
  | .isDirectory path => "File " ++ quoted path ++ " is a directory."
  | .isFile path => "Directory " ++ quoted path ++ " is a file."

/-- A place in a value as text. -/
def Shape.Issue.place (i : Shape.Issue) : String := ".".intercalate i.path

/-- A cause in words. -/
def Cause.message : Cause → String
  | .shape issues => "unexpected values at " ++ ", ".intercalate (issues.map Shape.Issue.place)
  | .yaml _ => "malformed YAML"
  | .pattern _ => "malformed pattern"
  | .unknownHeuristic name => "unknown heuristic " ++ quoted name
  | .nameNotText => "a name that is not a text"
  | .rule (.boundTooLong _) => "a bound with too many digits"
  | .integerTooLong => "an integer with too many digits"
  | .notText => "a file that is not text in UTF-8"
  | .badPath => "a path with a null character"
  | .notEncodable => "a text with a surrogate"

/-- A fault in words. -/
def Fault.describe (f : Fault) : String :=
  match f with
  | .plain c => c.message
  | .manifest p (.content c) => p.text ++ ": " ++ c.message
  | f => f.message?.getD ""

namespace CommandLine

/-- How the commands are called. -/
def usageText : String :=
  "Usage:\n" ++
  "  route-docs [-v] routes MANIFEST\n" ++
  "  route-docs [-v] generate MANIFEST -o DIRECTORY [--base-url URL] [--title TEXT]\n" ++
  "             [--api-version TEXT] [--no-html]\n"

/-- The text for the error stream and the exit code of an ending. -/
def Ending.report : Ending → String × UInt8
  | .done => ("", 0)
  | .usage e => (usageText ++ "\nError: " ++ e.message ++ "\n", 2)
  | .reported f | .unforeseen f => ("Error: " ++ f.describe ++ "\n", 1)

end CommandLine

end RouteDocs
