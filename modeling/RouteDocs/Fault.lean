import RouteDocs.Files.Tree
import RouteDocs.Pattern.Basic
import RouteDocs.Rules.Constraints
import RouteDocs.Shape.Basic
import RouteDocs.Yaml.Basic

/-!
# RouteDocs.Fault — why no document is made

A `Cause` says what is wrong with a value, a text or a name.  A `Fault` is a cause by itself, or a
problem of a manifest or of the output that is reported with its path.
-/

namespace RouteDocs

open Text

/-- What is wrong. -/
inductive Cause where
  /-- A value does not have the required shape. -/
  | shape (issues : List Shape.Issue)
  | yaml (f : Yaml.Fault)
  | pattern (e : Pattern.Error)
  /-- A name that no heuristic has. -/
  | unknownHeuristic (name : String)
  /-- A name of a part or setting is not a text. -/
  | nameNotText
  | rule (e : RuleError)
  /-- An integer has too many digits to be written. -/
  | integerTooLong
  /-- Bytes of a file are not text in UTF-8. -/
  | notText
  /-- A path with a character that no path may have. -/
  | badPath
  /-- A text with a surrogate, which no encoding has. -/
  | notEncodable
deriving Repr, DecidableEq

/-- A text that breaks the rules of its language, rather than one that has no value. -/
def Cause.isSyntactic : Cause → Bool
  | .yaml f => f.isSyntactic
  | .pattern e => e.isSyntactic
  | _ => true

/-- A check whose issues are a cause. -/
def Cause.ofChecked {α : Type} : Shape.Checked α → Except Cause α
  | .ok a => .ok a
  | .error issues => .error (.shape issues)

/-- What is wrong with a manifest. -/
inductive ManifestProblem where
  | cannotRead (issue : FileIssue)
  | cannotReadSource (issue : FileIssue)
  | topLevel
  | unknownValidator (action name : String)
  | content (c : Cause)
deriving Repr, DecidableEq

/-- Why no document is made. -/
inductive Fault where
  | plain (c : Cause)
  | manifest (path : Path) (problem : ManifestProblem)
  | output (directory : Path) (issue : FileIssue)
deriving Repr, DecidableEq

namespace Fault

/-- The text of a problem that is described in own words. -/
def message? : Fault → Option String
  | .manifest p (.cannotRead i) => some ("Cannot read manifest " ++ p.text ++ ": " ++ i.message)
  | .manifest _ (.cannotReadSource i) =>
    some ("Cannot read handler source " ++ i.path.text ++ ": " ++ i.message)
  | .manifest p .topLevel => some (p.text ++ ": top level must be a mapping")
  | .manifest p (.unknownValidator action name) =>
    some (p.text ++ ": handler " ++ action ++ " references unknown validator " ++ quoted name)
  | .output d i => some ("Cannot write documentation to " ++ d.text ++ ": " ++ i.message)
  | .manifest _ (.content _) | .plain _ => none

/-- A result in which a cause is a fault by itself. -/
def lift {α : Type} : Except Cause α → Except Fault α
  | .ok a => .ok a
  | .error c => .error (.plain c)

end Fault

end RouteDocs
