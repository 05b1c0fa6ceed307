import RouteDocs.Text.IdentifierTable
import RouteDocs.Text.Word

/-!
# RouteDocs.Text.Identifier — identifiers

A name starts with a letter or an underscore and goes on with letters, digits, marks and underscores of
any script.
-/

namespace RouteDocs.Text

/-- A character that may start an identifier. -/
def startsIdentifier (c : Char) : Bool :=
  (isWordChar c && !isDecimalDigit c) != within identifierStartEdges c.toNat

/-- A character that may be in an identifier after the first. -/
def continuesIdentifier (c : Char) : Bool := isWordChar c != within identifierPartEdges c.toNat

/-- A text that is an identifier. -/
def isIdentifier : List Char → Bool
  | [] => false
  | c :: r => startsIdentifier c && r.all continuesIdentifier

end RouteDocs.Text
