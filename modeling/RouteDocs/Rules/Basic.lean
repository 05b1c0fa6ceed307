import RouteDocs.Text.Blank
import RouteDocs.Text.Case
import RouteDocs.Text.Split
import RouteDocs.Value.Basic

/-!
# RouteDocs.Rules.Basic — rules of one input field

A rule spec is a text with bars between the rules, or a list of rules of which only the texts count.
White space around a rule does not belong to it, and a rule of white space alone is none.  Rules are
recognised in lower case; the values after a mark such as `in:` keep their case.
-/

namespace RouteDocs

open Text

/-- One rule of a field, such as `required` or `min:3`. -/
structure Rule where
  text : String
deriving Repr, DecidableEq

namespace Rule

/-- The rule in lower case. -/
def folded (r : Rule) : String := lowered r.text

/-- The rule that a text holds, unless it is blank. -/
def ofText? (s : List Char) : Option Rule :=
  match trim s with
  | [] => none
  | c :: cs => some ⟨String.ofList (c :: cs)⟩

/-- What follows `mark` in a rule that starts with it in lower case: the text of the rule after as
many characters as the mark has. -/
def tail? (mark : String) (r : Rule) : Option String :=
  if mark.toList.isPrefixOf r.folded.toList then
    some (String.ofList (r.text.toList.drop mark.toList.length))
  else none

end Rule

/-- The texts that a rule spec is made of. -/
def specTexts : Value → List (List Char)
  | .str s => splitAt '|' s.toList
  | .list items | .tuple items => items.filterMap fun
    | .str s => some s.toList
    | _ => none
  | _ => []

/-- The rules of a spec. -/
def rulesOf (spec : Value) : List Rule := (specTexts spec).filterMap Rule.ofText?

/-- Whether one of the rules is `word` in lower case. -/
def hasRule (rules : List Rule) (word : String) : Bool := rules.any (·.folded == word)

/-- The values of the rules that start with `mark`. -/
def ruleValues (rules : List Rule) (mark : String) : List String := rules.filterMap (Rule.tail? mark)

end RouteDocs
