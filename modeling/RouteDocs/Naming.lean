import RouteDocs.Text.Blank
import RouteDocs.Text.Case
import RouteDocs.Text.Split
import RouteDocs.Text.Word

/-!
# RouteDocs.Naming — tags and summaries from the names of handlers

A handler `OrderItemController@store` is listed under the tag `Order Items` with the summary
`create order item`.  Names in mixed case are cut into words, the last word of a phrase is made
plural, and the usual handler methods have verbs.
-/

namespace RouteDocs.Naming

open Text

/-! ### Words -/

/-- A capital of `A` to `Z`. -/
def isCapital (c : Char) : Bool := 'A' ≤ c && c ≤ 'Z'

/-- A small letter of `a` to `z`. -/
def isSmall (c : Char) : Bool := 'a' ≤ c && c ≤ 'z'

/-- Whether a word starts at a capital between two neighbours: after a small letter or a digit, and
after another capital if a small letter follows. -/
def startsWord (previous : Option Char) (c : Char) (next : Option Char) : Bool :=
  isCapital c &&
    (previous.any (fun p => isSmall p || isDecimalDigit p) ||
      (previous.any isCapital && next.any isSmall))

/-- The text that follows `previous` with a space before every capital that starts a word. -/
def spacedFrom : (previous : Option Char) → List Char → List Char
  | _, [] => []
  | previous, c :: r =>
    if startsWord previous c r.head? then ' ' :: c :: spacedFrom (some c) r
    else c :: spacedFrom (some c) r

/-- A character between words: an underscore, a hyphen or white space. -/
def isGap (c : Char) : Bool := c == '_' || c == '-' || isBlank c

/-- The text with a single space for every run of gaps; `inGap` if the text comes after a gap. -/
def singleGaps : (inGap : Bool) → List Char → List Char
  | _, [] => []
  | inGap, c :: r =>
    if isGap c then (if inGap then singleGaps true r else ' ' :: singleGaps true r)
    else c :: singleGaps false r

/-- The words of a name in lower case, with single spaces between them. -/
def wordChars (name : List Char) : List Char :=
  lower (trim (singleGaps false (spacedFrom none name)))

/-- The words of a name as a string. -/
def words (name : String) : String := String.ofList (wordChars name.toList)

/-! ### Plurals -/

/-- The nouns whose plural follows no rule. -/
def irregularPlurals : List (String × String) :=
  [("person", "people"), ("child", "children"), ("man", "men"), ("woman", "women"),
    ("media", "media"), ("data", "data"), ("news", "news"), ("information", "information"),
    ("equipment", "equipment")]

/-- Whether a text ends in a way, where a line feed at its end need not count. -/
def endsWith (ending : List Char → Bool) (s : List Char) : Bool :=
  ending s || (s.getLast? == some '\n' && ending s.dropLast)

/-- A `y` after a character that is no vowel, at the end. -/
def endsInConsonantY (s : List Char) : Bool :=
  match s.reverse with
  | 'y' :: c :: _ => !("aeiou".toList.contains c)
  | _ => false

/-- A sibilant at the end. -/
def endsInSibilant (s : List Char) : Bool :=
  ["s", "x", "z", "ch", "sh"].any fun e => endsIn e.toList s

/-- A text with its first letter as a capital. -/
def capitalized : List Char → List Char
  | [] => []
  | c :: r => c.toUpper :: r

/-- The plural of a word. -/
def pluralOfWord (word : List Char) : List Char :=
  let folded := lower word
  match irregularPlurals.lookup (String.ofList folded) with
  | some plural => if word.head?.any isCapital then capitalized plural.toList else plural.toList
  | none =>
    if endsWith endsInConsonantY folded then word.dropLast ++ "ies".toList
    else if endsWith endsInSibilant folded then word ++ "es".toList
    else word ++ ['s']

/-- A phrase with its last word in the plural. -/
def pluralChars (phrase : List Char) : List Char :=
  match phrase, cutLast? ' ' phrase with
  | [], _ => []
  | _, none => pluralOfWord phrase
  | _, some ([], last) => pluralOfWord last
  | _, some (head, last) => head ++ ' ' :: pluralOfWord last

/-- A phrase with its last word in the plural, as a string. -/
def pluralize (phrase : String) : String := String.ofList (pluralChars phrase.toList)

/-! ### Tags and summaries -/

/-- The tag of a resource. -/
def tag (resource : String) : String := titled (pluralize (words resource))

/-- What handler methods do. -/
def verbs : List (String × String) :=
  [("store", "create"), ("update", "update"), ("destroy", "delete"), ("index", "list of"),
    ("show", "get")]

/-- The summary of a handler method of a resource. -/
def summary (resource method : String) : String :=
  let noun := words resource
  let noun := if method = "index" then pluralize noun else noun
  (verbs.lookup method).getD method ++ " " ++ noun

end RouteDocs.Naming
