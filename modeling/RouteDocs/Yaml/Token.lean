import RouteDocs.Yaml.Basic

/-!
# RouteDocs.Yaml.Token — the tokens of a YAML text

Tokens are the scalars, names and indicators of a text together with the starts and ends of blocks
that its indentation stands for.
-/

namespace RouteDocs.Yaml

/-- A tag as it is written: a handle with a suffix, or a whole tag. -/
structure TagText where
  handle : Option String
  suffix : String
deriving Repr, DecidableEq, Inhabited

/-- A line that starts with a percent sign. -/
inductive Directive where
  | version (major minor : Nat)
  | tag (handle start : String)
  | reserved
deriving Repr, DecidableEq

/-- A token. -/
inductive Token where
  | directive (d : Directive)
  | documentStart
  | documentEnd
  | sequenceStart
  | mappingStart
  | blockEnd
  | flowSequenceStart
  | flowSequenceEnd
  | flowMappingStart
  | flowMappingEnd
  | key
  | value
  | blockEntry
  | flowEntry
  | alias (name : String)
  | anchor (name : String)
  | tag (t : TagText)
  | scalar (text : String) (plain : Bool)
  | streamEnd
deriving Repr, DecidableEq

/-- A place with the text from there on. -/
structure Cursor where
  mark : Mark
  rest : List Char
deriving Repr, Inhabited

namespace Cursor

/-- The cursor after the next character. -/
def next (c : Cursor) : Cursor :=
  match c.rest with
  | [] => c
  | a :: r => ⟨c.mark.step a, r⟩

/-- The characters at the start of a text that pass a test, and the cursor after them. -/
def spanFrom (p : Char → Bool) (m : Mark) : List Char → List Char × Cursor
  | [] => ([], ⟨m, []⟩)
  | a :: r =>
    if p a then
      let (taken, c) := spanFrom p (m.step a) r
      (a :: taken, c)
    else ([], ⟨m, a :: r⟩)

/-- The characters ahead that pass a test, and the cursor after them. -/
def span (p : Char → Bool) (c : Cursor) : List Char × Cursor := spanFrom p c.mark c.rest

/-- The cursor after the spaces ahead. -/
def skipSpaces (c : Cursor) : Cursor := (c.span (· == ' ')).2

/-- The cursor at the end of the line. -/
def toLineEnd (c : Cursor) : Cursor := (c.span fun a => !isBreak a).2

/-- The line break ahead as it counts in a scalar, and the cursor after it. -/
def takeBreak (c : Cursor) : List Char × Cursor :=
  match c.rest with
  | a :: _ => if isBreak a then ([breakText a], c.next) else ([], c)
  | [] => ([], c)

/-- Whether a line with three hyphens or three points, the mark of a document, is ahead. -/
def atDocumentMark (c : Cursor) : Bool :=
  match c.rest with
  | '-' :: '-' :: '-' :: r => atGap r
  | '.' :: '.' :: '.' :: r => atGap r
  | _ => false

/-- After a header: spaces and a comment up to the end of the line, and the break. -/
def skipHeaderEnd (c : Cursor) (fault : Fault) : Except Fault Cursor :=
  let c := c.skipSpaces
  let c := match c.rest with
    | '#' :: _ => c.toLineEnd
    | _ => c
  if atBreak c.rest then .ok c.takeBreak.2 else .error fault

end Cursor

end RouteDocs.Yaml
