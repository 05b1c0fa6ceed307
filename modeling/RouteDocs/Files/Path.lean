import RouteDocs.Text.Split
import RouteDocs.Text.Surrogate

/-!
# RouteDocs.Files.Path — paths of files

A path is a list of names, from the working directory or from the root.  Empty names and points that
stand for the directory itself are left out; two points for the directory above are kept.  A root of two
slashes leads where one slash does, but the paths are not the same.
-/

namespace RouteDocs

open Text

/-- Where a path starts: in the working directory, or at the root, which is written with one slash or
with exactly two. -/
inductive Path.Start where
  | here | root | doubleRoot
deriving Repr, DecidableEq, Inhabited

/-- The start of a path in its text; three slashes and more are one. -/
def Path.Start.ofChars : List Char → Path.Start
  | '/' :: '/' :: '/' :: _ => .root
  | '/' :: '/' :: _ => .doubleRoot
  | '/' :: _ => .root
  | _ => .here

/-- The slashes of a start. -/
def Path.Start.text : Path.Start → String
  | .here => ""
  | .root => "/"
  | .doubleRoot => "//"

/-- A path. -/
structure Path where
  start : Path.Start := .here
  names : List String
deriving Repr, DecidableEq, Inhabited

namespace Path

/-- The path of the working directory. -/
def here : Path := ⟨.here, []⟩

/-- The path that a text stands for. -/
def ofText (s : String) : Path :=
  { start := .ofChars s.toList
    names := (pieces '/' s).filter fun name => name ≠ "" && name ≠ "." }

/-- A path as text; that of the working directory is a point. -/
def text (p : Path) : String :=
  if p = here then "."
  else p.start.text ++ String.ofList (joinWith ['/'] (p.names.map String.toList))

/-- A path followed by a text, which counts by itself if it starts at the root. -/
def join (p : Path) (s : String) : Path :=
  let q := ofText s
  if q.start = .here then ⟨p.start, p.names ++ q.names⟩ else q

/-- The path without its last name. -/
def parent (p : Path) : Path := ⟨p.start, p.names.dropLast⟩

/-- Whether a name has the character that no name may have. -/
def hasNul (p : Path) : Bool := p.names.any fun name => name.toList.contains '\x00'

/-- Whether a name has a surrogate that stands for no byte, so that it is the name of no file. -/
def isUnencodable (p : Path) : Bool :=
  p.names.any fun name => name.toList.any fun c => isSurrogate c && !isByteSurrogate c

end Path

end RouteDocs
