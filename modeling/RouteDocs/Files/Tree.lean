import RouteDocs.Files.Path
import RouteDocs.Text.Lines
import RouteDocs.Text.Quoted

/-!
# RouteDocs.Files.Tree — directories and files as a value

A tree holds the directories and files that are known, by their place.  Places are counted from the
working directory: some levels up and then down by names.  Every operation says why it fails in terms
of the path it was asked for.
-/

namespace RouteDocs

open Text

/-- Why an operation on files fails. -/
inductive FileError where
  | notFound | exists | notDirectory | isDirectory | nameTooLong
deriving Repr, DecidableEq

/-- The number and wording of an error. -/
def FileError.wording : FileError → String
  | .notFound => "[Errno 2] No such file or directory"
  | .exists => "[Errno 17] File exists"
  | .notDirectory => "[Errno 20] Not a directory"
  | .isDirectory => "[Errno 21] Is a directory"
  | .nameTooLong => "[Errno 36] File name too long"

/-- An error with the path at which it arose. -/
structure FileIssue where
  error : FileError
  path : Path
deriving Repr, DecidableEq

/-- An error and its path as text. -/
def FileIssue.message (i : FileIssue) : String := i.error.wording ++ ": " ++ quoted i.path.text

/-- What is at a place. -/
inductive Entry where
  | directory
  | file (content : List UInt8)
deriving Repr, DecidableEq

/-- A place: so many levels above the working directory, and from there down by names. -/
structure Place where
  above : Nat := 0
  down : List String := []
deriving Repr, DecidableEq, Inhabited

/-- The place of an entry of a directory. -/
def Place.child (p : Place) (name : String) : Place := { p with down := p.down ++ [name] }

/-- Directories and files. -/
structure FileTree where
  /-- The number of directories above the working directory. -/
  depth : Nat := 2
  entries : List (Place × Entry) := []
deriving Repr, DecidableEq, Inhabited

namespace FileTree

/-- What is at a place.  The working directory and those above it are always there. -/
def entry? (t : FileTree) (p : Place) : Option Entry :=
  if p.down.isEmpty then some .directory else t.entries.lookup p

/-- Entries with one at a place. -/
def putEntry (p : Place) (e : Entry) : List (Place × Entry) → List (Place × Entry)
  | [] => [(p, e)]
  | (q, old) :: rest => if q = p then (p, e) :: rest else (q, old) :: putEntry p e rest

/-- The tree with an entry at a place. -/
def put (t : FileTree) (p : Place) (e : Entry) : FileTree :=
  { t with entries := putEntry p e t.entries }

/-- The tree without the entry at a place. -/
def remove (t : FileTree) (p : Place) : FileTree :=
  { t with entries := t.entries.filter (·.1 ≠ p) }

/-- The directory above a place. -/
def upFrom (t : FileTree) (p : Place) : Place :=
  if p.down.isEmpty then { p with above := min t.depth (p.above + 1) }
  else { p with down := p.down.dropLast }

/-- The greatest number of bytes in a name. -/
def maxNameSize : Nat := 255

/-- The greatest number of bytes in a path. -/
def maxPathSize : Nat := 4095

/-- The place of a name in the directory at a place. -/
def step (t : FileTree) (p : Place) (name : String) : Except FileError Place :=
  match t.entry? p with
  | none => .error .notFound
  | some (.file _) => .error .notDirectory
  | some .directory =>
    if name = "." then .ok p
    else if name = ".." then .ok (t.upFrom p)
    else if maxNameSize < name.utf8ByteSize then .error .nameTooLong
    else .ok (p.child name)

/-- The place reached by names from a place. -/
def walk (t : FileTree) : Place → List String → Except FileError Place
  | p, [] => .ok p
  | p, name :: rest => do t.walk (← t.step p name) rest

/-- The place of a path, whether or not something is there. -/
def place (t : FileTree) (p : Path) : Except FileError Place :=
  if maxPathSize < p.text.utf8ByteSize then .error .nameTooLong
  else t.walk { above := if p.start = .here then 0 else t.depth } p.names

/-- An error with the path it belongs to. -/
def atPath {α : Type} (p : Path) : Except FileError α → Except FileIssue α
  | .ok a => .ok a
  | .error e => .error ⟨e, p⟩

/-- The content of the file at a path. -/
def read (t : FileTree) (p : Path) : Except FileIssue (List UInt8) :=
  atPath p do
    match t.entry? (← t.place p) with
    | none => throw .notFound
    | some .directory => throw .isDirectory
    | some (.file content) => return content

/-- The tree with a file written at a path, in a directory that is there. -/
def write (t : FileTree) (p : Path) (content : List UInt8) : Except FileIssue FileTree :=
  atPath p do
    let place ← t.place p
    match t.entry? place with
    | some .directory => throw .isDirectory
    | _ => return t.put place (.file content)

/-- Whether there is a directory at a path. -/
def isDirectory (t : FileTree) (p : Path) : Bool :=
  match t.place p with
  | .ok place => t.entry? place == some .directory
  | .error _ => false

/-- The tree with a directory made at a path, in a directory that is there. -/
def makeDirectory (t : FileTree) (p : Path) : Except FileError FileTree := do
  let place ← t.place p
  match t.entry? place with
  | some _ => throw .exists
  | none => return t.put place .directory

/-- The tree with a directory at the path of the given names, turned around, and directories above it
as needed; a directory that is there is left. -/
def makeDirectoriesFrom (t : FileTree) (start : Path.Start) :
    (reversed : List String) → FileTree × Except FileIssue Unit
  | [] =>
    (t, .ok ())
  | name :: above =>
    let p : Path := ⟨start, (name :: above).reverse⟩
    let settle (t : FileTree) (e : FileError) : FileTree × Except FileIssue Unit :=
      (t, if t.isDirectory p then .ok () else .error ⟨e, p⟩)
    match t.makeDirectory p with
    | .ok t => (t, .ok ())
    | .error .notFound =>
      match t.makeDirectoriesFrom start above with
      | (t, .error e) => (t, .error e)
      | (t, .ok ()) =>
        match t.makeDirectory p with
        | .ok t => (t, .ok ())
        | .error .notFound => (t, .error ⟨.notFound, p⟩)
        | .error e => settle t e
    | .error e => settle t e

/-- The tree with a directory at a path and directories above it as needed; a directory that is there
is left. -/
def makeDirectories (t : FileTree) (p : Path) : FileTree × Except FileIssue Unit :=
  t.makeDirectoriesFrom p.start p.names.reverse

/-- The text of the file at a path in UTF-8, with line feeds for all line ends; `none` if its bytes
are no text. -/
def readText (t : FileTree) (p : Path) : Except FileIssue (Option (List Char)) := do
  let content ← t.read p
  return (String.fromUTF8? ⟨content.toArray⟩).map fun s => unifyLineEnds s.toList

/-- The tree with a text written to a file at a path. -/
def writeText (t : FileTree) (p : Path) (s : String) : Except FileIssue FileTree :=
  t.write p s.toUTF8.toList

/-- What is at the place that a text names.  A slash at the end asks for a directory. -/
def entryAt? (t : FileTree) (s : String) : Option Entry :=
  let names := (pieces '/' s).filter (· ≠ "")
  let names := if s.toList.getLast? == some '/' then names ++ ["."] else names
  let start : Place := { above := if s.toList.head? == some '/' then t.depth else 0 }
  if s.isEmpty || maxPathSize < s.utf8ByteSize then none
  else match t.walk start names with
    | .ok place => t.entry? place
    | .error _ => none

end FileTree

end RouteDocs
