import RouteDocs.Decimal.Numeral
import RouteDocs.Text.Base64
import RouteDocs.Value.Basic
import RouteDocs.Yaml.Style

/-!
# RouteDocs.Yaml.Print — values as block-style documents

Collections are written one item or entry a line, in their order; each value is written out where it
stands.  A sequence under a key has the key's indentation, any other nested collection two columns
more.
-/

namespace RouteDocs.Yaml

open Text Decimal

/-- The columns by which a nested collection is indented. -/
def indentStep : Nat := 2

/-- A double as text: with a point always, and the names of the numbers that are not finite. -/
def realScalar (x : Real64) : List Char :=
  match x with
  | .nan => ".nan".toList
  | .infinite negative => (if negative then "-.inf" else ".inf").toList
  | .finite .. =>
    let s := realChars standardLayout x
    if s.contains '.' then s
    else s.flatMap fun c => if c == 'e' then ".0e".toList else [c]

/-- The tag and text of a scalar value. -/
def scalarText? : Value → Option (Tag × List Char)
  | .null => some (.null, "null".toList)
  | .bool b => some (.bool, (if b then "true" else "false").toList)
  | .int i => some (.int, intChars i)
  | .real x => some (.float, realScalar x)
  | .str s => some (.str, s.toList)
  | .bytes bs => some (.binary, encodeBase64 bs)
  | .date d => some (.timestamp, d.chars)
  | .moment m => some (.timestamp, m.chars ' ')
  | _ => none

/-- The text of a value that needs no lines of its own: a scalar or an empty collection. -/
def flat? (p : Place) : Value → Option (List Char)
  | .list [] | .tuple [] => some ['[', ']']
  | .map [] => some ['\x7b', '\x7d']
  | .set [] => some ("!!set ".toList ++ ['\x7b', '\x7d'])
  | v => (scalarText? v).map fun (tag, s) => writeScalar p tag s

/-- A value as a key on one line, if it fits. -/
def key? (column : Nat) (v : Value) : Option (List Char) :=
  match scalarText? v with
  | some (tag, s) =>
    if isSimpleKey tag s then flat? { column, indent := column + indentStep, isKey := true } v
    else none
  | none => flat? { column, indent := column } v

/-- The tag written before the lines of a collection. -/
def blockMark : Value → List Char
  | .set _ => "!!set".toList
  | _ => []

/-- Whether a value is a sequence. -/
def isSequence : Value → Bool
  | .list _ | .tuple _ => true
  | _ => false

/-- Pieces of a block, one below the other at an indentation. -/
def stack (indent : Nat) : List (List Char) → List Char := joinWith (newLine indent)

/-- A value after a lead such as a hyphen at an indentation, where `block` is its block. -/
def led (lead : Char) (indent : Nat) (v : Value) (block : List Char) : List Char :=
  let inner := indent + indentStep
  match flat? { column := inner, indent := inner } v with
  | some s => lead :: ' ' :: s
  | none => match blockMark v with
    | [] => lead :: ' ' :: block
    | mark => lead :: ' ' :: mark ++ newLine inner ++ block

/-- The indentation of a collection under a key. -/
def valueIndent (indent : Nat) (v : Value) : Nat :=
  if isSequence v then indent else indent + indentStep

/-- A value after a key on one line. -/
def keyed (key : List Char) (indent : Nat) (v : Value) (block : List Char) : List Char :=
  let p : Place := { column := indent + key.length + 2, indent := indent + indentStep }
  match flat? p v with
  | some s => key ++ ':' :: ' ' :: s
  | none =>
    let mark := match blockMark v with
      | [] => []
      | mark => ' ' :: mark
    key ++ ':' :: mark ++ newLine (valueIndent indent v) ++ block

mutual

/-- The lines of a collection that is not empty, the first of them without its indentation. -/
def block (indent : Nat) : Value → List Char
  | .list items | .tuple items => stack indent (itemBlocks indent items)
  | .set items => stack indent (memberBlocks indent items)
  | .map entries => stack indent (entryBlocks indent entries)
  | _ => []

/-- The items of a sequence. -/
def itemBlocks (indent : Nat) : List Value → List (List Char)
  | [] => []
  | v :: rest => led '-' indent v (block (indent + indentStep) v) :: itemBlocks indent rest

/-- The members of a set, each a key of null. -/
def memberBlocks (indent : Nat) : List Value → List (List Char)
  | [] => []
  | v :: rest =>
    (match key? indent v with
      | some key => [keyed key indent .null []]
      | none => [led '?' indent v (block (indent + indentStep) v), led ':' indent .null []]) ++
      memberBlocks indent rest

/-- The entries of a mapping: the key and value on one line or, if the key does not fit on one, each
after a lead of its own. -/
def entryBlocks (indent : Nat) : List (Value × Value) → List (List Char)
  | [] => []
  | (k, v) :: rest =>
    (match key? indent k with
      | some key => [keyed key indent v (block (valueIndent indent v) v)]
      | none => [led '?' indent k (block (indent + indentStep) k),
          led ':' indent v (block (indent + indentStep) v)]) ++
      entryBlocks indent rest

end

/-- Whether the root of a document, written as `s`, is a plain scalar, which has to be ended by a
mark. -/
def isOpenEnded (v : Value) (s : List Char) : Bool :=
  match scalarText? v with
  | some (tag, text) => plainTag text = tag && allowsPlain text && !s.isEmpty
  | none => false

/-- A value as a document. -/
def documentText (v : Value) : List Char :=
  match flat? { column := 0, indent := indentStep } v with
  | some s => s ++ '\n' :: if isOpenEnded v s then "...\n".toList else []
  | none => match blockMark v with
    | [] => block 0 v ++ ['\n']
    | mark => mark ++ '\n' :: block 0 v ++ ['\n']

/-- An integer that can be written: one of at most `maxDigits` digits. -/
def isWritableInt (i : Int) : Bool := decide (i.natAbs < Nat.pow 10 maxDigits)

mutual

/-- Whether all integers in a value can be written. -/
def isWritableValue : Value → Bool
  | .int i => isWritableInt i
  | .list items | .tuple items | .set items => areWritable items
  | .map entries => areWritableEntries entries
  | _ => true

/-- Whether all integers in values can be written. -/
def areWritable : List Value → Bool
  | [] => true
  | v :: rest => isWritableValue v && areWritable rest

/-- Whether all integers in keys and values can be written. -/
def areWritableEntries : List (Value × Value) → Bool
  | [] => true
  | (k, v) :: rest => isWritableValue k && isWritableValue v && areWritableEntries rest

end

/-- A value as a document, unless it holds an integer that cannot be written. -/
def print? (v : Value) : Option String :=
  if isWritableValue v then some (String.ofList (documentText v)) else none

end RouteDocs.Yaml
