import RouteDocs.Decimal.Real64
import RouteDocs.Value.Calendar

/-!
# RouteDocs.Value.Basic — the values that manifests, examples and documents are made of

`Value` is the type of structured data: scalars, sequences and mappings with the order of their
entries.  The keys of a mapping are told apart by `Value.same`: numbers by what they count, so that
`1`, `1.0` and `true` are one key.
-/

namespace RouteDocs

/-- A structured value. -/
inductive Value where
  | null
  | bool (b : Bool)
  | int (i : Int)
  | real (x : Real64)
  | str (s : String)
  | bytes (bs : List UInt8)
  | date (d : Date)
  | moment (m : Moment)
  | list (items : List Value)
  | tuple (items : List Value)
  | set (items : List Value)
  | map (entries : List (Value × Value))
deriving Repr, BEq, Inhabited

namespace Value

/-- The integer that a number or truth value counts. -/
def count? : Value → Option Int
  | .bool b => some (if b then 1 else 0)
  | .int i => some i
  | .real x => x.toInt?
  | _ => none

mutual

/-- Two values are one key. -/
def same : Value → Value → Bool
  | .str s, .str t => s == t
  | .null, .null => true
  | .bytes a, .bytes b => a == b
  | .date a, .date b => a == b
  | .moment a, .moment b => a.same b
  | .tuple a, .tuple b => sameItems a b
  | .list a, .list b => sameItems a b
  | .real x, .real y => x == y || (match x.toInt?, y.toInt? with
    | some a, some b => a == b
    | _, _ => false)
  | a, b => match a.count?, b.count? with
    | some i, some j => i == j
    | _, _ => false

/-- Two sequences of values agree place by place. -/
def sameItems : List Value → List Value → Bool
  | [], [] => true
  | a :: as, b :: bs => same a b && sameItems as bs
  | _, _ => false

end

/-- The value under a key. -/
def lookup? (key : Value) : List (Value × Value) → Option Value
  | [] => none
  | (k, v) :: rest => if k.same key then some v else lookup? key rest

/-- Entries with a value put under a key: a key that is there keeps its place and its spelling. -/
def put (key value : Value) : List (Value × Value) → List (Value × Value)
  | [] => [(key, value)]
  | (k, v) :: rest => if k.same key then (k, value) :: rest else (k, v) :: put key value rest

/-- A mapping from pairs, later ones winning. -/
def ofPairs (pairs : List (Value × Value)) : Value :=
  .map (pairs.foldl (fun entries p => put p.1 p.2 entries) [])

/-- Members of a set, each once. -/
def insertMember (member : Value) : List Value → List Value
  | [] => [member]
  | v :: rest => if v.same member then v :: rest else v :: insertMember member rest

/-- A mapping with string keys. -/
def record (fields : List (String × Value)) : Value :=
  .map (fields.map fun f => (.str f.1, f.2))

/-- A value that stands for nothing: null, false, zero, or an empty text or collection. -/
def isEmpty : Value → Bool
  | .null => true
  | .bool b => !b
  | .int i => i == 0
  | .real x => match x with
    | .finite _ m _ _ => m == 0
    | _ => false
  | .str s => s.isEmpty
  | .bytes bs => bs.isEmpty
  | .date _ | .moment _ => false
  | .list items | .tuple items | .set items => items.isEmpty
  | .map entries => entries.isEmpty

end Value

end RouteDocs
