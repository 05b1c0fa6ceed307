import RouteDocs.Decimal.Numeral
import RouteDocs.Text.Base64
import RouteDocs.Text.Case
import RouteDocs.Text.Lines
import RouteDocs.Value.Basic
import RouteDocs.Yaml.Node

/-!
# RouteDocs.Yaml.Content — the value of a document

Every node stands for a value according to its type.  A merge key puts the entries of other mappings
before the own ones of its mapping.  Of several faults the one nearest to the root counts, and of
equally near ones the first.
-/

namespace RouteDocs.Yaml

open Text Decimal

/-! ### Scalars -/

/-- The value of a text as an integer in base two, eight, ten, sixteen or sixty. -/
def intOf (text : List Char) : Except Fault Int :=
  let s := text.filter (· != '_')
  if s.isEmpty then .error .emptyNumber
  else
    let (negative, digits) := takeSign s
    let magnitude? : Option Int := match digits with
      | ['0'] => some 0
      | '0' :: 'b' :: r => readInt? 2 r
      | '0' :: 'x' :: r => readInt? 16 r
      | '0' :: _ => readInt? 8 digits
      | _ =>
        if digits.contains ':' then
          ((splitAt ':' digits).mapM (readInt? 10)).map (·.foldl (fun n d => n * 60 + d) 0)
        else readInt? 10 digits
    match digits, magnitude? with
    | [], _ => .error .emptyNumber
    | _, none => .error .number
    | _, some n => .ok (if negative then -n else n)

/-- The sum of numbers, least significant first, each weighed with the next power of sixty. -/
def sumSixtieths : (weight : Nat) → (sum : Real64) → List Real64 → Except Fault Real64
  | _, sum, [] => .ok sum
  | weight, sum, x :: rest =>
    match (Real64.ofInt weight).toInt? with
    | none => .error .overflow
    | some factor => sumSixtieths (weight * 60) (sum.add (x.scale factor.toNat)) rest

/-- The value of a text as a number in base ten or sixty, without its sign. -/
def magnitudeOf (digits : List Char) : Except Fault Real64 :=
  if digits = ".inf".toList then .ok (.infinite false)
  else if digits = ".nan".toList then .ok .nan
  else if digits.contains ':' then
    match (splitAt ':' digits).mapM readReal? with
    | none => .error .number
    | some xs => sumSixtieths 1 (.zero false) xs.reverse
  else match readReal? digits with
    | none => .error .number
    | some x => .ok x

/-- The value of a text as a number in base ten or sixty. -/
def realOf (text : List Char) : Except Fault Real64 :=
  let s := lower (text.filter (· != '_'))
  if s.isEmpty then .error .emptyNumber
  else
    let (negative, digits) := takeSign s
    (magnitudeOf digits).map fun x => if negative then x.negate else x

/-- The millionths of a second in the digits of a fraction. -/
def microOf (fraction : List Char) : Nat :=
  let ds := fraction.take 6
  digitsNumber (ds ++ List.replicate (6 - ds.length) '0')

/-- The value of a text as a date or moment. -/
def timestampOf (text : List Char) : Except Fault Value :=
  match readTimestamp? (dropFinalBreak text) with
  | none => .error .timestamp
  | some t =>
    match Date.ofParts? t.year t.month t.day, t.time with
    | none, _ => .error .calendar
    | some d, none => .ok (.date d)
    | some d, some (hour, minute, second) =>
      match Moment.ofParts? d hour minute second (microOf t.fraction) t.offset with
      | some m => .ok (.moment m)
      | none => .error .calendar

/-- The value of a text as bytes. -/
def binaryOf (text : List Char) : Except Fault Value :=
  if text.all (·.toNat < 128) then
    match decodeBase64? text with
    | some bs => .ok (.bytes bs)
    | none => .error .binary
  else .error .binary

/-- The value of a text under a tag for scalars. -/
def scalarOf (tag : Tag) (text : String) : Except Fault Value :=
  match tag with
  | .null => .ok .null
  | .bool => match truthWords.lookup (lowered text) with
    | some b => .ok (.bool b)
    | none => .error .truth
  | .int => (intOf text.toList).map .int
  | .float => (realOf text.toList).map .real
  | .binary => binaryOf text.toList
  | .timestamp => timestampOf text.toList
  | .str => .ok (.str text)
  | _ => .error .unknownTag

/-! ### Faults by their distance from the root -/

/-- A value, or a fault and how many levels below the node it is. -/
abbrev Outcome := Except (Nat × Fault) Value

/-- A fault that shows when the node itself is reached. -/
def fail {α : Type} (f : Fault) : Except (Nat × Fault) α := .error (0, f)

/-- The outcome seen from one level up. -/
def below {α : Type} : Except (Nat × Fault) α → Except (Nat × Fault) α
  | .ok a => .ok a
  | .error (n, f) => .error (n + 1, f)

/-- Both outcomes, or the nearer of their faults; of equally near ones the first. -/
def join {α β γ : Type} (f : α → β → γ) :
    Except (Nat × Fault) α → Except (Nat × Fault) β → Except (Nat × Fault) γ
  | .ok a, .ok b => .ok (f a b)
  | .ok _, .error e => .error e
  | .error e, .ok _ => .error e
  | .error e, .error e' => .error (if e'.1 < e.1 then e' else e)

/-- All outcomes. -/
def joinAll : List Outcome → Except (Nat × Fault) (List Value)
  | [] => .ok []
  | o :: rest => join List.cons o (joinAll rest)

/-- The outcomes of the keys and values of a mapping. -/
def joinEntries : List (Outcome × Outcome) → Except (Nat × Fault) (List (Value × Value))
  | [] => .ok []
  | (k, v) :: rest => join List.cons (join Prod.mk k v) (joinEntries rest)

/-! ### Nodes -/

/-- A type whose values cannot be keys. -/
def Tag.isCollection : Tag → Bool
  | .seq | .map | .set | .omap | .pairs => true
  | _ => false

mutual

/-- The text of a node as a scalar: its own, or that of the default value of a mapping. -/
def textOf : Node → Except Fault String
  | .scalar _ text => .ok text
  | .sequence _ _ => .error .kind
  | .mapping _ entries => defaultText entries

/-- The text of the default value among the entries of a mapping. -/
def defaultText : List (Node × Node) → Except Fault String
  | [] => .error .kind
  | (k, v) :: rest => if k.tag = .value then textOf v else defaultText rest

end

/-- The outcome of a node of a scalar type. -/
def leafOutcome (tag : Tag) (n : Node) : Outcome :=
  match tag with
  | .merge | .value | .indicator | .other _ => fail .unknownTag
  | _ => match (textOf n).bind (scalarOf tag) with
    | .ok v => .ok v
    | .error f => fail f

/-- The members of a set. -/
def setOf (entries : List (Value × Value)) : Value :=
  .set (entries.foldl (fun members e => Value.insertMember e.1 members) [])

mutual

/-- The value that a node stands for. -/
def outcome : Node → Outcome
  | .scalar tag text =>
    if tag.isCollection then below (fail .kind) else leafOutcome tag (.scalar tag text)
  | .sequence tag items =>
    match tag with
    | .seq => below ((joinAll (outcomes items)).map .list)
    | .omap | .pairs => below ((joinAll (pairOutcomes items)).map .list)
    | .map | .set => below (fail .kind)
    | tag => leafOutcome tag (.sequence tag items)
  | .mapping tag entries =>
    match tag with
    | .map => below ((entriesOutcome entries).map .ofPairs)
    | .set => below ((entriesOutcome entries).map setOf)
    | .seq | .omap | .pairs => below (fail .kind)
    | tag => leafOutcome tag (.mapping tag entries)

/-- The values of nodes. -/
def outcomes : List Node → List Outcome
  | [] => []
  | n :: rest => outcome n :: outcomes rest

/-- The items of a list of pairs, each a mapping of one entry. -/
def pairOutcomes : List Node → List Outcome
  | [] => []
  | .mapping _ [(k, v)] :: rest =>
    join (fun k v => Value.tuple [k, v]) (outcome k) (outcome v) :: pairOutcomes rest
  | _ :: _ => [fail .kind]

/-- The entries of a mapping, the merged ones first. -/
def entriesOutcome (entries : List (Node × Node)) : Except (Nat × Fault) (List (Value × Value)) :=
  match flatten entries with
  | .ok (merged, own) => joinEntries (merged ++ own)
  | .error f => fail f

/-- The entries that are merged into a mapping, and its own ones. -/
def flatten : List (Node × Node) →
    Except Fault (List (Outcome × Outcome) × List (Outcome × Outcome))
  | [] => .ok ([], [])
  | (k, v) :: rest =>
    if k.tag = .merge then do
      let first ← mergedFrom v
      let (merged, own) ← flatten rest
      return (first ++ merged, own)
    else do
      let (merged, own) ← flatten rest
      let key : Outcome :=
        if k.tag.isCollection then fail .keyKind
        else if k.tag = .value then leafOutcome .str k
        else outcome k
      return (merged, (key, outcome v) :: own)

/-- The entries that a merge key takes from its value: a mapping, or several of which the last comes
first. -/
def mergedFrom : Node → Except Fault (List (Outcome × Outcome))
  | .mapping _ entries => do
    let (merged, own) ← flatten entries
    return merged ++ own
  | .sequence _ items => mergedFromAll items
  | .scalar _ _ => .error .merge

/-- The entries of several mappings, those of the last first. -/
def mergedFromAll : List Node → Except Fault (List (Outcome × Outcome))
  | [] => .ok []
  | .mapping _ entries :: rest => do
    let (merged, own) ← flatten entries
    let others ← mergedFromAll rest
    return others ++ (merged ++ own)
  | _ :: _ => .error .merge

end

/-- The value of the document in a text with line feeds for line ends; null if there is none. -/
def read (text : List Char) : Except Fault Value := do
  match ← documentOf text with
  | none => return .null
  | some n => match outcome n with
    | .ok v => return v
    | .error (_, f) => .error f

end RouteDocs.Yaml
