import RouteDocs.Value.Literal

/-!
# RouteDocs.Shape.Basic — checking that values have a required shape

A check turns a value into data of a domain type or lists all its issues.  Every issue says where in
the value it is and what was expected there.  Checks of several parts report the issues of all of
them in order.
-/

namespace RouteDocs

namespace Shape

/-- What was expected at a place. -/
inductive Expected where
  /-- A field that is not there. -/
  | field
  | text
  /-- Bytes that are text. -/
  | textEncoding
  | list
  | mapping
  | record
  | tuple
  | fewerItems
  | integer
  /-- A text that is an integer. -/
  | integerText
  | integerTextSize
  /-- A number without a fraction. -/
  | noFraction
  | finite
  | truth
  /-- A text or number that is a truth value. -/
  | truthReading
  | real
  /-- A text that is a number. -/
  | realText
deriving Repr, DecidableEq

/-- A place where a value does not have the required shape. -/
structure Issue where
  path : List String
  expected : Expected
deriving Repr, DecidableEq

/-- Data, or the issues that stand in its way. -/
abbrev Checked (α : Type) := Except (List Issue) α

/-- An issue at the value itself. -/
def unexpected {α : Type} (e : Expected) : Checked α := .error [⟨[], e⟩]

/-- A check below a step of the path. -/
def under {α : Type} (step : String) : Checked α → Checked α
  | .ok a => .ok a
  | .error issues => .error (issues.map fun i => { i with path := step :: i.path })

/-- Two checks, with the issues of both. -/
def both {α β γ : Type} (f : α → β → γ) : Checked α → Checked β → Checked γ
  | .ok a, .ok b => .ok (f a b)
  | .ok _, .error e => .error e
  | .error e, .ok _ => .error e
  | .error e, .error e' => .error (e ++ e')

/-- Checks of several values, with the issues of all. -/
def all {α : Type} : List (Checked α) → Checked (List α)
  | [] => .ok []
  | c :: rest => both List.cons c (all rest)

/-- Fields by name. -/
abbrev Fields := List (String × Value)

/-- Fields with a value put under a name. -/
def putField {α : Type} (name : String) (v : α) : List (String × α) → List (String × α)
  | [] => [(name, v)]
  | (n, old) :: rest => if n = name then (name, v) :: rest else (n, old) :: putField name v rest

/-- Fields from pairs, later ones winning. -/
def fieldsOf {α : Type} (pairs : List (String × α)) : List (String × α) :=
  pairs.foldl (fun fields p => putField p.1 p.2 fields) []

/-- A field that has to be there. -/
def field {α : Type} (name : String) (check : Value → Checked α) (fields : Fields) : Checked α :=
  match fields.lookup name with
  | none => .error [⟨[name], .field⟩]
  | some v => under name (check v)

/-- A field with a value to take if it is not there. -/
def fieldOr {α : Type} (name : String) (otherwise : α) (check : Value → Checked α)
    (fields : Fields) : Checked α :=
  match fields.lookup name with
  | none => .ok otherwise
  | some v => under name (check v)

/-- A value or null. -/
def orNull {α : Type} (check : Value → Checked α) : Value → Checked (Option α)
  | .null => .ok none
  | v => match check v with
    | .ok a => .ok (some a)
    | .error e => .error e

/-- Any value. -/
def anything (v : Value) : Checked Value := .ok v

/-- A text.  Bytes count if they are text in UTF-8. -/
def text : Value → Checked String
  | .str s => .ok s
  | .bytes bs => match String.fromUTF8? ⟨bs.toArray⟩ with
    | some s => .ok s
    | none => unexpected .textEncoding
  | _ => unexpected .text

/-- The items of a sequence or set. -/
def items? : Value → Option (List Value)
  | .list xs | .tuple xs | .set xs => some xs
  | _ => none

/-- The checks of items, each below its position. -/
def eachFrom {α : Type} (check : Value → Checked α) : Nat → List Value → List (Checked α)
  | _, [] => []
  | n, v :: rest =>
    under (String.ofList (Decimal.natChars n)) (check v) :: eachFrom check (n + 1) rest

/-- A list of items that pass a check. -/
def listOf {α : Type} (check : Value → Checked α) (v : Value) : Checked (List α) :=
  match items? v with
  | some xs => all (eachFrom check 0 xs)
  | none => unexpected .list

/-- An entry of a mapping with text keys; an issue of the key comes before those of the value. -/
def entryOf {α : Type} (check : Value → Checked α) (entry : Value × Value) : Checked (String × α) :=
  let step := match entry.1 with
    | .bool b => if b then "1" else "0"
    | k => k.plainText
  both Prod.mk (under step (under "[key]" (text entry.1))) (under step (check entry.2))

/-- A mapping with text keys whose values pass a check. -/
def mappingOf {α : Type} (check : Value → Checked α) : Value → Checked (List (String × α))
  | .map entries =>
    match all (entries.map (entryOf check)) with
    | .ok pairs => .ok (fieldsOf pairs)
    | .error e => .error e
  | _ => unexpected .mapping

/-- The fields of a record; keys that are no texts name no field. -/
def recordFields? : Value → Option Fields
  | .map entries => some (entries.filterMap fun
    | (.str s, v) => some (s, v)
    | _ => none)
  | _ => none

/-- A record whose fields pass a check. -/
def recordOf {α : Type} (check : Fields → Checked α) (v : Value) : Checked α :=
  match recordFields? v with
  | some fields => check fields
  | none => unexpected .record

/-- One of two kinds of values, with a name for each in the path of its issues. -/
def either {α : Type} (name₁ : String) (check₁ : Value → Checked α) (name₂ : String)
    (check₂ : Value → Checked α) (v : Value) : Checked α :=
  match check₁ v, check₂ v with
  | .ok a, _ => .ok a
  | _, .ok a => .ok a
  | .error e, .error e' =>
    both (fun _ a => a) (under name₁ (.error e : Checked α)) (under name₂ (.error e' : Checked α))

/-- A list of any items, as a value. -/
def listValue (v : Value) : Checked Value :=
  match listOf anything v with
  | .ok xs => .ok (.list xs)
  | .error e => .error e

/-- A mapping with text keys and any values, as a value. -/
def mappingValue (v : Value) : Checked Value :=
  match mappingOf anything v with
  | .ok fields => .ok (.record fields)
  | .error e => .error e

end Shape

end RouteDocs
