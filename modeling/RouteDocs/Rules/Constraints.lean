import RouteDocs.Decimal.Numeral
import RouteDocs.Rules.FieldType

/-!
# RouteDocs.Rules.Constraints — what the rules of a field demand of its values

A field may be required, may be nullable, may have a list of allowed values and may be bounded.  The
first list of values counts, and of the bounds the last that is a number.  A bound is a length for a
text and a value for a number, and nothing for any other type.
-/

namespace RouteDocs

open Text Decimal

/-- A bound: an integer, or a number with a fraction. -/
inductive Number where
  | int (i : Int)
  | real (x : Real64)
deriving Repr, DecidableEq

/-- A number as a value. -/
def Number.toValue : Number → Value
  | .int i => .int i
  | .real x => .real x

/-- The constraints on a field. -/
structure Constraints where
  required : Bool := false
  nullable : Bool := false
  enum : Option (List Value) := none
  minimum : Option Number := none
  maximum : Option Number := none
  minLength : Option Number := none
  maxLength : Option Number := none
deriving Repr, BEq

/-- Why rules cannot be compiled: a bound has more digits than an integer may have. -/
inductive RuleError where
  | boundTooLong (text : String)
deriving Repr, DecidableEq

/-- The shape of a number: an optional minus sign and digits, perhaps with a fraction. -/
inductive NumberShape where
  | whole | fractional | none
deriving Repr, DecidableEq

/-- The shape of a trimmed text. -/
def numberShape (s : List Char) : NumberShape :=
  let unsigned := match s with
    | '-' :: r => r
    | r => r
  let fraction := unsigned.dropWhile isDecimalDigit
  if (unsigned.takeWhile isDecimalDigit).isEmpty then .none
  else match fraction with
    | [] => .whole
    | '.' :: r => if !r.isEmpty && r.all isDecimalDigit then .fractional else .none
    | _ => .none

/-- Reads a bound for a field of the given type.  Only a number may have a fraction; a text that is
not a number is no bound. -/
def readBound (type : FieldType) (text : String) : Except RuleError (Option Number) :=
  let s := trim text.toList
  match numberShape s with
  | .none => .ok none
  | .fractional => .ok (if type = .number then (readReal? s).map .real else none)
  | .whole =>
    match readInt? 10 s with
    | some i => .ok (some (.int i))
    | none => .error (.boundTooLong text)

/-- The last of the texts that is a bound. -/
def lastBound (type : FieldType) : List String → Except RuleError (Option Number)
  | [] => .ok none
  | t :: rest => do
    let bound ← readBound type t
    let later ← lastBound type rest
    return later.or bound

/-- The allowed values of a field. -/
def enumOf (type : FieldType) (rules : List Rule) : Option (List Value) :=
  if type = .boolean then some [.int 0, .int 1]
  else match ruleValues rules "in:" with
    | [] => none
    | values :: _ => some ((pieces ',' values).map .str)

/-- The constraints that rules put on a field of the given type. -/
def constraintsOf (rules : List Rule) (type : FieldType) : Except RuleError Constraints := do
  let low ← lastBound type (ruleValues rules "min:")
  let high ← lastBound type (ruleValues rules "max:")
  let counts := type = .integer || type = .number
  let measures := type = .string
  return {
    required := hasRule rules "required"
    nullable := hasRule rules "nullable"
    enum := enumOf type rules
    minimum := if counts then low else none
    maximum := if counts then high else none
    minLength := if measures then low else none
    maxLength := if measures then high else none }

end RouteDocs
