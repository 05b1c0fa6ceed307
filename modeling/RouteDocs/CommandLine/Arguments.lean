import RouteDocs.Text.Split

/-!
# RouteDocs.CommandLine.Arguments — reading the arguments of the command line

Options may stand anywhere among the arguments of a command.  A long option takes its value after an
equals sign or from the next argument, a short one from the rest of its argument or the next; short
options without a value may be joined.  Two hyphens end the options.
-/

namespace RouteDocs

open Text

/-- Why arguments are refused. -/
inductive UsageError where
  | noCommand
  | unknownCommand (name : String)
  | unknownOption (name : String)
  | valueMissing (name : String)
  | valueUnexpected (name : String)
  | optionMissing (name : String)
  | argumentMissing
  | argumentUnexpected (text : String)
  | noSuchFile (path : String)
  | isDirectory (path : String)
  | isFile (path : String)
deriving Repr, DecidableEq

/-- An option of a command. -/
structure OptionSpec where
  long : String
  short? : Option Char := none
  takesValue : Bool := true
deriving Repr, DecidableEq

/-- The options given, by their long names, and the other arguments. -/
structure Arguments where
  options : List (String × String) := []
  positional : List String := []
deriving Repr, DecidableEq, Inhabited

namespace Arguments

/-- The value of an option; the last one counts. -/
def value? (a : Arguments) (long : String) : Option String := a.options.reverse.lookup long

/-- Whether an option was given. -/
def has (a : Arguments) (long : String) : Bool := (a.value? long).isSome

/-- Options read from one argument, and the one that still needs a value. -/
abbrev Given := List (String × String) × Option String

/-- A long option with the value after its equals sign, if there is one. -/
def readLong (spec : OptionSpec) (value? : Option String) : Except UsageError Given :=
  match spec.takesValue, value? with
  | true, some v => .ok ([(spec.long, v)], none)
  | true, none => .ok ([], some spec.long)
  | false, none => .ok ([(spec.long, "")], none)
  | false, some _ => .error (.valueUnexpected spec.long)

/-- Short options joined in one argument. -/
def readShort (specs : List OptionSpec) : List Char → Except UsageError Given
  | [] => .ok ([], none)
  | c :: r =>
    match specs.find? (·.short? == some c) with
    | none => .error (.unknownOption (String.ofList ['-', c]))
    | some spec =>
      if spec.takesValue then
        if r.isEmpty then .ok ([], some spec.long) else .ok ([(spec.long, String.ofList r)], none)
      else do
        let (given, pending) ← readShort specs r
        return ((spec.long, "") :: given, pending)

/-- The name and value of a long option. -/
def splitLong (arg : List Char) : String × Option String :=
  match arg.dropWhile (· != '=') with
  | [] => (String.ofList arg, none)
  | _ :: v => (String.ofList (arg.takeWhile (· != '=')), some (String.ofList v))

/-- The options in one argument that starts with a hyphen. -/
def readOption (specs : List OptionSpec) (arg : String) : Except UsageError Given :=
  let (name, value?) := splitLong arg.toList
  match specs.find? (·.long == name) with
  | some spec => readLong spec value?
  | none => match arg.toList with
    | '-' :: '-' :: _ => .error (.unknownOption name)
    | _ => readShort specs (arg.toList.drop 1)

/-- Whether an argument holds options: a hyphen and something after it. -/
def isOption (arg : String) : Bool :=
  match arg.toList with
  | '-' :: _ :: _ => true
  | _ => false

/-- Reads arguments.  Where options may not be `mixed` with other arguments, they end at the first
other one. -/
def read (specs : List OptionSpec) (mixed : Bool) : List String → Except UsageError Arguments
  | [] => .ok {}
  | arg :: rest =>
    if arg = "--" then .ok { positional := rest }
    else if isOption arg then do
      let (given, pending) ← readOption specs arg
      match pending, rest with
      | none, rest =>
        let a ← read specs mixed rest
        return { a with options := given ++ a.options }
      | some long, v :: rest =>
        let a ← read specs mixed rest
        return { a with options := given ++ (long, v) :: a.options }
      | some long, [] => .error (.valueMissing long)
    else if mixed then do
      let a ← read specs mixed rest
      return { a with positional := arg :: a.positional }
    else .ok { positional := arg :: rest }

end Arguments

end RouteDocs
