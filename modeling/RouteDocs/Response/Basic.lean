import RouteDocs.Pattern.Matcher
import RouteDocs.Pattern.Reader
import RouteDocs.Fault
import RouteDocs.Value.Literal

/-!
# RouteDocs.Response.Basic — response statuses from the source text of a handler

Patterns find the statuses that a handler gives explicitly, its answers without a status, and its
aborts; a marker tells that it fails when something is missing, and bound validation adds a status of
its own.  Statuses are listed once each, in the order in which they are found.
-/

namespace RouteDocs

open Text

/-- The patterns and marks by which statuses are found in a source text. -/
structure Heuristics where
  jsonWithStatus : String := "response\\(\\)->json\\(.*?,\\s*(\\d\x7b3\x7d)\\)"
  jsonCall : String := "response\\(\\)->json\\([^\\)]*\\)"
  abort : String := "abort\\((\\d\x7b3\x7d)\\)"
  notFoundMarker : String := "OrFail"
  validationStatus : String := "422"
deriving Repr, DecidableEq, Inhabited

namespace Heuristics

/-- The heuristics with one of them set by its name. -/
def set (h : Heuristics) (name value : String) : Except Cause Heuristics :=
  if name = "json_with_status" then .ok { h with jsonWithStatus := value }
  else if name = "json_call" then .ok { h with jsonCall := value }
  else if name = "abort" then .ok { h with abort := value }
  else if name = "not_found_marker" then .ok { h with notFoundMarker := value }
  else if name = "validation_status" then .ok { h with validationStatus := value }
  else .error (.unknownHeuristic name)

/-- The heuristics with some of them set by their names. -/
def ofPairs (pairs : List (String × String)) : Except Cause Heuristics :=
  pairs.foldlM (fun h p => h.set p.1 p.2) {}

/-- Reads a pattern. -/
def read (options : Pattern.Options) (text : String) : Except Cause Pattern :=
  (Pattern.read options text.toList).mapError .pattern

/-- Whether all patterns can be read, by a reader of patterns. -/
def checkWith (compile : List Char → Except Pattern.Error Pattern) (h : Heuristics) :
    Except Cause Unit :=
  [h.jsonWithStatus, h.jsonCall, h.abort].forM fun text => do
    let _ ← (compile text.toList).mapError .pattern

/-- Whether all patterns can be read. -/
def check (h : Heuristics) : Except Cause Unit := h.checkWith (Pattern.read {})

end Heuristics

/-! ### Statuses -/

/-- What was found for a status: a text, or the texts of several groups of a pattern. -/
inductive Status where
  | text (s : String)
  | groups (parts : List String)
deriving Repr, DecidableEq

namespace Status

/-- A status as a value. -/
def toValue : Status → Value
  | .text s => .str s
  | .groups parts => .tuple (parts.map .str)

/-- The status that a match stands for: the whole of it if the pattern has no group, the text of the
group if it has one, and else the texts of all groups. -/
def ofMatch (m : Pattern.Match) : Status :=
  match m.groups with
  | [] => .text (String.ofList m.whole)
  | [g] => .text (String.ofList g)
  | gs => .groups (gs.map String.ofList)

/-- An empty text, which is no status. -/
def isEmpty : Status → Bool
  | .text s => s.isEmpty
  | .groups _ => false

end Status

/-- The members of a list in the order of their first places, each once. -/
def distinct {α : Type} [DecidableEq α] (xs : List α) : List α :=
  xs.foldl (fun seen x => if x ∈ seen then seen else seen ++ [x]) []

theorem distinct_concat {α : Type} [DecidableEq α] (xs : List α) (x : α) :
    distinct (xs ++ [x]) = if x ∈ distinct xs then distinct xs else distinct xs ++ [x] := by
  unfold distinct
  rw [List.foldl_append]
  rfl

/-- What a pattern finds in a source text. -/
def statusesBy (p : Pattern) (code : String) : List Status :=
  (p.findAll code.toList).map Status.ofMatch

/-- The statuses in a source text. -/
def statusesOf (h : Heuristics) (code : String) (validated : Bool) :
    Except Cause (List Status) := do
  let explicit := statusesBy (← Heuristics.read { dotAll := true } h.jsonWithStatus) code
  let missing : List Status :=
    if h.notFoundMarker ≠ "" && occursIn h.notFoundMarker.toList code.toList then [.text "404"]
    else []
  let calls := statusesBy (← Heuristics.read {} h.jsonCall) code
  let plain : List Status := if explicit.length < calls.length then [.text "200"] else []
  let aborts := statusesBy (← Heuristics.read {} h.abort) code
  let invalid : List Status := if validated then [.text h.validationStatus] else []
  return distinct ((explicit ++ missing ++ plain ++ aborts ++ invalid).filter (!·.isEmpty))

/-! ### Responses -/

/-- The key of the example among the responses. -/
def exampleKey : String := "x-example"

/-- A response with a description. -/
def described (text : String) : Value := .record [("description", .str text)]

/-- The response that a status stands for. -/
def Status.response (s : Status) : Value := described ("Response " ++ s.toValue.plainText)

/-- The example of a request as a response. -/
def exampleResponse (example_ : Value) : Value :=
  .record [("description", .str "Example"),
    ("content", .record [("application/json", .record [("example", example_)])])]

/-- Responses by status. -/
abbrev Responses := List (Status × Value)

/-- Responses with one put under a status. -/
def Responses.put (s : Status) (v : Value) : Responses → Responses
  | [] => [(s, v)]
  | (t, old) :: rest => if t = s then (t, v) :: rest else (t, old) :: put s v rest

/-- The responses of a handler.  There is always one: without any sign of a status, that all is
well. -/
def responsesOf (h : Heuristics) (code : String) (validated : Bool) (example? : Option Value) :
    Except Cause Responses := do
  let found : Responses := (← statusesOf h code validated).map fun s => (s, s.response)
  let all := match example? with
    | some v => if v.isEmpty then found else found.put (.text exampleKey) (exampleResponse v)
    | none => found
  return if all.isEmpty then [(.text "200", described "OK")] else all

/-- Responses as a value. -/
def Responses.toValue (rs : Responses) : Value := .map (rs.map fun r => (r.1.toValue, r.2))

end RouteDocs
