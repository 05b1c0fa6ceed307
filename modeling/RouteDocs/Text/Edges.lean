/-!
# RouteDocs.Text.Edges — classes of characters given by their edges

A class is a list of code points in increasing order at which membership changes, starting outside.
-/

namespace RouteDocs.Text

/-- Whether the number of edges at or below `n` is odd. -/
def within : List Nat → Nat → Bool
  | [], _ => false
  | e :: es, n => decide (e ≤ n) && !within es n

end RouteDocs.Text
