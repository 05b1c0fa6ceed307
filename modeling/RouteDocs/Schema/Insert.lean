import RouteDocs.Schema.FieldPath
import RouteDocs.Schema.Node

/-!
# RouteDocs.Schema.Insert — putting a field into the property tree

The names of a path lead through arrays of objects.  Missing arrays are made, and a leaf of type array
becomes an array of objects, since both describe one list.  A field that meets any other structure on
its way, or structure at its end, is refused.  The tree is changed on the way down, level by level,
before it is known whether the field is refused further below.
-/

namespace RouteDocs.Schema

/-- Whether a leaf may stand where the tree has this node. -/
def yields : Option Node → Bool
  | none => true
  | some (.leaf _) => true
  | some _ => false

/-- The properties with an array of objects under a name, in the place of a leaf of type array or
where there was nothing. -/
def openItems (name : String) (properties : Properties) : Properties :=
  match properties.get? name with
  | none => properties.put name .arrayOfObjects
  | some (.leaf l) => if l.type = .array then properties.put name .arrayOfObjects else properties
  | some _ => properties

/-- Merges a leaf into the properties at the end of the names; the flag tells whether it was put
there. -/
def merge (leaf : Leaf) (name : String) : (rest : List String) → Properties → Bool × Properties
  | [], properties =>
    if yields (properties.get? name) then (true, properties.put name (.leaf leaf))
    else (false, properties)
  | next :: rest, properties =>
    let properties := openItems name properties
    match properties.get? name with
    | some (.array (.object inner required)) =>
      let (accepted, inner) := merge leaf next rest inner
      (accepted, properties.put name (.array (.object inner required)))
    | _ => (false, properties)

/-- Puts a field into the tree; the flag tells whether it was accepted. -/
def resolve (properties : Properties) (field : String) (leaf : Leaf) : Bool × Properties :=
  let path := FieldPath.parse field
  merge leaf path.first path.rest properties

end RouteDocs.Schema
