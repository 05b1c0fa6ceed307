import RouteDocs.Yaml.Tag
import RouteDocs.Yaml.Token.Stream

/-!
# RouteDocs.Yaml.Node — the tree of a document

A node is a scalar, a sequence or a mapping with its type.  An alias is a copy of the node that its
anchor names.  A text holds at most one document.
-/

namespace RouteDocs.Yaml

/-- A node with its type. -/
inductive Node where
  | scalar (tag : Tag) (text : String)
  | sequence (tag : Tag) (items : List Node)
  | mapping (tag : Tag) (entries : List (Node × Node))
deriving Repr, Inhabited

/-- The type of a node. -/
def Node.tag : Node → Tag
  | .scalar t _ | .sequence t _ | .mapping t _ => t

/-- What is left to read of the tokens, and what was read of names. -/
structure Reading where
  tokens : List Token
  /-- Why there are no more tokens. -/
  stop : Fault
  anchors : List (String × Node) := []
  handles : List (String × String) := []
deriving Inhabited

namespace Reading

/-- The handles of tags that are always there. -/
def standardHandles : List (String × String) := [("!", "!"), ("!!", Tag.start)]

/-- A node of no characters. -/
def emptyNode : Node := .scalar .null ""

/-- The next token. -/
def peek (r : Reading) : Except Fault Token :=
  match r.tokens with
  | t :: _ => .ok t
  | [] => .error r.stop

/-- The reading after the next token. -/
def next (r : Reading) : Reading := { r with tokens := r.tokens.drop 1 }

/-- The full name of a tag. -/
def tagName (r : Reading) (t : TagText) : Except Fault String :=
  match t.handle with
  | none => .ok t.suffix
  | some h => match r.handles.lookup h with
    | some start => .ok (start ++ t.suffix)
    | none => .error .tagHandle

/-- The anchor and tag ahead, in either order. -/
def properties (r : Reading) : Except Fault (Option String × Option String × Reading) := do
  match ← r.peek with
  | .anchor a =>
    let r := r.next
    match ← r.peek with
    | .tag t => return (some a, some (← r.tagName t), r.next)
    | _ => return (some a, none, r)
  | .tag t =>
    let r' := r.next
    match ← r'.peek with
    | .anchor a => return (some a, some (← r.tagName t), r'.next)
    | _ => return (none, some (← r.tagName t), r')
  | _ => return (none, none, r)

/-- The type that a tag gives a node; without a tag of its own it has the given one. -/
def typeOf (tag : Option String) (otherwise : Tag) : Tag :=
  match tag with
  | none | some "!" => otherwise
  | some name => .ofName name

/-- A scalar with its tag. -/
def scalarNode (tag : Option String) (text : String) (plain : Bool) : Node :=
  .scalar (typeOf tag (if plain || tag.isSome then plainTag text.toList else .str)) text

/-- Remembers a node under an anchor. -/
def name (r : Reading) (anchor : Option String) (n : Node) : Except Fault (Node × Reading) :=
  match anchor with
  | none => .ok (n, r)
  | some a =>
    if (r.anchors.lookup a).isSome then .error .anchorTwice
    else .ok (n, { r with anchors := (a, n) :: r.anchors })

/-- Whether an item or value is missing before the next token. -/
def isMissing (ends : Token → Bool) (r : Reading) : Except Fault Bool := do
  return ends (← r.peek)

mutual

/-- A node.  Block collections are read only where `block`, and a sequence without indentation of its
own only where `loose`. -/
def node : (fuel : Nat) → (block loose : Bool) → Reading → Except Fault (Node × Reading)
  | 0, _, _, _ => .error .content
  | fuel + 1, block, loose, r => do
    match ← r.peek with
    | .alias a =>
      match r.anchors.lookup a with
      | some n => return (n, r.next)
      | none => .error .unknownAlias
    | _ =>
      let (anchor, tag, r) ← r.properties
      if anchor.any fun a => (r.anchors.lookup a).isSome then .error .anchorTwice
      match ← r.peek with
      | .blockEntry =>
        if loose then
          let (items, r) ← looseItems fuel r
          r.name anchor (.sequence (typeOf tag .seq) items)
        else if anchor.isSome || tag.isSome then r.name anchor (scalarNode tag "" true)
        else .error .content
      | .scalar text plain => r.next.name anchor (scalarNode tag text plain)
      | .flowSequenceStart =>
        let (items, r) ← flowItems fuel true r.next
        r.name anchor (.sequence (typeOf tag .seq) items)
      | .flowMappingStart =>
        let (entries, r) ← flowEntries fuel true r.next
        r.name anchor (.mapping (typeOf tag .map) entries)
      | t =>
        if block && t = .sequenceStart then
          let (items, r) ← blockItems fuel r.next
          r.name anchor (.sequence (typeOf tag .seq) items)
        else if block && t = .mappingStart then
          let (entries, r) ← blockEntries fuel r.next
          r.name anchor (.mapping (typeOf tag .map) entries)
        else if anchor.isSome || tag.isSome then r.name anchor (scalarNode tag "" true)
        else .error .content

/-- A node, or the empty node if one of the tokens that end it comes next. -/
def nodeUnless : (fuel : Nat) → (block loose : Bool) → (ends : Token → Bool) → Reading →
    Except Fault (Node × Reading)
  | 0, _, _, _, _ => .error .content
  | fuel + 1, block, loose, ends, r => do
    if ← r.isMissing ends then return (emptyNode, r) else node fuel block loose r

/-- The items of a block sequence, up to its end. -/
def blockItems : (fuel : Nat) → Reading → Except Fault (List Node × Reading)
  | 0, _ => .error .content
  | fuel + 1, r => do
    match ← r.peek with
    | .blockEntry =>
      let (item, r) ←
        nodeUnless fuel true false (fun t => t = .blockEntry || t = .blockEnd) r.next
      let (items, r) ← blockItems fuel r
      return (item :: items, r)
    | .blockEnd => return ([], r.next)
    | _ => .error .content

/-- The items of a sequence without indentation of its own. -/
def looseItems : (fuel : Nat) → Reading → Except Fault (List Node × Reading)
  | 0, _ => .error .content
  | fuel + 1, r => do
    match ← r.peek with
    | .blockEntry =>
      let (item, r) ← nodeUnless fuel true false
        (fun t => t = .blockEntry || t = .key || t = .value || t = .blockEnd) r.next
      let (items, r) ← looseItems fuel r
      return (item :: items, r)
    | _ => return ([], r)

/-- The entries of a block mapping, up to its end. -/
def blockEntries : (fuel : Nat) → Reading → Except Fault (List (Node × Node) × Reading)
  | 0, _ => .error .content
  | fuel + 1, r => do
    let ends (t : Token) : Bool := t = .key || t = .value || t = .blockEnd
    match ← r.peek with
    | .key =>
      let (key, r) ← nodeUnless fuel true true ends r.next
      let (value, r) ← match ← r.peek with
        | .value => nodeUnless fuel true true ends r.next
        | _ => pure (emptyNode, r)
      let (entries, r) ← blockEntries fuel r
      return ((key, value) :: entries, r)
    | .blockEnd => return ([], r.next)
    | _ => .error .content

/-- The items of a flow sequence, up to its end.  A key among them starts a mapping of one entry. -/
def flowItems : (fuel : Nat) → (first : Bool) → Reading → Except Fault (List Node × Reading)
  | 0, _, _ => .error .content
  | fuel + 1, first, r => do
    match ← r.peek with
    | .flowSequenceEnd => return ([], r.next)
    | t =>
      if !first && t ≠ .flowEntry then .error .content
      let r := if first then r else r.next
      let ends (t : Token) : Bool := t = .flowEntry || t = .flowSequenceEnd
      match ← r.peek with
      | .flowSequenceEnd => return ([], r.next)
      | .key =>
        let (key, r) ← nodeUnless fuel false false (fun t => t = .value || ends t) r.next
        let (value, r) ← match ← r.peek with
          | .value => nodeUnless fuel false false ends r.next
          | _ => pure (emptyNode, r)
        let (items, r) ← flowItems fuel false r
        return (.mapping .map [(key, value)] :: items, r)
      | _ =>
        let (item, r) ← node fuel false false r
        let (items, r) ← flowItems fuel false r
        return (item :: items, r)

/-- The entries of a flow mapping, up to its end. -/
def flowEntries : (fuel : Nat) → (first : Bool) → Reading →
    Except Fault (List (Node × Node) × Reading)
  | 0, _, _ => .error .content
  | fuel + 1, first, r => do
    match ← r.peek with
    | .flowMappingEnd => return ([], r.next)
    | t =>
      if !first && t ≠ .flowEntry then .error .content
      let r := if first then r else r.next
      let ends (t : Token) : Bool := t = .flowEntry || t = .flowMappingEnd
      match ← r.peek with
      | .flowMappingEnd => return ([], r.next)
      | .key =>
        let (key, r) ← nodeUnless fuel false false (fun t => t = .value || ends t) r.next
        let (value, r) ← match ← r.peek with
          | .value => nodeUnless fuel false false ends r.next
          | _ => pure (emptyNode, r)
        let (entries, r) ← flowEntries fuel false r
        return ((key, value) :: entries, r)
      | _ =>
        let (key, r) ← node fuel false false r
        let (entries, r) ← flowEntries fuel false r
        return ((key, emptyNode) :: entries, r)

end

/-- The directives before a document: at most one version, which has to be 1, and the handles of tags,
each once. -/
def directives : (fuel : Nat) → (version : Bool) → (own : List (String × String)) → Reading →
    Except Fault (List (String × String) × Reading)
  | 0, _, _, _ => .error .directive
  | fuel + 1, version, own, r => do
    match ← r.peek with
    | .directive (.version major _) =>
      if version || major ≠ 1 then .error .directive else directives fuel true own r.next
    | .directive (.tag h start) =>
      if (own.lookup h).isSome then .error .directive
      else directives fuel version ((h, start) :: own) r.next
    | .directive .reserved => directives fuel version own r.next
    | _ => return (own ++ standardHandles, r)

/-- The reading after the marks of the end of a document. -/
def skipDocumentEnds : (fuel : Nat) → Reading → Except Fault Reading
  | 0, r => .ok r
  | fuel + 1, r => do
    match ← r.peek with
    | .documentEnd => skipDocumentEnds fuel r.next
    | _ => return r

/-- The node of the document, if there is one.  There may not be a second document. -/
def document (r : Reading) : Except Fault (Option Node) := do
  let fuel := 2 * r.tokens.length + 4
  let ends (t : Token) : Bool := match t with
    | .directive _ | .documentStart | .documentEnd | .streamEnd => true
    | _ => false
  let finish (n : Node) (r : Reading) : Except Fault (Option Node) := do
    match ← (← skipDocumentEnds fuel r).peek with
    | .streamEnd => return some n
    | _ => .error .documents
  match ← r.peek with
  | .streamEnd => return none
  | .directive _ | .documentStart =>
    let (handles, r) ← directives fuel false [] r
    match ← r.peek with
    | .documentStart =>
      let (n, r) ← nodeUnless fuel true false ends { r.next with handles }
      finish n r
    | _ => .error .documents
  | _ =>
    let (n, r) ← node fuel true false { r with handles := standardHandles }
    finish n r

end Reading

/-- The node of the document in a text, if there is one. -/
def documentOf (text : List Char) : Except Fault (Option Node) :=
  if text.all isAllowed then
    let (tokens, stop) := tokensOf text
    Reading.document { tokens, stop := stop.getD .content }
  else .error .character

end RouteDocs.Yaml
