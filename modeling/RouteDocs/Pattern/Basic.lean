/-!
# RouteDocs.Pattern.Basic — patterns of text

The tree of a pattern.  Nodes match at a place in a text and, when they can match in several ways,
prefer the earlier alternative, the longer run of a greedy loop and the shorter run of a lazy one.
-/

namespace RouteDocs.Pattern

/-- Options in force at a place in a pattern. -/
structure Options where
  ignoreCase : Bool := false
  multiline : Bool := false
  dotAll : Bool := false
  verbose : Bool := false
  ascii : Bool := false
  /-- Loops are refused. -/
  loopFree : Bool := false
deriving Repr, DecidableEq, Inhabited

/-- Named classes of characters. -/
inductive Category where
  | digit | blank | word
deriving Repr, DecidableEq

/-- A member of a character class.  Code points need not be characters. -/
inductive Item where
  | code (n : Nat)
  | range (low high : Nat)
  | category (kind : Category) (negated : Bool)
deriving Repr, DecidableEq

/-- A test of one character. -/
structure CharClass where
  items : List Item
  negated : Bool := false
deriving Repr, DecidableEq

/-- Conditions on a place. -/
inductive Anchor where
  | textStart
  | lineStart
  | textEnd
  /-- The end, or before a line feed that ends the text. -/
  | lastLineEnd
  | lineEnd
  | wordEdge (ascii : Bool)
  | noWordEdge (ascii : Bool)
deriving Repr, DecidableEq

/-- Which number of rounds a loop prefers. -/
inductive Greed where
  | greedy | lazy
  /-- The most rounds, and no others. -/
  | possessive
deriving Repr, DecidableEq

/-- The tree of a pattern. -/
inductive Node where
  | empty
  /-- Any character, a line feed only if `newlines`. -/
  | any (newlines : Bool)
  | one (cls : CharClass) (ignoreCase ascii : Bool)
  | seq (first second : Node)
  | alt (first second : Node)
  | group (index : Nat) (body : Node)
  | loop (greed : Greed) (least : Nat) (most : Option Nat) (body : Node)
  | anchor (a : Anchor)
  | ahead (negated : Bool) (body : Node)
  | behind (width : Nat) (negated : Bool) (body : Node)
  /-- The text of a group once more. -/
  | again (index : Nat) (ignoreCase ascii : Bool)
  | ifGroup (index : Nat) (yes no : Node)
  /-- The first way in which the body matches, and no other. -/
  | atomic (body : Node)
deriving Repr, DecidableEq, Inhabited

/-- Least and greatest number of characters; `none` if there is no greatest. -/
structure Width where
  least : Nat
  most : Option Nat
deriving Repr, DecidableEq, Inhabited

namespace Width

/-- Exactly `n` characters. -/
def exactly (n : Nat) : Width := ⟨n, some n⟩

/-- One after the other. -/
def add (a b : Width) : Width :=
  ⟨a.least + b.least, match a.most, b.most with
    | some x, some y => some (x + y)
    | _, _ => none⟩

/-- One or the other. -/
def join (a b : Width) : Width :=
  ⟨min a.least b.least, match a.most, b.most with
    | some x, some y => some (max x y)
    | _, _ => none⟩

/-- Between `least` and `most` times. -/
def rounds (w : Width) (least : Nat) (most : Option Nat) : Width :=
  ⟨w.least * least, match w.most, most with
    | some 0, _ => some 0
    | some x, some y => some (x * y)
    | _, _ => none⟩

end Width

/-- The width of a node, given the widths of the groups. -/
def Node.width (groups : List (Nat × Width)) : Node → Width
  | .empty | .anchor _ | .ahead _ _ | .behind _ _ _ => .exactly 0
  | .any _ | .one _ _ _ => .exactly 1
  | .seq a b => (a.width groups).add (b.width groups)
  | .alt a b => (a.width groups).join (b.width groups)
  | .group _ body | .atomic body => body.width groups
  | .loop _ least most body => (body.width groups).rounds least most
  | .again index _ _ => (groups.lookup index).getD (.exactly 0)
  | .ifGroup _ yes no => (yes.width groups).join (no.width groups)

/-- Why a pattern is refused. -/
inductive Error where
  | badEscape
  | badReference
  | openGroup
  | badRange
  | badRepeat
  | nothingToRepeat
  | multipleRepeat
  | unterminated
  | unbalanced
  | badGroupName
  | groupNameTwice
  | badOption
  | optionsNotFirst
  | unknownExtension
  | threeBranches
  | variableLookBehind
  | wideLookBehind
  /-- A repetition number or a code point is beyond all bounds. -/
  | numberTooLarge
  /-- A repetition number has more digits than are read. -/
  | numberTooLong
  /-- Options that exclude each other are both on. -/
  | optionsClash
deriving Repr, DecidableEq, Inhabited

/-- Whether an error is one of the pattern as a pattern.  The others are of numbers and of options. -/
def Error.isSyntactic : Error → Bool
  | .numberTooLarge | .numberTooLong | .optionsClash => false
  | _ => true

/-- The greatest width of a look-behind. -/
def maxWidth : Nat := 4294967295

/-- Whether a tree stands for a pattern: every look-behind is of one width that is not too great, and
there are no loops where they are refused. -/
def Node.check (groups : List (Nat × Width)) (loopFree : Bool) : Node → Except Error Unit
  | .empty | .any _ | .one _ _ _ | .anchor _ | .again _ _ _ => .ok ()
  | .seq a b | .alt a b | .ifGroup _ a b => do
    a.check groups loopFree
    b.check groups loopFree
  | .group _ body | .ahead _ body | .atomic body => body.check groups loopFree
  | .loop _ _ _ body => if loopFree then .error .badRepeat else body.check groups loopFree
  | .behind width _ body =>
    if maxWidth < width then .error .wideLookBehind
    else if body.width groups ≠ .exactly width then .error .variableLookBehind
    else body.check groups loopFree

end RouteDocs.Pattern

namespace RouteDocs

/-- A pattern with the number of its groups. -/
structure Pattern where
  root : Pattern.Node
  groupCount : Nat
deriving Repr, DecidableEq, Inhabited

end RouteDocs
