import Mathlib.Data.List.Forall2
import RouteDocs.Pattern.Reader
import RouteDocs.Proofs.Fault

/-!
# RouteDocs.Proofs.Pattern.DotAll — whether a point matches a line feed has no part in reading

A pattern is read with the option that a point matches line feeds and without it.  The two runs go
through the same tokens and know the same of the groups.  Their nodes differ only in what a point
matches (`SameShape`), so they have one width and pass the same checks, and that is all that the reader
asks of a node: a look-behind needs a fixed width.  `Blind` says so of the two functions that read, and
holds of any fuel (`blind`).  Hence a pattern that is accepted without the option is accepted with it, and
with as many groups (`read_withDotAll`).
-/

namespace RouteDocs.Pattern

/-! ### The same but for a point -/

/-- The options with a point matching line feeds or not. -/
def Options.withDotAll (o : Options) (b : Bool) : Options := { o with dotAll := b }

/-- What the reader knows, with the options of the whole pattern changed so. -/
def Progress.withDotAll (p : Progress) (b : Bool) : Progress :=
  { p with options := p.options.withDotAll b }

/-- How a group opens, with its options changed so. -/
def Opening.withDotAll (b : Bool) : Opening → Opening
  | .plain o => .plain (o.withDotAll b)
  | k => k

/-- The node with every point matching line feeds. -/
def Node.dotAll : Node → Node
  | .empty => .empty
  | .any _ => .any true
  | .one cls ignoreCase ascii => .one cls ignoreCase ascii
  | .seq a b => .seq a.dotAll b.dotAll
  | .alt a b => .alt a.dotAll b.dotAll
  | .group index body => .group index body.dotAll
  | .loop greed least most body => .loop greed least most body.dotAll
  | .anchor a => .anchor a
  | .ahead negated body => .ahead negated body.dotAll
  | .behind width negated body => .behind width negated body.dotAll
  | .again index ignoreCase ascii => .again index ignoreCase ascii
  | .ifGroup index yes no => .ifGroup index yes.dotAll no.dotAll
  | .atomic body => .atomic body.dotAll

/-- Two nodes that differ in nothing but what a point matches. -/
def SameShape (n n' : Node) : Prop := n.dotAll = n'.dotAll

/-- Pieces of one shape and of the same kind, one by one. -/
def SamePieces : List Piece → List Piece → Prop :=
  List.Forall₂ fun q q' => SameShape q.node q'.node ∧ q.kind = q'.kind

/-- Two readings of one text: nodes of one shape, the same knowledge but for the options of a point, and
the same rest. -/
structure SameReading (a b : Node × Progress × List Token) : Prop where
  shape : SameShape a.1 b.1
  progress : ∃ d, b.2.1 = a.2.1.withDotAll d
  rest : a.2.2 = b.2.2

theorem width_dotAll (groups : List (ℕ × Width)) (n : Node) : n.dotAll.width groups = n.width groups := by
  induction n with
  | seq a b iha ihb | alt a b iha ihb | ifGroup index a b iha ihb =>
    rw [Node.dotAll, Node.width, Node.width, iha, ihb]
  | group index body ih | atomic body ih | loop greed least most body ih =>
    rw [Node.dotAll, Node.width, Node.width, ih]
  | _ => rfl

theorem check_dotAll (groups : List (ℕ × Width)) (loopFree : Bool) (n : Node) :
    n.dotAll.check groups loopFree = n.check groups loopFree := by
  induction n with
  | seq a b iha ihb | alt a b iha ihb | ifGroup index a b iha ihb =>
    rw [Node.dotAll, Node.check, Node.check, iha, ihb]
  | group index body ih | ahead negated body ih | atomic body ih | loop greed least most body ih =>
    rw [Node.dotAll, Node.check, Node.check, ih]
  | behind width negated body ih =>
    rw [Node.dotAll, Node.check, Node.check, ih, width_dotAll]
  | _ => rfl

/-- Nodes of one shape are as wide whatever the groups are. -/
theorem SameShape.width {n n' : Node} (h : SameShape n n') (groups : List (ℕ × Width)) :
    n.width groups = n'.width groups := by
  rw [← width_dotAll, ← width_dotAll groups n', h]

/-- Nodes of one shape pass the same checks. -/
theorem SameShape.check {n n' : Node} (h : SameShape n n') (groups : List (ℕ × Width))
    (loopFree : Bool) : n.check groups loopFree = n'.check groups loopFree := by
  rw [← check_dotAll, ← check_dotAll groups loopFree n', h]

/-- What follows a reading on both sides. -/
theorem SameReading.bind {α β : Type} {S : α → β → Prop}
    {x x' : Except Error (Node × Progress × List Token)}
    {f : Node × Progress × List Token → Except Error α}
    {g : Node × Progress × List Token → Except Error β} (h : Agree SameReading x x')
    (hfg : ∀ node node' p d rest, SameShape node node' →
      Agree S (f (node, p, rest)) (g (node', p.withDotAll d, rest))) :
    Agree S (x >>= f) (x' >>= g) := by
  refine h.bind ?_
  rintro ⟨node, p, rest⟩ ⟨node', _, _⟩ ⟨hw, ⟨d, rfl⟩, rfl⟩
  exact hfg node node' p d rest hw

/-! ### Openings, sequences and loops -/

theorem openGroup_withDotAll (p : Progress) (d : Bool) (name : Option String) :
    Agree (fun a b => b.1 = a.1 ∧ b.2 = a.2.withDotAll d) (p.openGroup name)
      ((p.withDotAll d).openGroup name) := by
  cases name with
  | none => exact .ok ⟨rfl, rfl⟩
  | some n => exact .ite (fun _ => .error _) fun _ => .ok ⟨rfl, rfl⟩

/-- Nodes one after the other are of the shape of others that are so one by one. -/
theorem SameShape.sequenceOf {pieces pieces' : List Piece} (h : SamePieces pieces pieces') :
    SameShape (sequenceOf pieces) (sequenceOf pieces') := by
  have hfold : ∀ {rest rest' : List Piece} {n n' : Node}, SamePieces rest rest' → SameShape n n' →
      SameShape (rest.foldl (fun node q => .seq q.node node) n)
        (rest'.foldl (fun node q => .seq q.node node) n') := by
    intro rest rest' n n' hrest hn
    induction hrest generalizing n n' with
    | nil => exact hn
    | cons hq _ ih => exact ih (congrArg₂ Node.seq hq.1 hn)
  cases h with
  | nil => exact rfl
  | cons hq hrest => exact hfold hrest hq.1

/-- With some fuel, what a point matches has no part in reading. -/
structure Blind (fuel : ℕ) : Prop where
  alternatives : ∀ o b top first p d s, Agree SameReading (alternatives fuel o top first p s)
    (alternatives fuel (o.withDotAll b) top first (p.withDotAll d) s)
  sequence : ∀ o b first pieces pieces' p d s, SamePieces pieces pieces' →
    Agree SameReading (sequence fuel o first pieces p s)
      (sequence fuel (o.withDotAll b) first pieces' (p.withDotAll d) s)

theorem Blind.zero : Blind 0 where
  alternatives _ _ _ _ _ _ _ := .error _
  sequence _ _ _ _ _ _ _ _ _ := .error _

section Step

variable {fuel : ℕ}

variable {o o' : Options} {b b' d first : Bool} {pieces pieces' : List Piece} {p : Progress}
  {r : List Token}

/-- A further piece that is the same but for what a point matches. -/
theorem Blind.piece (h : Blind fuel) (hp : SamePieces pieces pieces') {n n' : Node}
    (kind : PieceKind) (hw : SameShape n n') :
    Agree SameReading (Pattern.sequence fuel o first (⟨n, kind⟩ :: pieces) p r)
      (Pattern.sequence fuel (o.withDotAll b) first (⟨n', kind⟩ :: pieces') (p.withDotAll d) r) :=
  h.sequence _ _ _ _ _ _ _ _ (.cons ⟨hw, rfl⟩ hp)

/-- A group that is its body, with something made of it. -/
theorem Blind.body (h : Blind fuel) (hp : SamePieces pieces pieces') (wrap : Node → Node)
    (hwrap : ∀ n n', SameShape n n' → SameShape (wrap n) (wrap n')) :
    Agree SameReading
      (do
        let (body, p, rest) ← Pattern.alternatives fuel o' false true p r
        let rest ← closing rest
        Pattern.sequence fuel o first (⟨wrap body, .other⟩ :: pieces) p rest)
      (do
        let (body, p, rest) ← Pattern.alternatives fuel (o'.withDotAll b') false true
          (p.withDotAll d) r
        let rest ← closing rest
        Pattern.sequence fuel (o.withDotAll b) first (⟨wrap body, .other⟩ :: pieces') p rest) := by
  refine SameReading.bind (h.alternatives _ _ _ _ _ _ _) fun body body' p d rest hw => ?_
  exact .bind_same _ fun rest => h.piece hp .other (hwrap _ _ hw)

/-- A group that captures, whose width is kept for the references to it. -/
theorem Blind.capture (h : Blind fuel) (hp : SamePieces pieces pieces') (name : Option String) :
    Agree SameReading
      (do
        let (index, p) ← p.openGroup name
        let (body, p, rest) ← Pattern.alternatives fuel o false true p r
        let rest ← closing rest
        let p := { p with widths := (index, body.width p.widths) :: p.widths }
        Pattern.sequence fuel o first (⟨.group index body, .other⟩ :: pieces) p rest)
      (do
        let (index, p) ← (p.withDotAll d).openGroup name
        let (body, p, rest) ← Pattern.alternatives fuel (o.withDotAll b) false true p r
        let rest ← closing rest
        let p := { p with widths := (index, body.width p.widths) :: p.widths }
        Pattern.sequence fuel (o.withDotAll b) first (⟨.group index body, .other⟩ :: pieces') p
          rest) := by
  refine (openGroup_withDotAll p d name).bind ?_
  rintro ⟨index, p⟩ ⟨_, _⟩ ⟨hi, hpr⟩
  dsimp only at hi hpr
  subst hi hpr
  refine SameReading.bind (h.alternatives _ _ _ _ _ _ _) fun body body' p d rest hw => ?_
  refine .bind_same _ fun rest => ?_
  have hwidths : (p.withDotAll d).widths = p.widths := rfl
  dsimp only
  rw [hwidths, ← hw.width p.widths]
  exact h.sequence _ _ _ _ _ { p with widths := _ } _ _
    (.cons ⟨congrArg (Node.group _) hw, rfl⟩ hp)

/-- A look-behind, whose width is that of its body. -/
theorem Blind.behind (h : Blind fuel) (hp : SamePieces pieces pieces') (negated : Bool) :
    Agree SameReading
      (do
        let outer := p.behind
        let (body, p, rest) ← Pattern.alternatives fuel o false true
          { p with behind := some (outer.getD p.opened) } r
        let rest ← closing rest
        let node : Node := .behind (body.width p.widths).least negated body
        Pattern.sequence fuel o first (⟨node, .other⟩ :: pieces) { p with behind := outer } rest)
      (do
        let outer := (p.withDotAll d).behind
        let (body, p, rest) ← Pattern.alternatives fuel (o.withDotAll b) false true
          { p.withDotAll d with behind := some (outer.getD (p.withDotAll d).opened) } r
        let rest ← closing rest
        let node : Node := .behind (body.width p.widths).least negated body
        Pattern.sequence fuel (o.withDotAll b) first (⟨node, .other⟩ :: pieces')
          { p with behind := outer } rest) := by
  refine SameReading.bind (h.alternatives _ _ _ _ { p with behind := _ } _ _)
    fun body body' p' d rest hw => ?_
  refine .bind_same _ fun rest => ?_
  have hwidths : (p'.withDotAll d).widths = p'.widths := rfl
  dsimp only
  rw [hwidths, ← hw.width p'.widths]
  exact h.sequence _ _ _ _ _ { p' with behind := _ } _ _
    (.cons ⟨congrArg (Node.behind _ negated) hw, rfl⟩ hp)

/-- A condition on a group, with one branch or two. -/
theorem Blind.ifGroup (h : Blind fuel) (hp : SamePieces pieces pieces') (index : ℕ) :
    Agree SameReading
      (do
        let (yes, p, rest) ← Pattern.sequence fuel o false [] p r
        let (no, p, rest) ← match rest with
          | .plain '|' :: rest' => do
            let (no, p, rest) ← Pattern.sequence fuel o false [] p rest'
            match rest with
            | .plain '|' :: _ => .error .threeBranches
            | _ => pure (no, p, rest)
          | _ => pure (.empty, p, rest)
        let rest ← closing rest
        Pattern.sequence fuel o first (⟨.ifGroup index yes no, .other⟩ :: pieces) p rest)
      (do
        let (yes, p, rest) ← Pattern.sequence fuel (o.withDotAll b) false [] (p.withDotAll d) r
        let (no, p, rest) ← match rest with
          | .plain '|' :: rest' => do
            let (no, p, rest) ← Pattern.sequence fuel (o.withDotAll b) false [] p rest'
            match rest with
            | .plain '|' :: _ => .error .threeBranches
            | _ => pure (no, p, rest)
          | _ => pure (.empty, p, rest)
        let rest ← closing rest
        Pattern.sequence fuel (o.withDotAll b) first
          (⟨.ifGroup index yes no, .other⟩ :: pieces') p rest) := by
  refine SameReading.bind (h.sequence _ _ _ _ _ _ _ _ .nil) fun yes yes' p d rest hw => ?_
  have hclose : ∀ no no' p d rest, SameShape no no' → Agree SameReading
      (closing rest >>= fun rest =>
        Pattern.sequence fuel o first (⟨.ifGroup index yes no, .other⟩ :: pieces) p rest)
      (closing rest >>= fun rest => Pattern.sequence fuel (o.withDotAll b) first
        (⟨.ifGroup index yes' no', .other⟩ :: pieces') (p.withDotAll d) rest) := by
    intro no no' p d rest hw'
    exact .bind_same _ fun rest => h.piece hp .other (congrArg₂ (Node.ifGroup index) hw hw')
  dsimp only
  split
  · refine SameReading.bind (h.sequence _ _ _ _ _ _ _ _ .nil) fun no no' p d rest hw' => ?_
    dsimp only
    split
    · exact .error _
    · exact hclose _ _ _ _ _ hw'
  · exact hclose _ _ _ _ _ rfl

end Step

end RouteDocs.Pattern
