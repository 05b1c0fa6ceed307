import RouteDocs.Pattern.Basic
import RouteDocs.Text.Blank
import RouteDocs.Text.Case
import RouteDocs.Text.Surrogate
import RouteDocs.Text.Word

/-!
# RouteDocs.Pattern.Matcher — matching a pattern at a place and finding all matches

`Node.run` matches a node at a place and hands every state in which it can end, in order of
preference, to a continuation until that accepts one.  `Pattern.findAll` goes through a text from the
left; the next match starts where the last one ended, and after an empty match only a longer one may
start at the same place.
-/

namespace RouteDocs.Pattern

open RouteDocs.Text

/-! ### Tests of one character -/

/-- Whether a character is in a named class. -/
def Category.holds (ascii : Bool) (c : Char) : Category → Bool
  | .digit => if ascii then isAsciiDigit c else isDecimalDigit c
  | .blank => if ascii then c.isWhitespace || c == '\x0b' || c == '\x0c' else isBlank c
  | .word => if ascii then isAsciiLetter c || isAsciiDigit c || c == '_' else isWordChar c

/-- Whether a character is a member. -/
def Item.holds (ascii : Bool) (c : Char) : Item → Bool
  | .code n => codeOf c == n
  | .range low high => low ≤ codeOf c && codeOf c ≤ high
  | .category kind negated => kind.holds ascii c != negated

/-- Lower case of a code point. -/
def lowerCode (ascii : Bool) (n : Nat) : Nat :=
  if ascii then (if 65 ≤ n && n ≤ 90 then n + 32 else n)
  else codeOf (lowerChar (charOfCode n))

/-- A code point that is changed by lower or upper case. -/
def isCasedCode (ascii : Bool) (n : Nat) : Bool :=
  if ascii then (65 ≤ n && n ≤ 90) || (97 ≤ n && n ≤ 122)
  else
    let c := charOfCode n
    lowerChar c != c || upperChar c != c

/-- The lower-case code points that count as `n` when case is ignored. -/
def lowerClass (ascii : Bool) (n : Nat) : List Nat :=
  if ascii then [n] else ((lowerVariants.find? (·.contains n)).getD [n])

/-- The code points whose lower case is `n`. -/
def lowerSources (ascii : Bool) (n : Nat) : List Nat :=
  if ascii then (if 97 ≤ n && n ≤ 122 then [n, n - 32] else [n])
  else n :: preimages lowerRuns n ++ (if n = 105 then [0x130] else [])

/-- A member with a case. -/
def Item.isCased (ascii : Bool) : Item → Bool
  | .code n => isCasedCode ascii n
  | .range low high =>
    if ascii then isCasedCode true low || (low < 65 && 65 ≤ high) || (low < 97 && 97 ≤ high)
    else (lowerRuns ++ upperRuns).any fun r => r.first ≤ high && low ≤ r.last
  | .category _ _ => false

/-- Whether a lower-case code point is a member when case is ignored. -/
def Item.holdsFolded (ascii : Bool) (n : Nat) : Item → Bool
  | .code m => (lowerClass ascii (lowerCode ascii m)).contains n
  | .range low high =>
    (lowerClass ascii n).any fun v =>
      (lowerSources ascii v).any fun m => low ≤ m && m ≤ high && lowerCode ascii m == v
  | .category kind negated => kind.holds ascii (charOfCode n) != negated

/-- Whether a character passes the test. -/
def CharClass.holds (cls : CharClass) (ignoreCase ascii : Bool) (c : Char) : Bool :=
  if ignoreCase && cls.items.any (·.isCased ascii) then
    cls.items.any (·.holdsFolded ascii (lowerCode ascii (codeOf c))) != cls.negated
  else cls.items.any (·.holds ascii c) != cls.negated

/-! ### Matching at a place -/

/-- A place in a text with what the groups have matched so far, the latest first. -/
structure State where
  /-- The text before the place, nearest character first. -/
  before : List Char
  after : List Char
  position : Nat
  groups : List (Nat × List Char) := []
deriving Repr, DecidableEq, Inhabited

/-- The text from a place to a later one. -/
def State.textTo (start stop : State) : List Char :=
  start.after.take (stop.position - start.position)

/-- The place after the next character. -/
def State.advance (st : State) (c : Char) (rest : List Char) : State :=
  { st with before := c :: st.before, after := rest, position := st.position + 1 }

/-- The place `n` characters earlier. -/
def State.goBack? : Nat → State → Option State
  | 0, st => some st
  | n + 1, st =>
    match st.before with
    | [] => none
    | c :: r => State.goBack? n { st with before := r, after := c :: st.after,
                                          position := st.position - 1 }

/-- Whether a condition holds at a place. -/
def Anchor.holds (st : State) : Anchor → Bool
  | .textStart => st.before.isEmpty
  | .lineStart => match st.before with
    | [] => true
    | c :: _ => c == '\n'
  | .textEnd => st.after.isEmpty
  | .lastLineEnd => st.after == [] || st.after == ['\n']
  | .lineEnd => match st.after with
    | [] => true
    | c :: _ => c == '\n'
  | .wordEdge ascii => edge ascii true
  | .noWordEdge ascii => edge ascii false
where
  /-- The sides differ (or agree) in being word characters; an empty text has no place of either
  kind. -/
  edge (ascii want : Bool) : Bool :=
    let word (s : List Char) : Bool := match s with
      | [] => false
      | c :: _ => Category.word.holds ascii c
    !(st.before.isEmpty && st.after.isEmpty) && (word st.before != word st.after) == want

/-- What is left to do after a node has matched. -/
abbrev Continuation := State → Option State

/-- The test that a node makes, if it matches exactly one character. -/
def Node.test? : Node → Option (Char → Bool)
  | .any newlines => some fun c => newlines || c != '\n'
  | .one cls ignoreCase ascii => some (cls.holds ignoreCase ascii)
  | _ => none

/-- Whether one more round is allowed after `count`. -/
def roundAllowed (most : Option Nat) (count : Nat) : Bool :=
  match most with
  | some m => count < m
  | none => true

/-- The places after `least` to `most` characters that pass the test, the last one first, before those
in `found`. -/
def runPlaces (test : Char → Bool) (least : Nat) (most : Option Nat) :
    (count : Nat) → (found : List State) → State → List Char → List State
  | count, found, st, [] => if least ≤ count then st :: found else found
  | count, found, st, c :: r =>
    let found' := if least ≤ count then st :: found else found
    if roundAllowed most count && test c then
      runPlaces test least most (count + 1) found' (st.advance c r) r
    else found'

/-- The first place that the continuation accepts after `least` to `most` characters that pass the
test, trying few characters first. -/
def runLazily (test : Char → Bool) (least : Nat) (most : Option Nat) (k : Continuation) :
    (count : Nat) → State → List Char → Option State
  | count, st, [] => if least ≤ count then k st else none
  | count, st, c :: r =>
    let next := fun (_ : Unit) =>
      if roundAllowed most count && test c then
        runLazily test least most k (count + 1) (st.advance c r) r
      else none
    if least ≤ count then
      match k st with
      | some e => some e
      | none => next ()
    else next ()

/-- Rounds of a greedy loop.  A round that would start where the last one started is not made. -/
def loopGreedy (body : State → Continuation → Option State) (least : Nat) (most : Option Nat)
    (k : Continuation) : (fuel count : Nat) → (last : Option Nat) → State → Option State
  | 0, _, _, _ => none
  | fuel + 1, count, last, st =>
    if count < least then body st (loopGreedy body least most k fuel (count + 1) last)
    else if roundAllowed most count && last != some st.position then
      match body st (loopGreedy body least most k fuel (count + 1) (some st.position)) with
      | some e => some e
      | none => k st
    else k st

/-- Rounds of a lazy loop. -/
def loopLazy (body : State → Continuation → Option State) (least : Nat) (most : Option Nat)
    (k : Continuation) : (fuel count : Nat) → (last : Option Nat) → State → Option State
  | 0, _, _, _ => none
  | fuel + 1, count, last, st =>
    if count < least then body st (loopLazy body least most k fuel (count + 1) last)
    else match k st with
      | some e => some e
      | none =>
        if roundAllowed most count && last != some st.position then
          body st (loopLazy body least most k fuel (count + 1) (some st.position))
        else none

/-- The number of rounds after which a loop at a place has ended: the required ones, one for each
character, and one that matches nothing. -/
def loopRounds (least : Nat) (st : State) : Nat := least + st.after.length + 2

/-- Whether the text goes on with `part`. -/
def startsLike (ignoreCase ascii : Bool) : (part text : List Char) → Bool
  | [], _ => true
  | _, [] => false
  | c :: p, d :: t =>
    (if ignoreCase then lowerCode ascii (codeOf c) == lowerCode ascii (codeOf d) else c == d) &&
      startsLike ignoreCase ascii p t

/-- The place after `n` characters. -/
def State.skip : Nat → State → State
  | 0, st => st
  | n + 1, st =>
    match st.after with
    | [] => st
    | c :: r => State.skip n (st.advance c r)

/-- Matches a node at a place and goes on with the continuation. -/
def Node.run : Node → State → Continuation → Option State
  | .empty, st, k => k st
  | .any newlines, st, k =>
    match st.after with
    | [] => none
    | c :: r => if newlines || c != '\n' then k (st.advance c r) else none
  | .one cls ignoreCase ascii, st, k =>
    match st.after with
    | [] => none
    | c :: r => if cls.holds ignoreCase ascii c then k (st.advance c r) else none
  | .seq a b, st, k => a.run st fun st' => b.run st' k
  | .alt a b, st, k =>
    match a.run st k with
    | some e => some e
    | none => b.run st k
  | .group index body, st, k =>
    body.run st fun st' => k { st' with groups := (index, st.textTo st') :: st'.groups }
  | .loop greed least most body, st, k =>
    match body.test?, greed with
    | some test, .greedy => (runPlaces test least most 0 [] st st.after).findSome? k
    | some test, .lazy => runLazily test least most k 0 st st.after
    | some test, .possessive =>
      match runPlaces test least most 0 [] st st.after with
      | e :: _ => k e
      | [] => none
    | none, .greedy => loopGreedy body.run least most k (loopRounds least st) 0 none st
    | none, .lazy => loopLazy body.run least most k (loopRounds least st) 0 none st
    | none, .possessive =>
      match loopGreedy body.run least most some (loopRounds least st) 0 none st with
      | some e => k e
      | none => none
  | .anchor a, st, k => if a.holds st then k st else none
  | .ahead negated body, st, k =>
    match body.run st some, negated with
    | some e, false => k { st with groups := e.groups }
    | none, true => k st
    | _, _ => none
  | .behind width negated body, st, k =>
    match (st.goBack? width).bind fun st' => body.run st' some, negated with
    | some e, false => k { st with groups := e.groups }
    | none, true => k st
    | _, _ => none
  | .again index ignoreCase ascii, st, k =>
    match st.groups.lookup index with
    | some part =>
      if startsLike ignoreCase ascii part st.after then k (st.skip part.length) else none
    | none => none
  | .ifGroup index yes no, st, k =>
    if (st.groups.lookup index).isSome then yes.run st k else no.run st k
  | .atomic body, st, k =>
    match body.run st some with
    | some e => k e
    | none => none

/-! ### All matches of a text -/

/-- A match: the text matched, and what each group matched, empty if it took no part. -/
structure Match where
  whole : List Char
  groups : List (List Char)
deriving Repr, DecidableEq

/-- What a match from one place to another found. -/
def matchBetween (p : Pattern) (start stop : State) : Match :=
  { whole := start.textTo stop
    groups := (List.range p.groupCount).map fun i => (stop.groups.lookup (i + 1)).getD [] }

/-- The end of the preferred match at a place; an empty match counts only if `allowEmpty`. -/
def matchAt? (p : Pattern) (allowEmpty : Bool) (st : State) : Option State :=
  p.root.run st fun e => if !allowEmpty && e.position == st.position then none else some e

/-- The matches that start at a place, at most one of them not empty, and the number of characters to
go on by. -/
def matchesAt (p : Pattern) (st : State) : List Match × Nat :=
  match p.matchAt? true st with
  | none => ([], 1)
  | some e =>
    if e.position = st.position then
      match p.matchAt? false st with
      | none => ([p.matchBetween st e], 1)
      | some e' => ([p.matchBetween st e, p.matchBetween st e'], e'.position - st.position)
    else ([p.matchBetween st e], e.position - st.position)

/-- The matches in the text from a place on, after passing over `skip` characters. -/
def findFrom (p : Pattern) : (skip : Nat) → (before : List Char) → (position : Nat) →
    List Char → List Match
  | 0, before, position, [] => (p.matchesAt ⟨before, [], position, []⟩).1
  | 0, before, position, c :: r =>
    let (found, step) := p.matchesAt ⟨before, c :: r, position, []⟩
    found ++ findFrom p (step - 1) (c :: before) (position + 1) r
  | _ + 1, _, _, [] => []
  | skip + 1, before, position, c :: r => findFrom p skip (c :: before) (position + 1) r

/-- All matches in a text, from the left. -/
def findAll (p : Pattern) (text : List Char) : List Match := p.findFrom 0 [] 0 text

end RouteDocs.Pattern
