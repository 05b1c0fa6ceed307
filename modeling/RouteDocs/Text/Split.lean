/-!
# RouteDocs.Text.Split — finding, cutting and removing parts of a text

Occurrences are found from the left and do not overlap.  `splitAround` cuts at a separator,
`cutLast?` at the last occurrence of one character.
-/

namespace RouteDocs.Text

/-- Whether `part` occurs in the text. -/
def occursIn (part : List Char) : List Char → Bool
  | [] => part.isEmpty
  | c :: r => part.isPrefixOf (c :: r) || occursIn part r

/-- Pieces of the text between occurrences of `separator`, after passing over `skip` characters.
The first piece goes on from what precedes the text. -/
def splitFrom (separator : List Char) : Nat → List Char → List (List Char)
  | _, [] => [[]]
  | skip + 1, _ :: r => splitFrom separator skip r
  | 0, c :: r =>
    if separator.isPrefixOf (c :: r) then [] :: splitFrom separator (separator.length - 1) r
    else match splitFrom separator 0 r with
      | [] => [[c]]
      | piece :: pieces => (c :: piece) :: pieces

/-- The pieces of a text between the occurrences of `separator`, which is not empty. -/
def splitAround (separator : List Char) (s : List Char) : List (List Char) :=
  splitFrom separator 0 s

/-- The pieces of a text between the occurrences of one character. -/
def splitAt (separator : Char) : List Char → List (List Char)
  | [] => [[]]
  | c :: r =>
    if c == separator then [] :: splitAt separator r
    else match splitAt separator r with
      | [] => [[c]]
      | piece :: pieces => (c :: piece) :: pieces

/-- The text before and after the last occurrence of a character. -/
def cutLast? (mark : Char) : List Char → Option (List Char × List Char)
  | [] => none
  | c :: r =>
    match cutLast? mark r with
    | some (before, after) => some (c :: before, after)
    | none => if c == mark then some ([], r) else none

/-- The text after the last occurrence of a character, or all of it. -/
def afterLast (mark : Char) (s : List Char) : List Char :=
  match cutLast? mark s with
  | some (_, after) => after
  | none => s

/-- The text without the occurrences of `part`, after dropping `skip` characters. -/
def removeFrom (part : List Char) : Nat → List Char → List Char
  | _, [] => []
  | skip + 1, _ :: r => removeFrom part skip r
  | 0, c :: r =>
    if part.isPrefixOf (c :: r) then removeFrom part (part.length - 1) r
    else c :: removeFrom part 0 r

/-- The text without the occurrences of `part`, which is not empty. -/
def removeAll (part : List Char) (s : List Char) : List Char := removeFrom part 0 s

/-- Whether the text ends in `part`. -/
def endsIn (part s : List Char) : Bool := part.isSuffixOf s

/-- The pieces of a string between the occurrences of one character. -/
def pieces (separator : Char) (s : String) : List String :=
  (splitAt separator s.toList).map String.ofList

/-- Texts with a separator between neighbours. -/
def joinWith (separator : List Char) : List (List Char) → List Char
  | [] => []
  | [s] => s
  | s :: t :: rest => s ++ separator ++ joinWith separator (t :: rest)

/-- The lists before and after each other with `x` between neighbours. -/
theorem joinWith_cons_cons (separator s t : List Char) (rest : List (List Char)) :
    joinWith separator (s :: t :: rest) = s ++ separator ++ joinWith separator (t :: rest) := rfl

theorem splitAt_ne_nil (separator : Char) (s : List Char) : splitAt separator s ≠ [] := by
  cases s with
  | nil => simp [splitAt]
  | cons c r =>
    unfold splitAt
    split
    · simp
    · split <;> simp

/-- Nothing is lost by cutting at a character. -/
theorem joinWith_splitAt (separator : Char) (s : List Char) :
    joinWith [separator] (splitAt separator s) = s := by
  induction s with
  | nil => rfl
  | cons c r ih =>
    unfold splitAt
    split
    · rename_i hc
      rw [beq_iff_eq] at hc
      cases h : splitAt separator r with
      | nil => exact absurd h (splitAt_ne_nil separator r)
      | cons p ps =>
        rw [h] at ih
        simp [joinWith_cons_cons, ih, hc]
    · cases h : splitAt separator r with
      | nil => exact absurd h (splitAt_ne_nil separator r)
      | cons p ps =>
        rw [h] at ih
        cases ps with
        | nil => simpa [joinWith] using ih
        | cons q qs => simpa [joinWith_cons_cons] using ih

end RouteDocs.Text
