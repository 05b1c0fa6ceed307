import RouteDocs.Text.CaseTable
import RouteDocs.Text.Edges

/-!
# RouteDocs.Text.Case — lower, upper and title case

Case mappings of whole texts.  A character may map to several, and a capital sigma takes its final
form at the end of a word: after a cased character and not before one, where the characters that are
neither letters nor separators are passed over.
-/

namespace RouteDocs.Text

/-- The image of `n` under the run, if the run moves it. -/
def CaseRun.image? (r : CaseRun) (n : Nat) : Option Nat :=
  if r.first ≤ n && n ≤ r.last && (n - r.first) % r.stride == 0 then some ((n : Int) + r.shift).toNat
  else none

/-- The image of `n` under the first run that moves it, or `n`. -/
def mapRuns : List CaseRun → Nat → Nat
  | [], n => n
  | r :: rs, n =>
    match r.image? n with
    | some m => m
    | none => mapRuns rs n

/-- The code points that the runs map to `n`. -/
def preimages (runs : List CaseRun) (n : Nat) : List Nat :=
  runs.filterMap fun r =>
    let m := ((n : Int) - r.shift).toNat
    if r.image? m == some n then some m else none

/-- The lower-case character, one for one. -/
def lowerChar (c : Char) : Char :=
  if c.toNat < 128 then c.toLower
  else if c.toNat == 0x130 then 'i'
  else Char.ofNat (mapRuns lowerRuns c.toNat)

/-- The upper case of a character. -/
def upperChars (c : Char) : List Char :=
  if c.toNat < 128 then [c.toUpper]
  else match upperExpansions.lookup c.toNat with
    | some ns => ns.map Char.ofNat
    | none => [Char.ofNat (mapRuns upperRuns c.toNat)]

/-- The title case of a character. -/
def titleChars (c : Char) : List Char :=
  if c.toNat < 128 then [c.toUpper]
  else match titleExceptions.lookup c.toNat with
    | some ns => ns.map Char.ofNat
    | none => upperChars c

/-- The upper-case character, one for one: a character whose upper case has several keeps its title
case if that is one character, and is left alone otherwise. -/
def upperChar (c : Char) : Char :=
  match upperChars c with
  | [d] => d
  | _ => match titleChars c with
    | [d] => d
    | _ => c

/-- A character with a lower-case, upper-case or title-case form. -/
def isCased (c : Char) : Bool :=
  if c.toNat < 128 then c.isAlpha else within casedEdges c.toNat

/-- A character that does not end a word when a final sigma is looked for. -/
def isCaseIgnorable (c : Char) : Bool := within caseIgnorableEdges c.toNat

/-- The first character that is not passed over is cased. -/
def meetsCased (s : List Char) : Bool :=
  match s.dropWhile isCaseIgnorable with
  | c :: _ => isCased c
  | [] => false

/-- The lower case of `c` between the text `before` it (nearest character first) and `after` it. -/
def lowerInContext (before : List Char) (c : Char) (after : List Char) : List Char :=
  if c == 'Σ' then [if meetsCased before && !meetsCased after then 'ς' else 'σ']
  else if c == 'İ' then ['i', Char.ofNat 0x307]
  else [lowerChar c]

/-- Lower case of the text that follows `before` (nearest character first). -/
def lowerFrom : List Char → List Char → List Char
  | _, [] => []
  | before, c :: after => lowerInContext before c after ++ lowerFrom (c :: before) after

/-- Lower case of a text. -/
def lower (s : List Char) : List Char := lowerFrom [] s

/-- Upper case of a text. -/
def upper (s : List Char) : List Char := s.flatMap upperChars

/-- Title case of the text that follows `before`: a cased character is lower case after a cased one
and in title case otherwise. -/
def titleFrom : List Char → List Char → List Char
  | _, [] => []
  | before, c :: after =>
    (if (before.head?.map isCased).getD false then lowerInContext before c after
      else titleChars c) ++ titleFrom (c :: before) after

/-- Title case of a text: each word starts with a capital. -/
def title (s : List Char) : List Char := titleFrom [] s

/-- Lower case of a string. -/
def lowered (s : String) : String := String.ofList (lower s.toList)

/-- Upper case of a string. -/
def uppered (s : String) : String := String.ofList (upper s.toList)

/-- Title case of a string. -/
def titled (s : String) : String := String.ofList (title s.toList)

end RouteDocs.Text
