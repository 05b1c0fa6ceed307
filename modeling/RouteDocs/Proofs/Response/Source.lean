import RouteDocs.Proofs.Pattern.Preferred
import RouteDocs.Text.Blank
import RouteDocs.Text.Word

/-!
# RouteDocs.Proofs.Response.Source — sources of handlers made of calls

A source in which all parentheses belong to answers and aborts is a list of calls with texts between
them (`Calls.text`).  Its parentheses split it into words.  A pattern that starts with a name and an
opening parenthesis matches only at a word that ends in the name (`failsAlong_of_name`).
-/

namespace RouteDocs

open Text Pattern

/-! ### Sources -/

/-- A parenthesis. -/
def isParen (c : Char) : Bool := c == '(' || c == ')'

/-- A text without parentheses. -/
def Flat (u : List Char) : Prop := ∀ c ∈ u, isParen c = false

/-- White space. -/
def IsGap (u : List Char) : Prop := ∀ c ∈ u, isBlank c = true

/-- Three decimal digits. -/
structure IsStatus (d : List Char) : Prop where
  digits : ∀ c ∈ d, isDecimalDigit c = true
  length_eq : d.length = 3

/-- A text with a comma, white space and a status at its end. -/
def EndsInStatus (u : List Char) : Prop :=
  ∃ a gap d, IsGap gap ∧ IsStatus d ∧ u = a ++ ',' :: (gap ++ d)

/-- A call in the source of a handler. -/
inductive Call where
  /-- An answer with a status. -/
  | answer (argument gap status : List Char) (flat : Flat argument) (isGap : IsGap gap)
    (isStatus : IsStatus status)
  /-- An answer without a status. -/
  | plain (argument : List Char) (flat : Flat argument) (noStatus : ¬ EndsInStatus argument)
  | abort (status : List Char) (isStatus : IsStatus status)

/-- The name of an answer. -/
def answerName : List Char := "response".toList

/-- What follows the name of an answer and its parenthesis. -/
def answerRest : List Char := ")->json(".toList

/-- How an answer starts: `response()->json(`. -/
def answerHead : List Char := answerName ++ '(' :: answerRest

/-- The name of an abort. -/
def abortName : List Char := "abort".toList

/-- How an abort starts: `abort(`. -/
def abortHead : List Char := abortName ++ '(' :: []

namespace Call

/-- The text of a call. -/
def text : Call → List Char
  | answer a gap d .. => answerHead ++ (a ++ ',' :: (gap ++ d)) ++ [')']
  | plain a .. => answerHead ++ a ++ [')']
  | abort d _ => abortHead ++ d ++ [')']

/-- The status of an answer. -/
def stated? : Call → Option String
  | answer _ _ d .. => some (String.ofList d)
  | _ => none

/-- The status of an abort. -/
def aborted? : Call → Option String
  | abort d _ => some (String.ofList d)
  | _ => none

/-- Whether the call is an answer without a status. -/
def isPlain : Call → Bool
  | plain .. => true
  | _ => false

end Call

/-- Calls, each after a text without parentheses. -/
abbrev Calls := List ({u : List Char // Flat u} × Call)

namespace Calls

/-- The text of calls with a last text after them. -/
def text (cs : Calls) (last : List Char) : List Char :=
  cs.flatMap (fun c => c.1.1 ++ c.2.text) ++ last

/-- The statuses of the answers. -/
def stated (cs : Calls) : List String := cs.filterMap (·.2.stated?)

/-- The statuses of the aborts. -/
def aborted (cs : Calls) : List String := cs.filterMap (·.2.aborted?)

end Calls

/-! ### Words between parentheses -/

instance : DecidablePred Flat := fun u => List.decidableBAll (fun c => isParen c = false) u

section Words

variable {u u' v v' gap d : List Char} {q q' : Char}

theorem flat_nil : Flat [] := List.forall_mem_nil _

theorem flat_append : Flat (u ++ u') ↔ Flat u ∧ Flat u' := List.forall_mem_append

theorem flat_of_suffix (hu : Flat u) (h : u' <:+ u) : Flat u' := fun c hc => hu c (h.subset hc)

theorem isParen_iff : isParen q = true ↔ q = '(' ∨ q = ')' := by
  simp [isParen]

/-- Characters that pass a test are no parentheses and no commas if those do not pass it. -/
theorem flat_of_passes {test : Char → Bool} (hopen : test '(' = false) (hclose : test ')' = false)
    (hcomma : test ',' = false) (h : ∀ c ∈ u, test c = true) : Flat u ∧ ',' ∉ u := by
  refine ⟨fun c hc => ?_, fun hc => ?_⟩
  · have hpass := h c hc
    by_contra hparen
    rw [Bool.not_eq_false, isParen_iff] at hparen
    rcases hparen with rfl | rfl
    · rw [hopen] at hpass
      cases hpass
    · rw [hclose] at hpass
      cases hpass
  · have hpass := h ',' hc
    rw [hcomma] at hpass
    cases hpass

theorem IsGap.not_mem (h : IsGap u) : Flat u ∧ ',' ∉ u := flat_of_passes rfl rfl rfl h

theorem IsStatus.not_mem (h : IsStatus u) : Flat u ∧ ',' ∉ u := flat_of_passes rfl rfl rfl h.digits

/-- The end of an argument with a status has no parenthesis, and one comma only. -/
theorem flat_closing (hg : IsGap gap) (hd : IsStatus d) : Flat (',' :: (gap ++ d)) := by
  have hrest : Flat (gap ++ d) := flat_append.mpr ⟨hg.not_mem.1, hd.not_mem.1⟩
  exact List.forall_mem_cons.mpr ⟨rfl, hrest⟩

theorem comma_not_mem_closing (hg : IsGap gap) (hd : IsStatus d) : ',' ∉ gap ++ d := by
  rw [List.mem_append]
  rintro (h | h)
  · exact hg.not_mem.2 h
  · exact hd.not_mem.2 h

/-- The first parenthesis of a text is at one place. -/
theorem eq_of_flat (hu : Flat u) (hu' : Flat u') (hq : isParen q = true) (hq' : isParen q' = true)
    (h : u ++ q :: v = u' ++ q' :: v') : u = u' ∧ q = q' ∧ v = v' := by
  induction u generalizing u' with
  | nil =>
    cases u' with
    | nil => exact ⟨rfl, List.cons.inj h⟩
    | cons c u' =>
      obtain ⟨rfl, -⟩ := List.cons.inj h
      exact absurd hq (by simp [hu' q List.mem_cons_self])
  | cons c u ih =>
    cases u' with
    | nil =>
      obtain ⟨rfl, -⟩ := List.cons.inj h
      exact absurd hq' (by simp [hu c List.mem_cons_self])
    | cons c' u' =>
      obtain ⟨rfl, hrest⟩ := List.cons.inj h
      obtain ⟨rfl, hparens⟩ := ih (fun d hd => hu d (List.mem_cons_of_mem c hd))
        (fun d hd => hu' d (List.mem_cons_of_mem c hd)) hrest
      exact ⟨rfl, hparens⟩

end Words

/-- A text without parentheses, and the parenthesis after it. -/
structure Word where
  text : List Char
  paren : Char
  flat : Flat text
  isParen : isParen paren = true

/-- The text of words. -/
def wordsText (ws : List Word) : List Char := ws.flatMap fun w => w.text ++ [w.paren]

/-- A name and its parenthesis, after a text without parentheses. -/
def nameWord (before : {u : List Char // Flat u}) (name : List Char) (hname : Flat name) : Word :=
  ⟨before.1 ++ name, '(', flat_append.mpr ⟨before.2, hname⟩, rfl⟩

/-- The words between the name of an answer and its argument. -/
def restWords : List Word := [⟨[], ')', flat_nil, rfl⟩, ⟨"->json".toList, '(', by decide, rfl⟩]

/-- The words of an answer before its argument. -/
def answerWords (before : {u : List Char // Flat u}) : List Word :=
  nameWord before answerName (by decide) :: restWords

/-- The words of a call after a text without parentheses. -/
def Call.words (before : {u : List Char // Flat u}) : Call → List Word
  | .answer a gap d flat hg hd => answerWords before ++
    [⟨a ++ ',' :: (gap ++ d), ')', flat_append.mpr ⟨flat, flat_closing hg hd⟩, rfl⟩]
  | .plain a flat _ => answerWords before ++ [⟨a, ')', flat, rfl⟩]
  | .abort d hd => [nameWord before abortName (by decide), ⟨d, ')', hd.not_mem.1, rfl⟩]

theorem answerRest_eq : answerRest = ')' :: "->json".toList ++ ['('] := rfl

theorem wordsText_words (before : {u : List Char // Flat u}) (c : Call) :
    wordsText (c.words before) = before.1 ++ c.text := by
  cases c <;>
    simp only [wordsText, Call.words, answerWords, nameWord, restWords, Call.text, answerHead,
      answerRest_eq, abortHead, List.flatMap_cons, List.flatMap_nil, List.append_assoc,
      List.cons_append, List.nil_append, List.append_nil]

/-! ### Where a name stands -/

section Names

variable {ws : List Word} {w : Word} {u v name rest before : List Char} {n m : Node}

theorem failsAlong_wordsText (h : ∀ w ∈ ws, ∀ v, n.FailsAlong (w.text ++ [w.paren]) v)
    (v : List Char) : n.FailsAlong (wordsText ws) v := by
  induction ws with
  | nil => trivial
  | cons w ws ih =>
    have htail := ih fun w' hw' => h w' (List.mem_cons_of_mem w hw')
    exact Node.failsAlong_append.mpr ⟨h w List.mem_cons_self _, htail⟩

/-- A node fails along a word if it fails before every end of it. -/
theorem failsAlong_word (h : ∀ u', u' <:+ w.text → n.Fails (u' ++ w.paren :: v)) :
    n.FailsAlong (w.text ++ [w.paren]) v := by
  refine Node.failsAlong_of_suffixes fun u' hne hu' => ?_
  obtain rfl | ⟨u'', rfl, hsuffix⟩ := List.suffix_concat_iff.mp hu'
  · exact absurd rfl hne
  · rw [List.append_assoc]
    exact h u'' hsuffix

/-- A node that fails before texts without parentheses fails along them. -/
theorem failsAlong_of_flat (h : ∀ u, Flat u → n.Fails u) (hu : Flat u) : n.FailsAlong u [] := by
  refine Node.failsAlong_of_suffixes fun u' _ hu' => ?_
  rw [List.append_nil]
  exact h u' (flat_of_suffix hu hu')

/-- A name and an opening parenthesis, and what follows them, fail along a word that does not end in
the name, and along one that does if what follows fails there. -/
theorem failsAlong_of_name (hname : Flat name)
    (h : name <:+ w.text → w.paren = '(' → ∀ x, v = rest ++ x → m.Fails x) :
    (Node.literally (name ++ '(' :: rest) m).FailsAlong (w.text ++ [w.paren]) v := by
  refine failsAlong_word fun u' hu' => Node.fails_literally fun x hx => ?_
  have hsame : u' ++ w.paren :: v = name ++ '(' :: (rest ++ x) := by simpa using hx
  obtain ⟨rfl, hopen, hrest⟩ := eq_of_flat (flat_of_suffix w.flat hu') hname w.isParen rfl hsame
  exact h hu' hopen x hrest

/-- Before the name itself they fail. -/
theorem failsAlong_before_name (hname : Flat name) (hu : Flat u) (v : List Char) :
    (Node.literally (name ++ '(' :: rest) m).FailsAlong u (name ++ '(' :: v) := by
  refine Node.failsAlong_of_suffixes fun u' hne hu' => Node.fails_literally fun x hx => ?_
  have hsame : (u' ++ name) ++ '(' :: v = name ++ '(' :: (rest ++ x) := by simpa using hx
  have hflat := flat_append.mpr ⟨flat_of_suffix hu hu', hname⟩
  obtain ⟨hself, -⟩ := eq_of_flat hflat hname rfl rfl hsame
  exact absurd (List.append_left_eq_self.mp hself) hne

/-- Without a parenthesis they fail. -/
theorem fails_of_flat (hu : Flat u) : (Node.literally (name ++ '(' :: rest) m).Fails u := by
  refine Node.fails_literally fun x hx => ?_
  have hparen := hu '(' (by simp [hx])
  cases hparen

/-- A word that ends in one name ends in no other, unless one of the names ends in the other. -/
theorem not_suffix_of_name {other : List Char} (h : ¬ name <:+ other ∧ ¬ other <:+ name) :
    ¬ name <:+ before ++ other := by
  intro hs
  rcases List.suffix_or_suffix_of_suffix hs (List.suffix_append before other) with hin | hin
  · exact h.1 hin
  · exact h.2 hin

end Names

end RouteDocs
