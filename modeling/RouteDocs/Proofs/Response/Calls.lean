import RouteDocs.Proofs.Decimal.Numeral
import RouteDocs.Proofs.Response.Source
import RouteDocs.Proofs.Response.Statuses
import RouteDocs.Proofs.Text.Split

/-!
# RouteDocs.Proofs.Response.Calls — the statuses of a source made of calls

The pattern for explicit statuses starts at any answer and stops at the first status that ends an
argument, which may be that of a later call.  It takes the calls between with it, but one status for each
answer that has one is what it finds all the same (`states_call`).  Answers and aborts are found one by
one.  So the statuses found in a source made of calls are those it states (`statusesOf_source`).
-/

namespace RouteDocs

open Text Pattern

/-! ### The patterns -/

/-- The pattern of white space. -/
def gapNode : Node := .loop .greedy 0 none (.one ⟨[.category .blank false], false⟩ false false)

/-- The pattern of a status. -/
def statusNode : Node :=
  .group 1 (.loop .greedy 3 (some 3) (.one ⟨[.category .digit false], false⟩ false false))

/-- The pattern of the end of an answer with a status. -/
def closingNode : Node :=
  .seq (.char ',') (.seq gapNode (.seq statusNode (.char ')')))

/-- The pattern of answers with a status. -/
def explicitPattern : Pattern := ⟨.literally answerHead (.lazily closingNode), 1⟩

/-- The pattern of answers. -/
def callPattern : Pattern :=
  ⟨.literally answerHead
    (.seq (.loop .greedy 0 none (.one ⟨[.code 41], true⟩ false false)) (.char ')')), 0⟩

/-- The pattern of aborts. -/
def abortPattern : Pattern := ⟨.literally abortHead (.seq statusNode (.char ')')), 1⟩

theorem reads_default : ({} : Heuristics).Reads explicitPattern callPattern abortPattern :=
  ⟨rfl, rfl, rfl⟩

/-! ### The end of an answer with a status -/

section Closing

variable {a u gap d v : List Char} {w : Word}

theorem holds_blank {c : Char} :
    (CharClass.mk [.category .blank false] false).holds false false c = isBlank c :=
  Node.holds_category

theorem holds_digit {c : Char} :
    (CharClass.mk [.category .digit false] false).holds false false c = isDecimalDigit c :=
  Node.holds_category

theorem prefers_gap (hg : IsGap gap) (hv : ∀ c r, v = c :: r → isBlank c = false) :
    gapNode.Prefers gap v [] := by
  refine Node.prefers_loop rfl ⟨?_, Nat.zero_le _, nofun⟩ ?_
  · intro c hc
    rw [holds_blank]
    exact hg c hc
  · intro c r hr hblank
    rw [holds_blank, hv c r hr] at hblank
    cases hblank

theorem within_gap : gapNode.Within {u | IsGap u} := by
  intro st k e hrun
  obtain ⟨u, hu, hrest⟩ := Node.within_loop rfl st k e hrun
  refine ⟨u, fun c hc => ?_, hrest⟩
  rw [← holds_blank]
  exact hu.passes c hc

theorem prefers_status (hd : IsStatus d) (v : List Char) : statusNode.Prefers d v [(1, d)] := by
  refine Node.Prefers.group (Node.prefers_loop rfl ⟨?_, ?_, ?_⟩ ?_)
  · intro c hc
    rw [holds_digit]
    exact hd.digits c hc
  · rw [hd.length_eq]
  · rintro b ⟨⟩
    rw [hd.length_eq]
  · intro c r _ _
    rw [hd.length_eq]

theorem within_status : statusNode.Within {d | IsStatus d} := by
  intro st k e hrun
  obtain ⟨d, hd, hrest⟩ := (Node.within_loop rfl).group st k e hrun
  refine ⟨d, ⟨fun c hc => ?_, ?_⟩, hrest⟩
  · rw [← holds_digit]
    exact hd.passes c hc
  · have hleast := hd.least_le
    have hmost := hd.le_most 3 rfl
    omega

/-- A status starts with a digit. -/
theorem IsStatus.not_blank (hd : IsStatus d) (v : List Char) :
    ∀ c r, d ++ v = c :: r → isBlank c = false := by
  intro c r hr
  cases d with
  | nil => cases hd.length_eq
  | cons e d =>
    obtain rfl := (List.cons.inj hr).1
    have hdigit := hd.digits e List.mem_cons_self
    by_contra hblank
    rw [isDecimalDigit_of_isBlank (Bool.not_eq_false _ ▸ hblank)] at hdigit
    cases hdigit

theorem prefers_closing (hg : IsGap gap) (hd : IsStatus d) (v : List Char) :
    closingNode.Prefers (',' :: (gap ++ d) ++ [')']) v [(1, d)] := by
  have hstatus := (prefers_status hd (')' :: v)).seq (Node.prefers_char ')' v)
  have hgap := prefers_gap (v := d ++ [')'] ++ v) hg
    (List.append_assoc d [')'] v ▸ hd.not_blank ([')'] ++ v))
  have hall := (Node.prefers_char ',' _).seq (hgap.seq hstatus)
  simpa [closingNode] using hall

theorem within_closing :
    closingNode.Within {u | ∃ gap d, IsGap gap ∧ IsStatus d ∧ u = ',' :: (gap ++ d) ++ [')']} := by
  intro st k e hrun
  have hparts := within_gap.seq (within_status.seq (Node.within_char ')'))
  obtain ⟨u, hu, hrest⟩ := (Node.within_char ',').seq hparts st k e hrun
  refine ⟨u, ?_, hrest⟩
  obtain ⟨-, rfl, x, hx, rfl⟩ := Language.mem_mul.mp hu
  obtain ⟨gap, hg, y, hy, rfl⟩ := Language.mem_mul.mp hx
  obtain ⟨d, hd, -, rfl, rfl⟩ := Language.mem_mul.mp hy
  exact ⟨gap, d, hg, hd, by simp⟩

/-- The end of an answer fails along a word that does not end in a status. -/
theorem failsAlong_closing (h : w.paren = ')' → ¬ EndsInStatus w.text) (v : List Char) :
    closingNode.FailsAlong (w.text ++ [w.paren]) v := by
  refine failsAlong_word fun u' hu' => within_closing.fails ?_
  rintro - ⟨gap, d, hg, hd, rfl⟩ ⟨x, hx⟩
  have hsame : u' ++ w.paren :: v = ',' :: (gap ++ d) ++ ')' :: x := by simpa using hx.symm
  obtain ⟨rfl, hclose, -⟩ :=
    eq_of_flat (flat_of_suffix w.flat hu') (flat_closing hg hd) w.isParen rfl hsame
  obtain ⟨a, ha⟩ := hu'
  exact h hclose ⟨a, gap, d, hg, hd, ha.symm⟩

/-- It fails along the argument before it. -/
theorem failsAlong_argument (ha : Flat a) (hg : IsGap gap) (hd : IsStatus d) (v : List Char) :
    closingNode.FailsAlong a (',' :: (gap ++ d) ++ [')'] ++ v) := by
  refine Node.failsAlong_of_suffixes fun u' hne hu' => within_closing.fails ?_
  rintro - ⟨gap', d', hg', hd', rfl⟩ ⟨x, hx⟩
  have hsame : (u' ++ ',' :: (gap ++ d)) ++ ')' :: v = ',' :: (gap' ++ d') ++ ')' :: x := by
    simpa using hx.symm
  have hflat := flat_append.mpr ⟨flat_of_suffix ha hu', flat_closing hg hd⟩
  obtain ⟨hsplit, -⟩ := eq_of_flat hflat (flat_closing hg' hd') rfl rfl hsame
  -- the second comma would stand in white space or in a status
  obtain ⟨c, u'', rfl⟩ := List.exists_cons_of_ne_nil hne
  have hcomma : ',' ∈ gap' ++ d' := by
    rw [← (List.cons.inj hsplit).2]
    simp
  exact comma_not_mem_closing hg' hd' hcomma

theorem fails_closing_of_flat (hu : Flat u) : closingNode.Fails u := by
  refine within_closing.fails ?_
  rintro - ⟨gap, d, hg, hd, rfl⟩ ⟨x, hx⟩
  have hparen := hu ')' (by simp [← hx])
  cases hparen

theorem not_endsInStatus_status (hd : IsStatus d) : ¬ EndsInStatus d := by
  rintro ⟨a, gap, d', hg, hd', rfl⟩
  exact hd.not_mem.2 (by simp)

end Closing

/-! ### Patterns along calls -/

section Along

variable {c : Call} {before : {u : List Char // Flat u}} {p : Pattern}

theorem text_cons (cs : Calls) (last : List Char) :
    Calls.text ((before, c) :: cs) last = wordsText (c.words before) ++ cs.text last := by
  rw [wordsText_words]
  simp [Calls.text]

/-- A call is passed over by a pattern, or matched to its end with some groups. -/
def Treats (p : Pattern) (c : Call) : Option (List (ℕ × List Char)) → Prop
  | none => ∀ before v, p.root.FailsAlong (wordsText (c.words before)) v
  | some gs => ∀ (before : {u : List Char // Flat u}) v,
      p.root.FailsAlong before.1 (c.text ++ v) ∧ p.root.Prefers c.text v gs

theorem Call.text_ne_nil (c : Call) : c.text ≠ [] := by
  cases c <;> simp [Call.text]

/-- What a pattern finds at a call comes before what it finds after the call. -/
theorem Treats.finds {gs? : Option (List (ℕ × List Char))} {v : List Char} {ms : List Match}
    (h : Treats p c gs?) (before : {u : List Char // Flat u}) (hv : p.Finds v ms) :
    p.Finds (wordsText (c.words before) ++ v) ((gs?.map (p.matchOf c.text)).toList ++ ms) := by
  cases gs? with
  | none => exact hv.along (h before v)
  | some gs =>
    obtain ⟨hbefore, hcall⟩ := h before v
    rw [wordsText_words, List.append_assoc]
    exact (hv.after hcall c.text_ne_nil).along hbefore

/-- A pattern that starts with a name finds nothing in a text without parentheses. -/
theorem finds_last {name rest : List Char} {m : Node}
    (hroot : p.root = .literally (name ++ '(' :: rest) m) (last : {u : List Char // Flat u}) :
    p.Finds last.1 [] := by
  have hfails : ∀ u, Flat u → p.root.Fails u := fun u hu => hroot ▸ fails_of_flat hu
  have hlast := (finds_nil (hfails [] flat_nil)).along (failsAlong_of_flat hfails last.2)
  rwa [List.append_nil] at hlast

/-- A pattern finds what it finds at each of the calls. -/
theorem finds_calls {name rest : List Char} {m : Node}
    (hroot : p.root = .literally (name ++ '(' :: rest) m)
    {gs? : Call → Option (List (ℕ × List Char))} (h : ∀ c, Treats p c (gs? c)) (cs : Calls)
    (last : {u : List Char // Flat u}) :
    p.Finds (cs.text last) (cs.filterMap fun c => (gs? c.2).map (p.matchOf c.2.text)) := by
  induction cs with
  | nil => exact finds_last hroot last
  | cons c cs ih =>
    obtain ⟨before, c⟩ := c
    rw [text_cons]
    have hfinds := (h c).finds before ih
    cases hc : gs? c with
    | none => simpa [List.filterMap_cons, hc] using hfinds
    | some gs => simpa [List.filterMap_cons, hc] using hfinds

end Along

/-! ### Answers and aborts -/

section Named

variable {a d v : List Char} {c : Call} {before : {u : List Char // Flat u}} {w : Word} {m : Node}

/-- A name and a parenthesis fail along words that do not end in the name. -/
theorem failsAlong_words (name : List Char) {rest : List Char} (hname : Flat name) {ws : List Word}
    (h : ∀ w ∈ ws, name <:+ w.text → w.paren = ')') (v : List Char) :
    (Node.literally (name ++ '(' :: rest) m).FailsAlong (wordsText ws) v := by
  refine failsAlong_wordsText (fun w hw v => failsAlong_of_name hname ?_) v
  intro hs hopen
  rw [h w hw hs] at hopen
  cases hopen

theorem paren_restWords {name : List Char} (hname : ¬ name <:+ "->json".toList) (hw : w ∈ restWords)
    (hs : name <:+ w.text) : w.paren = ')' := by
  rcases List.mem_cons.mp hw with rfl | hw
  · rfl
  · obtain rfl := List.mem_singleton.mp hw
    exact absurd hs hname

/-- What starts as an answer fails along an abort. -/
theorem failsAlong_abort {hd : IsStatus d} (before : {u : List Char // Flat u}) (v : List Char) :
    (Node.literally (answerName ++ '(' :: answerRest) m).FailsAlong
      (wordsText ((Call.abort d hd).words before)) v := by
  refine failsAlong_words answerName (by decide) (fun w hw hs => ?_) v
  rcases List.mem_cons.mp hw with rfl | hw
  · exact absurd hs (not_suffix_of_name (by decide))
  · obtain rfl := List.mem_singleton.mp hw
    rfl

/-- What starts as an abort fails along an answer. -/
theorem failsAlong_answerWords {rest : List Char} (hw : w.paren = ')') (v : List Char) :
    (Node.literally (abortName ++ '(' :: rest) m).FailsAlong
      (wordsText (answerWords before ++ [w])) v := by
  refine failsAlong_words abortName (by decide) (fun w' hw' hs => ?_) v
  rcases List.mem_append.mp hw' with hw' | hw'
  · rcases List.mem_cons.mp hw' with rfl | hw'
    · exact absurd hs (not_suffix_of_name (by decide))
    · exact paren_restWords (by decide) hw' hs
  · rw [List.mem_singleton.mp hw', hw]

/-- What starts with a name fails before it. -/
theorem failsAlong_before {name rest tail : List Char} (hname : Flat name)
    (before : {u : List Char // Flat u}) (v : List Char) :
    (Node.literally (name ++ '(' :: rest) m).FailsAlong before.1 (name ++ '(' :: tail ++ v) := by
  rw [List.append_assoc]
  exact failsAlong_before_name hname before.2 (tail ++ v)

theorem holds_not_closing {c : Char} :
    (CharClass.mk [.code 41] true).holds false false c = true ↔ c ≠ ')' := by
  have hcode : Text.codeOf c = 41 ↔ c = ')' := Text.codeOf_inj (d := ')')
  simp [CharClass.holds, Item.holds, hcode]

theorem prefers_argument (ha : Flat a) (v : List Char) :
    (Node.seq (.loop .greedy 0 none (.one ⟨[.code 41], true⟩ false false)) (.char ')')).Prefers
      (a ++ [')']) v [] := by
  have hloop : (Node.loop .greedy 0 none (.one ⟨[.code 41], true⟩ false false)).Prefers a
      ([')'] ++ v) [] := by
    refine Node.prefers_loop rfl ⟨fun c hc => ?_, Nat.zero_le _, nofun⟩ ?_
    · rw [holds_not_closing]
      rintro rfl
      cases ha _ hc
    · intro c r hr hpass
      rw [holds_not_closing] at hpass
      exact absurd (List.cons.inj hr).1.symm hpass
  exact hloop.seq (Node.prefers_char ')' v)

/-- The status of an abort, as the group of a match. -/
def abortGroups : Call → Option (List (ℕ × List Char))
  | .abort d _ => some [(1, d)]
  | _ => none

/-- An answer, as a match without groups. -/
def answerGroups : Call → Option (List (ℕ × List Char))
  | .abort .. => none
  | _ => some []

theorem treats_abortPattern (c : Call) : Treats abortPattern c (abortGroups c) := by
  cases c with
  | answer a gap d flat hg hd => exact fun before v => failsAlong_answerWords rfl v
  | plain a flat hn => exact fun before v => failsAlong_answerWords rfl v
  | abort d hd =>
    intro before v
    refine ⟨?_, ?_⟩
    · exact failsAlong_before (by decide) before v
    · have hclosed := (prefers_status hd (')' :: v)).seq (Node.prefers_char ')' v)
      exact hclosed.literally abortHead

theorem treats_callPattern (c : Call) : Treats callPattern c (answerGroups c) := by
  cases c with
  | answer a gap d flat hg hd =>
    intro before v
    have hflat := flat_append.mpr ⟨flat, flat_closing hg hd⟩
    exact ⟨failsAlong_before (by decide) before v, (prefers_argument hflat v).literally answerHead⟩
  | plain a flat hn =>
    intro before v
    exact ⟨failsAlong_before (by decide) before v, (prefers_argument flat v).literally answerHead⟩
  | abort d hd => exact fun before v => failsAlong_abort before v

end Named

/-! ### Answers with a status, one after the other -/

section Explicit

variable {text u v x : List Char} {ss : List String} {t : String} {c : Call}
  {before : {u : List Char // Flat u}}

/-- The statuses that the explicit pattern finds in a text. -/
def States (text : List Char) (ss : List String) : Prop :=
  ∃ ms, explicitPattern.Finds text ms ∧ ms.map Status.ofMatch = ss.map Status.text

/-- How a match of the explicit pattern that has begun before a text goes on in it: to the end of the
first status, with the others found after that, or nowhere if there is none. -/
def Closes (text : List Char) : List String → Prop
  | [] => (Node.lazily closingNode).Fails text
  | t :: ss => ∃ u v, text = u ++ v ∧ (Node.lazily closingNode).Prefers u v [(1, t.toList)] ∧
      States v ss

theorem States.along (hx : explicitPattern.root.FailsAlong x v) (h : States v ss) :
    States (x ++ v) ss := by
  obtain ⟨ms, hfinds, hms⟩ := h
  exact ⟨ms, hfinds.along hx, hms⟩

theorem Closes.along (hx : closingNode.FailsAlong x v) (h : Closes v ss) : Closes (x ++ v) ss := by
  cases ss with
  | nil => exact h.lazily_along hx
  | cons t ss =>
    obtain ⟨u, v, rfl, hu, hv⟩ := h
    exact ⟨x ++ u, v, (List.append_assoc x u v).symm, hu.lazily_along hx, hv⟩

/-- A match that begins with an answer takes the first status that comes. -/
theorem Closes.states (h : Closes text (t :: ss)) : States (answerHead ++ text) (t :: ss) := by
  obtain ⟨u, v, rfl, hu, ms, hfinds, hms⟩ := h
  have hroot : explicitPattern.root.Prefers (answerHead ++ u) v [(1, t.toList)] :=
    hu.literally answerHead
  have hne : answerHead ++ u ≠ [] := by simp [answerHead]
  refine ⟨explicitPattern.matchOf (answerHead ++ u) [(1, t.toList)] :: ms, ?_, ?_⟩
  · rw [← List.append_assoc]
    exact hfinds.after hroot hne
  · rw [List.map_cons, hms]
    simp [Status.ofMatch, matchOf, explicitPattern]

/-- The end of an answer fails along the start of one, with any text before it. -/
theorem failsAlong_closing_words {ws : List Word} (h : ∀ w ∈ ws, w.paren = ')' → ¬ EndsInStatus w.text)
    (v : List Char) : closingNode.FailsAlong (wordsText ws) v :=
  failsAlong_wordsText (fun w hw v => failsAlong_closing (h w hw) v) v

theorem not_endsInStatus_nil : ¬ EndsInStatus [] := by
  rintro ⟨a, gap, d, -, -, h⟩
  simp at h

theorem not_endsInStatus_answerWords {w : Word} (hw : w ∈ answerWords before) (hq : w.paren = ')') :
    ¬ EndsInStatus w.text := by
  rcases List.mem_cons.mp hw with rfl | hw
  · cases hq
  · rcases List.mem_cons.mp hw with rfl | hw
    · exact not_endsInStatus_nil
    · obtain rfl := List.mem_singleton.mp hw
      cases hq

theorem wordsText_answerWords (before : {u : List Char // Flat u}) :
    wordsText (answerWords before) = before.1 ++ answerHead := by
  simp [wordsText, answerWords, nameWord, restWords, answerHead, answerRest_eq]

/-- From an answer on, the pattern finds what it finds after a match has begun. -/
theorem Closes.states_answerWords (h : Closes text (t :: ss)) :
    States (wordsText (answerWords before) ++ text) (t :: ss) := by
  rw [wordsText_answerWords, List.append_assoc]
  exact h.states.along (failsAlong_before (by decide) before text)

theorem Closes.along_answerWords (h : Closes text ss) :
    Closes (wordsText (answerWords before) ++ text) ss :=
  h.along (failsAlong_closing_words (fun _ => not_endsInStatus_answerWords) text)

/-- Without a status to go on to, the pattern fails along an answer. -/
theorem failsAlong_answer {w : Word} (hw : w.paren = ')')
    (hfails : (Node.lazily closingNode).Fails (w.text ++ [w.paren] ++ v)) :
    explicitPattern.root.FailsAlong (wordsText (answerWords before ++ [w])) v := by
  -- only the first word ends in the name of an answer
  have htail : explicitPattern.root.FailsAlong (wordsText (restWords ++ [w])) v := by
    refine failsAlong_words answerName (by decide) (fun w' hw' hs => ?_) v
    rcases List.mem_append.mp hw' with hw' | hw'
    · exact paren_restWords (by decide) hw' hs
    · rw [List.mem_singleton.mp hw', hw]
  have hrest : wordsText (restWords ++ [w]) ++ v = answerRest ++ (w.text ++ [w.paren] ++ v) := by
    simp [wordsText, restWords, answerRest_eq]
  refine Node.failsAlong_append.mpr ⟨failsAlong_of_name (by decide) fun _ _ x hx => ?_, htail⟩
  obtain rfl := List.append_cancel_left (hrest.symm.trans hx)
  exact hfails

/-- **Calls, one after the other.**  If the pattern finds some statuses after a call, both from the start
and after a match has begun, it finds the status of the call before them, and goes on to it. -/
theorem states_call (before : {u : List Char // Flat u}) (c : Call) (hs : States v ss)
    (hc : Closes v ss) :
    States (wordsText (c.words before) ++ v) (c.stated?.toList ++ ss) ∧
      Closes (wordsText (c.words before) ++ v) (c.stated?.toList ++ ss) := by
  cases c with
  | answer a gap d flat hg hd =>
    have hprefers := (prefers_closing hg hd v).lazily.lazily_along
      (failsAlong_argument flat hg hd v)
    have hargument : Closes (a ++ (',' :: (gap ++ d) ++ [')']) ++ v) (String.ofList d :: ss) :=
      ⟨_, v, rfl, String.toList_ofList ▸ hprefers, hs⟩
    have htext : wordsText ((Call.answer a gap d flat hg hd).words before) ++ v =
        wordsText (answerWords before) ++ (a ++ (',' :: (gap ++ d) ++ [')']) ++ v) := by
      simp [Call.words, wordsText]
    rw [htext]
    exact ⟨hargument.states_answerWords, hargument.along_answerWords⟩
  | plain a flat hn =>
    have hargument : Closes (a ++ [')'] ++ v) ss :=
      hc.along (failsAlong_closing (w := ⟨a, ')', flat, rfl⟩) (fun _ => hn) v)
    have htext : wordsText ((Call.plain a flat hn).words before) ++ v =
        wordsText (answerWords before) ++ (a ++ [')'] ++ v) := by
      simp [Call.words, wordsText]
    refine ⟨?_, htext ▸ hargument.along_answerWords⟩
    cases ss with
    | nil => exact hs.along (failsAlong_answer rfl hargument)
    | cons t ss => exact htext ▸ hargument.states_answerWords
  | abort d hd =>
    refine ⟨hs.along (failsAlong_abort before v), hc.along (failsAlong_closing_words ?_ v)⟩
    intro w hw hq
    rcases List.mem_cons.mp hw with rfl | hw
    · cases hq
    · obtain rfl := List.mem_singleton.mp hw
      exact not_endsInStatus_status hd

end Explicit

/-! ### The statuses of a source -/

/-- Distinct members are those that duplicates are erased from, in the order of their first places. -/
theorem distinct_eq_eraseDups {α : Type} [DecidableEq α] (xs : List α) :
    distinct xs = xs.eraseDups := by
  induction xs using List.reverseRecOn with
  | nil => rfl
  | append_singleton xs x ih =>
    rw [distinct_concat, ih, List.eraseDups_append]
    by_cases hx : x ∈ xs
    · simp [hx, List.removeAll]
    · simp [hx, List.removeAll, List.eraseDups_cons]

section Source

variable {cs : Calls} {last : {u : List Char // Flat u}} {t : String}

/-- A match that has begun goes nowhere in a text without parentheses. -/
theorem closes_last (last : {u : List Char // Flat u}) : Closes last.1 [] := by
  have hnil : Closes [] [] := Node.fails_lazily_nil (fails_closing_of_flat flat_nil)
  have hlast := hnil.along (failsAlong_of_flat (fun _ => fails_closing_of_flat) last.2)
  rwa [List.append_nil] at hlast

/-- Along all calls the explicit pattern finds the statuses of the answers. -/
theorem states_calls (cs : Calls) (last : {u : List Char // Flat u}) :
    States (cs.text last) cs.stated ∧ Closes (cs.text last) cs.stated := by
  induction cs with
  | nil => exact ⟨⟨[], finds_last rfl last, rfl⟩, closes_last last⟩
  | cons c cs ih =>
    obtain ⟨before, c⟩ := c
    have hcall := states_call before c ih.1 ih.2
    rw [text_cons]
    cases hc : c.stated? with
    | none => simpa [Calls.stated, List.filterMap_cons, hc] using hcall
    | some t => simpa [Calls.stated, List.filterMap_cons, hc] using hcall

theorem statusesBy_explicitPattern (cs : Calls) (last : {u : List Char // Flat u}) :
    statusesBy explicitPattern (String.ofList (cs.text last)) = cs.stated.map Status.text := by
  obtain ⟨ms, hfinds, hms⟩ := (states_calls cs last).1
  rw [statusesBy, String.toList_ofList, findAll_of_finds hfinds, hms]

theorem statusesBy_abortPattern (cs : Calls) (last : {u : List Char // Flat u}) :
    statusesBy abortPattern (String.ofList (cs.text last)) = cs.aborted.map Status.text := by
  have hfinds := finds_calls rfl treats_abortPattern cs last
  rw [statusesBy, String.toList_ofList, findAll_of_finds hfinds, Calls.aborted, List.map_filterMap,
    List.map_filterMap]
  refine congrArg (fun f => List.filterMap f cs) (funext fun c => ?_)
  cases c.2 <;> rfl

/-- There is one answer for each status that is stated, and one for each plain answer. -/
theorem length_answers {β : Type} (f : Call → List (ℕ × List Char) → β) (cs : Calls) :
    (cs.filterMap fun c => (answerGroups c.2).map (f c.2)).length =
      cs.stated.length + (cs.filter (·.2.isPlain)).length := by
  induction cs with
  | nil => rfl
  | cons c cs ih =>
    obtain ⟨before, c⟩ := c
    -- each answer counts once on either side, and an abort on neither
    cases c <;>
      simp [Calls.stated, answerGroups, Call.stated?, Call.isPlain] at ih ⊢ <;>
      omega

theorem length_statusesBy_callPattern (cs : Calls) (last : {u : List Char // Flat u}) :
    (statusesBy callPattern (String.ofList (cs.text last))).length =
      cs.stated.length + (cs.filter (·.2.isPlain)).length := by
  have hfinds := finds_calls rfl treats_callPattern cs last
  rw [length_statusesBy, String.toList_ofList, findAll_of_finds hfinds]
  exact length_answers (fun c gs => callPattern.matchOf c.text gs) cs

theorem ne_empty_of_isStatus {d : List Char} (hd : IsStatus d) : String.ofList d ≠ "" := by
  intro h
  have hlength := hd.length_eq
  rw [← String.toList_ofList (l := d), h] at hlength
  cases hlength

theorem ne_empty_of_stated (h : t ∈ cs.stated) : t ≠ "" := by
  obtain ⟨⟨before, c⟩, -, hc⟩ := List.mem_filterMap.mp h
  cases c with
  | answer a gap d flat hg hd =>
    obtain rfl := Option.some.inj hc
    exact ne_empty_of_isStatus hd
  | plain a flat hn => cases hc
  | abort d hd => cases hc

theorem ne_empty_of_aborted (h : t ∈ cs.aborted) : t ≠ "" := by
  obtain ⟨⟨before, c⟩, -, hc⟩ := List.mem_filterMap.mp h
  cases c with
  | answer a gap d flat hg hd => cases hc
  | plain a flat hn => cases hc
  | abort d hd =>
    obtain rfl := Option.some.inj hc
    exact ne_empty_of_isStatus hd

/-- **The statuses of a source made of calls.**  They are those of its answers in order, then that
something is missing, then that all is well, then those of its aborts in order, then that the input is
invalid, each at its first place: the second if the source has the mark of a lookup that fails, the third
if an answer has no status, the last if there is validation. -/
theorem statusesOf_source (cs : Calls) (last : {u : List Char // Flat u}) (validated : Bool) :
    statusesOf {} (String.ofList (cs.text last)) validated = .ok
      ((cs.stated ++ (if "OrFail".toList <:+: cs.text last then ["404"] else []) ++
        (if cs.any (·.2.isPlain) then ["200"] else []) ++ cs.aborted ++
        (if validated then ["422"] else [])).map Status.text).eraseDups := by
  have hplain : (cs.stated.length < cs.stated.length + (cs.filter (·.2.isPlain)).length) =
      (cs.any (·.2.isPlain) = true) := by
    simp
  have hmissing : (decide ("OrFail" ≠ "") &&
      occursIn "OrFail".toList (String.ofList (cs.text last)).toList) = true ↔
      "OrFail".toList <:+: cs.text last := by
    simp [occursIn_iff_isInfix]
  have hnonempty : ∀ s ∈ (cs.stated ++ (if "OrFail".toList <:+: cs.text last then ["404"] else []) ++
      (if cs.any (·.2.isPlain) then ["200"] else []) ++ cs.aborted ++
      (if validated then ["422"] else [])).map Status.text, (!s.isEmpty) = true := by
    intro s hs
    obtain ⟨t, ht, rfl⟩ := List.mem_map.mp hs
    rw [Bool.not_eq_true', Status.isEmpty_text]
    simp only [List.mem_append, List.mem_ite_nil_right, List.mem_singleton] at ht
    obtain (((ht | ⟨-, rfl⟩) | ⟨-, rfl⟩) | ht) | ⟨-, rfl⟩ := ht
    · exact ne_empty_of_stated ht
    · decide
    · decide
    · exact ne_empty_of_aborted ht
    · decide
  unfold statusesOf
  rw [reads_default.explicit, reads_default.call, reads_default.abort]
  refine congrArg Except.ok ?_
  rw [← List.filter_eq_self.mpr hnonempty, distinct_eq_eraseDups, statusesBy_explicitPattern,
    statusesBy_abortPattern, List.length_map, length_statusesBy_callPattern]
  simp only [hplain, hmissing, List.map_append, apply_ite (List.map Status.text), List.map_cons,
    List.map_nil]

/-- The match that starts at the first answer ends with the status of the second. -/
example : statusesOf {} "response()->json($a); abort(404); response()->json($b, 201);" true =
    .ok [.text "201", .text "200", .text "404", .text "422"] := rfl

end Source

end RouteDocs
