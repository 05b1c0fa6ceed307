import RouteDocs.Proofs.Yaml.QuotedText

/-!
# RouteDocs.Proofs.Yaml.QuotedWriting — what is written between quotes stands for the text

Between single quotes a text keeps what it says unless it has a next line in it, which is folded like
a line feed (`quotedText_single`).  Between double quotes it does where the indentation is within the
line width (`quotedText_double`): past it a line can be broken between a backslash and its space.
-/

namespace RouteDocs.Yaml

/-! ### Writing between single quotes -/

section Single

variable {p q : Char → Bool} {s w : List Char} {indent : Nat}

/-- Neighbours in a part of a text, and across its start. -/
theorem hasNeighbours_append {r : List Char} (h : hasNeighbours p q (r ++ s) = false) :
    hasNeighbours p q s = false ∧
      ∀ a ∈ r.getLast?, ∀ b ∈ s.head?, p a = true → q b = false := by
  induction r with
  | nil => exact ⟨h, nofun⟩
  | cons c r ih =>
    cases r with
    | nil =>
      cases s with
      | nil => exact ⟨rfl, nofun⟩
      | cons d s =>
        obtain ⟨hpair, hrest⟩ := Bool.or_eq_false_iff.mp h
        refine ⟨hrest, ?_⟩
        rintro a ha b hb hp
        obtain rfl := Option.some.inj ha
        obtain rfl := Option.some.inj hb
        have hc : p c = true := hp
        rwa [hc, Bool.true_and] at hpair
    | cons d r =>
      obtain ⟨-, hrest⟩ := Bool.or_eq_false_iff.mp h
      exact ih hrest

/-- A word with its single quotes written twice. -/
theorem quotedWord_doubleQuotes (hw : ∀ c ∈ w, IsSolid c) (ha : ∀ c ∈ w, isAllowed c = true) :
    QuotedWord false (doubleQuotes w) w := by
  induction w with
  | nil => exact .nil
  | cons c w ih =>
    have hrest := ih (fun d hd => hw d (List.mem_cons_of_mem c hd))
      fun d hd => ha d (List.mem_cons_of_mem c hd)
    have hc : IsSolid c := hw c List.mem_cons_self
    by_cases hquote : c = '\''
    · subst hquote
      exact .twice rfl hrest
    · have hsame : doubleQuotes (c :: w) = c :: doubleQuotes w := by
        simp [doubleQuotes, hquote]
      rw [hsame]
      by_cases hmark : c = '"' ∨ c = '\\'
      · exact .other (by simpa using hmark) hrest
      · rw [not_or] at hmark
        exact .plain (Cursor.isQuotedPlain_iff.mpr ⟨hc, hquote, hmark.1, hmark.2⟩)
          (ha c List.mem_cons_self) hrest

theorem startsSolid_doubleQuotes {c : Char} {r : List Char}
    (h : QuotedWord false (doubleQuotes (c :: r)) (c :: r)) (t : List Char) :
    StartsSolid (doubleQuotes (c :: r) ++ t) := by
  obtain ⟨d, u, hu⟩ : ∃ d u, doubleQuotes (c :: r) = d :: u := by
    unfold doubleQuotes
    rw [List.flatMap_cons]
    split <;> exact ⟨_, _, rfl⟩
  rw [hu] at h ⊢
  exact startsSolid_cons_iff.mpr (startsSolid_cons_iff.mp h.startsSolid)

/-- After spaces or breaks comes a word. -/
theorem word_of_no_neighbours {k : RunKind} {r : List Char} {rs : List (List Char)} (hne : r ≠ [])
    (hkind : ∀ c ∈ r, runKind c = k) (hk : k ≠ .word)
    (hother : ∀ r' ∈ rs.head?, ∀ c ∈ r'.head?, runKind c ≠ k)
    (hbreak : hasNeighbours isBreak isSpace (r :: rs).flatten = false)
    (hspace : hasNeighbours isSpace isBreak (r :: rs).flatten = false) :
    ∀ r' ∈ rs.head?, ∀ c ∈ r'.head?, runKind c = .word := by
  intro r' hr c hc
  have hlast : runKind (r.getLast hne) = k := hkind _ (List.getLast_mem hne)
  have hgetLast := List.getLast_mem_getLast? hne
  have hhead : c ∈ rs.flatten.head? := by
    cases rs with
    | nil => cases hr
    | cons r₁ rs =>
      obtain rfl := Option.some.inj hr
      rw [List.flatten_cons, List.head?_append, Option.mem_def.mp hc]
      rfl
  have hne' : runKind c ≠ k := hother r' hr c hc
  cases hkind' : runKind c with
  | word => rfl
  | space =>
    obtain rfl := eq_space_of_space hkind'
    cases k with
    | word => exact absurd rfl hk
    | space => exact absurd hkind' hne'
    | lineBreak =>
      have hnot := (hasNeighbours_append hbreak).2 _ hgetLast ' ' hhead (isBreak_of_lineBreak hlast)
      cases hnot
  | lineBreak =>
    cases k with
    | word => exact absurd rfl hk
    | lineBreak => exact absurd hkind' hne'
    | space =>
      have hnot := (hasNeighbours_append hspace).2 _ hgetLast c hhead
        (by rw [eq_space_of_space hlast]; rfl)
      rw [isBreak_of_lineBreak hkind'] at hnot
      cases hnot

/-- Runs in which no space is next to a break are words with gaps between them. -/
theorem quotedText_writeRuns {split : Bool} {rs : List (List Char)} (hpos : 0 < indent)
    (hruns : AreRuns rs) (hwritable : ∀ c ∈ rs.flatten, isWritable c = true)
    (hbreak : hasNeighbours isBreak isSpace rs.flatten = false)
    (hspace : hasNeighbours isSpace isBreak rs.flatten = false) (hnext : '\x85' ∉ rs.flatten)
    (column : Nat) (first : Bool) :
    QuotedText false (writeRuns indent split doubleQuotes column first rs) rs.flatten ∧
      ((∀ r ∈ rs.head?, ∀ c ∈ r.head?, runKind c = .word) →
        StartsSolid (writeRuns indent split doubleQuotes column first rs)) := by
  induction hruns generalizing column first with
  | nil => exact ⟨.word .nil, nofun⟩
  | @cons k r rs hne hkind hother hrest ih =>
    have hih := fun column => ih (fun c hc => hwritable c (List.mem_append_right r hc))
      (hasNeighbours_append hbreak).1 (hasNeighbours_append hspace).1
      (fun h => hnext (List.mem_append_right r h)) column false
    obtain ⟨c, r', rfl⟩ := List.exists_cons_of_ne_nil hne
    have hc : runKind c = k := hkind c List.mem_cons_self
    have hword : k ≠ .word → ∀ r ∈ rs.head?, ∀ d ∈ r.head?, runKind d = .word := fun hk =>
      word_of_no_neighbours hne hkind hk hother hbreak hspace
    cases k with
    | word =>
      have hsolid : ∀ d ∈ c :: r', IsSolid d := fun d hd =>
        isSolid_of_word (hwritable d (List.mem_append_left _ hd)) (hkind d hd)
      have hquoted := quotedWord_doubleQuotes hsolid fun d hd =>
        isAllowed_of_isWritable (hwritable d (List.mem_append_left _ hd))
      rw [writeRuns_word hne hkind]
      exact ⟨.prepend hquoted (hih _).1, fun _ => startsSolid_doubleQuotes hquoted _⟩
    | lineBreak =>
      refine ⟨?_, fun h => ?_⟩
      · rw [writeRuns_breaks hne hkind]
        exact .gap .nil (.breaks rfl hpos hne (fun d hd => isBreak_of_lineBreak (hkind d hd))
          fun h => hnext (List.mem_append_left _ h)) ((hih _).2 (hword nofun)) (hih _).1
      · exact absurd (hc.symm.trans (h _ rfl c rfl)) nofun
    | space =>
      refine ⟨?_, fun h => ?_⟩
      · rcases writeRuns_spaces indent split doubleQuotes column first rs hne hkind with
          ⟨hone, -, -, -, heq⟩ | heq
        · rw [heq, hone]
          exact .gap .nil (.fold rfl hpos) ((hih _).2 (hword nofun)) (hih _).1
        · rw [heq, eq_spaces hkind]
          exact .gap .nil (.blank r'.length) ((hih _).2 (hword nofun)) (hih _).1
      · exact absurd (hc.symm.trans (h _ rfl c rfl)) nofun

/-- A text between single quotes is read as it is unless it has a next line in it. -/
theorem quotedText_single (hpos : 0 < indent) (h : allowsSingle s = true) (hnext : '\x85' ∉ s)
    (split : Bool) (column : Nat) :
    QuotedText false (writeRuns indent split doubleQuotes column true (runsOf s)) s := by
  simp only [allowsSingle, Bool.and_eq_true, List.all_eq_true, Bool.not_eq_true'] at h
  obtain ⟨⟨hwritable, hbreak⟩, hspace⟩ := h
  have hflat := flatten_runsOf s
  have hruns := areRuns_runsOf s
  generalize runsOf s = rs at hflat hruns ⊢
  subst hflat
  exact (quotedText_writeRuns hpos hruns hwritable hbreak hspace hnext column true).1

end Single

/-! ### Writing between double quotes -/

section Double

variable {indent : Nat} {split : Bool} {c : Char} {s : List Char}

/-- What comes first in a text that does not start with a space. -/
theorem startsSolid_writeDouble (hc : c ≠ ' ') (column : Nat) (fresh first : Bool) (r : List Char) :
    writeDouble indent split column fresh first (c :: r) ≠ [] ∧
      StartsSolid (writeDouble indent split column fresh first (c :: r)) := by
  have hslash : IsSolid '\\' := by unfold IsSolid; decide
  unfold writeDouble
  split
  · rename_i e he
    obtain ⟨e', rfl⟩ := (isEscape_of_escape he).head
    dsimp only
    split <;> exact ⟨by simp, startsSolid_cons_iff.mpr hslash⟩
  · rename_i he
    obtain ⟨-, hbreak, htab, -, -⟩ := isAllowed_of_no_escape he
    dsimp only
    split
    · exact ⟨by simp, startsSolid_cons_iff.mpr hslash⟩
    · exact ⟨by simp, startsSolid_cons_iff.mpr (isSolid_iff.mpr ⟨hc, htab, hbreak⟩)⟩

/-- Where the indentation is within the line width, the line is not broken again before a space. -/
theorem writeDouble_space {column : Nat} (hcolumn : column ≤ lineWidth) (fresh first : Bool)
    (r : List Char) :
    writeDouble indent split column fresh first (' ' :: r) =
      ' ' :: writeDouble indent split (column + 1) false false r := by
  have hescape : escape? ' ' = none := by decide
  rw [writeDouble, hescape]
  simp only
  rw [if_neg]
  simp [Nat.not_lt.mpr hcolumn]

theorem quotedWord_of_no_escape (he : escape? c = none) (hc : c ≠ ' ') : QuotedWord true [c] [c] := by
  obtain ⟨hallowed, hbreak, htab, hquote, hslash⟩ := isAllowed_of_no_escape he
  by_cases hsingle : c = '\''
  · exact .other (by simpa using hsingle) .nil
  · exact .plain (Cursor.isQuotedPlain_iff.mpr
      ⟨isSolid_iff.mpr ⟨hc, htab, hbreak⟩, hsingle, hquote, hslash⟩) hallowed .nil

/-- A break before a space, which is written as an escape. -/
theorem quotedText_split_space {t : List Char} (hpos : 0 < indent) (h : QuotedText true t s) :
    QuotedText true (splitDouble indent (' ' :: s) ++ ' ' :: t) (' ' :: s) := by
  have hslash : IsSolid '\\' := by unfold IsSolid; decide
  have hspace : QuotedText true ('\\' :: ' ' :: t) (' ' :: s) :=
    .escape (isEscape_named (by decide) rfl) h
  have hfold := QuotedText.fold hpos (List.cons_ne_nil _ _) (startsSolid_cons_iff.mpr hslash) hspace
  have hsplit : splitDouble indent (' ' :: s) = '\\' :: newLine indent ++ ['\\'] := rfl
  rw [hsplit]
  simpa using hfold

/-- A break before another character. -/
theorem quotedText_split {t : List Char} (hpos : 0 < indent) (hc : c ≠ ' ') (hne : t ≠ [])
    (hsolid : StartsSolid t) (h : QuotedText true t (c :: s)) :
    QuotedText true (splitDouble indent (c :: s) ++ t) (c :: s) := by
  have hsplit : splitDouble indent (c :: s) = '\\' :: newLine indent := by
    simp [splitDouble, hc]
  rw [hsplit]
  exact .fold hpos hne hsolid h

/-- A character that needs no escape. -/
theorem quotedText_cons {t : List Char} (he : escape? c = none) (h : QuotedText true t s) :
    QuotedText true (c :: t) (c :: s) := by
  by_cases hc : c = ' '
  · subst hc
    exact .space h
  · exact .prepend (quotedWord_of_no_escape he hc) h

/-- A break before a character that needs no escape. -/
theorem quotedText_split_cons {t : List Char} (hpos : 0 < indent) (he : escape? c = none)
    (h : QuotedText true t s) : QuotedText true (splitDouble indent (c :: s) ++ c :: t) (c :: s) := by
  by_cases hc : c = ' '
  · subst hc
    exact quotedText_split_space hpos h
  · have hsolid : StartsSolid (c :: t) := startsSolid_cons_iff.mpr
      (startsSolid_cons_iff.mp (quotedWord_of_no_escape he hc).startsSolid)
    exact quotedText_split hpos hc (by simp) hsolid (quotedText_cons he h)

/-- A break after an escape.  A space that comes next is written with the break, which is read only where
the line is not broken once more between the two. -/
theorem quotedText_split_escape (hpos : 0 < indent) (hwidth : c = ' ' → indent < lineWidth)
    (hcons : ∀ column fresh,
      QuotedText true (writeDouble indent split column fresh false (c :: s)) (c :: s))
    (hrest : ∀ column fresh, QuotedText true (writeDouble indent split column fresh false s) s) :
    QuotedText true (splitDouble indent (c :: s) ++
      writeDouble indent split ((splitDouble indent (c :: s)).length - 2) true false (c :: s)) (c :: s) := by
  by_cases hc : c = ' '
  · have hindent := hwidth hc
    subst hc
    have hcolumn : (splitDouble indent (' ' :: s)).length - 2 ≤ lineWidth := by
      simp [splitDouble, newLine, spaces]
      omega
    rw [writeDouble_space hcolumn]
    exact quotedText_split_space hpos (hrest _ _)
  · obtain ⟨hne, hsolid⟩ := startsSolid_writeDouble hc _ true false s
    exact quotedText_split hpos hc hne hsolid (hcons _ _)

/-- A text between double quotes is read as it is, unless a space comes right after an escape where the
indentation is past the line width. -/
theorem quotedText_double (hpos : 0 < indent) (s : List Char)
    (hs : indent < lineWidth ∨ hasNeighbours (fun c => (escape? c).isSome) isSpace s = false)
    (column : Nat) (fresh first : Bool) :
    QuotedText true (writeDouble indent split column fresh first s) s := by
  -- a space after a break is written with it, so the induction is on the length
  induction hlen : s.length using Nat.strongRecOn generalizing s column fresh first with
  | _ n ih =>
    cases s with
    | nil => exact .word .nil
    | cons c r =>
      have hr := hs.imp_right fun h => (hasNeighbours_append (r := [c]) h).1
      have hrest := fun column fresh => ih r.length (by simp at hlen; omega) r hr column fresh false rfl
      unfold writeDouble
      split
      · rename_i e he
        have hescape := isEscape_of_escape he
        dsimp only
        split
        · rename_i hsplit
          rw [List.append_assoc]
          apply QuotedText.escape hescape
          cases r with
          | nil => simp at hsplit
          | cons d r =>
            have hr' := hr.imp_right fun h => (hasNeighbours_append (r := [d]) h).1
            refine quotedText_split_escape hpos (fun hd => ?_) hrest fun column fresh =>
              ih r.length (by simp at hlen; omega) r hr' column fresh false rfl
            subst hd
            refine hs.resolve_right fun hs => ?_
            have hnot := (hasNeighbours_append (r := [c]) hs).2 c rfl ' ' rfl (by simp [he])
            cases hnot
        · exact .escape hescape (hrest _ _)
      · rename_i he
        dsimp only
        split
        · exact quotedText_split_cons hpos he (hrest _ _)
        · exact quotedText_cons he (hrest _ _)

end Double

end RouteDocs.Yaml
