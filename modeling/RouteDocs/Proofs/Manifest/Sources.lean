import Mathlib.Data.List.Induction
import RouteDocs.Manifest.Resolver
import RouteDocs.Proofs.Manifest.Load

/-!
# RouteDocs.Proofs.Manifest.Sources — the sources that one resolver gives while files change

The lines of a file enter what a resolver has read at the first call that can read it and are never
taken out or replaced (`Reading`).  So all calls for one path up to then fail, and all later ones show
the lines of that one text (`answer_snapshot`).  While the files stay as they are, nobody sees that they
are read once: every call is answered as if it were the first (`evidence_after`).
-/

namespace RouteDocs

open Text

/-! ### Texts of files -/

namespace FileTree

variable {files : FileTree} {p : Path} {c : Cause}

/-- The file at a path can be read as a text. -/
def Readable (files : FileTree) (p : Path) (t : List Char) : Prop :=
  p.isUnencodable = false ∧ p.hasNul = false ∧ files.readText p = .ok (some t)

/-- Bytes of a file are read as a text, or they are none. -/
theorem readText_eq_none_iff :
    files.readText p = .ok none ↔
      ∃ bytes, files.read p = .ok bytes ∧ String.fromUTF8? ⟨bytes.toArray⟩ = none := by
  unfold readText
  rw [bind_eq_ok_iff]
  refine exists_congr fun bytes => and_congr_right fun _ => ?_
  rw [pure_eq_ok_iff, eq_comm, Option.map_eq_none_iff]

/-- What is wrong with a path, or with the bytes of its file, so that there is no text. -/
inductive NoText (files : FileTree) (p : Path) : Cause → Prop
  | name (hname : p.isUnencodable = true) : NoText files p .notEncodable
  | path (hname : p.isUnencodable = false) (hnul : p.hasNul = true) : NoText files p .badPath
  | bytes {bytes : List UInt8} (hname : p.isUnencodable = false) (hnul : p.hasNul = false)
      (hread : files.read p = .ok bytes) (hbytes : String.fromUTF8? ⟨bytes.toArray⟩ = none) :
      NoText files p .notText

/-- With a path that is one, only the bytes can be at fault. -/
theorem NoText.readText_eq_none (h : files.NoText p c) (hname : p.isUnencodable = false)
    (hnul : p.hasNul = false) : files.readText p = .ok none := by
  cases h with
  | name hbad => exact absurd (hname.symm.trans hbad) Bool.false_ne_true
  | path _ hbad => exact absurd (hnul.symm.trans hbad) Bool.false_ne_true
  | bytes _ _ hread hbytes => exact readText_eq_none_iff.mpr ⟨_, hread, hbytes⟩

/-- There is no text at a path, or its file cannot be read, or its text is read. -/
theorem text_cases (files : FileTree) (p : Path) :
    (∃ c, files.NoText p c) ∨ (p.isUnencodable = false ∧ p.hasNul = false ∧
      ((∃ issue, files.readText p = .error issue) ∨ ∃ t, files.readText p = .ok (some t))) := by
  cases hname : p.isUnencodable with
  | true => exact .inl ⟨_, .name hname⟩
  | false =>
    cases hnul : p.hasNul with
    | true => exact .inl ⟨_, .path hname hnul⟩
    | false =>
      cases htext : files.readText p with
      | error issue => exact .inr ⟨rfl, rfl, .inl ⟨issue, rfl⟩⟩
      | ok t? =>
        cases t? with
        | none =>
          obtain ⟨bytes, hread, hbytes⟩ := readText_eq_none_iff.mp htext
          exact .inl ⟨_, .bytes hname hnul hread hbytes⟩
        | some t => exact .inr ⟨rfl, rfl, .inr ⟨t, rfl⟩⟩

end FileTree

/-! ### Lines of files -/

/-- The part of a text that a handler entry asks for. -/
def spanOf (span? : Option (Int × Int)) (t : List Char) : String :=
  String.ofList (match span? with
    | none => splitLines t
    | some (first, last) => lineSpan first last (splitLines t)).flatten

namespace Resolver

variable {r : Resolver} {files : FileTree} {h : Handler} {p q : Path} {span? : Option (Int × Int)}
  {t : List Char}

/-- The source of a handler is a part of the file at a path. -/
def PointsTo (r : Resolver) (h : Handler) (p : Path) (span? : Option (Int × Int)) : Prop :=
  ∃ entry source, r.manifest.entry? h = some entry ∧ entry.code? = none ∧
    entry.source? = some source ∧ entry.lines? = span? ∧ r.base.join source = p

/-- The source of a handler needs no file. -/
def NeedsNoFile (r : Resolver) (h : Handler) (s : String) : Prop :=
  ∀ files, r.sourceFor files h = .ok (s, r)

theorem needsNoFile_or_pointsTo (r : Resolver) (h : Handler) :
    (∃ s, r.NeedsNoFile h s) ∨ ∃ p span?, r.PointsTo h p span? := by
  cases hentry : r.manifest.entry? h with
  | none => exact .inl ⟨"", fun files => by rw [sourceFor, hentry]⟩
  | some entry =>
    cases hcode : entry.code? with
    | some code => exact .inl ⟨code, fun files => by simp only [sourceFor, hentry, hcode]⟩
    | none =>
      cases hsource : entry.source? with
      | none => exact .inl ⟨"", fun files => by simp only [sourceFor, hentry, hcode, hsource]⟩
      | some source => exact .inr ⟨_, _, entry, source, hentry, hcode, hsource, rfl, rfl⟩

theorem sourceFor_of_pointsTo (hp : r.PointsTo h p span?) (files : FileTree) :
    r.sourceFor files h = match r.linesOf files p with
      | .error f => .error f
      | .ok (lines, r) => .ok (String.ofList (match span? with
        | none => lines
        | some (first, last) => lineSpan first last lines).flatten, r) := by
  obtain ⟨entry, source, hentry, hcode, hsource, rfl, rfl⟩ := hp
  cases hlines : r.linesOf files (r.base.join source) <;> cases hspan : entry.lines? <;>
    simp only [sourceFor, hentry, hcode, hsource, hlines, hspan]

/-- A file that was read is not read again. -/
theorem linesOf_of_read {lines : List (List Char)} (hread : r.read.lookup p = some lines) :
    r.linesOf files p = .ok (lines, r) := by
  simp only [linesOf, hread]

theorem linesOf_of_readable (hread : r.read.lookup p = none) (ht : files.Readable p t) :
    r.linesOf files p = .ok (splitLines t, { r with read := (p, splitLines t) :: r.read }) := by
  obtain ⟨hname, hnul, htext⟩ := ht
  simp only [linesOf, hread, hname, hnul, htext, Bool.false_eq_true, if_false]

theorem linesOf_of_noText {c : Cause} (hnew : r.read.lookup p = none) (hc : files.NoText p c) :
    r.linesOf files p = .error (.plain c) := by
  cases hc with
  | name hname => simp only [linesOf, hnew, hname, if_true]
  | path hname hnul => simp only [linesOf, hnew, hname, hnul, Bool.false_eq_true, if_false, if_true]
  | bytes hname hnul hread hbytes =>
    have htext := FileTree.readText_eq_none_iff.mpr ⟨_, hread, hbytes⟩
    simp only [linesOf, hnew, hname, hnul, htext, Bool.false_eq_true, if_false]

theorem linesOf_of_issue {issue : FileIssue} (hnew : r.read.lookup p = none)
    (hname : p.isUnencodable = false) (hnul : p.hasNul = false)
    (hissue : files.readText p = .error issue) :
    r.linesOf files p = .error (.manifest p (.cannotReadSource issue)) := by
  simp only [linesOf, hnew, hname, hnul, hissue, Bool.false_eq_true, if_false]

/-- A file that was not read and cannot be read gives no lines. -/
theorem linesOf_of_not_readable (hnew : r.read.lookup p = none)
    (hnone : ∀ t, ¬ files.Readable p t) : ∃ f, r.linesOf files p = .error f := by
  obtain ⟨c, hc⟩ | ⟨hname, hnul, ⟨issue, hissue⟩ | ⟨t, ht⟩⟩ := files.text_cases p
  · exact ⟨_, linesOf_of_noText hnew hc⟩
  · exact ⟨_, linesOf_of_issue hnew hname hnul hissue⟩
  · exact absurd ⟨hname, hnul, ht⟩ (hnone t)

/-! ### Calls -/

/-- A request for the source of a handler, with the files as they are at that time. -/
structure Call where
  files : FileTree
  handler : Handler

/-- The answer to a call, and the resolver afterwards; a call that fails leaves it as it is. -/
def answer (r : Resolver) (c : Call) : Except Fault String × Resolver :=
  match r.sourceFor c.files c.handler with
  | .ok (s, r') => (.ok s, r')
  | .error f => (.error f, r)

/-- The resolver after calls. -/
def after (r : Resolver) (calls : List Call) : Resolver := calls.foldl (fun r c => (r.answer c).2) r

@[simp] theorem after_nil (r : Resolver) : r.after [] = r := rfl

theorem after_concat (r : Resolver) (calls : List Call) (c : Call) :
    r.after (calls ++ [c]) = ((r.after calls).answer c).2 := by
  simp [after, List.foldl_append]

theorem after_append (r : Resolver) (calls calls' : List Call) :
    r.after (calls ++ calls') = (r.after calls).after calls' := by
  simp [after, List.foldl_append]

/-- How a call may change the resolver: the lines of a file that was not read before are added. -/
inductive Reading (c : Call) (r : Resolver) : Resolver → Prop
  | nothing : Reading c r r
  | file {p : Path} {span? : Option (Int × Int)} {t : List Char} (hp : r.PointsTo c.handler p span?)
      (hnew : r.read.lookup p = none) (ht : c.files.Readable p t) :
      Reading c r { r with read := (p, splitLines t) :: r.read }

variable {c : Call}

theorem answer_of_needsNoFile {s : String} (hs : r.NeedsNoFile c.handler s) :
    r.answer c = (.ok s, r) := by
  rw [answer, hs c.files]

theorem answer_of_read (hp : r.PointsTo c.handler p span?)
    (hread : r.read.lookup p = some (splitLines t)) : r.answer c = (.ok (spanOf span? t), r) := by
  rw [answer, sourceFor_of_pointsTo hp, linesOf_of_read hread]
  rfl

theorem answer_of_readable (hp : r.PointsTo c.handler p span?) (hnew : r.read.lookup p = none)
    (ht : c.files.Readable p t) :
    r.answer c = (.ok (spanOf span? t), { r with read := (p, splitLines t) :: r.read }) := by
  rw [answer, sourceFor_of_pointsTo hp, linesOf_of_readable hnew ht]
  rfl

theorem answer_of_not_readable (hp : r.PointsTo c.handler p span?) (hnew : r.read.lookup p = none)
    (hnone : ∀ t, ¬ c.files.Readable p t) : ∃ f, r.answer c = (.error f, r) := by
  obtain ⟨f, hf⟩ := linesOf_of_not_readable hnew hnone
  exact ⟨f, by rw [answer, sourceFor_of_pointsTo hp, hf]⟩

theorem reading_answer (r : Resolver) (c : Call) : Reading c r (r.answer c).2 := by
  rcases needsNoFile_or_pointsTo r c.handler with ⟨s, hs⟩ | ⟨p, span?, hp⟩
  · rw [answer_of_needsNoFile hs]
    exact .nothing
  · cases hread : r.read.lookup p with
    | some lines =>
      rw [answer, sourceFor_of_pointsTo hp, linesOf_of_read hread]
      exact .nothing
    | none =>
      by_cases hsome : ∃ t, c.files.Readable p t
      · obtain ⟨t, ht⟩ := hsome
        rw [answer_of_readable hp hread ht]
        exact .file hp hread ht
      · obtain ⟨f, hf⟩ := answer_of_not_readable hp hread (not_exists.mp hsome)
        rw [hf]
        exact .nothing

/-! ### Runs -/

/-- No call changes where the sources of handlers are. -/
theorem Reading.pointsTo_iff {r' : Resolver} (hr : Reading c r r') :
    r'.PointsTo h p span? ↔ r.PointsTo h p span? := by
  cases hr <;> rfl

theorem after_pointsTo_iff (calls : List Call) :
    (r.after calls).PointsTo h p span? ↔ r.PointsTo h p span? := by
  induction calls using List.reverseRecOn with
  | nil => rfl
  | append_singleton calls c ih =>
    rw [after_concat, (reading_answer _ c).pointsTo_iff]
    exact ih

/-- What was read stays. -/
theorem Reading.retains {r' : Resolver} (hr : Reading c r r') {lines : List (List Char)}
    (hread : r.read.lookup p = some lines) : r'.read.lookup p = some lines := by
  cases hr with
  | nothing => exact hread
  | @file q _ _ hp hnew ht =>
    have hne : (p == q) = false := by
      refine beq_false_of_ne fun hpq => ?_
      rw [hpq, hnew] at hread
      cases hread
    rw [List.lookup_cons, hne]
    exact hread

theorem after_retains {lines : List (List Char)} (hread : r.read.lookup p = some lines)
    (calls : List Call) : (r.after calls).read.lookup p = some lines := by
  induction calls using List.reverseRecOn with
  | nil => exact hread
  | append_singleton calls c ih =>
    rw [after_concat]
    exact (reading_answer _ c).retains ih

/-- A file is not read by a call that does not ask for it, nor by one that cannot read it. -/
theorem Reading.lookup_eq_none {r' : Resolver} (hr : Reading c r r')
    (hnew : r.read.lookup p = none)
    (hnone : ∀ span? t, r.PointsTo c.handler p span? → ¬ c.files.Readable p t) :
    r'.read.lookup p = none := by
  cases hr with
  | nothing => exact hnew
  | @file q _ _ hp _ ht =>
    have hne : (p == q) = false := beq_false_of_ne fun hpq => hnone _ _ (hpq ▸ hp) (hpq ▸ ht)
    rw [List.lookup_cons, hne]
    exact hnew

theorem after_lookup_eq_none (hnew : r.read.lookup p = none) {calls : List Call}
    (hnone : ∀ c ∈ calls, ∀ span? t, r.PointsTo c.handler p span? → ¬ c.files.Readable p t) :
    (r.after calls).read.lookup p = none := by
  induction calls using List.reverseRecOn with
  | nil => exact hnew
  | append_singleton calls c ih =>
    rw [after_concat]
    refine (reading_answer _ c).lookup_eq_none
      (ih fun c' hc' => hnone c' (List.mem_append_left _ hc')) fun span? t hp => ?_
    exact hnone c (List.mem_append_right _ (List.mem_singleton_self c)) span? t
      ((after_pointsTo_iff calls).mp hp)

/-! ### Files that stay as they are -/

/-- What was read is what the files still say. -/
def Current (r : Resolver) (files : FileTree) : Prop :=
  ∀ p lines, r.read.lookup p = some lines → ∃ t, files.Readable p t ∧ lines = splitLines t

theorem Reading.current {r' : Resolver} (hr : Reading c r r') (h : r.Current c.files) :
    r'.Current c.files := by
  cases hr with
  | nothing => exact h
  | @file q _ t _ _ ht =>
    intro p lines hread
    rw [List.lookup_cons] at hread
    split at hread
    · rename_i hpq
      rw [eq_of_beq hpq]
      exact ⟨t, ht, (Option.some.inj hread).symm⟩
    · exact h p lines hread

theorem after_current (h : r.Current files) {calls : List Call}
    (hcalls : ∀ c ∈ calls, c.files = files) : (r.after calls).Current files := by
  induction calls using List.reverseRecOn with
  | nil => exact h
  | append_singleton calls c ih =>
    obtain rfl : c.files = files := hcalls c (List.mem_append_right _ (List.mem_singleton_self c))
    rw [after_concat]
    exact (reading_answer _ c).current (ih fun c' hc' => hcalls c' (List.mem_append_left _ hc'))

/-- Calls change nothing but what was read. -/
theorem Reading.eq {r' : Resolver} (hr : Reading c r r') : r' = { r with read := r'.read } := by
  cases hr <;> rfl

theorem after_eq (r : Resolver) (calls : List Call) :
    r.after calls = { r with read := (r.after calls).read } := by
  induction calls using List.reverseRecOn with
  | nil => rfl
  | append_singleton calls c ih =>
    have hstep := (reading_answer (r.after calls) c).eq
    rw [← after_concat] at hstep
    rw [hstep]
    generalize (r.after (calls ++ [c])).read = read
    rw [ih]

/-- The lines that were read are those that are read again. -/
theorem Current.linesOf_map_fst (h : r.Current files) (p : Path) :
    (r.linesOf files p).map Prod.fst = (linesOf { r with read := [] } files p).map Prod.fst := by
  cases hread : r.read.lookup p with
  | some lines =>
    obtain ⟨t, ht, rfl⟩ := h p lines hread
    rw [linesOf_of_read hread, linesOf_of_readable rfl ht]
    rfl
  | none =>
    unfold linesOf
    rw [hread]
    dsimp only [List.lookup_nil]
    split
    · rfl
    · split
      · rfl
      · cases files.readText p with
        | error issue => rfl
        | ok t? => cases t? <;> rfl

theorem Current.sourceFor_map_fst (h : r.Current files) (k : Handler) :
    (r.sourceFor files k).map Prod.fst = (sourceFor { r with read := [] } files k).map Prod.fst := by
  unfold sourceFor
  dsimp only
  cases hentry : r.manifest.entry? k with
  | none => rfl
  | some entry =>
    dsimp only
    cases entry.code? with
    | some code => rfl
    | none =>
      cases entry.source? with
      | none => rfl
      | some source =>
        have hlines := h.linesOf_map_fst (r.base.join source)
        dsimp only
        generalize r.linesOf files (r.base.join source) = x at hlines ⊢
        generalize linesOf { r with read := [] } files (r.base.join source) = y at hlines ⊢
        cases x with
        | error f =>
          cases y with
          | error g =>
            obtain rfl := Except.error.inj hlines
            rfl
          | ok y => cases hlines
        | ok x =>
          cases y with
          | error g => cases hlines
          | ok y =>
            obtain ⟨lines, r₁⟩ := x
            obtain ⟨lines', r₂⟩ := y
            obtain rfl : lines = lines' := Except.ok.inj hlines
            rfl

theorem evidence_eq_map (r : Resolver) (files : FileTree) (k : Handler) :
    r.evidence files k = ((r.sourceFor files k).map Prod.fst).map fun source =>
      { descriptor? := r.manifest.validationFor k, source } := by
  unfold evidence
  cases r.sourceFor files k <;> rfl

/-- **A resolver that has answered says the same as a new one**, while the files stay as they are. -/
theorem evidence_after (m : Manifest) (base : Path) {calls : List Call}
    (hcalls : ∀ c ∈ calls, c.files = files) (k : Handler) :
    (after ⟨m, base, []⟩ calls).evidence files k = evidence ⟨m, base, []⟩ files k := by
  have hcurrent : Current ⟨m, base, []⟩ files := by
    intro p lines hread
    cases hread
  have hsource := (after_current hcurrent hcalls).sourceFor_map_fst k
  rw [evidence_eq_map, evidence_eq_map, hsource, after_eq]

/-! ### Files that change -/

/-- **A resolver shows one text of every file.**  Take the first call for a path at which its file can
be read.  All calls for the path before it fail and leave the resolver as it was; that call and all
later ones, whatever lines they ask for and whatever has become of the file, show the text of that
moment. -/
theorem answer_snapshot {m : Manifest} {base : Path} {before : List Call} {first : Call}
    (hfirst : PointsTo ⟨m, base, []⟩ first.handler p span?) (ht : first.files.Readable p t)
    (hbefore : ∀ c ∈ before, ∀ span? t, PointsTo ⟨m, base, []⟩ c.handler p span? →
      ¬ c.files.Readable p t) :
    let r : Resolver := ⟨m, base, []⟩
    (∀ calls c rest span?, before = calls ++ c :: rest → r.PointsTo c.handler p span? →
      ∃ f, (r.after calls).answer c = (.error f, r.after calls)) ∧
    ((r.after before).answer first).1 = .ok (spanOf span? t) ∧
    ∀ calls c span?, r.PointsTo c.handler p span? →
      ((r.after (before ++ first :: calls)).answer c).1 = .ok (spanOf span? t) := by
  intro r
  have hnew : r.read.lookup p = none := rfl
  have hfirst' : (r.after before).PointsTo first.handler p span? :=
    (after_pointsTo_iff before).mpr hfirst
  have hread := answer_of_readable hfirst' (after_lookup_eq_none hnew hbefore) ht
  refine ⟨fun calls c rest span' heq hc => ?_, congrArg Prod.fst hread, fun calls c span' hc => ?_⟩
  · -- nothing of the file was read by the calls before this one
    have hmem : ∀ c' ∈ calls ++ [c], c' ∈ before := by
      intro c' hc'
      rw [heq, List.append_cons]
      exact List.mem_append_left _ hc'
    have hunread := after_lookup_eq_none hnew fun c' hc' =>
      hbefore c' (hmem c' (List.mem_append_left _ hc'))
    exact answer_of_not_readable ((after_pointsTo_iff calls).mpr hc) hunread
      fun t' => hbefore c (hmem c (List.mem_append_right _ (List.mem_singleton_self c))) span' t' hc
  · -- the first call has put the lines where all later ones find them
    have hlines : (r.after (before ++ [first])).read.lookup p = some (splitLines t) := by
      rw [after_concat, hread]
      exact List.lookup_cons_self
    rw [List.append_cons, after_append]
    have hc' : ((r.after (before ++ [first])).after calls).PointsTo c.handler p span' :=
      (after_pointsTo_iff calls).mpr ((after_pointsTo_iff _).mpr hc)
    rw [answer_of_read hc' (after_retains hlines calls)]

/-- Two handlers of one file, which is missing, then written, then deleted again: the first call fails,
and the others show their lines of what was written. -/
theorem answer_snapshot_written :
    let store : HandlerEntry := { source? := some "./a.php", lines? := some (2, 2) }
    let index : HandlerEntry := { source? := some "a.php" }
    let m : Manifest := { handlers := [("A@store", store), ("A@index", index)] }
    let empty : FileTree := {}
    let written : FileTree := { entries := [(⟨0, ["a.php"]⟩, .file "a\nb\n".toUTF8.data.toList)] }
    let p : Path := ⟨.here, ["a.php"]⟩
    let r : Resolver := ⟨m, .here, []⟩
    r.PointsTo ⟨"A", "store"⟩ p (some (2, 2)) ∧ r.PointsTo ⟨"A", "index"⟩ p none ∧
    written.Readable p ['a', '\n', 'b', '\n'] ∧ (∀ t, ¬ empty.Readable p t) ∧
    (∃ f, r.answer ⟨empty, "A", "index"⟩ = (.error f, r)) ∧
    ((r.after [⟨empty, "A", "index"⟩]).answer ⟨written, "A", "store"⟩).1 = .ok "b\n" ∧
    ((r.after [⟨empty, "A", "index"⟩, ⟨written, "A", "store"⟩]).answer ⟨empty, "A", "index"⟩).1 =
      .ok "a\nb\n" := by
  intro store index m empty written p r
  have hstore : r.PointsTo ⟨"A", "store"⟩ p (some (2, 2)) :=
    ⟨store, "./a.php", rfl, rfl, rfl, rfl, by decide⟩
  have hindex : r.PointsTo ⟨"A", "index"⟩ p none := ⟨index, "a.php", rfl, rfl, rfl, rfl, by decide⟩
  have htext : written.readText p = .ok (some (unifyLineEnds "a\nb\n".toList)) :=
    FileTree.readText_of_read rfl
  have hwritten : written.Readable p ['a', '\n', 'b', '\n'] := ⟨rfl, rfl, htext⟩
  have hempty : ∀ t, ¬ empty.Readable p t := by
    rintro t ⟨-, -, ht⟩
    have hnone : empty.readText p = .error ⟨.notFound, p⟩ := rfl
    rw [hnone] at ht
    cases ht
  obtain ⟨hfail, hfirst, hlater⟩ :=
    @answer_snapshot p (some (2, 2)) _ m .here [⟨empty, "A", "index"⟩] ⟨written, "A", "store"⟩
      hstore hwritten (by
        intro c hc span? t _
        obtain rfl := List.mem_singleton.mp hc
        exact hempty t)
  exact ⟨hstore, hindex, hwritten, hempty, hfail [] _ [] none rfl hindex,
    hfirst.trans (by decide), (hlater [] ⟨empty, "A", "index"⟩ none hindex).trans (by decide)⟩

end Resolver

end RouteDocs
