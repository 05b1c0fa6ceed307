import Mathlib.Data.Int.Notation
import Mathlib.Data.List.Basic
import RouteDocs.Proofs.Manifest.Sources
import RouteDocs.Proofs.Manifest.Written

/-!
# RouteDocs.Proofs.Manifest.Spans — which part of a file a span of lines is

The lines of a span are those with a number from the first to the last one, as long as the last number
is not negative (`sourceFor_numbered`); neighbouring spans then make up one span.  The numbers are those
of line feeds as long as no other character that ends a line comes before (`sourceFor_lineFeeds`).
-/

namespace RouteDocs

open Text

/-! ### Lines by number -/

section Numbers

variable {α : Type} {first last stop : ℤ}

/-- The members of a list whose numbers, counted from `n`, are neither below `first` nor above `last`. -/
def numberedFrom (n : ℕ) (first last : ℤ) (xs : List α) : List α :=
  ((xs.zipIdx n).filter fun x => first ≤ x.2 ∧ x.2 ≤ last).map Prod.fst

theorem numberedFrom_cons (n : ℕ) (first last : ℤ) (x : α) (xs : List α) :
    numberedFrom n first last (x :: xs) =
      (if first ≤ n ∧ n ≤ last then [x] else []) ++ numberedFrom (n + 1) first last xs := by
  unfold numberedFrom
  rw [List.zipIdx_cons, List.filter_cons]
  by_cases h : first ≤ n ∧ n ≤ last <;> simp [h]

/-- Members by number are a part of the list. -/
theorem numberedFrom_eq (n : ℕ) (first last : ℤ) (xs : List α) :
    numberedFrom n first last xs = (xs.take (last + 1 - n).toNat).drop (first - n).toNat := by
  induction xs generalizing n with
  | nil => simp [numberedFrom]
  | cons x xs ih =>
    rw [numberedFrom_cons, ih (n + 1)]
    have hlast : last + 1 - (n + 1 : ℕ) = last - n := by omega
    have hfirst : first - (n + 1 : ℕ) = first - n - 1 := by omega
    rw [hlast, hfirst]
    by_cases hbelow : n ≤ last
    · obtain ⟨k, hk⟩ : ∃ k : ℕ, last - n = k := ⟨(last - n).toNat, by omega⟩
      have htake : (last + 1 - n).toNat = k + 1 := by omega
      rw [hk, htake, List.take_succ_cons, Int.toNat_natCast]
      by_cases habove : first ≤ n
      · have hzero : (first - n).toNat = 0 ∧ (first - n - 1).toNat = 0 := by omega
        rw [if_pos ⟨habove, hbelow⟩, hzero.1, hzero.2]
        rfl
      · have hdrop : (first - n).toNat = (first - n - 1).toNat + 1 := by omega
        rw [if_neg fun h => habove h.1, hdrop, List.drop_succ_cons, List.nil_append]
    · have hzero : (last - n).toNat = 0 ∧ (last + 1 - n).toNat = 0 := by omega
      rw [if_neg fun h => hbelow h.2, hzero.1, hzero.2]
      simp

/-- Neighbouring parts make up one part. -/
theorem numberedFrom_append (n : ℕ) (hfirst : first ≤ last + 1) (hstop : last ≤ stop) (xs : List α) :
    numberedFrom n first last xs ++ numberedFrom n (last + 1) stop xs =
      numberedFrom n first stop xs := by
  simp only [numberedFrom_eq]
  obtain ⟨k, hk⟩ : ∃ k, (last + 1 - n).toNat = (first - n).toNat + k :=
    ⟨(last + 1 - n).toNat - (first - n).toNat, by omega⟩
  obtain ⟨l, hl⟩ : ∃ l, (stop + 1 - n).toNat = (first - n).toNat + k + l :=
    ⟨(stop + 1 - n).toNat - (last + 1 - n).toNat, by omega⟩
  generalize (first - n).toNat = a at hk hl ⊢
  have hwhole : a + k + l - a = k + l := by omega
  rw [hl, hk, List.drop_take, List.drop_take, List.drop_take, ← List.drop_drop, hwhole,
    Nat.add_sub_cancel_left, Nat.add_sub_cancel_left, List.take_add]

/-- A span of lines is made of the lines by number; the last number of one below zero is counted from the
end. -/
theorem lineSpan_eq (first last : ℤ) (lines : List (List Char)) :
    lineSpan first last lines =
      numberedFrom 1 first (if last < 0 then lines.length + last else last) lines := by
  rw [lineSpan, numberedFrom_eq]
  have hfirst : (max first 1 - 1).toNat = (first - (1 : ℕ)).toNat := by omega
  rw [hfirst]
  by_cases hlast : last < 0
  · simp [hlast]
  · simp [hlast]

end Numbers

/-! ### Lines by their ends -/

namespace Text

section Ends

variable {isEnd p q : Char → Bool} {c : Char} {n k : ℕ} {s : List Char}

/-- The text up to the `n`th character that ends a line, and with it; all of it if there are fewer. -/
def throughEnds (isEnd : Char → Bool) : ℕ → List Char → List Char
  | 0, _ => []
  | _ + 1, [] => []
  | n + 1, c :: s => c :: throughEnds isEnd (if isEnd c then n else n + 1) s

/-- What follows the `n`th character that ends a line; nothing if there are fewer. -/
def afterEnds (isEnd : Char → Bool) : ℕ → List Char → List Char
  | 0, s => s
  | _ + 1, [] => []
  | n + 1, c :: s => afterEnds isEnd (if isEnd c then n else n + 1) s

/-- The text that begins after the end of the line before the `first` one and ends with the end of the
`last` one, where lines are counted from one. -/
def betweenEnds (isEnd : Char → Bool) (first last : ℕ) (s : List Char) : List Char :=
  afterEnds isEnd (first - 1) (throughEnds isEnd last s)

@[simp] theorem throughEnds_zero (s : List Char) : throughEnds isEnd 0 s = [] := by
  cases s <;> rfl

@[simp] theorem throughEnds_nil (n : ℕ) : throughEnds isEnd n [] = [] := by
  cases n <;> rfl

theorem throughEnds_cons_pos (hc : isEnd c = true) (n : ℕ) (s : List Char) :
    throughEnds isEnd (n + 1) (c :: s) = c :: throughEnds isEnd n s := by
  rw [throughEnds, if_pos hc]

theorem throughEnds_cons_neg (hc : ¬ isEnd c = true) (n : ℕ) (s : List Char) :
    throughEnds isEnd (n + 1) (c :: s) = c :: throughEnds isEnd (n + 1) s := by
  rw [throughEnds, if_neg hc]

@[simp] theorem afterEnds_zero (s : List Char) : afterEnds isEnd 0 s = s := by
  cases s <;> rfl

theorem betweenEnds_one (last : ℕ) (s : List Char) :
    betweenEnds isEnd 1 last s = throughEnds isEnd last s := by
  simp [betweenEnds]

/-- Nothing is lost where a text is cut. -/
theorem throughEnds_append_afterEnds (isEnd : Char → Bool) (n : ℕ) (s : List Char) :
    throughEnds isEnd n s ++ afterEnds isEnd n s = s := by
  induction s generalizing n with
  | nil => cases n <;> rfl
  | cons c s ih =>
    cases n with
    | zero => rfl
    | succ n => rw [throughEnds, afterEnds, List.cons_append, ih]

/-- A text is cut at one place, however much of it is there. -/
theorem throughEnds_throughEnds (h : k ≤ n) (s : List Char) :
    throughEnds isEnd k (throughEnds isEnd n s) = throughEnds isEnd k s := by
  induction s generalizing k n with
  | nil => simp
  | cons c s ih =>
    cases k with
    | zero => simp
    | succ k =>
      obtain ⟨n, rfl⟩ : ∃ m, n = m + 1 := ⟨n - 1, by omega⟩
      by_cases hc : isEnd c = true
      · rw [throughEnds_cons_pos hc, throughEnds_cons_pos hc, throughEnds_cons_pos hc, ih (by omega)]
      · rw [throughEnds_cons_neg hc, throughEnds_cons_neg hc, throughEnds_cons_neg hc, ih h]

/-- The text between two ends is what the one cut leaves of the other. -/
theorem eq_betweenEnds {first last : ℕ} {part : List Char} (h : first - 1 ≤ last)
    (hpart : throughEnds isEnd (first - 1) s ++ part = throughEnds isEnd last s) :
    part = betweenEnds isEnd first last s := by
  have hcut := throughEnds_append_afterEnds isEnd (first - 1) (throughEnds isEnd last s)
  rw [throughEnds_throughEnds h, ← hpart] at hcut
  rw [betweenEnds, ← hpart]
  exact (List.append_cancel_left hcut).symm

/-- Two notions of line end that agree on the text up to a cut make the same cut. -/
theorem throughEnds_congr (h : ∀ c ∈ throughEnds q n s, p c = q c) :
    throughEnds p n s = throughEnds q n s := by
  induction s generalizing n with
  | nil => simp
  | cons c s ih =>
    cases n with
    | zero => rfl
    | succ n =>
      rw [throughEnds, throughEnds]
      obtain ⟨hc, hrest⟩ := List.forall_mem_cons.mp h
      rw [hc, ih hrest]

theorem mem_throughEnds_of_le (h : k ≤ n) (hc : c ∈ throughEnds isEnd k s) :
    c ∈ throughEnds isEnd n s := by
  rw [← throughEnds_append_afterEnds isEnd k (throughEnds isEnd n s), throughEnds_throughEnds h]
  exact List.mem_append_left _ hc

theorem betweenEnds_congr {first last : ℕ} (hlast : first - 1 ≤ last)
    (hbefore : throughEnds p (first - 1) s = throughEnds q (first - 1) s)
    (hthrough : throughEnds p last s = throughEnds q last s) :
    betweenEnds p first last s = betweenEnds q first last s := by
  apply eq_betweenEnds hlast
  rw [← hbefore, ← hthrough, ← throughEnds_throughEnds hlast]
  exact throughEnds_append_afterEnds p (first - 1) (throughEnds p last s)

/-- Two notions of line end always make the same cuts exactly when they agree before the last
character. -/
theorem throughEnds_eq_iff :
    (∀ n, throughEnds p n s = throughEnds q n s) ↔ ∀ c ∈ s.dropLast, p c = q c := by
  induction s with
  | nil => simp
  | cons c s ih =>
    cases s with
    | nil =>
      refine iff_of_true (fun n => ?_) (by simp)
      cases n <;> simp [throughEnds]
    | cons d s =>
      rw [List.dropLast_cons_cons, List.forall_mem_cons, ← ih]
      constructor
      · intro h
        have hc : p c = q c := by
          -- otherwise one text ends there and the other goes on
          have hfirst := h 1
          cases hp : p c <;> cases hq : q c <;> simp [throughEnds, hp, hq] at hfirst ⊢
        refine ⟨hc, fun n => ?_⟩
        cases n with
        | zero => simp
        | succ n =>
          by_cases hq : q c = true
          · have hnext := h (n + 2)
            rw [throughEnds_cons_pos hq, throughEnds_cons_pos (hc.trans hq)] at hnext
            exact (List.cons.inj hnext).2
          · have hnext := h (n + 1)
            rw [throughEnds_cons_neg hq, throughEnds_cons_neg (hc ▸ hq)] at hnext
            exact (List.cons.inj hnext).2
      · rintro ⟨hc, h⟩ n
        cases n with
        | zero => rfl
        | succ n => rw [throughEnds, throughEnds, hc, h]

end Ends

/-! ### The lines of a text -/

section Lines

variable {s : List Char}

/-- The only line ends that are left are line feeds and those that stand for themselves. -/
theorem not_mem_unifyLineEnds (s : List Char) : '\r' ∉ unifyLineEnds s := by
  fun_induction unifyLineEnds s with
  | case1 => exact List.not_mem_nil
  | case2 r ih => exact List.not_mem_cons_of_ne_of_not_mem (by decide) ih
  | case3 c r _ ih =>
    refine List.not_mem_cons_of_ne_of_not_mem ?_ ih
    by_cases hc : c = '\r'
    · simp [hc]
    · simpa [hc] using Ne.symm hc

theorem flatten_take_consLine (c : Char) (n : ℕ) (lines : List (List Char)) :
    ((consLine c lines).take (n + 1)).flatten = c :: (lines.take (n + 1)).flatten := by
  cases lines <;> simp [consLine]

/-- The first lines of a text are the text up to the end of the last of them. -/
theorem flatten_take_splitLines (h : '\r' ∉ s) (n : ℕ) :
    ((splitLines s).take n).flatten = throughEnds endsLine n s := by
  fun_induction splitLines s generalizing n with
  | case1 => simp
  | case2 r ih => exact absurd List.mem_cons_self h
  | case3 c r _ hc ih =>
    cases n with
    | zero => simp
    | succ n =>
      rw [throughEnds_cons_pos hc, ← ih (fun hr => h (List.mem_cons_of_mem c hr))]
      rfl
  | case4 c r _ hc ih =>
    cases n with
    | zero => simp
    | succ n =>
      rw [throughEnds_cons_neg hc, ← ih (fun hr => h (List.mem_cons_of_mem c hr)),
        flatten_take_consLine]

/-- A span of lines is the text between the end of the line before it and its own end. -/
theorem flatten_lineSpan {first last : ℕ} (h : '\r' ∉ s) (hfirst : 1 ≤ first) (hlast : first ≤ last) :
    (lineSpan first last (splitLines s)).flatten = betweenEnds endsLine first last s := by
  have hlast' : first - 1 ≤ last := by omega
  have hspan : lineSpan first last (splitLines s) =
      ((splitLines s).take last).drop (first - 1) := by
    have hstart : (max (first : ℤ) 1 - 1).toNat = first - 1 := by omega
    have hstop : ¬ (last : ℤ) < 0 := by omega
    simp [lineSpan, hstart, hstop]
  apply eq_betweenEnds hlast'
  rw [← flatten_take_splitLines h, ← flatten_take_splitLines h, hspan, ← List.flatten_append]
  have hcut : (splitLines s).take (first - 1) = ((splitLines s).take last).take (first - 1) := by
    rw [List.take_take, Nat.min_eq_left hlast']
  rw [hcut, List.take_append_drop]

theorem endsLine_eq_iff (c : Char) : endsLine c = (c == '\n') ↔ (endsLine c = true → c = '\n') := by
  by_cases hc : c = '\n'
  · subst hc
    exact iff_of_true rfl fun _ => rfl
  · rw [beq_false_of_ne hc]
    simp [hc]

/-- Up to a line feed with no other line end before it, lines are counted by line feeds. -/
theorem betweenEnds_endsLine {first last : ℕ} (hlast : first - 1 ≤ last)
    (hfeeds : ∀ c ∈ throughEnds (· == '\n') last s, endsLine c = true → c = '\n') :
    betweenEnds endsLine first last s = betweenEnds (· == '\n') first last s := by
  have hsame : ∀ n ≤ last, throughEnds endsLine n s = throughEnds (· == '\n') n s := by
    intro n hn
    apply throughEnds_congr
    intro c hc
    exact (endsLine_eq_iff c).mpr (hfeeds c (mem_throughEnds_of_le hn hc))
  exact betweenEnds_congr hlast (hsame _ hlast) (hsame _ (Nat.le_refl _))

/-- All lines are counted by line feeds exactly when there is no other line end before the last
character. -/
theorem betweenEnds_endsLine_iff :
    (∀ first last, 1 ≤ first → first ≤ last →
        betweenEnds endsLine first last s = betweenEnds (· == '\n') first last s) ↔
      ∀ c ∈ s.dropLast, endsLine c = true → c = '\n' := by
  simp only [← endsLine_eq_iff]
  rw [← throughEnds_eq_iff]
  constructor
  · intro hspans n
    cases n with
    | zero => simp
    | succ n => simpa only [betweenEnds_one] using hspans 1 (n + 1) (Nat.le_refl _) (by omega)
  · intro hsame first last _ hlast
    exact betweenEnds_congr (by omega) (hsame _) (hsame _)

end Lines

end Text

/-! ### Sources -/

/-- What is read from a file has line feeds for carriage returns. -/
theorem FileTree.Readable.not_mem {files : FileTree} {p : Path} {t : List Char}
    (h : files.Readable p t) : '\r' ∉ t := by
  obtain ⟨-, -, htext⟩ := h
  unfold readText at htext
  obtain ⟨content, -, hread⟩ := bind_eq_ok_iff.mp htext
  obtain ⟨s, -, rfl⟩ := Option.map_eq_some_iff.mp (pure_eq_ok_iff.mp hread).symm
  exact not_mem_unifyLineEnds s.toList

namespace Resolver

variable {r : Resolver} {files : FileTree} {h : Handler} {p : Path} {span? : Option (ℤ × ℤ)}
  {t : List Char}

/-- The text that a resolver shows of the file at a path: the one that it has read there, from the files
as they once were, or the one that it can read there now. -/
inductive Shows (r : Resolver) (files : FileTree) (p : Path) (t : List Char) : Prop
  | read {past : FileTree} (ht : past.Readable p t) (hread : r.read.lookup p = some (splitLines t)) :
    Shows r files p t
  | readable (ht : files.Readable p t) (hnew : r.read.lookup p = none) : Shows r files p t

theorem Shows.not_mem (ht : r.Shows files p t) : '\r' ∉ t := by
  cases ht with
  | read ht _ => exact ht.not_mem
  | readable ht _ => exact ht.not_mem

/-- A handler whose source is in that file gets its span of the text. -/
theorem sourceFor_of_shows (hp : r.PointsTo h p span?) (ht : r.Shows files p t) :
    ∃ r', r.sourceFor files h = .ok (spanOf span? t, r') := by
  rw [sourceFor_of_pointsTo hp]
  cases ht with
  | read ht hread =>
    rw [linesOf_of_read hread]
    exact ⟨r, rfl⟩
  | readable ht hnew =>
    rw [linesOf_of_readable hnew ht]
    exact ⟨_, rfl⟩

theorem exists_sourceFor_eq_numbered {first last : ℤ} (hp : r.PointsTo h p (some (first, last)))
    (ht : r.Shows files p t) :
    ∃ r', r.sourceFor files h =
      .ok (String.ofList (numberedFrom 1 first
        (if last < 0 then (splitLines t).length + last else last) (splitLines t)).flatten, r') := by
  have hsource := sourceFor_of_shows hp ht
  rwa [spanOf, lineSpan_eq] at hsource

theorem exists_sourceFor_of_nonneg {first last : ℤ} (hlast : 0 ≤ last)
    (hp : r.PointsTo h p (some (first, last))) (ht : r.Shows files p t) :
    ∃ r', r.sourceFor files h =
      .ok (String.ofList (numberedFrom 1 first last (splitLines t)).flatten, r') := by
  have hsource := exists_sourceFor_eq_numbered hp ht
  rwa [if_neg (Int.not_lt.mpr hlast)] at hsource

/-- **A span holds the lines with its numbers,** counted from one and with both ends.  A last number below
zero is counted from the end of the file instead.  Where it is not below zero, a span and the one that
goes on from it hold together what the span over both holds. -/
theorem sourceFor_numbered {first last : ℤ} (hp : r.PointsTo h p (some (first, last)))
    (ht : r.Shows files p t) :
    (0 ≤ last → ∃ r', r.sourceFor files h =
      .ok (String.ofList (numberedFrom 1 first last (splitLines t)).flatten, r')) ∧
    (last < 0 → ∃ r', r.sourceFor files h =
      .ok (String.ofList (numberedFrom 1 first ((splitLines t).length + last) (splitLines t)).flatten,
        r')) ∧
    ∀ h' h'' stop, 0 ≤ last → first ≤ last + 1 → last ≤ stop →
      r.PointsTo h' p (some (last + 1, stop)) → r.PointsTo h'' p (some (first, stop)) →
      ∃ s s' r₁ r₂ r₃, r.sourceFor files h = .ok (s, r₁) ∧ r.sourceFor files h' = .ok (s', r₂) ∧
        r.sourceFor files h'' = .ok (s ++ s', r₃) := by
  refine ⟨fun hlast => exists_sourceFor_of_nonneg hlast hp ht, fun hlast => ?_, ?_⟩
  · have hsource := exists_sourceFor_eq_numbered hp ht
    rwa [if_pos hlast] at hsource
  · intro h' h'' stop hlast hfirst hstop hp' hp''
    obtain ⟨r₁, h₁⟩ := exists_sourceFor_of_nonneg hlast hp ht
    obtain ⟨r₂, h₂⟩ := exists_sourceFor_of_nonneg (Int.le_trans hlast hstop) hp' ht
    obtain ⟨r₃, h₃⟩ := exists_sourceFor_of_nonneg (Int.le_trans hlast hstop) hp'' ht
    rw [← numberedFrom_append 1 hfirst hstop, List.flatten_append, String.ofList_append] at h₃
    exact ⟨_, _, r₁, r₂, r₃, h₁, h₂, h₃⟩

/-- The files of an application: a manifest, and the source of its handlers. -/
def withSource (manifest source : String) : FileTree where
  entries := [(⟨0, ["api.yaml"]⟩, .file manifest.toUTF8.data.toList),
    (⟨0, ["a.php"]⟩, .file source.toUTF8.data.toList)]

/-- The path of that source. -/
def sourcePath : Path := ⟨.here, ["a.php"]⟩

theorem shows_withSource {r : Resolver} (hnew : r.read = []) (manifest source : String) :
    r.Shows (withSource manifest source) sourcePath (unifyLineEnds source.toList) :=
  .readable ⟨rfl, rfl, FileTree.readText_of_read rfl⟩ (by rw [hnew]; rfl)

/-- A handler of which a manifest names lines of that source. -/
def spanEntry (first last : ℤ) : HandlerEntry where
  source? := some "a.php"
  lines? := some (first, last)

theorem pointsTo_sourcePath {r : Resolver} {first last : ℤ} (hbase : r.base = .here)
    (hentry : r.manifest.entry? h = some (spanEntry first last)) :
    r.PointsTo h sourcePath (some (first, last)) :=
  ⟨_, "a.php", hentry, rfl, rfl, rfl, by rw [hbase]; decide⟩

/-- A span from before the first line and one to behind the last line are all lines together. -/
theorem sourceFor_numbered_neighbours :
    let r : Resolver := { base := .here, manifest := { handlers :=
      [("A@head", spanEntry 0 1), ("A@tail", spanEntry 2 5), ("A@all", spanEntry 0 5)] } }
    let files := withSource "" "a\nb\nc"
    r.PointsTo ⟨"A", "head"⟩ sourcePath (some (0, 1)) ∧
      r.Shows files sourcePath ['a', '\n', 'b', '\n', 'c'] ∧
      ∃ s r₁ r₂ r₃, r.sourceFor files ⟨"A", "head"⟩ = .ok ("a\n", r₁) ∧
        r.sourceFor files ⟨"A", "tail"⟩ = .ok (s, r₂) ∧
        r.sourceFor files ⟨"A", "all"⟩ = .ok ("a\n" ++ s, r₃) := by
  intro r files
  have hhead : r.PointsTo ⟨"A", "head"⟩ sourcePath (some (0, 1)) := pointsTo_sourcePath rfl rfl
  have hshows : r.Shows files sourcePath ['a', '\n', 'b', '\n', 'c'] :=
    shows_withSource rfl "" "a\nb\nc"
  obtain ⟨hspan, -, hneighbours⟩ := sourceFor_numbered hhead hshows
  obtain ⟨s, s', r₁, r₂, r₃, h₁, h₂, h₃⟩ := hneighbours ⟨"A", "tail"⟩ ⟨"A", "all"⟩ 5 (by decide)
    (by decide) (by decide) (pointsTo_sourcePath rfl rfl) (pointsTo_sourcePath rfl rfl)
  obtain ⟨r', h'⟩ := hspan (by decide)
  obtain rfl : "a\n" = s := congrArg Prod.fst (Except.ok.inj (h'.symm.trans h₁))
  exact ⟨hhead, hshows, s', r₁, r₂, r₃, h₁, h₂, h₃⟩

/-- The manifest of a handler whose source ends before line one. -/
def negativeManifest : String :=
  "handlers:\n  A@b:\n    source: a.php\n    lines:\n    - 1\n    - -1\n"

/-- What that manifest says. -/
def negativeRecord : List (String × Value) :=
  [("handlers", .record [("A@b", .record
    [("source", .str "a.php"), ("lines", .list [.int 1, .int (-1)])])])]

theorem load_negativeManifest (source : String) :
    Manifest.load (withSource negativeManifest source) manifestPath =
      .ok { handlers := [("A@b", spanEntry 1 (-1))] } := by
  have htext : unifyLineEnds negativeManifest.toList = Yaml.documentText (.record negativeRecord) := by
    decide +kernel
  have hone : Yaml.isWritableInt 1 = true := Yaml.isPortable_digit (by decide)
  have hminus : Yaml.isWritableInt (-1) = true := Yaml.isPortable_digit (by decide)
  have hportable : Yaml.IsPortable (.record negativeRecord) := by
    simp [negativeRecord, Yaml.isPortable_record_iff, Yaml.IsPortable, Yaml.ArePortable, hone,
      hminus]
  exact Manifest.load_of_written rfl htext hportable (by decide +kernel) rfl ⟨{}, rfl, rfl⟩ rfl

/-- A manifest that is loaded with a span which ends before line one: all lines but the last are shown,
and none has a number of the span. -/
theorem negative_last_shows_lines :
    let files := withSource negativeManifest "a\nb\n"
    ∃ m r', Manifest.load files manifestPath = .ok m ∧
      PointsTo ⟨m, .here, []⟩ ⟨"A", "b"⟩ sourcePath (some (1, -1)) ∧
      Shows ⟨m, .here, []⟩ files sourcePath ['a', '\n', 'b', '\n'] ∧
      sourceFor ⟨m, .here, []⟩ files ⟨"A", "b"⟩ = .ok ("a\n", r') ∧
      numberedFrom 1 1 (-1) (splitLines ['a', '\n', 'b', '\n']) = [] := by
  intro files
  let m : Manifest := { handlers := [("A@b", spanEntry 1 (-1))] }
  have hp : PointsTo ⟨m, .here, []⟩ ⟨"A", "b"⟩ sourcePath (some (1, -1)) :=
    pointsTo_sourcePath rfl rfl
  have hshows : Shows ⟨m, .here, []⟩ files sourcePath ['a', '\n', 'b', '\n'] :=
    shows_withSource rfl negativeManifest "a\nb\n"
  obtain ⟨r', hr⟩ := sourceFor_of_shows hp hshows
  exact ⟨m, r', load_negativeManifest "a\nb\n", hp, hshows, hr, rfl⟩

/-- **A span is counted by line feeds if no other character ends a line before it ends.**  In general the
lines of a span are those between any characters that end a line; and in a text all spans are counted by
line feeds exactly when no other character ends a line before the last character. -/
theorem sourceFor_lineFeeds {first last : ℕ} (hfirst : 1 ≤ first) (hlast : first ≤ last)
    (hp : r.PointsTo h p (some (first, last))) (ht : r.Shows files p t) :
    (∃ r', r.sourceFor files h = .ok (String.ofList (betweenEnds endsLine first last t), r')) ∧
    ((∀ c ∈ throughEnds (· == '\n') last t, endsLine c = true → c = '\n') →
      ∃ r', r.sourceFor files h = .ok (String.ofList (betweenEnds (· == '\n') first last t), r')) ∧
    ((∀ first last, 1 ≤ first → first ≤ last →
        betweenEnds endsLine first last t = betweenEnds (· == '\n') first last t) ↔
      ∀ c ∈ t.dropLast, endsLine c = true → c = '\n') := by
  have hsource : ∃ r', r.sourceFor files h =
      .ok (String.ofList (betweenEnds endsLine first last t), r') := by
    have hsource := sourceFor_of_shows hp ht
    rwa [spanOf, flatten_lineSpan ht.not_mem hfirst hlast] at hsource
  refine ⟨hsource, fun hfeeds => ?_, betweenEnds_endsLine_iff⟩
  have hlast' : first - 1 ≤ last := by omega
  rwa [betweenEnds_endsLine hlast' hfeeds] at hsource

/-- A form feed that is no line of its own: in a file with one further down, the second line. -/
theorem sourceFor_lineFeeds_second :
    let r : Resolver := { base := .here, manifest := { handlers := [("A@b", spanEntry 2 2)] } }
    let files := withSource "" "a\nb\n\x0cc"
    let t := ['a', '\n', 'b', '\n', '\x0c', 'c']
    (1 ≤ 2 ∧ 2 ≤ 2) ∧ r.PointsTo ⟨"A", "b"⟩ sourcePath (some (2, 2)) ∧ r.Shows files sourcePath t ∧
      (∀ c ∈ throughEnds (· == '\n') 2 t, endsLine c = true → c = '\n') ∧
      ∃ r', r.sourceFor files ⟨"A", "b"⟩ = .ok ("b\n", r') := by
  intro r files t
  have hp : r.PointsTo ⟨"A", "b"⟩ sourcePath (some (2, 2)) := pointsTo_sourcePath rfl rfl
  have hshows : r.Shows files sourcePath t := shows_withSource rfl "" "a\nb\n\x0cc"
  have hcut : throughEnds (· == '\n') 2 t = ['a', '\n', 'b', '\n'] := rfl
  have hfeeds : ∀ c ∈ throughEnds (· == '\n') 2 t, endsLine c = true → c = '\n' := by
    simp [hcut, endsLine]
  obtain ⟨-, hsource, -⟩ :=
    @sourceFor_lineFeeds _ _ _ _ _ 2 2 (by decide) (by decide) hp hshows
  exact ⟨by decide, hp, hshows, hfeeds, hsource hfeeds⟩

/-- A form feed in the first line: what is shown for the second line is the end of the first. -/
theorem form_feed_shifts_lines :
    let r : Resolver := { base := .here, manifest := { handlers := [("A@b", spanEntry 2 2)] } }
    let files := withSource "" "<?php\x0c\nabort(404);\n"
    let t := "<?php\x0c\nabort(404);\n".toList
    r.PointsTo ⟨"A", "b"⟩ sourcePath (some (2, 2)) ∧ r.Shows files sourcePath t ∧
      (∃ r', r.sourceFor files ⟨"A", "b"⟩ = .ok ("\n", r')) ∧
      betweenEnds (· == '\n') 2 2 t = "abort(404);\n".toList := by
  intro r files t
  have hp : r.PointsTo ⟨"A", "b"⟩ sourcePath (some (2, 2)) := pointsTo_sourcePath rfl rfl
  have hshows : r.Shows files sourcePath t := shows_withSource rfl "" "<?php\x0c\nabort(404);\n"
  exact ⟨hp, hshows, sourceFor_of_shows hp hshows, by decide⟩

end Resolver

end RouteDocs
