import Mathlib.Data.List.Basic
import RouteDocs.Yaml.Style
import RouteDocs.Yaml.Token.Scalar

/-!
# RouteDocs.Proofs.Yaml.Place — where a cursor is after a text

The mark after a text is `Mark.steps`.  Its index counts the characters; its line goes on at breaks, and
its column is what follows the last break.  A cursor that passes over the characters of a kind stands
right after them (`span_append`).
-/

namespace RouteDocs.Yaml

/-- The text does not go on with a character of a kind. -/
def Ends (p : Char → Bool) (r : List Char) : Prop := ∀ c ∈ r.head?, p c = false

theorem ends_cons_iff {p : Char → Bool} {c : Char} {r : List Char} :
    Ends p (c :: r) ↔ p c = false := by
  simp [Ends]

/-! ### Marks -/

namespace Mark

variable {m : Mark} {c : Char} {s t : List Char} {n : Nat}

@[simp] theorem steps_nil (m : Mark) : m.steps [] = m := rfl

@[simp] theorem steps_cons (m : Mark) (c : Char) (s : List Char) :
    m.steps (c :: s) = (m.step c).steps s := rfl

@[simp] theorem steps_append (m : Mark) (s t : List Char) :
    m.steps (s ++ t) = (m.steps s).steps t := List.foldl_append

theorem index_step (m : Mark) (c : Char) : (m.step c).index = m.index + 1 := by
  unfold step
  split <;> rfl

theorem index_steps (m : Mark) (s : List Char) : (m.steps s).index = m.index + s.length := by
  induction s generalizing m with
  | nil => rfl
  | cons c s ih => rw [steps_cons, ih, index_step, List.length_cons]; omega

theorem line_le_step (m : Mark) (c : Char) : m.line ≤ (m.step c).line := by
  unfold step
  split
  · exact Nat.le_succ m.line
  · exact Nat.le_refl m.line

theorem line_le_steps (m : Mark) (s : List Char) : m.line ≤ (m.steps s).line := by
  induction s generalizing m with
  | nil => exact Nat.le_refl m.line
  | cons c s ih => exact Nat.le_trans (line_le_step m c) (ih (m.step c))

theorem step_of_not_break (h : isBreak c = false) : (m.step c).line = m.line ∧
    m.column ≤ (m.step c).column := by
  unfold step
  rw [h, if_neg Bool.false_ne_true]
  refine ⟨rfl, ?_⟩
  dsimp only
  split <;> omega

/-- A text without breaks stays on its line and does not go back. -/
theorem steps_of_no_break (h : ∀ c ∈ s, isBreak c = false) : (m.steps s).line = m.line ∧
    m.column ≤ (m.steps s).column := by
  induction s generalizing m with
  | nil => exact ⟨rfl, Nat.le_refl m.column⟩
  | cons c s ih =>
    have hc : (m.step c).line = m.line ∧ m.column ≤ (m.step c).column :=
      step_of_not_break (h c List.mem_cons_self)
    have hs := ih (m := m.step c) fun d hd => h d (List.mem_cons_of_mem c hd)
    exact ⟨hs.1.trans hc.1, Nat.le_trans hc.2 hs.2⟩

theorem column_steps_spaces (m : Mark) (n : Nat) : (m.steps (spaces n)).column = m.column + n := by
  induction n generalizing m with
  | zero => rfl
  | succ n ih =>
    have hspace : (m.step ' ').column = m.column + 1 := rfl
    rw [spaces, List.replicate_succ, steps_cons, ← spaces, ih, hspace]
    omega

@[simp] theorem column_steps_newLine (m : Mark) (n : Nat) : (m.steps (newLine n)).column = n := by
  have hbreak : (m.step '\n').column = 0 := rfl
  rw [newLine, steps_cons, column_steps_spaces, hbreak, Nat.zero_add]

theorem line_lt_steps_newLine (m : Mark) (n : Nat) : m.line < (m.steps (newLine n)).line := by
  have hbreak : (m.step '\n').line = m.line + 1 := rfl
  have hle := line_le_steps (m.step '\n') (spaces n)
  rw [newLine, steps_cons]
  omega

end Mark

/-! ### Cursors -/

namespace Cursor

variable {p : Char → Bool} {m : Mark} {s r : List Char} {c : Char}

@[simp] theorem next_cons (m : Mark) (c : Char) (r : List Char) :
    (⟨m, c :: r⟩ : Cursor).next = ⟨m.step c, r⟩ := rfl

theorem spanFrom_append (hs : ∀ c ∈ s, p c = true) (hr : Ends p r) (m : Mark) :
    spanFrom p m (s ++ r) = (s, ⟨m.steps s, r⟩) := by
  induction s generalizing m with
  | nil =>
    cases r with
    | nil => rfl
    | cons a r =>
      rw [List.nil_append, spanFrom, if_neg (by simp [ends_cons_iff.mp hr])]
      rfl
  | cons c s ih =>
    rw [List.cons_append, spanFrom, if_pos (hs c List.mem_cons_self),
      ih (fun d hd => hs d (List.mem_cons_of_mem c hd))]
    rfl

theorem span_append (hs : ∀ c ∈ s, p c = true) (hr : Ends p r) (m : Mark) :
    (⟨m, s ++ r⟩ : Cursor).span p = (s, ⟨m.steps s, r⟩) :=
  spanFrom_append hs hr m

theorem span_of_ends (hr : Ends p r) (m : Mark) : (⟨m, r⟩ : Cursor).span p = ([], ⟨m, r⟩) :=
  spanFrom_append (s := []) (by simp) hr m

theorem span_cons (hc : p c = true) (m : Mark) (r : List Char) :
    (⟨m, c :: r⟩ : Cursor).span p =
      (c :: ((⟨m.step c, r⟩ : Cursor).span p).1, ((⟨m.step c, r⟩ : Cursor).span p).2) := by
  simp only [span, spanFrom, hc, if_true]

/-- Passing over as many characters as a text has. -/
theorem foldl_next (s r : List Char) (m : Mark) :
    (List.range s.length).foldl (fun c _ => c.next) (⟨m, s ++ r⟩ : Cursor) = ⟨m.steps s, r⟩ := by
  induction s generalizing m with
  | nil => rfl
  | cons c s ih =>
    rw [List.length_cons, List.range_succ_eq_map, List.foldl_cons, List.foldl_map]
    exact ih (m.step c)

end Cursor

theorem mem_spaces {c : Char} {n : Nat} (h : c ∈ spaces n) : c = ' ' := List.eq_of_mem_replicate h

theorem spaces_succ (n : Nat) : spaces (n + 1) = ' ' :: spaces n := rfl

/-- Below a line is its indentation, which is no mark of a document. -/
theorem atDocumentMark_spaces {n : Nat} (hn : 0 < n) (m : Mark) (r : List Char) :
    (⟨m, spaces n ++ r⟩ : Cursor).atDocumentMark = false := by
  obtain ⟨k, rfl⟩ := Nat.exists_eq_succ_of_ne_zero (Nat.pos_iff_ne_zero.mp hn)
  rfl

/-- What may come on a line of its own: nothing more, or a token. -/
structure StartsToken (r : List Char) : Prop where
  solid : ∀ c ∈ r.head?, c ≠ ' ' ∧ isBreak c = false ∧ c ≠ '#' ∧ c ≠ byteOrderMark
  noMark : ∀ m, (⟨m, r⟩ : Cursor).atDocumentMark = false

theorem StartsToken.atDocumentMark_spaces {r : List Char} (hr : StartsToken r) (n : Nat) (m : Mark) :
    (⟨m, spaces n ++ r⟩ : Cursor).atDocumentMark = false := by
  cases n with
  | zero => exact hr.noMark m
  | succ n => rfl

theorem startsToken_nil : StartsToken [] := ⟨nofun, fun _ => rfl⟩

end RouteDocs.Yaml
