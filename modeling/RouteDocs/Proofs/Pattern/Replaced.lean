import RouteDocs.Proofs.Pattern.Preferred

/-!
# RouteDocs.Proofs.Pattern.Replaced — a text with its matches replaced

`replaceAll` goes through a text as `findAll` does, and puts a text in the place of each match.  It is
followed by a judgement on whole texts, as `Finds` follows the scan: `Rewrites` passes over places at
which the pattern fails, keeps what stands there, and goes on after each match.
-/

namespace RouteDocs.Pattern

/-- The text from a place on, after passing over `skip` characters of a match, with another text in the
place of each match.  A character stays if no match begins at it, or only an empty one. -/
def replaceFrom (p : Pattern) (f : Match → List Char) : (skip : ℕ) → (before : List Char) →
    (position : ℕ) → List Char → List Char
  | 0, before, position, [] => (p.matchesAt ⟨before, [], position, []⟩).1.flatMap f
  | 0, before, position, c :: r =>
    let (found, step) := p.matchesAt ⟨before, c :: r, position, []⟩
    found.flatMap f ++ (if found.all (·.whole.isEmpty) then [c] else []) ++
      replaceFrom p f (step - 1) (c :: before) (position + 1) r
  | _ + 1, _, _, [] => []
  | skip + 1, before, position, c :: r => replaceFrom p f skip (c :: before) (position + 1) r

/-- A text with another text in the place of each match. -/
def replaceAll (p : Pattern) (f : Match → List Char) (text : List Char) : List Char :=
  p.replaceFrom f 0 [] 0 text

/-- From any place on, this comes of the text that is still to come. -/
def Rewrites (p : Pattern) (f : Match → List Char) (text out : List Char) : Prop :=
  ∀ before position, p.replaceFrom f 0 before position text = out

section Rewriting

variable {p : Pattern} {f : Match → List Char} {u v text out : List Char} {c : Char}
  {gs : List (ℕ × List Char)}

theorem replaceAll_of_rewrites (h : p.Rewrites f text out) : p.replaceAll f text = out := h [] 0

theorem rewrites_nil (h : p.root.Fails []) : p.Rewrites f [] [] := by
  intro before position
  rw [replaceFrom, matchesAt_of_fails h, List.flatMap_nil]

/-- A character at which the pattern fails stays. -/
theorem Rewrites.cons (hc : p.root.Fails (c :: v)) (hv : p.Rewrites f v out) :
    p.Rewrites f (c :: v) (c :: out) := by
  intro before position
  rw [replaceFrom, matchesAt_of_fails hc]
  dsimp only
  rw [hv]
  rfl

theorem replaceFrom_skip (u v before : List Char) (position : ℕ) :
    p.replaceFrom f u.length before position (u ++ v) =
      p.replaceFrom f 0 (u.reverse ++ before) (position + u.length) v := by
  induction u generalizing before position with
  | nil => rfl
  | cons c u ih =>
    rw [List.length_cons, List.cons_append, replaceFrom, ih]
    simp [Nat.add_assoc, Nat.add_comm 1]

/-- After a match that is replaced the rest is rewritten. -/
theorem Rewrites.after (hu : p.root.Prefers u v gs) (hne : u ≠ []) (hv : p.Rewrites f v out) :
    p.Rewrites f (u ++ v) (f (p.matchOf u gs) ++ out) := by
  intro before position
  obtain ⟨c, u, rfl⟩ := List.exists_cons_of_ne_nil hne
  rw [List.cons_append, replaceFrom, matchesAt_of_prefers hu rfl hne rfl]
  dsimp only
  rw [List.length_cons, Nat.add_sub_cancel, replaceFrom_skip, hv]
  simp [matchOf]

end Rewriting

end RouteDocs.Pattern
