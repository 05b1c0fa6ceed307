import RouteDocs.Files.Tree
import RouteDocs.Proofs.Text.Split
import RouteDocs.Proofs.Text.Surrogate

/-!
# RouteDocs.Proofs.Files.Tree — what operations on files leave as they are

An entry that is put at a place is found there, and what is at other places stays.  Making directories
leaves every entry as it is and adds nothing but directories (`OnlyDirectories`), whether it succeeds or
gives up on the way.  The characters of a path are those of the texts that it was joined from.
-/

namespace RouteDocs

open Text

/-! ### Paths -/

namespace Path

variable {p : Path} {s : String}

section Names

variable {P : Char → Prop}

/-- The names of a path have no characters but those of its text. -/
theorem forall_mem_ofText (hs : ∀ c ∈ s.toList, P c) :
    ∀ name ∈ (ofText s).names, ∀ c ∈ name.toList, P c := by
  intro name hname c hc
  obtain ⟨piece, hpiece, rfl⟩ := List.mem_map.mp (List.mem_filter.mp hname).1
  rw [String.toList_ofList] at hc
  refine hs c ?_
  rw [← joinWith_splitAt '/' s.toList]
  exact mem_joinWith hpiece hc

theorem forall_mem_join (hp : ∀ name ∈ p.names, ∀ c ∈ name.toList, P c) (hs : ∀ c ∈ s.toList, P c) :
    ∀ name ∈ (p.join s).names, ∀ c ∈ name.toList, P c := by
  have hq := forall_mem_ofText hs
  unfold join
  dsimp only
  split
  · intro name hname
    rcases List.mem_append.mp hname with hname | hname
    · exact hp name hname
    · exact hq name hname
  · exact hq

/-- The text of a path has no characters but those of its names, slashes and a point. -/
theorem forall_mem_text (hslash : P '/') (hpoint : P '.')
    (hp : ∀ name ∈ p.names, ∀ c ∈ name.toList, P c) : ∀ c ∈ p.text.toList, P c := by
  unfold text
  split
  · exact List.forall_mem_singleton.mpr hpoint
  · rw [String.toList_append, String.toList_ofList]
    refine List.forall_mem_append.mpr ⟨?_, ?_⟩
    · cases p.start with
      | here => nofun
      | root => exact List.forall_mem_singleton.mpr hslash
      | doubleRoot => exact List.forall_mem_cons.mpr ⟨hslash, List.forall_mem_singleton.mpr hslash⟩
    · refine forall_mem_joinWith (List.forall_mem_singleton.mpr hslash) fun piece hpiece => ?_
      obtain ⟨name, hname, rfl⟩ := List.mem_map.mp hpiece
      exact hp name hname

end Names

/-- A path whose names have no surrogates. -/
def NoSurrogate (p : Path) : Prop := ∀ name ∈ p.names, ∀ c ∈ name.toList, isSurrogate c = false

theorem NoSurrogate.ofText (hs : hasSurrogate s = false) : (ofText s).NoSurrogate :=
  forall_mem_ofText (hasSurrogate_eq_false_iff.mp hs)

theorem NoSurrogate.join (hp : p.NoSurrogate) (hs : hasSurrogate s = false) : (p.join s).NoSurrogate :=
  forall_mem_join hp (hasSurrogate_eq_false_iff.mp hs)

theorem NoSurrogate.text (hp : p.NoSurrogate) : hasSurrogate p.text = false :=
  hasSurrogate_eq_false_iff.mpr (forall_mem_text rfl rfl hp)

end Path

/-! ### Entries -/

namespace FileTree

variable {t t' t'' : FileTree} {p q : Place} {e : Entry}

theorem lookup_putEntry (p : Place) (e : Entry) (entries : List (Place × Entry)) (q : Place) :
    (putEntry p e entries).lookup q = if q = p then some e else entries.lookup q := by
  induction entries with
  | nil =>
    by_cases h : q = p
    · simp [putEntry, h]
    · simp [putEntry, List.lookup_cons, beq_false_of_ne h, h]
  | cons f rest ih =>
    obtain ⟨r, old⟩ := f
    by_cases hr : r = p
    · subst hr
      by_cases h : q = r
      · simp [putEntry, h]
      · simp [putEntry, List.lookup_cons, beq_false_of_ne h, h]
    · by_cases h : q = r
      · subst h
        simp [putEntry, hr]
      · simp [putEntry, hr, List.lookup_cons, beq_false_of_ne h, ih]

theorem ne_nil_of_entry?_eq_none (h : t.entry? p = none) : p.down ≠ [] := by
  intro hp
  simp [ entry?, hp] at h

/-- What is at a place after an entry was put at one that has a name. -/
theorem entry?_put (hp : p.down ≠ []) (e : Entry) (q : Place) :
    entry? (t.put p e) q = if q = p then some e else t.entry? q := by
  unfold entry? put
  by_cases hq : q.down = []
  · have hne : q ≠ p := fun h => hp (h ▸ hq)
    simp [hq, hne]
  · simp [hq, lookup_putEntry]

/-! ### Making directories -/

/-- Nothing has changed but that there are directories where there was nothing. -/
structure OnlyDirectories (t t' : FileTree) : Prop where
  kept : ∀ p e, t.entry? p = some e → t'.entry? p = some e
  made : ∀ p e, t.entry? p = none → t'.entry? p = some e → e = .directory

namespace OnlyDirectories

theorem refl (t : FileTree) : OnlyDirectories t t where
  kept _ _ h := h
  made p e h h' := by
    rw [h] at h'
    cases h'

theorem trans (h : OnlyDirectories t t') (h' : OnlyDirectories t' t'') : OnlyDirectories t t'' where
  kept p e hp := h'.kept p e (h.kept p e hp)
  made p e hp hp'' := by
    cases hp' : t'.entry? p with
    | none => exact h'.made p e hp' hp''
    | some e' =>
      have hkept := h'.kept p e' hp'
      rw [h.made p e' hp hp', hp''] at hkept
      exact Option.some.inj hkept

theorem put (hp : t.entry? p = none) : OnlyDirectories t (t.put p .directory) where
  kept q e hq := by
    rw [entry?_put (ne_nil_of_entry?_eq_none hp), if_neg, hq]
    rintro rfl
    rw [hp] at hq
    cases hq
  made q e hq hq' := by
    rw [entry?_put (ne_nil_of_entry?_eq_none hp)] at hq'
    split at hq'
    · exact (Option.some.inj hq').symm
    · rw [hq] at hq'
      cases hq'

end OnlyDirectories

end FileTree

end RouteDocs
