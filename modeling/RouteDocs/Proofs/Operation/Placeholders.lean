import Mathlib.Data.List.TakeWhile
import RouteDocs.Operation.Build
import RouteDocs.Pattern.Reader
import RouteDocs.Proofs.Pattern.Preferred

/-!
# RouteDocs.Proofs.Operation.Placeholders — the parameters of a path

A placeholder is a name in braces, one word character or more.  The names of a path are those at all the
places where a placeholder begins, from the left (`filterMap_beginning?`).  Since a name has no brace,
no placeholder begins inside another one, so a scan that goes on behind each match misses none
(`finds_placeholders`), and a path that is put together from texts without braces and placeholders has
the names of the placeholders (`placeholderNames_parts`).
-/

namespace RouteDocs

open Text Pattern

/-- A name of a placeholder. -/
structure IsPlaceholderName (w : List Char) : Prop where
  ne_nil : w ≠ []
  word : ∀ c ∈ w, isWordChar c = true

/-- A name in braces. -/
def braced (w : List Char) : List Char := '\x7b' :: (w ++ ['\x7d'])

/-- At the place `i` of a path a placeholder begins. -/
def PlaceholderAt (path : String) (i : ℕ) (name : String) : Prop :=
  IsPlaceholderName name.toList ∧ braced name.toList <+: path.toList.drop i

/-! ### Where placeholders begin -/

section Beginning

variable {s u w : List Char} {c : Char}

theorem IsPlaceholderName.not_brace (hw : IsPlaceholderName w) (hc : c ∈ w) :
    c ≠ '\x7b' ∧ c ≠ '\x7d' := by
  constructor <;>
  · rintro rfl
    exact absurd (hw.word _ hc) (by decide)

theorem placeholderAt?_eq_some_iff :
    placeholderAt? s = some w ↔ IsPlaceholderName w ∧ w ++ ['\x7d'] <+: s := by
  constructor
  · intro h
    unfold placeholderAt? at h
    split at h
    · rename_i c name rest hname hrest
      obtain rfl := Option.some.inj h
      refine ⟨⟨List.cons_ne_nil c name, fun d hd => ?_⟩, rest, ?_⟩
      · exact List.mem_takeWhile_imp (hname ▸ hd)
      · rw [← List.takeWhile_append_dropWhile (p := isWordChar) (l := s), hname, hrest]
        simp
    · cases h
  · rintro ⟨hw, rest, rfl⟩
    obtain ⟨d, name, rfl⟩ := List.exists_cons_of_ne_nil hw.ne_nil
    have hstop : isWordChar '\x7d' = false := by decide
    rw [placeholderAt?, List.append_assoc, List.takeWhile_append_of_pos hw.word,
      List.dropWhile_append_of_pos hw.word, List.singleton_append, List.takeWhile_cons,
      List.dropWhile_cons, hstop]
    simp

/-- The name of the placeholder that begins at the start of a text. -/
def beginning? : List Char → Option (List Char)
  | [] => none
  | c :: r => if c == '\x7b' then placeholderAt? r else none

theorem beginning?_eq_some_iff : beginning? s = some w ↔ IsPlaceholderName w ∧ braced w <+: s := by
  cases s with
  | nil => simp [beginning?, braced]
  | cons c r =>
    rw [beginning?, braced, List.cons_prefix_cons]
    by_cases hc : c = '\x7b'
    · simp [hc, placeholderAt?_eq_some_iff]
    · simp [hc, Ne.symm hc]

theorem placeholderNames_cons (c : Char) (r : List Char) :
    placeholderNames (c :: r) = (beginning? (c :: r)).toList ++ placeholderNames r := by
  rw [placeholderNames, beginning?]
  split
  · cases placeholderAt? r <;> rfl
  · rfl

/-- The names of a text are those that begin at its places, in order. -/
theorem filterMap_beginning? (s : List Char) :
    (List.range s.length).filterMap (fun i => beginning? (s.drop i)) = placeholderNames s := by
  induction s with
  | nil => rfl
  | cons c r ih =>
    rw [List.length_cons, List.range_succ_eq_map, List.filterMap_cons, List.filterMap_map,
      placeholderNames_cons, ← ih, List.drop_zero]
    cases beginning? (c :: r) <;> rfl

/-- A text without an opening brace is passed over. -/
theorem placeholderNames_append (hu : ∀ c ∈ u, c ≠ '\x7b') :
    placeholderNames (u ++ s) = placeholderNames s := by
  induction u with
  | nil => rfl
  | cons c u ih =>
    rw [List.forall_mem_cons] at hu
    rw [List.cons_append, placeholderNames_cons, beginning?, if_neg (by simpa using hu.1), ih hu.2]
    rfl

/-- No placeholder begins inside another one. -/
theorem placeholderNames_braced (hw : IsPlaceholderName w) (s : List Char) :
    placeholderNames (braced w ++ s) = w :: placeholderNames s := by
  have hbegins : beginning? (braced w ++ s) = some w :=
    beginning?_eq_some_iff.mpr ⟨hw, List.prefix_append _ _⟩
  have hinside : ∀ c ∈ w ++ ['\x7d'], c ≠ '\x7b' := by
    intro c hc
    rcases List.mem_append.mp hc with hc | hc
    · exact (hw.not_brace hc).1
    · rw [List.mem_singleton.mp hc]
      decide
  rw [braced, List.cons_append] at hbegins ⊢
  rw [placeholderNames_cons, hbegins, placeholderNames_append hinside]
  rfl

end Beginning

/-! ### Paths made of parts -/

/-- A part of a path: a text without braces, or a placeholder. -/
inductive PathPart where
  | text (s : {s : List Char // ∀ c ∈ s, c ≠ '\x7b' ∧ c ≠ '\x7d'})
  | placeholder (name : {w : List Char // IsPlaceholderName w})

namespace PathPart

/-- The text of a part. -/
def chars : PathPart → List Char
  | text s => s.1
  | placeholder name => braced name.1

/-- The name of a placeholder. -/
def name? : PathPart → Option (List Char)
  | text _ => none
  | placeholder name => some name.1

end PathPart

theorem placeholderNames_parts (parts : List PathPart) :
    placeholderNames (parts.flatMap PathPart.chars) = parts.filterMap PathPart.name? := by
  induction parts with
  | nil => rfl
  | cons part rest ih =>
    rw [List.flatMap_cons]
    cases part with
    | text s =>
      rw [List.filterMap_cons, PathPart.name?, ← ih]
      exact placeholderNames_append fun c hc => (s.2 c hc).1
    | placeholder name =>
      rw [List.filterMap_cons, PathPart.name?, ← ih]
      exact placeholderNames_braced name.2 _

/-! ### The scan for placeholders -/

section Scan

variable {w v : List Char} {c : Char}

/-- The pattern of a name. -/
def nameNode : Node :=
  .group 1 (.loop .greedy 1 none (.one ⟨[.category .word false], false⟩ false false))

/-- The pattern of a placeholder. -/
def placeholderPattern : Pattern := ⟨.seq (.char '\x7b') (.seq nameNode (.char '\x7d')), 1⟩

theorem holds_word :
    (CharClass.mk [.category .word false] false).holds false false c = isWordChar c :=
  Node.holds_category

theorem prefers_name (hw : IsPlaceholderName w) (v : List Char) :
    nameNode.Prefers w ('\x7d' :: v) [(1, w)] := by
  refine Node.Prefers.group (Node.prefers_loop rfl ⟨?_, ?_, nofun⟩ ?_)
  · intro c hc
    rw [holds_word]
    exact hw.word c hc
  · have hlength := List.length_pos_iff.mpr hw.ne_nil
    omega
  · intro c r hr hword
    obtain rfl := (List.cons.inj hr).1
    exact absurd hword (by decide)

theorem within_name : nameNode.Within {w | IsPlaceholderName w} := by
  intro st k e hrun
  obtain ⟨w, hw, hrest⟩ := (Node.within_loop rfl).group st k e hrun
  refine ⟨w, ⟨?_, fun c hc => ?_⟩, hrest⟩
  · rintro rfl
    exact absurd hw.least_le (by decide)
  · rw [← holds_word]
    exact hw.passes c hc

theorem prefers_placeholder (hw : IsPlaceholderName w) (v : List Char) :
    placeholderPattern.root.Prefers (braced w) v [(1, w)] := by
  have hname := (prefers_name hw v).seq (Node.prefers_char '\x7d' v)
  exact (Node.prefers_char '\x7b' _).seq hname

theorem within_placeholder :
    placeholderPattern.root.Within {u | ∃ w, IsPlaceholderName w ∧ u = braced w} := by
  intro st k e hrun
  have hname := within_name.seq (Node.within_char '\x7d')
  obtain ⟨u, hu, hrest⟩ := (Node.within_char '\x7b').seq hname st k e hrun
  refine ⟨u, ?_, hrest⟩
  obtain ⟨-, rfl, x, hx, rfl⟩ := Language.mem_mul.mp hu
  obtain ⟨w, hw, -, rfl, rfl⟩ := Language.mem_mul.mp hx
  exact ⟨w, hw, rfl⟩

theorem fails_placeholder {s : List Char} (hs : beginning? s = none) :
    placeholderPattern.root.Fails s := by
  refine within_placeholder.fails ?_
  rintro - ⟨w, hw, rfl⟩ hprefix
  rw [beginning?_eq_some_iff.mpr ⟨hw, hprefix⟩] at hs
  cases hs

/-- What the scan finds for a name. -/
def placeholderMatch (w : List Char) : Match := ⟨braced w, [w]⟩

/-- **The scan misses no placeholder.**  It goes on behind each match, and finds the names at all
places. -/
theorem finds_placeholders (s : List Char) :
    placeholderPattern.Finds s ((placeholderNames s).map placeholderMatch) := by
  -- on the length, since the scan goes on behind a match and not at the next place
  induction hn : s.length using Nat.strong_induction_on generalizing s with
  | _ n ih =>
    subst hn
    cases hs : beginning? s with
    | some w =>
      obtain ⟨hw, v, rfl⟩ := beginning?_eq_some_iff.mp hs
      have hshorter : v.length < (braced w ++ v).length := by
        simp only [braced, List.length_append, List.length_cons]
        omega
      rw [placeholderNames_braced hw, List.map_cons]
      exact (ih _ hshorter v rfl).after (prefers_placeholder hw v) (List.cons_ne_nil _ _)
    | none =>
      cases s with
      | nil => exact finds_nil (fails_placeholder hs)
      | cons c r =>
        rw [placeholderNames_cons, hs, Option.toList_none, List.nil_append]
        exact (ih _ (Nat.lt_succ_self _) r rfl).along (u := [c]) ⟨fails_placeholder hs, trivial⟩

end Scan

/-! ### Path parameters -/

theorem map_name_pathParameters (path : String) :
    (pathParameters path).map (·.name) = (placeholderNames path.toList).map String.ofList := by
  rw [pathParameters, placeholders, List.map_map]
  exact List.map_id _

/-- The places of a path at which a placeholder begins, with the names. -/
def placesOf (path : String) : List (ℕ × String) :=
  (List.range path.toList.length).filterMap fun i =>
    (beginning? (path.toList.drop i)).map fun w => (i, String.ofList w)

theorem map_snd_placesOf (path : String) :
    (placesOf path).map Prod.snd = (placeholderNames path.toList).map String.ofList := by
  rw [← filterMap_beginning?, placesOf, List.map_filterMap, List.map_filterMap]
  simp only [Option.map_map, Function.comp_def]

theorem pairwise_placesOf (path : String) : (placesOf path).Pairwise (fun a b => a.1 < b.1) := by
  refine List.Pairwise.filterMap _ (fun i j hlt a ha b hb => ?_) List.pairwise_lt_range
  obtain ⟨w, -, rfl⟩ := Option.map_eq_some_iff.mp ha
  obtain ⟨w', -, rfl⟩ := Option.map_eq_some_iff.mp hb
  exact hlt

theorem mem_placesOf {path : String} {i : ℕ} {name : String} :
    (i, name) ∈ placesOf path ↔ PlaceholderAt path i name := by
  rw [PlaceholderAt, ← beginning?_eq_some_iff, placesOf, List.mem_filterMap]
  constructor
  · rintro ⟨j, -, hj⟩
    obtain ⟨w, hw, hpair⟩ := Option.map_eq_some_iff.mp hj
    obtain ⟨rfl, rfl⟩ := Prod.mk.inj hpair
    rwa [String.toList_ofList]
  · intro hname
    refine ⟨i, List.mem_range.mpr ?_, by simp [hname]⟩
    by_contra hbehind
    rw [List.drop_eq_nil_of_le (Nat.le_of_not_lt hbehind)] at hname
    cases hname

/-- **The parameters of a path are its placeholders.**  They are what a scan for names in braces finds;
their names, from the left, are those of all the placeholders that begin at some place of the path; and
a path put together from texts without braces and placeholders has the names that were put in. -/
theorem pathParameters_placeholders (path : String) (parts : List PathPart) :
    (∃ p, Pattern.read {} "\x7b(\\w+)\x7d".toList = .ok p ∧
      p.findAll path.toList =
        (pathParameters path).map fun q => ⟨braced q.name.toList, [q.name.toList]⟩) ∧
    (∃ places : List (ℕ × String), (pathParameters path).map (·.name) = places.map Prod.snd ∧
      places.Pairwise (fun a b => a.1 < b.1) ∧
      ∀ i name, (i, name) ∈ places ↔ PlaceholderAt path i name) ∧
    (pathParameters (String.ofList (parts.flatMap PathPart.chars))).map (·.name) =
      (parts.filterMap PathPart.name?).map String.ofList := by
  refine ⟨⟨placeholderPattern, rfl, ?_⟩, ⟨placesOf path, ?_, pairwise_placesOf path,
    fun _ _ => mem_placesOf⟩, ?_⟩
  · rw [findAll_of_finds (finds_placeholders path.toList), pathParameters, placeholders]
    simp [placeholderMatch]
  · rw [map_name_pathParameters, map_snd_placesOf]
  · rw [map_name_pathParameters, String.toList_ofList, placeholderNames_parts]

/-- Only what stands between the inner braces of a path counts. -/
example : placeholders "\x7b\x7bx\x7d\x7d/\x7by\x7b\x7d\x7bé_1\x7d\x7bx\x7d" = ["x", "é_1", "x"] := by
  decide

end RouteDocs
