import RouteDocs.Proofs.Shape.Fields
import RouteDocs.Settings

/-!
# RouteDocs.Proofs.Settings — what overrides leave as it is

A value put under a name changes what is found under that name alone (`lookup_put`), so two ways to
override the settings of one manifest agree on the settings that neither of them names, such as those
by which routes are chosen (`routing_agree`).
-/

namespace RouteDocs

open Shape

/-! ### Entries by text -/

section Entries

variable {entries : List (Value × Value)} {name k : String} {v : Value}

/-- The entries of a mapping whose keys are texts. -/
def textEntries (entries : List (Value × Value)) : Fields := (recordFields? (.map entries)).getD []

@[simp] theorem textEntries_cons_str (n : String) (v : Value) (rest : List (Value × Value)) :
    textEntries ((.str n, v) :: rest) = (n, v) :: textEntries rest := rfl

theorem textEntries_cons_of_not_str {key : Value} (h : ∀ n, key ≠ .str n) (v : Value)
    (rest : List (Value × Value)) : textEntries ((key, v) :: rest) = textEntries rest := by
  cases key with
  | str n => exact absurd rfl (h n)
  | _ => rfl

/-- Only a text is the same key as a text. -/
theorem same_str_iff {key : Value} : key.same (.str name) = true ↔ key = .str name := by
  cases key <;> simp [Value.same, Value.count?]

/-- A value put under a text changes what is found there and nowhere else. -/
theorem lookup_textEntries_put (name k : String) (v : Value) (entries : List (Value × Value)) :
    (textEntries (Value.put (.str name) v entries)).lookup k =
      if k = name then some v else (textEntries entries).lookup k := by
  have hnew : ∀ rest, ((name, v) :: textEntries rest).lookup k =
      if k = name then some v else (textEntries rest).lookup k := by
    intro rest
    by_cases hk : k = name
    · simp [hk]
    · rw [lookup_cons_of_ne hk, if_neg hk]
  induction entries with
  | nil => exact hnew []
  | cons e rest ih =>
    obtain ⟨key, old⟩ := e
    rw [Value.put]
    by_cases hkey : ∃ n, key = .str n
    · obtain ⟨n, rfl⟩ := hkey
      by_cases hn : n = name
      · subst hn
        rw [if_pos (same_str_iff.mpr rfl), textEntries_cons_str, hnew, textEntries_cons_str]
        by_cases hk : k = n
        · rw [if_pos hk, if_pos hk]
        · rw [if_neg hk, if_neg hk, lookup_cons_of_ne hk]
      · have hsame : ¬ (Value.str n).same (.str name) = true := fun h =>
          hn (Value.str.inj (same_str_iff.mp h))
        rw [if_neg hsame, textEntries_cons_str, textEntries_cons_str]
        by_cases hk : k = n
        · subst hk
          simp [hn]
        · rw [lookup_cons_of_ne hk, lookup_cons_of_ne hk, ih]
    · have hnot : ∀ n, key ≠ .str n := fun n h => hkey ⟨n, h⟩
      have hsame : ¬ key.same (.str name) = true := fun h => hnot name (same_str_iff.mp h)
      rw [if_neg hsame, textEntries_cons_of_not_str hnot, textEntries_cons_of_not_str hnot, ih]

end Entries

/-! ### Settings -/

namespace Settings

variable {s s' : Settings} {fields fields' : Fields} {app values : List (Value × Value)}

/-- A name that overrides leave alone: none of them is a value for it. -/
def Leaves (overrides : List (Value × Value)) (k : String) : Prop :=
  ∀ o ∈ overrides, ∃ name, o.1 = .str name ∧ name ≠ k

theorem lookup_putOverrides {overrides : List (Value × Value)} {k : String}
    (h : Leaves overrides k) (values : List (Value × Value)) :
    (textEntries (putOverrides values overrides)).lookup k = (textEntries values).lookup k := by
  induction overrides generalizing values with
  | nil => rfl
  | cons o rest ih =>
    have hrest := ih fun o ho => h o (List.mem_cons_of_mem _ ho)
    rw [putOverrides, List.foldl_cons]
    refine (hrest _).trans ?_
    split
    · rfl
    · obtain ⟨name, hname, hne⟩ := h o List.mem_cons_self
      rw [hname, lookup_textEntries_put, if_neg hne.symm]

/-- One more part of a record. -/
theorem both_id_eq_ok_iff {α β : Type} {x : Checked (α → β)} {y : Checked α} {b : β} :
    both id x y = .ok b ↔ ∃ f a, x = .ok f ∧ y = .ok a ∧ b = f a := by
  rw [both_eq_ok_iff]
  simp only [id_eq, eq_comm]

/-- Every setting comes from the field of its name, or is the default. -/
theorem exists_fieldOr_of_ofFields (h : ofFields fields = .ok s) {f : String × String}
    (hf : f ∈ s.toFields) :
    ∃ otherwise, (f.1, otherwise) ∈ ({} : Settings).toFields ∧
      fieldOr f.1 otherwise text fields = .ok f.2 := by
  unfold ofFields at h
  obtain ⟨_, html, h₁, hhtml, rfl⟩ := both_id_eq_ok_iff.mp h
  obtain ⟨_, yaml, h₂, hyaml, rfl⟩ := both_id_eq_ok_iff.mp h₁
  obtain ⟨_, auth, h₃, hauth, rfl⟩ := both_id_eq_ok_iff.mp h₂
  obtain ⟨_, middleware, h₄, hmiddleware, rfl⟩ := both_id_eq_ok_iff.mp h₃
  obtain ⟨_, controllers, h₅, hcontrollers, rfl⟩ := both_id_eq_ok_iff.mp h₄
  obtain ⟨_, description, h₆, hdescription, rfl⟩ := both_id_eq_ok_iff.mp h₅
  obtain ⟨_, url, h₇, hurl, rfl⟩ := both_id_eq_ok_iff.mp h₆
  obtain ⟨title, version, htitle, hversion, rfl⟩ := both_eq_ok_iff.mp h₇
  simp only [toFields, List.mem_cons, List.not_mem_nil, or_false] at hf
  rcases hf with rfl | rfl | rfl | rfl | rfl | rfl | rfl | rfl | rfl
  · exact ⟨_, by simp [toFields], htitle⟩
  · exact ⟨_, by simp [toFields], hversion⟩
  · exact ⟨_, by simp [toFields], hurl⟩
  · exact ⟨_, by simp [toFields], hdescription⟩
  · exact ⟨_, by simp [toFields], hcontrollers⟩
  · exact ⟨_, by simp [toFields], hmiddleware⟩
  · exact ⟨_, by simp [toFields], hauth⟩
  · exact ⟨_, by simp [toFields], hyaml⟩
  · exact ⟨_, by simp [toFields], hhtml⟩

/-- The settings by which routes are chosen come from the fields of their names. -/
theorem routing_of_ofFields (h : ofFields fields = .ok s) :
    fieldOr "controller_namespace" ({} : Settings).controllerNamespace text fields =
        .ok s.controllerNamespace ∧
      fieldOr "api_middleware" ({} : Settings).apiMiddleware text fields = .ok s.apiMiddleware := by
  obtain ⟨d, hd, hcontrollers⟩ := exists_fieldOr_of_ofFields h
    (f := ("controller_namespace", s.controllerNamespace)) (by simp [toFields])
  obtain ⟨d', hd', hmiddleware⟩ := exists_fieldOr_of_ofFields h
    (f := ("api_middleware", s.apiMiddleware)) (by simp [toFields])
  obtain rfl : d = ({} : Settings).controllerNamespace := by simpa [toFields] using hd
  obtain rfl : d' = ({} : Settings).apiMiddleware := by simpa [toFields] using hd'
  exact ⟨hcontrollers, hmiddleware⟩

/-- The settings that the environment gives. -/
def environmentValues (environment : Option String) : List (Value × Value) :=
  match environment with
  | none | some "" => []
  | some url => [(.str "server_url", .str url)]

/-- The settings are checked as the values of their names. -/
theorem exists_fields_of_resolve {environment : Option String} {overrides : List (Value × Value)}
    (h : resolve environment app overrides = .ok s) :
    ∃ values, putApp (environmentValues environment) app = .ok values ∧
      ofFields (textEntries (putOverrides values overrides)) = .ok s := by
  unfold resolve at h
  obtain ⟨values, hvalues, h⟩ := bind_eq_ok_iff.mp h
  dsimp only at h
  split at h
  · exact ⟨values, hvalues, Cause.ofChecked_eq_ok_iff.mp h⟩
  · cases h

/-- **Overrides that name neither setting choose the same routes.** -/
theorem routing_agree {environment : Option String} {overrides overrides' : List (Value × Value)}
    (h : resolve environment app overrides = .ok s)
    (h' : resolve environment app overrides' = .ok s')
    (hleaves : ∀ k ∈ ["controller_namespace", "api_middleware"],
      Leaves overrides k ∧ Leaves overrides' k) :
    s.controllerNamespace = s'.controllerNamespace ∧ s.apiMiddleware = s'.apiMiddleware := by
  obtain ⟨values, hvalues, hfields⟩ := exists_fields_of_resolve h
  obtain ⟨values', hvalues', hfields'⟩ := exists_fields_of_resolve h'
  obtain rfl : values = values' := Except.ok.inj (hvalues.symm.trans hvalues')
  have hsame : ∀ k ∈ ["controller_namespace", "api_middleware"], ∀ otherwise : String,
      fieldOr k otherwise text (textEntries (putOverrides values overrides)) =
        fieldOr k otherwise text (textEntries (putOverrides values overrides')) := by
    intro k hk otherwise
    rw [fieldOr, fieldOr, lookup_putOverrides (hleaves k hk).1, lookup_putOverrides (hleaves k hk).2]
  obtain ⟨hcontrollers, hmiddleware⟩ := routing_of_ofFields hfields
  obtain ⟨hcontrollers', hmiddleware'⟩ := routing_of_ofFields hfields'
  rw [hsame _ (by simp)] at hcontrollers hmiddleware
  exact ⟨Except.ok.inj (hcontrollers.symm.trans hcontrollers'),
    Except.ok.inj (hmiddleware.symm.trans hmiddleware')⟩

end Settings

end RouteDocs
