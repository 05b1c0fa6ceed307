import RouteDocs.Proofs.Settings

/-!
# RouteDocs.Proofs.Settings.Precedence — which value of a setting prevails

A setting has the value of its last override that is not null; failing that, the value of the last entry
of the manifest for it, as a text if it is a number or truth value; failing that, the address of the server
is that of the environment; and otherwise a setting has its default (`resolve_precedence`).
-/

namespace RouteDocs

open Shape

/-- Fields as entries of a mapping. -/
def keyed (fields : Fields) : List (Value × Value) := fields.map fun f => (.str f.1, f.2)

@[simp] theorem textEntries_keyed (fields : Fields) : textEntries (keyed fields) = fields := by
  induction fields with
  | nil => rfl
  | cons f rest ih => exact congrArg (f :: ·) ih

/-- The value of the last field that satisfies `p`. -/
def lastValue? (p : String × Value → Bool) (fields : Fields) : Option Value :=
  (fields.filter p).getLast?.map Prod.snd

theorem lastValue?_cons (p : String × Value → Bool) (f : String × Value) (rest : Fields) :
    lastValue? p (f :: rest) = (lastValue? p rest).or (if p f then some f.2 else none) := by
  unfold lastValue?
  by_cases hf : p f = true
  · rw [List.filter_cons_of_pos hf, List.getLast?_cons, if_pos hf]
    cases (rest.filter p).getLast? <;> rfl
  · rw [List.filter_cons_of_neg hf, if_neg hf, Option.or_none]

/-- A value that is read as a text: a text, or bytes that are one in UTF-8. -/
inductive ReadsAs : Value → String → Prop
  | text (s : String) : ReadsAs (.str s) s
  | bytes (s : String) : ReadsAs (.bytes s.toUTF8.data.toList) s

theorem readsAs_of_text {v : Value} {s : String} (h : text v = .ok s) : ReadsAs v s := by
  cases v with
  | str t =>
    obtain rfl := Except.ok.inj h
    exact .text t
  | bytes bs =>
    rw [text] at h
    cases hs : String.fromUTF8? ⟨bs.toArray⟩ with
    | none =>
      rw [hs] at h
      cases h
    | some t =>
      rw [hs] at h
      obtain rfl := Except.ok.inj h
      have hbytes : t.toUTF8 = ⟨bs.toArray⟩ := by
        unfold String.fromUTF8? at hs
        split at hs
        · rw [← Option.some.inj hs]
          rfl
        · cases hs
      have hreads := ReadsAs.bytes t
      rwa [hbytes] at hreads
  | _ => cases h

namespace Settings

variable {environment : Option String} {app overrides : Fields} {s : Settings} {name : String}
  {values values' : List (Value × Value)}

/-! ### The layers -/

/-- The setting that a key of a manifest is for. -/
def settingOf (key : String) : String := if key = "url" then "server_url" else key

/-- Numbers and truth values as their texts. -/
def spelled : Value → Value
  | .int i => .str (Value.int i).literalText
  | .real x => .str (Value.real x).literalText
  | .bool b => .str (Value.bool b).literalText
  | v => v

theorem settingValue_eq_ok {v v' : Value} (h : settingValue v = .ok v') : v' = spelled v := by
  cases v with
  | int i =>
    rw [settingValue] at h
    split at h
    · exact (Except.ok.inj h).symm
    · cases h
  | _ => exact (Except.ok.inj h).symm

/-- The entries of a manifest for a setting. -/
def isEntryOf (name : String) (e : String × Value) : Bool := settingOf e.1 = name

/-- The overrides of a setting. -/
def isOverrideOf (name : String) (o : String × Value) : Bool :=
  o.1 = name && match o.2 with
    | .null => false
    | _ => true

theorem putApp_cons (values : List (Value × Value)) (key : String) (v : Value) (app : Fields) :
    putApp values (keyed ((key, v) :: app)) =
      settingValue v >>= fun v => putApp (Value.put (.str (settingOf key)) v values) (keyed app) :=
  rfl

/-- The last entry of a manifest for a setting has its value over the ones before. -/
theorem lookup_putApp (h : putApp values (keyed app) = .ok values') (name : String) :
    (textEntries values').lookup name =
      ((lastValue? (isEntryOf name) app).map spelled).or ((textEntries values).lookup name) := by
  induction app generalizing values with
  | nil =>
    obtain rfl := Except.ok.inj h
    rfl
  | cons e app ih =>
    obtain ⟨key, v⟩ := e
    rw [putApp_cons] at h
    obtain ⟨v', hv, happ⟩ := bind_eq_ok_iff.mp h
    obtain rfl := settingValue_eq_ok hv
    rw [ih happ, lookup_textEntries_put, lastValue?_cons]
    cases lastValue? (isEntryOf name) app with
    | some _ => rfl
    | none => by_cases hname : name = settingOf key <;> simp [isEntryOf, hname, eq_comm]

/-- The last override of a setting that is not null has its value over all others. -/
theorem lookup_putOverrides_keyed (values : List (Value × Value)) (overrides : Fields)
    (name : String) :
    (textEntries (putOverrides values (keyed overrides))).lookup name =
      (lastValue? (isOverrideOf name) overrides).or ((textEntries values).lookup name) := by
  induction overrides generalizing values with
  | nil => rfl
  | cons o overrides ih =>
    obtain ⟨key, v⟩ := o
    rw [putOverrides, keyed, List.map_cons, List.foldl_cons]
    refine (ih _).trans ?_
    rw [lastValue?_cons]
    cases lastValue? (isOverrideOf name) overrides with
    | some _ => rfl
    | none =>
      cases v with
      | null => simp [isOverrideOf]
      | _ =>
        rw [lookup_textEntries_put]
        by_cases hname : name = key <;> simp [isOverrideOf, hname, eq_comm]

theorem environmentValues_of_ne {url : String} (h : url ≠ "") :
    environmentValues (some url) = [(.str "server_url", .str url)] := by
  unfold environmentValues
  split
  · contradiction
  · rename_i heq
    exact absurd (Option.some.inj heq) h
  · rename_i heq
    rw [Option.some.inj heq]

/-- The environment gives the address of the server, if it is not empty, and nothing else. -/
theorem lookup_environmentValues_eq_some_iff {v : Value} :
    (textEntries (environmentValues environment)).lookup name = some v ↔
      name = "server_url" ∧ ∃ url, environment = some url ∧ url ≠ "" ∧ v = .str url := by
  have hnone : ¬ (textEntries []).lookup name = some v := nofun
  cases environment with
  | none => exact iff_of_false hnone (by simp)
  | some url =>
    by_cases hurl : url = ""
    · subst hurl
      exact iff_of_false hnone (by simp)
    · rw [environmentValues_of_ne hurl, textEntries_cons_str]
      by_cases hname : name = "server_url"
      · simp [hname, hurl, eq_comm]
      · rw [lookup_cons_of_ne hname]
        exact iff_of_false hnone fun h => hname h.1

/-! ### Keys that are for no setting -/

/-- The names of the settings. -/
def settingNames : List String := ({} : Settings).toFields.map Prod.fst

theorem lastValue?_filter {p q : String × Value → Bool} (h : ∀ f, q f = true → p f = true)
    (fields : Fields) : lastValue? q (fields.filter p) = lastValue? q fields := by
  have hboth : ∀ f, (q f && p f) = q f := by
    intro f
    cases hq : q f with
    | false => rfl
    | true => rw [h f hq, Bool.true_and]
  rw [lastValue?, lastValue?, List.filter_filter]
  simp only [hboth]

/-- Only the fields of their names make the settings. -/
theorem ofFields_congr {fields fields' : Fields}
    (h : ∀ name ∈ settingNames, fields.lookup name = fields'.lookup name) :
    ofFields fields = ofFields fields' := by
  simp only [settingNames, toFields, List.map_cons, List.map_nil, List.forall_mem_cons] at h
  obtain ⟨h₁, h₂, h₃, h₄, h₅, h₆, h₇, h₈, h₉, -⟩ := h
  simp only [ofFields, fieldOr, h₁, h₂, h₃, h₄, h₅, h₆, h₇, h₈, h₉]

/-- Entries are put in if all their values can be spelled. -/
theorem exists_putApp_iff (values : List (Value × Value)) (app : Fields) :
    (∃ values', putApp values (keyed app) = .ok values') ↔
      ∀ e ∈ app, ∃ v, settingValue e.2 = .ok v := by
  induction app generalizing values with
  | nil => exact iff_of_true ⟨values, rfl⟩ (List.forall_mem_nil _)
  | cons e app ih =>
    obtain ⟨key, v⟩ := e
    rw [putApp_cons, List.forall_mem_cons]
    constructor
    · rintro ⟨values', h⟩
      obtain ⟨v', hv, happ⟩ := bind_eq_ok_iff.mp h
      exact ⟨⟨v', hv⟩, (ih _).mp ⟨values', happ⟩⟩
    · rintro ⟨⟨v', hv⟩, hrest⟩
      obtain ⟨values', happ⟩ := (ih (Value.put (.str (settingOf key)) v' values)).mpr hrest
      exact ⟨values', bind_eq_ok_iff.mpr ⟨v', hv, happ⟩⟩

/-- Values whose keys are all texts. -/
def HasTextKeys (values : List (Value × Value)) : Prop := ∀ e ∈ values, ∃ key, e.1 = .str key

theorem HasTextKeys.put (h : HasTextKeys values) (key : String) (v : Value) :
    HasTextKeys (Value.put (.str key) v values) := by
  induction values with
  | nil => exact List.forall_mem_singleton.mpr ⟨key, rfl⟩
  | cons e rest ih =>
    obtain ⟨he, hrest⟩ := List.forall_mem_cons.mp h
    rw [Value.put]
    split
    · exact List.forall_mem_cons.mpr ⟨he, hrest⟩
    · exact List.forall_mem_cons.mpr ⟨he, ih hrest⟩

theorem HasTextKeys.putApp (h : HasTextKeys values)
    (happ : Settings.putApp values (keyed app) = .ok values') : HasTextKeys values' := by
  induction app generalizing values with
  | nil =>
    obtain rfl := Except.ok.inj happ
    exact h
  | cons e app ih =>
    rw [putApp_cons] at happ
    obtain ⟨v, -, happ⟩ := bind_eq_ok_iff.mp happ
    exact ih (h.put _ v) happ

theorem HasTextKeys.putOverrides (h : HasTextKeys values) (overrides : Fields) :
    HasTextKeys (Settings.putOverrides values (keyed overrides)) := by
  induction overrides generalizing values with
  | nil => exact h
  | cons o overrides ih =>
    obtain ⟨key, v⟩ := o
    rw [Settings.putOverrides, keyed, List.map_cons, List.foldl_cons]
    apply ih
    dsimp only
    split
    · exact h
    · exact h.put key _

theorem hasTextKeys_environmentValues (environment : Option String) :
    HasTextKeys (environmentValues environment) := by
  unfold environmentValues
  split
  · exact List.forall_mem_nil _
  · exact List.forall_mem_nil _
  · exact List.forall_mem_singleton.mpr ⟨_, rfl⟩

/-- Layers with texts for keys give the settings of what is found under the names. -/
theorem resolve_keyed_eq_ok_iff : resolve environment (keyed app) (keyed overrides) = .ok s ↔
    ∃ values, putApp (environmentValues environment) (keyed app) = .ok values ∧
      ofFields (textEntries (putOverrides values (keyed overrides))) = .ok s := by
  refine ⟨exists_fields_of_resolve, ?_⟩
  rintro ⟨values, hvalues, hfields⟩
  refine bind_eq_ok_iff.mpr ⟨values, hvalues, ?_⟩
  refine (if_pos ?_).trans (Cause.ofChecked_eq_ok_iff.mpr hfields)
  rw [List.all_eq_true]
  intro e he
  obtain ⟨key, hkey⟩ :=
    (((hasTextKeys_environmentValues environment).putApp hvalues).putOverrides overrides) e he
  rw [hkey]

/-! ### Precedence -/

/-- The value that prevails for a setting over all that the layers say of it. -/
inductive Prevails (environment : Option String) (app overrides : Fields) (name : String) :
    Value → Prop
  | override {v : Value} (hover : lastValue? (isOverrideOf name) overrides = some v) :
    Prevails environment app overrides name v
  | entry {v : Value} (hover : lastValue? (isOverrideOf name) overrides = none)
    (happ : lastValue? (isEntryOf name) app = some v) :
    Prevails environment app overrides name (spelled v)
  | environment {url : String} (hover : lastValue? (isOverrideOf name) overrides = none)
    (happ : lastValue? (isEntryOf name) app = none) (hname : name = "server_url")
    (hurl : environment = some url) (hne : url ≠ "") :
    Prevails environment app overrides name (.str url)
  | otherwise {d : String} (hover : lastValue? (isOverrideOf name) overrides = none)
    (happ : lastValue? (isEntryOf name) app = none)
    (hunset : name = "server_url" → environment = none ∨ environment = some "")
    (hd : (name, d) ∈ ({} : Settings).toFields) : Prevails environment app overrides name (.str d)

/-- What the layers say of a setting, the overrides first and the environment last. -/
def layered? (environment : Option String) (app overrides : Fields) (name : String) : Option Value :=
  (lastValue? (isOverrideOf name) overrides).or
    (((lastValue? (isEntryOf name) app).map spelled).or
      ((textEntries (environmentValues environment)).lookup name))

theorem lookup_layers (hvalues : putApp (environmentValues environment) (keyed app) = .ok values)
    (overrides : Fields) (name : String) :
    (textEntries (putOverrides values (keyed overrides))).lookup name =
      layered? environment app overrides name := by
  rw [lookup_putOverrides_keyed, lookup_putApp hvalues, layered?]

/-- What the layers say prevails. -/
theorem prevails_of_layered {v : Value} (h : layered? environment app overrides name = some v) :
    Prevails environment app overrides name v := by
  rw [layered?] at h
  cases hover : lastValue? (isOverrideOf name) overrides with
  | some w =>
    rw [hover] at h
    obtain rfl := Option.some.inj h
    exact .override hover
  | none =>
    rw [hover, Option.none_or] at h
    cases happ : lastValue? (isEntryOf name) app with
    | some w =>
      rw [happ] at h
      obtain rfl := Option.some.inj h
      exact .entry hover happ
    | none =>
      rw [happ, Option.map_none, Option.none_or] at h
      obtain ⟨hname, url, hurl, hne, rfl⟩ := lookup_environmentValues_eq_some_iff.mp h
      exact .environment hover happ hname hurl hne

/-- The default prevails where they say nothing. -/
theorem prevails_of_not_layered {d : String} (h : layered? environment app overrides name = none)
    (hd : (name, d) ∈ ({} : Settings).toFields) :
    Prevails environment app overrides name (.str d) := by
  obtain ⟨hover, hrest⟩ := Option.or_eq_none_iff.mp h
  obtain ⟨happ, henv⟩ := Option.or_eq_none_iff.mp hrest
  refine .otherwise hover (Option.map_eq_none_iff.mp happ) (fun hname => ?_) hd
  cases environment with
  | none => exact .inl rfl
  | some url =>
    by_cases hurl : url = ""
    · exact .inr (congrArg some hurl)
    · have hsome := lookup_environmentValues_eq_some_iff.mpr ⟨hname, url, rfl, hurl, rfl⟩
      rw [henv] at hsome
      cases hsome

/-- Of a setting nothing is said under keys that are for none. -/
theorem layered?_filter (environment : Option String) (app overrides : Fields)
    (hname : name ∈ settingNames) :
    layered? environment (app.filter fun e => settingNames.contains (settingOf e.1))
        (overrides.filter fun o => settingNames.contains o.1) name =
      layered? environment app overrides name := by
  have happ : lastValue? (isEntryOf name)
      (app.filter fun e => settingNames.contains (settingOf e.1)) =
        lastValue? (isEntryOf name) app := by
    apply lastValue?_filter
    intro e he
    rwa [of_decide_eq_true he, List.contains_iff_mem]
  have hover : lastValue? (isOverrideOf name)
      (overrides.filter fun o => settingNames.contains o.1) =
        lastValue? (isOverrideOf name) overrides := by
    apply lastValue?_filter
    intro o ho
    have hkey : o.1 = name := of_decide_eq_true (Bool.and_eq_true_iff.mp ho).1
    rwa [hkey, List.contains_iff_mem]
  rw [layered?, layered?, happ, hover]

/-- **Which value of a setting prevails.**  The settings are also those of the layers without the keys that
are for no setting. -/
theorem resolve_precedence (h : resolve environment (keyed app) (keyed overrides) = .ok s) :
    (∀ f ∈ s.toFields, ∃ v, Prevails environment app overrides f.1 v ∧ ReadsAs v f.2) ∧
      resolve environment (keyed (app.filter fun e => settingNames.contains (settingOf e.1)))
        (keyed (overrides.filter fun o => settingNames.contains o.1)) = .ok s := by
  obtain ⟨values, hvalues, hfields⟩ := resolve_keyed_eq_ok_iff.mp h
  refine ⟨fun f hf => ?_, ?_⟩
  · obtain ⟨d, hd, hfield⟩ := exists_fieldOr_of_ofFields hfields hf
    rw [fieldOr, lookup_layers hvalues] at hfield
    cases hlayer : layered? environment app overrides f.1 with
    | some v =>
      rw [hlayer] at hfield
      exact ⟨v, prevails_of_layered hlayer, readsAs_of_text (under_eq_ok_iff.mp hfield)⟩
    | none =>
      rw [hlayer] at hfield
      obtain rfl := Except.ok.inj hfield
      exact ⟨.str f.2, prevails_of_not_layered hlayer hd, .text f.2⟩
  · have hspelled := (exists_putApp_iff _ app).mp ⟨values, hvalues⟩
    obtain ⟨values', hvalues'⟩ := (exists_putApp_iff (environmentValues environment) _).mpr
      fun e he => hspelled e (List.mem_of_mem_filter he)
    refine resolve_keyed_eq_ok_iff.mpr ⟨values', hvalues', ?_⟩
    rw [← hfields]
    apply ofFields_congr
    intro name hname
    rw [lookup_layers hvalues, lookup_layers hvalues', layered?_filter environment app overrides hname]

/-- Both keys for the address of the server in one manifest, a version that is a truth value, an override
that is null and one that names no setting. -/
theorem resolve_precedence_url :
    let app : Fields := [("url", .str "https://one.test"), ("server_url", .str "https://two.test"),
      ("version", .bool true), ("colour", .null)]
    let overrides : Fields := [("title", .null), ("url", .str "https://three.test"),
      ("auth_marker", .bytes [97])]
    let s : Settings := { version := "True", serverUrl := "https://two.test", authMarker := "a" }
    resolve (some "https://four.test") (keyed app) (keyed overrides) = .ok s ∧
      ∃ v, Prevails (some "https://four.test") app overrides "server_url" v ∧
        ReadsAs v "https://two.test" := by
  intro app overrides s
  have h : resolve (some "https://four.test") (keyed app) (keyed overrides) = .ok s := by
    rfl
  exact ⟨h, (resolve_precedence h).1 ("server_url", "https://two.test") (by simp [s, toFields])⟩

end Settings

end RouteDocs
