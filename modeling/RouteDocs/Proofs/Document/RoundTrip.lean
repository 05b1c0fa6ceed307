import RouteDocs.Proofs.Document.Table
import RouteDocs.Proofs.Operation.Portable
import RouteDocs.Proofs.Yaml.Values

/-!
# RouteDocs.Proofs.Document.RoundTrip — a document is read back as it was written

A document is a portable value if the examples of its descriptors are (`isPortable_generate`), so it can
always be written, and what is written is read back if its texts are legible (`read_print_of_generate`).  A
text with a next line is not legible where it is written between single quotes: the reader takes the next
line for a line break (`next_line_read_as_space`).  Nor is a key on one line that has too many characters
once some of them are escaped, or a text with an escape before a space that stands below lines of more
columns than a line has.
-/

namespace RouteDocs

open Shape Yaml

namespace Document

variable {d : Document} {s : Settings} {heuristics : Heuristics} {lookup : Lookup}
  {routes : List Route}

/-- A document is portable if its operations are, and its paths and the keys under each stand once. -/
theorem isPortable_toValue (hpaths : (d.paths.map Prod.fst).Nodup)
    (hkeys : ∀ p ∈ d.paths, (p.2.map Prod.fst).Nodup)
    (hoperations : ∀ p ∈ d.paths, ∀ x ∈ p.2, IsPortable x.2.toValue) : IsPortable d.toValue := by
  have hpath : ∀ p ∈ d.paths, IsPortable (operationsValue p.2) := fun p hp =>
    isPortable_record_iff.mpr ⟨by simpa [Function.comp_def] using hkeys p hp,
      List.forall_mem_map.mpr (hoperations p hp)⟩
  have htable : IsPortable (.record (d.paths.map fun p => (p.1, operationsValue p.2))) :=
    isPortable_record_iff.mpr ⟨by simpa [Function.comp_def] using hpaths,
      List.forall_mem_map.mpr hpath⟩
  have hscheme : IsPortable bearerScheme := by
    simp [bearerScheme, isPortable_record_iff, IsPortable]
  rw [toValue, isPortable_record_iff]
  refine ⟨(by decide : ["openapi", "info", "servers", "paths", "components"].Nodup), ?_⟩
  simp [isPortable_record_iff, IsPortable, ArePortable, htable, hscheme]

/-- A document that is generated is portable if the examples of the descriptors are. -/
theorem isPortable_generate (h : generate s heuristics lookup routes = .ok d)
    (hexamples : ∀ r ∈ routes, ∀ e, evidenceOf lookup r = .ok e →
      ∀ x ∈ e.descriptor?.bind (·.example?), IsPortable x) : IsPortable d.toValue := by
  obtain ⟨entries, hbuilt, rfl⟩ := exists_built_of_addRoutes h
  have hd : (ofSettings s).paths = [] := rfl
  have hat : ∀ p ∈ ((ofSettings s).addAll entries).paths,
      ((ofSettings s).addAll entries).operations p.1 = p.2 := fun p hp => by
    rw [operations, (lookup_eq_some_iff_mem (nodup_paths_addAll hd)).mpr hp]
    rfl
  refine isPortable_toValue (nodup_paths_addAll hd) (fun p hp => ?_) fun p hp x hx => ?_
  · rw [← hat p hp, map_fst_operations_addAll hd]
    exact nodup_distinct _
  · rw [← hat p hp] at hx
    obtain ⟨entry, hentry, hx⟩ := exists_entry_of_mem hd hx
    have hmem := List.mem_of_mem_filter (List.mem_of_mem_filter (List.mem_of_getLast? hentry))
    obtain ⟨e, he, hop⟩ := bind_eq_ok_iff.mp (hbuilt.operation entry hmem)
    have hroute : entry.pair.route ∈ routes := by
      have hpair : entry.pair ∈ pairs routes := hbuilt.pairs ▸ List.mem_map_of_mem hmem
      obtain ⟨r, hr, hpair⟩ := List.mem_flatMap.mp hpair
      obtain ⟨method, -, hmethod⟩ := List.mem_map.mp (List.mem_of_mem_filter hpair)
      rw [← hmethod]
      exact hr
    rw [← hx]
    exact isPortable_buildOperation (Fault.lift_eq_ok_iff.mp hop) (hexamples _ hroute e he)

/-- **A document is read back as it was written.**  If the examples of the descriptors are built of null,
truth values, integers that can be written, doubles, texts, lists and mappings with texts for keys, then the
document can be written; and it is read back, with the order of its entries, if its texts are legible. -/
theorem read_print_of_generate (h : generate s heuristics lookup routes = .ok d)
    (hexamples : ∀ r ∈ routes, ∀ e, evidenceOf lookup r = .ok e →
      ∀ x ∈ e.descriptor?.bind (·.example?), IsPortable x) :
    ∃ text, print? d.toValue = some text ∧
      (Legible 0 d.toValue → read text.toList = .ok d.toValue) := by
  have hportable := isPortable_generate h hexamples
  refine ⟨_, print?_eq_some hportable, fun hlegible => ?_⟩
  rw [String.toList_ofList]
  exact read_documentText hportable hlegible

/-- A descriptor whose example has a text of two lines, a key that looks like a truth value, and numbers of
both kinds. -/
def noteDescriptor : Descriptor where
  rules := [("note", .str "required|max:9")]
  example? := some (.record [("note", .str "one: 1\ntwo # 2"), ("yes", .bool true),
    ("lines", .list [.int 3, .real (.finite false 6755399441055744 (-52) (by decide)), .null])])

theorem isPortable_noteDescriptor : ∀ x ∈ noteDescriptor.example?, IsPortable x := by
  intro x hx
  cases hx
  have hthree : isWritableInt 3 = true := isPortable_digit (by decide)
  simp [isPortable_record_iff, IsPortable, ArePortable, hthree]

/-- A title between quotes beside such an example. -/
theorem read_print_of_generate_orders :
    ∃ d text, generate { title := "Orders: \"all\"" } {}
        (fun _ => .ok { descriptor? := some noteDescriptor })
        [{ uri := "api/orders", methods := ["POST"], action := "OrderController@store" }] = .ok d ∧
      print? d.toValue = some text ∧ read text.toList = .ok d.toValue := by
  have hlegible : (generate { title := "Orders: \"all\"" } {}
      (fun _ => .ok { descriptor? := some noteDescriptor })
      [{ uri := "api/orders", methods := ["POST"], action := "OrderController@store" }]).toOption.all
        (fun d => decide (Legible 0 d.toValue)) = true := by
    decide +kernel
  obtain ⟨d, hd⟩ : ∃ d, generate { title := "Orders: \"all\"" } {}
      (fun _ => .ok { descriptor? := some noteDescriptor })
      [{ uri := "api/orders", methods := ["POST"], action := "OrderController@store" }] = .ok d :=
    ⟨_, rfl⟩
  rw [hd] at hlegible
  obtain ⟨text, htext, hread⟩ := read_print_of_generate hd fun r hr e he x hx => by
    rw [List.mem_singleton.mp hr] at he
    cases he
    exact isPortable_noteDescriptor x hx
  exact ⟨d, text, hd, htext, hread (of_decide_eq_true hlegible)⟩

/-- A document without routes. -/
def titled (title : String) : Document := ofSettings { title }

theorem generate_titled (title : String) :
    generate { title } {} (fun _ => .ok {}) [] = .ok (titled title) := rfl

/-- A next line in a title is written as it is, between single quotes, and read as a space. -/
theorem next_line_read_as_space :
    ∃ d d' text, generate { title := "Orders:\x85Returns" } {} (fun _ => .ok {}) [] = .ok d ∧
      generate { title := "Orders: Returns" } {} (fun _ => .ok {}) [] = .ok d' ∧
      print? d.toValue = some text ∧ read text.toList = .ok d'.toValue ∧ d.title ≠ d'.title := by
  have hlost := isPortable_generate (generate_titled "Orders:\x85Returns") nofun
  have hkept := isPortable_generate (generate_titled "Orders: Returns") nofun
  have hlegible : Legible 0 (titled "Orders: Returns").toValue := by decide +kernel
  have hallowed : (documentText (titled "Orders:\x85Returns").toValue).all isAllowed = true := by
    decide +kernel
  -- the two documents are written differently, but the scanner makes the same tokens of them
  have htokens : tokensOf (documentText (titled "Orders:\x85Returns").toValue) =
      tokensOf (documentText (titled "Orders: Returns").toValue) := by
    decide +kernel
  have hallowed' := List.all_eq_true.mpr (tokensOf_documentText hkept hlegible).1
  refine ⟨_, _, _, generate_titled _, generate_titled _, print?_eq_some hlost, ?_, by decide⟩
  rw [String.toList_ofList]
  exact (read_congr hallowed hallowed' htokens).trans (read_documentText hkept hlegible)

end Document

end RouteDocs
