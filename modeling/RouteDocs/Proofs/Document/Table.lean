import RouteDocs.Document.Generate
import RouteDocs.Proofs.Fault
import RouteDocs.Proofs.Shape.Fields

/-!
# RouteDocs.Proofs.Document.Table — the table of operations of a document

A route table is a list of pairs of a route and a method, and a document is what is left when the
operations of the pairs are put into it one after another.  Two facts about `addAll` say what that
is: the paths are those of the pairs in the order of their first places (`map_fst_paths_addAll`), and
under each path the operations are the fields made from its pairs (`operations_addAll`), where the
last pair with a key wins.
-/

namespace RouteDocs

open Shape

theorem Shape.recordFields?_record (fields : Fields) :
    recordFields? (.record fields) = some fields := by
  simp only [recordFields?, Value.record, List.filterMap_map]
  exact congrArg some List.filterMap_some

namespace Document

/-! ### Pairs -/

/-- A route under one of its methods. -/
structure Pair where
  route : Route
  method : String
deriving Repr, DecidableEq

namespace Pair

/-- The path under which the pair has its operation. -/
def path (p : Pair) : String := p.route.path

/-- The key of the pair among the operations of its path. -/
def key (p : Pair) : String := documentMethod p.method

end Pair

/-- The pairs of a route under some methods that are documented, in the order of the methods. -/
def pairsOf (r : Route) (methods : List String) : List Pair :=
  (methods.map (Pair.mk r)).filter fun p => !isSkipped p.method

/-- The pairs of a route table that are documented, route by route. -/
def pairs (routes : List Route) : List Pair := routes.flatMap fun r => pairsOf r r.methods

/-- The operation of a pair, from what is known of the handler of its route. -/
def operationOf (o : BuildOptions) (lookup : Lookup) (p : Pair) : Except Fault Operation := do
  let e ← evidenceOf lookup p.route
  Fault.lift (buildOperation o p.route p.method e)

/-! ### Entries -/

/-- A pair with an operation for it. -/
structure Entry where
  pair : Pair
  operation : Operation

/-- The document with entries added in their order. -/
def addAll (d : Document) (entries : List Entry) : Document :=
  entries.foldl (fun d x => d.add x.pair.path x.pair.key x.operation) d

/-- The entries are those of the pairs, each with the operation of its pair. -/
structure Built (o : BuildOptions) (lookup : Lookup) (ps : List Pair) (entries : List Entry) :
    Prop where
  pairs : entries.map Entry.pair = ps
  operation : ∀ x ∈ entries, operationOf o lookup x.pair = .ok x.operation

section Runs

variable {o : BuildOptions} {lookup : Lookup} {r : Route} {e : Evidence} {d d' : Document}

theorem addAll_concat (d : Document) (entries : List Entry) (x : Entry) :
    d.addAll (entries ++ [x]) = (d.addAll entries).add x.pair.path x.pair.key x.operation := by
  simp [addAll, List.foldl_append]

theorem addAll_append (d : Document) (entries entries' : List Entry) :
    d.addAll (entries ++ entries') = (d.addAll entries).addAll entries' := by
  simp [addAll, List.foldl_append]

theorem Built.append {ps ps' : List Pair} {entries entries' : List Entry}
    (h : Built o lookup ps entries) (h' : Built o lookup ps' entries') :
    Built o lookup (ps ++ ps') (entries ++ entries') where
  pairs := by rw [List.map_append, h.pairs, h'.pairs]
  operation x hx := by
    rcases List.mem_append.mp hx with hx | hx
    · exact h.operation x hx
    · exact h'.operation x hx

/-- The methods of a route add the entries of its pairs. -/
theorem exists_built_of_addMethods (he : evidenceOf lookup r = .ok e) {methods : List String}
    (h : d.addMethods o r e methods = .ok d') :
    ∃ entries, Built o lookup (pairsOf r methods) entries ∧ d' = d.addAll entries := by
  induction methods generalizing d with
  | nil =>
    obtain rfl : d = d' := by simpa [addMethods] using h
    exact ⟨[], ⟨rfl, by simp⟩, rfl⟩
  | cons method rest ih =>
    rw [addMethods] at h
    by_cases hs : isSkipped method = true
    · rw [if_pos hs] at h
      have hpairs : pairsOf r (method :: rest) = pairsOf r rest := by simp [pairsOf, hs]
      exact hpairs ▸ ih h
    · rw [if_neg hs] at h
      obtain ⟨operation, hop, hrest⟩ := bind_eq_ok_iff.mp h
      obtain ⟨entries, hbuilt, rfl⟩ := ih hrest
      have hpairs : pairsOf r (method :: rest) = [⟨r, method⟩] ++ pairsOf r rest := by
        simp [pairsOf, hs]
      have hfirst : operationOf o lookup ⟨r, method⟩ = .ok operation :=
        bind_eq_ok_iff.mpr ⟨e, he, Fault.lift_eq_ok_iff.mpr hop⟩
      refine ⟨[⟨⟨r, method⟩, operation⟩] ++ entries, ?_, rfl⟩
      rw [hpairs]
      exact Built.append ⟨rfl, by simpa using hfirst⟩ hbuilt

/-- The routes of a table add the entries of its pairs. -/
theorem exists_built_of_addRoutes {routes : List Route}
    (h : d.addRoutes o lookup routes = .ok d') :
    ∃ entries, Built o lookup (pairs routes) entries ∧ d' = d.addAll entries := by
  induction routes generalizing d with
  | nil =>
    obtain rfl : d = d' := by simpa [addRoutes] using h
    exact ⟨[], ⟨rfl, by simp⟩, rfl⟩
  | cons r rest ih =>
    rw [addRoutes] at h
    obtain ⟨e, he, h⟩ := bind_eq_ok_iff.mp h
    obtain ⟨d₁, hd₁, hrest⟩ := bind_eq_ok_iff.mp h
    obtain ⟨first, hfirst, rfl⟩ := exists_built_of_addMethods he (Fault.lift_eq_ok_iff.mp hd₁)
    obtain ⟨others, hothers, rfl⟩ := ih hrest
    refine ⟨first ++ others, ?_, (addAll_append d first others).symm⟩
    rw [pairs, List.flatMap_cons]
    exact hfirst.append hothers

end Runs

/-! ### The table -/

section Table

variable {d : Document} {path key : String} {entries : List Entry}

theorem operations_add (d : Document) (path method p : String) (o : Operation) :
    (d.add path method o).operations p =
      if p = path then putField method o (d.operations path) else d.operations p := by
  simp only [operations, add, lookup_putField]
  split <;> rfl

/-- The paths keep the order in which they first came. -/
theorem map_fst_paths_addAll (hd : d.paths = []) (entries : List Entry) :
    (d.addAll entries).paths.map Prod.fst = distinct (entries.map (·.pair.path)) := by
  induction entries using List.reverseRecOn with
  | nil => simp [addAll, hd, distinct]
  | append_singleton entries x ih =>
    rw [addAll_concat, List.map_append, List.map_singleton, distinct_concat, ← ih]
    exact map_fst_putField _ _ _

/-- Under a path stand the operations of its own entries. -/
theorem operations_addAll (hd : d.paths = []) (entries : List Entry) (path : String) :
    (d.addAll entries).operations path =
      fieldsOf ((entries.filter (·.pair.path = path)).map fun x => (x.pair.key, x.operation)) := by
  induction entries using List.reverseRecOn with
  | nil => simp [addAll, operations, hd, fieldsOf]
  | append_singleton entries x ih =>
    rw [addAll_concat, operations_add, List.filter_append, List.map_append]
    by_cases hx : path = x.pair.path
    · subst hx
      simp [ih, fieldsOf_concat]
    · have hx' : ¬ x.pair.path = path := fun h => hx h.symm
      simp [hx, hx', ih]

theorem nodup_paths_addAll (hd : d.paths = []) :
    ((d.addAll entries).paths.map Prod.fst).Nodup :=
  map_fst_paths_addAll hd entries ▸ nodup_distinct _

/-- The keys under a path keep the order in which they first came. -/
theorem map_fst_operations_addAll (hd : d.paths = []) (entries : List Entry) (path : String) :
    ((d.addAll entries).operations path).map Prod.fst =
      distinct ((entries.filter (·.pair.path = path)).map (·.pair.key)) := by
  rw [operations_addAll hd, map_fst_fieldsOf, List.map_map, Function.comp_def]

/-- An operation that stands in the document is that of the last entry with its path and key. -/
theorem exists_entry_of_mem (hd : d.paths = []) {o : Operation}
    (h : (key, o) ∈ (d.addAll entries).operations path) :
    ∃ x, ((entries.filter (·.pair.path = path)).filter (·.pair.key = key)).getLast? = some x ∧
      x.operation = o := by
  rw [operations_addAll hd] at h
  exact exists_last_of_mem_fieldsOf h

end Table

/-! ### What the document shows -/

section Shown

variable {o : BuildOptions} {lookup : Lookup} {ps : List Pair}

/-- Operations by key stand for pairs: every key of the pairs is there, in the order of their first
places, with the operation of the last pair that has it. -/
structure Keyed (o : BuildOptions) (lookup : Lookup) (ps : List Pair) (operations : Fields) :
    Prop where
  keys : operations.map Prod.fst = distinct (ps.map Pair.key)
  last : ∀ key v, (key, v) ∈ operations → ∃ p operation,
    (ps.filter (·.key = key)).getLast? = some p ∧ operationOf o lookup p = .ok operation ∧
      v = operation.toValue

/-- Operations by path stand for pairs: every path of the pairs is there, in the order of their first
places, with the operations of its own pairs, of which there is one at least. -/
structure Tabulates (o : BuildOptions) (lookup : Lookup) (ps : List Pair) (table : Fields) :
    Prop where
  paths : table.map Prod.fst = distinct (ps.map Pair.path)
  keyed : ∀ path v, (path, v) ∈ table → ∃ operations : Fields, v = .record operations ∧
    operations ≠ [] ∧ Keyed o lookup (ps.filter (·.path = path)) operations

/-- The operations of a path, as they are shown, stand for its pairs. -/
theorem Built.keyed {entries : List Entry} (h : Built o lookup ps entries) {d : Document}
    (hd : d.paths = []) (path : String) :
    Keyed o lookup (ps.filter (·.path = path))
      (((d.addAll entries).operations path).map fun (key, x) => (key, x.toValue)) where
  keys := by
    have hnames : (((d.addAll entries).operations path).map fun (key, x) => (key, x.toValue)).map
        Prod.fst = ((d.addAll entries).operations path).map Prod.fst := List.map_map
    rw [hnames, map_fst_operations_addAll hd, ← h.pairs, List.filter_map, List.map_map]
    simp only [Function.comp_def]
  last key v hv := by
    obtain ⟨⟨k, operation⟩, hmem, heq⟩ := List.mem_map.mp hv
    obtain ⟨rfl, rfl⟩ := Prod.mk.inj heq
    obtain ⟨x, hx, rfl⟩ := exists_entry_of_mem hd hmem
    have hin : x ∈ entries :=
      List.mem_of_mem_filter (List.mem_of_mem_filter (List.mem_of_getLast? hx))
    refine ⟨x.pair, x.operation, ?_, h.operation x hin, rfl⟩
    rw [← h.pairs, List.filter_map, List.filter_map, List.getLast?_map]
    simp only [Function.comp_def]
    rw [hx]
    rfl

theorem Keyed.ne_nil {operations : Fields} (h : Keyed o lookup ps operations) (hps : ps ≠ []) :
    operations ≠ [] := by
  rintro rfl
  obtain ⟨p, hp⟩ := List.exists_mem_of_ne_nil ps hps
  have hkey := mem_distinct.mpr (List.mem_map_of_mem (f := Pair.key) hp)
  rw [← h.keys] at hkey
  exact List.not_mem_nil hkey

/-- **A document shows the operations of the pairs of its route table.**  The paths and the keys
under each stand in the order of their first pairs, no path is without an operation, and each
operation is built for the last pair with its path and key, from what is known of the handler of that
pair; the other pairs have no part in it. -/
theorem generate_tabulates {s : Settings} {heuristics : Heuristics} {routes : List Route}
    {d : Document} (h : generate s heuristics lookup routes = .ok d) :
    ∃ table, (recordFields? d.toValue).bind (·.lookup "paths") = some (.record table) ∧
      Tabulates { authMarker := s.authMarker, heuristics } lookup (pairs routes) table := by
  obtain ⟨entries, hbuilt, rfl⟩ := exists_built_of_addRoutes h
  have hd : (ofSettings s).paths = [] := rfl
  refine ⟨_, by rw [toValue, recordFields?_record]; rfl, ?_, ?_⟩
  · rw [List.map_map, ← hbuilt.pairs, List.map_map]
    exact map_fst_paths_addAll hd entries
  · intro path v hv
    obtain ⟨⟨path, operations⟩, hmem, heq⟩ := List.mem_map.mp hv
    obtain ⟨rfl, rfl⟩ := Prod.mk.inj heq
    have hat : ((ofSettings s).addAll entries).operations path = operations := by
      rw [Document.operations, (lookup_eq_some_iff_mem (nodup_paths_addAll hd)).mpr hmem]
      rfl
    have hkeyed := hbuilt.keyed hd path
    rw [hat] at hkeyed
    refine ⟨_, rfl, hkeyed.ne_nil ?_, hkeyed⟩
    -- a path of the document comes from a pair
    have hpath := List.mem_map_of_mem (f := Prod.fst) hmem
    rw [map_fst_paths_addAll hd, mem_distinct] at hpath
    obtain ⟨x, hx, hxp⟩ := List.mem_map.mp hpath
    have hxps : x.pair ∈ pairs routes := hbuilt.pairs ▸ List.mem_map_of_mem hx
    exact List.ne_nil_of_mem (List.mem_filter.mpr ⟨hxps, decide_eq_true hxp⟩)

end Shown

/-- Three routes to one path: a list that also answers `HEAD`, a declared creation and a replacement
sent as `POST`, which comes last and so takes the place of the creation. -/
theorem generate_tabulates_orders :
    let routes : List Route := [
      { uri := "api/orders", methods := ["GET", "HEAD"], action := "OrderController@index" },
      { uri := "/api/orders", methods := ["POST"], action := "OrderController@store" },
      { uri := "//api/orders", methods := ["put"], action := "OrderController@update" }]
    let lookup : Lookup := fun h =>
      .ok { descriptor? := if h.method = "store" then some ⟨[("name", .str "required")], none⟩ else none
            source := "" }
    ∃ d table, generate {} {} lookup routes = .ok d ∧
      (recordFields? d.toValue).bind (·.lookup "paths") = some (.record table) ∧
      (pairs routes).length = 3 ∧ table.map Prod.fst = ["/api/orders"] ∧
      Tabulates { authMarker := "auth", heuristics := {} } lookup (pairs routes) table := by
  intro routes lookup
  obtain ⟨d, hd⟩ : ∃ d, generate {} {} lookup routes = .ok d := ⟨_, rfl⟩
  obtain ⟨table, hpaths, htable⟩ := generate_tabulates hd
  have hlength : (pairs routes).length = 3 := by decide +kernel
  have hkeys : table.map Prod.fst = ["/api/orders"] := by
    rw [htable.paths]
    decide +kernel
  exact ⟨d, table, hd, hpaths, hlength, hkeys, htable⟩

end Document

end RouteDocs
