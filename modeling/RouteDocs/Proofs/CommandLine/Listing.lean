import RouteDocs.Proofs.CommandLine.Stages
import RouteDocs.Proofs.Document.Table
import RouteDocs.Proofs.Manifest.Written
import RouteDocs.Proofs.Settings

/-!
# RouteDocs.Proofs.CommandLine.Listing — the routes that are listed and the paths that are documented

`routes` and `generate` read the same manifest, and the options of `generate` have no part in which
routes are chosen (`routes_eq_of_load`).  But a route is listed for being chosen and documented for its
methods, so a route that answers nothing but `HEAD` is listed and leaves no path in the document.  The
paths are the same exactly when every path that is listed has a method that is documented
(`listed_paths_iff`).
-/

namespace RouteDocs

open Shape Text

/-- Whether one of the methods of a route is documented. -/
def Route.hasOperation (r : Route) : Bool := r.methods.any (!isSkipped ·)

namespace CommandLine

/-! ### Loading -/

section Loading

variable {files : FileTree} {environment : Option String} {path : Path}
  {overrides overrides' : List (String × Option String)} {loaded loaded' : Loaded}

/-- The options that are given, as values. -/
def givenValues (overrides : List (String × Option String)) : List (Value × Value) :=
  overrides.filterMap fun (name, v) => v.map fun s => (Value.str name, Value.str s)

theorem leaves_givenValues {k : String} (h : ∀ o ∈ overrides, o.1 ≠ k) :
    Settings.Leaves (givenValues overrides) k := by
  intro o ho
  obtain ⟨⟨name, v⟩, hmem, hv⟩ := List.mem_filterMap.mp ho
  obtain ⟨s, -, rfl⟩ := Option.map_eq_some_iff.mp hv
  exact ⟨name, rfl, h _ hmem⟩

theorem load_eq_ok_iff : load files environment path overrides = .ok loaded ↔
    ∃ manifest settings, Manifest.load files path = .ok manifest ∧
      Settings.resolve environment (manifest.app.map fun (name, v) => (.str name, v))
        (givenValues overrides) = .ok settings ∧
      loaded = ⟨manifest, settings, Manifest.documentedRoutes settings manifest.routes⟩ := by
  unfold load
  constructor
  · intro h
    obtain ⟨manifest, hmanifest, h⟩ := bind_eq_ok_iff.mp h
    obtain ⟨settings, hsettings, h⟩ := bind_eq_ok_iff.mp h
    exact ⟨manifest, settings, hmanifest, Fault.lift_eq_ok_iff.mp hsettings, pure_eq_ok_iff.mp h⟩
  · rintro ⟨manifest, settings, hmanifest, hsettings, rfl⟩
    exact bind_eq_ok_iff.mpr ⟨manifest, hmanifest,
      bind_eq_ok_iff.mpr ⟨settings, Fault.lift_eq_ok_iff.mpr hsettings, rfl⟩⟩

/-- Options that name no setting by which routes are chosen have no part in the choice. -/
theorem routes_eq_of_load (h : load files environment path overrides = .ok loaded)
    (h' : load files environment path overrides' = .ok loaded')
    (hnames : ∀ k ∈ ["controller_namespace", "api_middleware"],
      (∀ o ∈ overrides, o.1 ≠ k) ∧ ∀ o ∈ overrides', o.1 ≠ k) :
    loaded.routes = loaded'.routes := by
  obtain ⟨manifest, settings, hm, hs, rfl⟩ := load_eq_ok_iff.mp h
  obtain ⟨manifest', settings', hm', hs', rfl⟩ := load_eq_ok_iff.mp h'
  obtain rfl : manifest = manifest' := Except.ok.inj (hm.symm.trans hm')
  obtain ⟨hcontrollers, hmiddleware⟩ := Settings.routing_agree hs hs' fun k hk =>
    ⟨leaves_givenValues (hnames k hk).1, leaves_givenValues (hnames k hk).2⟩
  have hchosen : Manifest.isDocumented settings = Manifest.isDocumented settings' := by
    funext r
    rw [Manifest.isDocumented, Manifest.isDocumented, hcontrollers, hmiddleware]
  show List.filter _ _ = List.filter _ _
  rw [hchosen]

end Loading

/-! ### Runs that end well -/

section Runs

variable {files : FileTree} {environment : Option String} {manifest output : String}
  {baseUrl? title? version? : Option String} {page : Bool}

/-- `routes` has listed the routes that are chosen from a manifest. -/
structure HasListed (files : FileTree) (environment : Option String) (manifest : String)
    (listed : Loaded) : Prop where
  loaded : load files environment (Path.ofText manifest) [] = .ok listed
  printed : (runRoutes files environment manifest).printed =
    String.join (listed.routes.map routeLine) ++ countText listed.routes.length ++ " routes.\n"

/-- `generate` has written the document of the routes that are chosen from a manifest. -/
structure HasGenerated (files : FileTree) (environment : Option String) (manifest output : String)
    (baseUrl? title? version? : Option String) (page : Bool) (generated : Loaded) (d : Document) :
    Prop where
  loaded : load files environment (Path.ofText manifest)
    (generateOverrides baseUrl? title? version?) = .ok generated
  document : documentOf files (Path.ofText manifest).parent generated = .ok d
  written : ∃ written, writeOutputs d.toValue (Path.ofText output) generated.settings.yamlFilename
      (if page then some generated.settings.htmlFilename else none) files =
    ((runGenerate files environment manifest output baseUrl? title? version? page).files, .ok written)

theorem hasSurrogate_countText (n : ℕ) : hasSurrogate (countText n) = false := by
  rw [countText, hasSurrogate_ofList, List.any_eq_false]
  intro c hc
  obtain ⟨-, hle⟩ := Char.isDigit_iff_toNat.mp
    (Nat.isDigit_of_mem_toDigits (by decide) (by decide) hc)
  have hle' : c.toNat ≤ 57 := hle
  have hplane : ¬ surrogatePlane ≤ c.toNat := by
    rw [surrogatePlane]
    omega
  simp [isSurrogate, hplane]

/-- `routes` ends well when the lines of the routes can be printed. -/
theorem ending_runRoutes {listed : Loaded} (hcheck : checkManifest files manifest = .ok ())
    (hload : load files environment (Path.ofText manifest) [] = .ok listed)
    (hlines : ∀ r ∈ listed.routes, hasSurrogate (routeLine r) = false) :
    (runRoutes files environment manifest).ending = .done := by
  rw [runRoutes, hcheck]
  dsimp only
  rw [hload]
  dsimp only
  rcases echo_cases { files } (listed.routes.map routeLine ++
      [countText listed.routes.length ++ " routes.\n"]) with ⟨-, hecho⟩ | ⟨⟨line, hline, hbad⟩, -⟩
  · rw [hecho]
  · exfalso
    rcases List.mem_append.mp hline with hroute | hcount
    · obtain ⟨r, hr, rfl⟩ := List.mem_map.mp hroute
      rw [hlines r hr] at hbad
      cases hbad
    · obtain rfl := List.mem_singleton.mp hcount
      rw [hasSurrogate_append, hasSurrogate_countText] at hbad
      exact absurd hbad (by decide)

theorem exists_runGenerate_eq {generated : Loaded} {d : Document} {files' : FileTree}
    {written : List Path} (hcheck : checkManifest files manifest = .ok ())
    (hout : checkOutput files output = .ok ())
    (hload : load files environment (Path.ofText manifest)
      (generateOverrides baseUrl? title? version?) = .ok generated)
    (hdoc : documentOf files (Path.ofText manifest).parent generated = .ok d)
    (hwrite : writeOutputs d.toValue (Path.ofText output) generated.settings.yamlFilename
      (if page then some generated.settings.htmlFilename else none) files = (files', .ok written))
    (hpaths : ∀ p ∈ written, hasSurrogate p.text = false)
    (hurl : hasSurrogate generated.settings.docsUrl = false) :
    ∃ printed, runGenerate files environment manifest output baseUrl? title? version? page =
      { files := files', printed } := by
  rw [generateOverrides] at hload
  rw [runGenerate, hcheck, hout]
  dsimp only
  rw [hload]
  dsimp only
  rw [hdoc]
  dsimp only
  rw [hwrite]
  dsimp only
  rcases echo_cases _ _ with ⟨-, hecho⟩ | ⟨⟨line, hline, hbad⟩, -⟩
  · exact ⟨_, hecho⟩
  · exfalso
    rcases hasSurrogate_of_line hline hbad with ⟨p, hp, hbad⟩ | hbad
    · rw [hpaths p hp] at hbad
      cases hbad
    · rw [hurl] at hbad
      cases hbad

/-- When `routes` ends well, it has listed the routes of a manifest. -/
theorem exists_hasListed (h : (runRoutes files environment manifest).ending = .done) :
    ∃ listed, HasListed files environment manifest listed := by
  have hrun := routesRun files environment manifest
  generalize hr : runRoutes files environment manifest = run at h hrun
  cases hrun with
  | refused ending hcheck => exact absurd h (ne_done_of_checkManifest hcheck)
  | notLoaded f => exact absurd h (endingOnLoad_ne_done f)
  | listed loaded hload => exact ⟨loaded, hload, congrArg Run.printed hr⟩
  | unprinted => cases h

/-- When `generate` ends well, it has written the document of a manifest. -/
theorem exists_hasGenerated
    (h : (runGenerate files environment manifest output baseUrl? title? version? page).ending = .done) :
    ∃ generated d, HasGenerated files environment manifest output baseUrl? title? version? page
      generated d := by
  have hrun := generateRun files environment manifest output baseUrl? title? version? page
  generalize hr : runGenerate files environment manifest output baseUrl? title? version? page = run
    at h hrun
  cases hrun with
  | badManifest ending hcheck => exact absurd h (ne_done_of_checkManifest hcheck)
  | badOutput ending hcheck => exact absurd h (ne_done_of_checkOutput hcheck)
  | notLoaded f => exact absurd h (endingOnLoad_ne_done f)
  | notMade loaded f => exact absurd h (endingOnWrite_ne_done f)
  | notWritten loaded d files' f => exact absurd h (endingOnWrite_ne_done f)
  | written loaded d files' paths printed hload hdoc hwrite =>
    exact ⟨loaded, d, hload, hdoc, paths, by rw [hr]; exact hwrite⟩
  | unprinted => cases h

end Runs

/-! ### Paths -/

section Paths

variable {files : FileTree} {base : Path} {loaded : Loaded} {d : Document}

/-- The paths of a document as it is shown. -/
theorem exists_table (d : Document) :
    ∃ table, (recordFields? d.toValue).bind (·.lookup "paths") = some (.record table) ∧
      table.map Prod.fst = d.paths.map Prod.fst := by
  refine ⟨_, by rw [Document.toValue, recordFields?_record]; rfl, ?_⟩
  rw [List.map_map]
  rfl

theorem exists_mem_pairs_iff {routes : List Route} {path : String} :
    (∃ p ∈ Document.pairs routes, p.path = path) ↔
      ∃ r ∈ routes, r.path = path ∧ r.hasOperation = true := by
  unfold Document.pairs Document.pairsOf Route.hasOperation
  simp only [List.mem_flatMap, List.mem_filter, List.mem_map, List.any_eq_true]
  constructor
  · rintro ⟨_, ⟨r, hr, ⟨method, hmethod, rfl⟩, hskip⟩, rfl⟩
    exact ⟨r, hr, rfl, method, hmethod, hskip⟩
  · rintro ⟨r, hr, rfl, method, hmethod, hskip⟩
    exact ⟨⟨r, method⟩, ⟨r, hr, ⟨method, hmethod, rfl⟩, hskip⟩, rfl⟩

/-- The paths of the document are those of the routes with a method that is documented. -/
theorem mem_paths_of_documentOf (h : documentOf files base loaded = .ok d) (path : String) :
    path ∈ d.paths.map Prod.fst ↔ ∃ r ∈ loaded.routes, r.path = path ∧ r.hasOperation = true := by
  unfold documentOf at h
  obtain ⟨heuristics, -, h⟩ := bind_eq_ok_iff.mp h
  obtain ⟨entries, hbuilt, rfl⟩ := Document.exists_built_of_addRoutes h
  rw [Document.map_fst_paths_addAll rfl, mem_distinct, ← exists_mem_pairs_iff, ← hbuilt.pairs]
  simp [Document.Pair.path]

end Paths

/-! ### A table of one route -/

/-- A route of the interface with a single method. -/
def pingRoute (method : String) : Route where
  uri := "api/ping"
  methods := [method]
  action := "App\\Http\\Controllers\\Ping@show"
  middleware := ["api"]

/-- What a manifest with that route alone says. -/
def pingRecord (method : String) : List (String × Value) :=
  [("routes", .list [.record [("uri", .str "api/ping"), ("methods", .list [.str method]),
    ("action", .str "App\\Http\\Controllers\\Ping@show"), ("middleware", .list [.str "api"])]])]

section Ping

variable {text method : String}

theorem load_pingManifest
    (htext : Text.unifyLineEnds text.toList = Yaml.documentText (.record (pingRecord method)))
    (hlegible : Yaml.Legible 0 (.record (pingRecord method))) :
    Manifest.load (onlyManifest text) manifestPath = .ok { routes := [pingRoute method] } := by
  have hportable : Yaml.IsPortable (.record (pingRecord method)) := by
    simp [pingRecord, Yaml.isPortable_record_iff, Yaml.IsPortable, Yaml.ArePortable]
  exact Manifest.load_of_written rfl htext hportable hlegible rfl ⟨{}, rfl, rfl⟩ rfl

/-- The route is chosen. -/
theorem load_ping
    (h : Manifest.load (onlyManifest text) manifestPath = .ok { routes := [pingRoute method] })
    {overrides : List (String × Option String)} (hnone : givenValues overrides = []) :
    load (onlyManifest text) none (Path.ofText "api.yaml") overrides =
      .ok ⟨{ routes := [pingRoute method] }, {}, [pingRoute method]⟩ := by
  have hdocumented : Manifest.isDocumented {} (pingRoute method) = true := by
    -- the method does not count
    have hhandler : (pingRoute method).handler? = (pingRoute "GET").handler? := rfl
    have hget : Manifest.isDocumented {} (pingRoute "GET") = true := by decide +kernel
    rw [Manifest.isDocumented] at hget ⊢
    rw [hhandler]
    exact hget
  have hchosen : Manifest.documentedRoutes {} [pingRoute method] = [pingRoute method] :=
    List.filter_cons_of_pos hdocumented
  refine load_eq_ok_iff.mpr ⟨_, {}, h, ?_, by rw [hchosen]⟩
  rw [hnone]
  rfl

/-- Both commands end well for it if it has a document that can be written. -/
theorem endings_ping {d : Document} {files' : FileTree} {written : List Path}
    (hline : hasSurrogate (routeLine (pingRoute method)) = false)
    (h : Manifest.load (onlyManifest text) manifestPath = .ok { routes := [pingRoute method] })
    (hdoc : documentOf (onlyManifest text) Path.here
      ⟨{ routes := [pingRoute method] }, {}, [pingRoute method]⟩ = .ok d)
    (hwrite : writeOutputs d.toValue (Path.ofText "docs") "api-docs.yaml" none (onlyManifest text) =
      (files', .ok written))
    (hpaths : ∀ p ∈ written, hasSurrogate p.text = false) :
    (runRoutes (onlyManifest text) none "api.yaml").ending = .done ∧
      (runGenerate (onlyManifest text) none "api.yaml" "docs" none none none false).ending = .done := by
  refine ⟨?_, ?_⟩
  · exact ending_runRoutes rfl (load_ping h rfl) (List.forall_mem_singleton.mpr hline)
  · have hurl : hasSurrogate ({} : Settings).docsUrl = false := by decide +kernel
    obtain ⟨printed, hrun⟩ : ∃ printed, runGenerate (onlyManifest text) none "api.yaml" "docs" none
        none none false = { files := files', printed } :=
      exists_runGenerate_eq rfl rfl (load_ping h rfl) hdoc hwrite hpaths hurl
    rw [hrun]

end Ping

/-- The manifest of a route that answers `GET`. -/
def getManifest : String :=
  "routes:\n- uri: api/ping\n  methods:\n  - GET\n  action: App\\Http\\Controllers\\Ping@show\n  middleware:\n  - api\n"

theorem load_getManifest :
    Manifest.load (onlyManifest getManifest) manifestPath = .ok { routes := [pingRoute "GET"] } :=
  load_pingManifest (by decide +kernel) (by decide +kernel)

/-- The manifest of a route that answers `HEAD` alone. -/
def headManifest : String :=
  "routes:\n- uri: api/ping\n  methods:\n  - HEAD\n  action: App\\Http\\Controllers\\Ping@show\n  middleware:\n  - api\n"

/-! ### The two commands -/

/-- **What is listed and what is documented.**  When both commands end well, whatever the options of
`generate`, they choose the same routes; the paths of the document are those of the routes with a method
that is documented, and they are all the paths listed exactly when each of these has such a route. -/
theorem listed_paths_iff {files : FileTree} {environment : Option String} {manifest output : String}
    {baseUrl? title? version? : Option String} {page : Bool}
    (hroutes : (runRoutes files environment manifest).ending = .done)
    (hgenerate :
      (runGenerate files environment manifest output baseUrl? title? version? page).ending = .done) :
    ∃ listed generated d table,
      HasListed files environment manifest listed ∧
      HasGenerated files environment manifest output baseUrl? title? version? page generated d ∧
      (recordFields? d.toValue).bind (·.lookup "paths") = some (.record table) ∧
      generated.routes = listed.routes ∧
      (∀ path, path ∈ table.map Prod.fst ↔
        ∃ r ∈ listed.routes, r.path = path ∧ r.hasOperation = true) ∧
      ((∀ path, path ∈ listed.routes.map Route.path ↔ path ∈ table.map Prod.fst) ↔
        ∀ r ∈ listed.routes, ∃ r' ∈ listed.routes, r'.path = r.path ∧ r'.hasOperation = true) := by
  obtain ⟨listed, hlisted⟩ := exists_hasListed hroutes
  obtain ⟨generated, d, hgenerated⟩ := exists_hasGenerated hgenerate
  obtain ⟨table, htable, hkeys⟩ := exists_table d
  have hsame : generated.routes = listed.routes :=
    routes_eq_of_load hgenerated.loaded hlisted.loaded (by simp [generateOverrides])
  have hpaths : ∀ path, path ∈ table.map Prod.fst ↔
      ∃ r ∈ listed.routes, r.path = path ∧ r.hasOperation = true := by
    intro path
    rw [hkeys, mem_paths_of_documentOf hgenerated.document, hsame]
  refine ⟨listed, generated, d, table, hlisted, hgenerated, htable, hsame, hpaths, ?_⟩
  simp only [hpaths, List.mem_map]
  constructor
  · exact fun h r hr => (h r.path).mp ⟨r, hr, rfl⟩
  · intro h path
    constructor
    · rintro ⟨r, hr, rfl⟩
      exact h r hr
    · rintro ⟨r, hr, hpath, -⟩
      exact ⟨r, hr, hpath⟩

/-- A route that answers `GET`: it is listed, and its path is documented. -/
theorem listed_paths_get :
    let files := onlyManifest getManifest
    (runRoutes files none "api.yaml").ending = .done ∧
      (runGenerate files none "api.yaml" "docs" none none none false).ending = .done ∧
      ∃ listed generated d table, HasListed files none "api.yaml" listed ∧
        HasGenerated files none "api.yaml" "docs" none none none false generated d ∧
        listed.routes = [pingRoute "GET"] ∧
        (recordFields? d.toValue).bind (·.lookup "paths") = some (.record table) ∧
        ∀ path, path ∈ listed.routes.map Route.path ↔ path ∈ table.map Prod.fst := by
  intro files
  have hload : Manifest.load files manifestPath = .ok { routes := [pingRoute "GET"] } :=
    load_getManifest
  obtain ⟨hroutes, hgenerate⟩ := endings_ping (by decide +kernel) hload rfl rfl (by decide +kernel)
  obtain ⟨listed, generated, d, table, hlisted, hgenerated, htable, -, -, hiff⟩ :=
    listed_paths_iff hroutes hgenerate
  have hsame : listed.routes = [pingRoute "GET"] :=
    congrArg Loaded.routes (Except.ok.inj (hlisted.loaded.symm.trans (load_ping hload rfl)))
  refine ⟨hroutes, hgenerate, listed, generated, d, table, hlisted, hgenerated, hsame, htable,
    hiff.mpr ?_⟩
  rw [hsame]
  decide +kernel

/-- A route that answers `HEAD` alone: it is listed, and no path is documented. -/
theorem head_route_listed_without_path :
    let files := onlyManifest headManifest
    (runRoutes files none "api.yaml").ending = .done ∧
      (runGenerate files none "api.yaml" "docs" none none none false).ending = .done ∧
      ∃ listed generated d, HasListed files none "api.yaml" listed ∧
        HasGenerated files none "api.yaml" "docs" none none none false generated d ∧
        listed.routes.map Route.path = ["/api/ping"] ∧
        (recordFields? d.toValue).bind (·.lookup "paths") = some (.record []) := by
  intro files
  have hload : Manifest.load files manifestPath = .ok { routes := [pingRoute "HEAD"] } :=
    load_pingManifest (by decide +kernel) (by decide +kernel)
  obtain ⟨hroutes, hgenerate⟩ := endings_ping (by decide +kernel) hload rfl rfl (by decide +kernel)
  obtain ⟨listed, hlisted⟩ := exists_hasListed hroutes
  obtain ⟨generated, d, hgenerated⟩ := exists_hasGenerated hgenerate
  have hsame : listed.routes = [pingRoute "HEAD"] :=
    congrArg Loaded.routes (Except.ok.inj (hlisted.loaded.symm.trans (load_ping hload rfl)))
  have hd : d = Document.ofSettings {} := by
    have hdoc := hgenerated.document
    rw [Except.ok.inj (hgenerated.loaded.symm.trans (load_ping hload rfl))] at hdoc
    exact (Except.ok.inj hdoc).symm
  exact ⟨hroutes, hgenerate, listed, generated, d, hlisted, hgenerated, by rw [hsame]; rfl,
    by rw [hd]; rfl⟩

end CommandLine

end RouteDocs
