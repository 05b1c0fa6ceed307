import Mathlib.Data.List.Forall2
import RouteDocs.Proofs.Document.Table
import RouteDocs.Proofs.Operation.Required

/-!
# RouteDocs.Proofs.Operation.Methods — one handler under several methods

The operations of a handler under two methods are made in the same steps, so they fail together and
answer alike; only their input differs (`agree_build`).  A method that is sent as `POST` has the body of
`POST` with the field that names the method (`build_tunnelled`), and `GET` has a parameter of the query
for each property of that body (`build_get`).
-/

namespace RouteDocs

open Schema Shape

/-- Two operations that differ in their input at most. -/
structure Operation.AnswersLike (op other : Operation) : Prop where
  tags : op.tags = other.tags
  summary : op.summary = other.summary
  responses : op.responses = other.responses
  security : op.security? = other.security?

section Runs

variable {d : Descriptor} {method method' : String}
  {R : List Parameter × Option RequestBody → List Parameter × Option RequestBody → Prop}

/-- An operation has the parameters of its path, and the given ones of the query and body. -/
structure Operation.HasInput (op : Operation) (r : Route)
    (input : List Parameter × Option RequestBody) : Prop where
  parameters : op.parameters = pathParameters r.path ++ input.1
  body : op.body? = input.2

/-- Inputs that agree give operations that answer alike. -/
theorem agree_build (o : BuildOptions) (r : Route) (source : String)
    (h : Agree R (inputOf (Text.uppered method) d) (inputOf (Text.uppered method') d)) :
    Agree (fun op op' => op'.AnswersLike op ∧
        ∃ input input', R input input' ∧ op.HasInput r input ∧ op'.HasInput r input')
      (buildOperation o r method ⟨some d, source⟩) (buildOperation o r method' ⟨some d, source⟩) := by
  unfold buildOperation
  refine Agree.bind_same _ fun found => ?_
  refine Agree.bind_same _ fun responses => ?_
  refine h.bind fun input input' hinput => ?_
  exact .ok ⟨⟨rfl, rfl, rfl, rfl⟩, input, input', hinput, ⟨rfl, rfl⟩, ⟨rfl, rfl⟩⟩

end Runs

/-! ### Methods that are sent as `POST` -/

/-- An operation that is sent as `POST` with a field that names its method: beside that field, which
comes last among the properties and the required ones, it is the operation for `POST`. -/
structure Operation.Tunnels (op : Operation) (verb : String) (example? : Option Value)
    (post : Operation) : Prop extends op.AnswersLike post where
  parameters : op.parameters = post.parameters
  body : ∃ contentType properties required,
    post.body? = some ⟨contentType,
      [("type", .str "object"), ("properties", .record properties)] ++
        (if required = [] then [] else [("required", .list (required.map .str))]) ++
        (example?.map fun v => ("example", v)).toList⟩ ∧
    op.body? = some ⟨contentType,
      [("type", .str "object"),
        ("properties", .record (properties ++
          [("_method", .record [("type", .str "string"), ("enum", .list [.str verb])])])),
        ("required", .list ((required ++ ["_method"]).map .str))] ++
        (example?.map fun v => ("example", v)).toList⟩

section Tunnelled

variable {d : Descriptor} {body : Body} {verb : String} {s : ObjectSchema}

theorem fields_eq (s : ObjectSchema) : s.fields =
    [("type", .str "object"), ("properties", .record s.properties)] ++
      (if s.required = [] then [] else [("required", .list (s.required.map .str))]) ++
      (s.example?.map fun v => ("example", v)).toList := by
  have hrequired : requiredField s.required =
      if s.required = [] then [] else [("required", .list (s.required.map .str))] := by
    simp [requiredField]
  have hexample : optionalField "example" s.example? =
      (s.example?.map fun v => ("example", v)).toList := by
    cases s.example? <;> rfl
  rw [ObjectSchema.fields, hrequired, hexample]

theorem fields_withMethod (h : "_method" ∉ s.properties.map Prod.fst) :
    (s.withMethod verb).fields =
      [("type", .str "object"),
        ("properties", .record (s.properties ++
          [("_method", .record [("type", .str "string"), ("enum", .list [.str verb])])])),
        ("required", .list ((s.required ++ ["_method"]).map .str))] ++
        (s.example?.map fun v => ("example", v)).toList := by
  have hproperties : (s.withMethod verb).properties =
      s.properties ++ [("_method", .record [("type", .str "string"), ("enum", .list [.str verb])])] :=
    putField_of_not_mem h
  rw [fields_eq, hproperties]
  simp [ObjectSchema.withMethod, methodField]

/-- The input for any method but `GET` is a body. -/
theorem inputOf_of_ne_get (hb : d.body = .ok body) (hverb : verb ≠ "GET") :
    inputOf verb d =
      .ok ([], some ⟨body.contentType, (bodySchema verb (body.schema d.example?)).fields⟩) := by
  unfold inputOf
  rw [hb]
  exact congrArg Except.ok (if_neg hverb)

theorem exists_inputOf (hb : d.body = .ok body) (verb : String) : ∃ input, inputOf verb d = .ok input := by
  unfold inputOf
  rw [hb]
  exact ⟨_, rfl⟩

theorem inputOf_error {e : Cause} (hb : d.body = .error e) : inputOf verb d = .error e := by
  unfold inputOf
  rw [hb]
  rfl

/-- The body for `POST` is that of the descriptor as it is. -/
theorem inputOf_post (hb : d.body = .ok body) :
    inputOf "POST" d = .ok ([], some ⟨body.contentType, (body.schema d.example?).fields⟩) := by
  rw [inputOf_of_ne_get hb (by decide), bodySchema_of_not_tunnelled (by decide)]

end Tunnelled

/-! ### `GET` -/

/-- A parameter of the query for a property of a schema with some required names. -/
structure Parameter.Asks (p : Parameter) (required : List String) (property : String × Value) : Prop where
  name : p.name = property.1
  location : p.location = "query"
  schema : .record p.schema = property.2
  required_iff : p.required = true ↔ property.1 ∈ required

/-- An operation without a body that asks for the properties of the body of another one in its query. -/
structure Operation.Queries (op post : Operation) : Prop extends op.AnswersLike post where
  body : op.body? = none
  inPath : ∀ p ∈ post.parameters, p.location = "path"
  parameters : ∃ body properties required query, post.body? = some body ∧
    body.schema.lookup "properties" = some (.record properties) ∧
    body.schema.lookup "required" =
      (if required = [] then none else some (.list (required.map .str))) ∧
    op.parameters = post.parameters ++ query ∧
    List.Forall₂ (fun property p => Parameter.Asks p required property) properties query

section Get

variable {d : Descriptor} {body : Body}

/-- The schema of a node is a record. -/
theorem exists_record_render (n : Node) : ∃ fields, n.render = .record fields := by
  cases n with
  | leaf l => exact ⟨_, by rw [Node.render]⟩
  | object properties required => exact ⟨_, by rw [Node.render]⟩
  | array items => exact ⟨_, by rw [Node.render]⟩

/-- Every rendered property is asked for with its own schema. -/
theorem asks_queryParameter (ps : Properties) (required : List String) :
    List.Forall₂ (fun property p => Parameter.Asks p required property) (renderProperties ps)
      ((renderProperties ps).map (queryParameter required)) := by
  induction ps with
  | nil =>
    rw [renderProperties]
    exact .nil
  | cons p ps ih =>
    obtain ⟨name, node⟩ := p
    rw [renderProperties, List.map_cons]
    obtain ⟨fields, hfields⟩ := exists_record_render node
    refine .cons ⟨rfl, rfl, ?_, ?_⟩ ih
    · simp [queryParameter, hfields, recordFields?_record]
    · simp [queryParameter]

theorem inputOf_get (hb : d.body = .ok body) :
    inputOf "GET" d =
      .ok ((renderProperties body.properties).map (queryParameter body.required), none) := by
  unfold inputOf
  rw [hb]
  rfl

end Get

section Methods

variable {d : Descriptor} {method : String}

theorem inPath_pathParameters (path : String) : ∀ p ∈ pathParameters path, p.location = "path" := by
  intro p hp
  obtain ⟨name, -, rfl⟩ := List.mem_map.mp hp
  rfl

/-- Under two methods the input is made of one compiled body. -/
theorem agree_inputOf (d : Descriptor) (verb verb' : String) :
    Agree (fun input input' => ∃ body, d.body = .ok body ∧ inputOf verb d = .ok input ∧
        inputOf verb' d = .ok input') (inputOf verb d) (inputOf verb' d) := by
  cases hb : d.body with
  | error e =>
    rw [inputOf_error hb, inputOf_error hb]
    exact .error e
  | ok body =>
    obtain ⟨input, hinput⟩ := exists_inputOf hb verb
    obtain ⟨input', hinput'⟩ := exists_inputOf hb verb'
    rw [hinput, hinput']
    exact .ok ⟨body, rfl, rfl, rfl⟩

/-- **A method that is sent as `POST`.**  For a handler whose descriptor has no field of the name, the
operation is the one for `POST` with the field that names the method. -/
theorem build_tunnelled (o : BuildOptions) (r : Route) (source : String)
    (hm : Text.uppered method = "PUT" ∨ Text.uppered method = "PATCH")
    (hd : ∀ body, d.body = .ok body → "_method" ∉ body.properties.map Prod.fst) :
    Agree (fun post op => op.Tunnels (Text.uppered method) d.example? post)
      (buildOperation o r "POST" ⟨some d, source⟩) (buildOperation o r method ⟨some d, source⟩) := by
  have hget : Text.uppered method ≠ "GET" := by
    rcases hm with hm | hm <;> rw [hm] <;> decide
  have htunnelled : isTunnelled (Text.uppered method) = true := by
    rcases hm with hm | hm <;> rw [hm] <;> rfl
  refine (agree_build o r source (agree_inputOf d _ _)).imp ?_
  rintro post op ⟨hlike, input, input', ⟨body, hb, hinput, hinput'⟩, hpost, hop⟩
  obtain rfl := Except.ok.inj ((inputOf_post hb).symm.trans hinput)
  obtain rfl := Except.ok.inj ((inputOf_of_ne_get hb hget).symm.trans hinput')
  have hproperties : "_method" ∉ (body.schema d.example?).properties.map Prod.fst := by
    rw [Body.schema, map_fst_renderProperties]
    exact hd body hb
  refine ⟨hlike, hop.parameters.trans hpost.parameters.symm, body.contentType,
    renderProperties body.properties, body.required, ?_, ?_⟩
  · rw [hpost.body, fields_eq]
    rfl
  · rw [hop.body, bodySchema_of_tunnelled htunnelled, fields_withMethod hproperties]
    rfl

/-- A descriptor with a text, an array of objects and an example. -/
def registration : Descriptor :=
  { rules := [("name", .str "string|max:20"), ("tags.*.label", .str "string")]
    example? := some (.record [("name", .str "Ada")]) }

/-- A route with one placeholder. -/
def userRoute : Route := { uri := "users/\x7buser\x7d", methods := ["GET", "POST", "PUT"] }

/-- The registration sent as a replacement: nothing but the field that names the method is required, and
the example comes last. -/
theorem build_tunnelled_registration :
    ∃ post op, buildOperation {} userRoute "POST" ⟨some registration, ""⟩ = .ok post ∧
      buildOperation {} userRoute "put" ⟨some registration, ""⟩ = .ok op ∧
      op.body?.map (·.schema.map Prod.fst) = some ["type", "properties", "required", "example"] ∧
      op.Tunnels "PUT" registration.example? post := by
  obtain ⟨body, hbody, hnames⟩ : ∃ body, registration.body = .ok body ∧
      body.properties.map Prod.fst = ["name", "tags"] := ⟨_, rfl, rfl⟩
  have hd : ∀ body, registration.body = .ok body → "_method" ∉ body.properties.map Prod.fst := by
    intro body' hbody'
    obtain rfl := Except.ok.inj (hbody.symm.trans hbody')
    rw [hnames]
    decide
  obtain ⟨post, hpost⟩ : ∃ post,
      buildOperation {} userRoute "POST" ⟨some registration, ""⟩ = .ok post := ⟨_, rfl⟩
  obtain ⟨op, hop, hkeys⟩ : ∃ op,
      buildOperation {} userRoute "put" ⟨some registration, ""⟩ = .ok op ∧
      op.body?.map (·.schema.map Prod.fst) = some ["type", "properties", "required", "example"] :=
    ⟨_, rfl, rfl⟩
  have hagree := build_tunnelled {} userRoute "" (.inl (rfl : Text.uppered "put" = "PUT")) hd
  rw [hpost, hop] at hagree
  cases hagree with
  | ok htunnels => exact ⟨post, op, hpost, hop, hkeys, htunnels⟩

/-- **A handler that is asked by `GET`.**  The operation has no body, and the properties of the body for
`POST` are parameters of the query. -/
theorem build_get (o : BuildOptions) (r : Route) (d : Descriptor) (source : String)
    (hm : Text.uppered method = "GET") :
    Agree (fun post op => op.Queries post)
      (buildOperation o r "POST" ⟨some d, source⟩) (buildOperation o r method ⟨some d, source⟩) := by
  refine (agree_build o r source (agree_inputOf d _ _)).imp ?_
  rintro post op ⟨hlike, input, input', ⟨body, hb, hinput, hinput'⟩, hpost, hop⟩
  rw [hm] at hinput'
  obtain rfl := Except.ok.inj ((inputOf_post hb).symm.trans hinput)
  obtain rfl := Except.ok.inj ((inputOf_get hb).symm.trans hinput')
  have hpath : post.parameters = pathParameters r.path :=
    hpost.parameters.trans (List.append_nil _)
  refine ⟨hlike, hop.body, hpath ▸ inPath_pathParameters r.path, _,
    renderProperties body.properties, body.required, _, hpost.body,
    ObjectSchema.lookup_properties _, ObjectSchema.lookup_required _, ?_,
    asks_queryParameter body.properties body.required⟩
  rw [hop.parameters, hpath]

/-- The registration asked for by `get`: the name and the tags are parameters of the query. -/
theorem build_get_registration :
    ∃ post op, buildOperation {} userRoute "POST" ⟨some registration, ""⟩ = .ok post ∧
      buildOperation {} userRoute "get" ⟨some registration, ""⟩ = .ok op ∧
      op.parameters.map Parameter.name = ["user", "name", "tags"] ∧ op.Queries post := by
  obtain ⟨post, hpost⟩ : ∃ post,
      buildOperation {} userRoute "POST" ⟨some registration, ""⟩ = .ok post := ⟨_, rfl⟩
  obtain ⟨op, hop, hnames⟩ : ∃ op,
      buildOperation {} userRoute "get" ⟨some registration, ""⟩ = .ok op ∧
      op.parameters.map Parameter.name = ["user", "name", "tags"] := ⟨_, rfl, rfl⟩
  have hagree := build_get {} userRoute registration "" (rfl : Text.uppered "get" = "GET")
  rw [hpost, hop] at hagree
  cases hagree with
  | ok hqueries => exact ⟨post, op, hpost, hop, hnames, hqueries⟩

end Methods

end RouteDocs
