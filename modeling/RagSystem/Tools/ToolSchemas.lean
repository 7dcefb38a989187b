import RagSystem.Tools.OpenApiReading

/-! The JSON schema of a tool whose parameters come from a document
(`proxy/app/tools/definition.py`), and what it has to say about the declared ones; the parameters of
declarative tools (`declarative.py`). -/

namespace RagSystem.Tools.ToolSchemas

open OpenApi

/-! ### Schemas -/

/-- `to_json_schema_property`. The loaders never set the type of the items. -/
def toJsonSchemaProperty (param : EndpointParam) : Entries :=
  [("type", .str param.type.jsonType)] ++
    (if param.description.truthy then [("description", param.description)] else []) ++
    (if param.enum.isNull then [] else [("enum", param.enum)]) ++
    param.default.toList.map (fun value => ("default", value))

/-- What `_build_schema_parts` has built. -/
structure SchemaParts where
  properties : Dict String Json := ∅
  required : List String := []

def addParam (parts : SchemaParts) (param : EndpointParam) : Except Raised SchemaParts :=
  match param.name with
  | .str name => .ok
      { properties := parts.properties.set name (.obj (toJsonSchemaProperty param))
        required := if param.required.truthy then parts.required ++ [name] else parts.required }
  | _ => .error .typeError

def buildSchemaParts (params : List EndpointParam) : Except Raised SchemaParts :=
  params.foldlM addParam {}

/-- `to_json_schema` -/
def toJsonSchema (params : List EndpointParam) : Except Raised Json := do
  let parts ← buildSchemaParts params
  return .obj [("type", .str "object"), ("properties", .obj parts.properties.entries),
    ("required", .arr (parts.required.map Json.str))]

/-! ### Declarations -/

/-- What a parameter is declared to be; no type is `none`. -/
structure Declared where
  name : String
  type : Option Json
  enum : Option Json
  default : Option Json
  required : Bool

def present (value : Option Json) : Option Json := value.filter (fun value => !value.isNull)

/-- A property with the type, the values and the default of the declaration. -/
structure Repeats (property : Entries) (declared : Declared) : Prop where
  type : ∀ type, declared.type = some type → property.lookup "type" = some type
  enum : property.lookup "enum" = declared.enum
  default : property.lookup "default" = declared.default

/-- One property for each declared parameter, and the required ones are listed. -/
structure Tells (declared : List Declared) (parts : SchemaParts) : Prop where
  keys : parts.properties.keys = declared.map Declared.name
  each : ∀ one ∈ declared, ∃ property,
    parts.properties.get? one.name = some (.obj property) ∧ Repeats property one
  required : parts.required = (declared.filter Declared.required).map Declared.name

/-- The parameters that were loaded have a schema that says what was declared. -/
def SchemaTells (loaded : Except Raised (List EndpointParam)) (declared : List Declared) : Prop :=
  ∃ params parts, loaded = .ok params ∧ buildSchemaParts params = .ok parts ∧ Tells declared parts

structure Matches (param : EndpointParam) (declared : Declared) : Prop where
  type : ∀ type, declared.type = some type → type = .str param.type.jsonType
  enum : present (some param.enum) = declared.enum
  default : param.default = declared.default
  required : param.required.truthy = declared.required

section Building

variable {param : EndpointParam} {declared : Declared}
  {pairs : List (EndpointParam × Declared)}

theorem lookup_type (param : EndpointParam) :
    (toJsonSchemaProperty param).lookup "type" = some (.str param.type.jsonType) := rfl

theorem lookup_enum (param : EndpointParam) :
    (toJsonSchemaProperty param).lookup "enum" = present (some param.enum) := by
  have last (value : Option Json) :
      (value.toList.map (fun value => ("default", value))).lookup "enum" = none := by
    cases value <;> rfl
  rw [toJsonSchemaProperty]
  by_cases described : param.description.truthy = true
  · by_cases empty : param.enum.isNull = true
    · simp [described, empty, present, last, List.lookup_cons, Option.filter_some]
    · simp [described, empty, present, List.lookup_cons, Option.filter_some]
  · by_cases empty : param.enum.isNull = true
    · simp [described, empty, present, last, List.lookup_cons, Option.filter_some]
    · simp [described, empty, present, List.lookup_cons, Option.filter_some]

theorem lookup_default (param : EndpointParam) :
    (toJsonSchemaProperty param).lookup "default" = param.default := by
  have last (value : Option Json) :
      (value.toList.map (fun value => ("default", value))).lookup "default" = value := by
    cases value <;> rfl
  rw [toJsonSchemaProperty]
  by_cases described : param.description.truthy = true
  · by_cases empty : param.enum.isNull = true
    · simp [described, empty, last, List.lookup_cons]
    · simp [described, empty, last, List.lookup_cons]
  · by_cases empty : param.enum.isNull = true
    · simp [described, empty, last, List.lookup_cons]
    · simp [described, empty, last, List.lookup_cons]

theorem matches_iff :
    Matches param declared ↔
      Repeats (toJsonSchemaProperty param) declared ∧
        param.required.truthy = declared.required := by
  constructor
  · intro fits
    refine ⟨⟨?_, ?_, ?_⟩, fits.required⟩
    · intro type given
      rw [lookup_type, fits.type type given]
    · rw [lookup_enum, fits.enum]
    · rw [lookup_default, fits.default]
  · intro both
    obtain ⟨repeats, required⟩ := both
    refine ⟨?_, ?_, ?_, required⟩
    · intro type given
      have found := repeats.type type given
      rw [lookup_type] at found
      exact (Option.some.inj found).symm
    · rw [← lookup_enum, repeats.enum]
    · rw [← lookup_default, repeats.default]

theorem foldlM_addParam (named : ∀ pair ∈ pairs, pair.1.name = .str pair.2.name)
    (parts : SchemaParts) :
    (pairs.map Prod.fst).foldlM addParam parts = .ok
      { properties := parts.properties.setAll
          (pairs.map (fun pair => (pair.2.name, .obj (toJsonSchemaProperty pair.1))))
        required := parts.required ++
          (pairs.filter (fun pair => pair.1.required.truthy)).map (fun pair => pair.2.name) } := by
  induction pairs generalizing parts with
  | nil => simp [Dict.setAll, pure, Except.pure]
  | cons pair pairs ih =>
      obtain ⟨first, rest⟩ := List.forall_mem_cons.mp named
      rw [List.map_cons, List.foldlM_cons, addParam, first]
      by_cases required : pair.1.required.truthy = true
      · refine (ih rest _).trans ?_
        simp [required, Dict.setAll]
      · refine (ih rest _).trans ?_
        simp [required, Dict.setAll]

theorem map_filter_eq_iff {α κ : Type} {name : α → κ} {first second : α → Bool} {items : List α}
    (distinct : (items.map name).Nodup) :
    (items.filter first).map name = (items.filter second).map name ↔
      ∀ item ∈ items, first item = second item := by
  induction items with
  | nil => simp
  | cons item items ih =>
      rw [List.map_cons, List.nodup_cons] at distinct
      have absent (keep : α → Bool) : name item ∉ (items.filter keep).map name :=
        fun member => distinct.1 ((List.filter_sublist.map name).subset member)
      rw [List.forall_mem_cons, ← ih distinct.2]
      cases one : first item with
      | true =>
          cases other : second item with
          | true => simp [one, other]
          | false =>
              refine iff_of_false ?_ (by simp)
              intro same
              apply absent second
              rw [List.filter_cons_of_pos one, List.filter_cons_of_neg (by simp [other])] at same
              rw [← same]
              exact List.mem_cons_self
      | false =>
          cases other : second item with
          | true =>
              refine iff_of_false ?_ (by simp)
              intro same
              apply absent first
              rw [List.filter_cons_of_neg (by simp [one]), List.filter_cons_of_pos other] at same
              rw [same]
              exact List.mem_cons_self
          | false => simp [one, other]

theorem schemaTells_iff (named : ∀ pair ∈ pairs, pair.1.name = .str pair.2.name) :
    SchemaTells (.ok (pairs.map Prod.fst)) (pairs.map Prod.snd) ↔
      (pairs.map (fun pair => pair.2.name)).Nodup ∧ ∀ pair ∈ pairs, Matches pair.1 pair.2 := by
  have names : (pairs.map Prod.snd).map Declared.name = pairs.map (fun pair => pair.2.name) := by
    rw [List.map_map]
    rfl
  have keys : (pairs.map (fun pair => (pair.2.name, Json.obj (toJsonSchemaProperty pair.1)))).map
      Prod.fst = pairs.map (fun pair => pair.2.name) := by
    rw [List.map_map]
    rfl
  have selected : ((pairs.map Prod.snd).filter Declared.required).map Declared.name =
      (pairs.filter (fun pair => pair.2.required)).map (fun pair => pair.2.name) := by
    rw [List.filter_map, List.map_map]
    rfl
  have built := foldlM_addParam named {}
  rw [List.nil_append] at built
  have entries (distinct : (pairs.map (fun pair => pair.2.name)).Nodup) :
      ((∅ : Dict String Json).setAll (pairs.map (fun pair =>
        (pair.2.name, Json.obj (toJsonSchemaProperty pair.1))))).entries =
        pairs.map (fun pair => (pair.2.name, Json.obj (toJsonSchemaProperty pair.1))) :=
    Dict.entries_setAll ∅ (by rw [← keys] at distinct; exact distinct)
  have found (distinct : (pairs.map (fun pair => pair.2.name)).Nodup)
      {pair : EndpointParam × Declared} (member : pair ∈ pairs) :
      ((∅ : Dict String Json).setAll (pairs.map (fun pair =>
        (pair.2.name, Json.obj (toJsonSchemaProperty pair.1))))).get? pair.2.name =
        some (.obj (toJsonSchemaProperty pair.1)) := by
    rw [← Dict.mem_entries_iff, entries distinct]
    exact List.mem_map.mpr ⟨pair, member, rfl⟩
  constructor
  · intro given
    obtain ⟨params, parts, loaded, shown, tells⟩ := given
    obtain rfl := Except.ok.inj loaded
    obtain rfl := Except.ok.inj (built.symm.trans shown)
    have distinct : (pairs.map (fun pair => pair.2.name)).Nodup := by
      rw [← names, ← tells.keys]
      exact Dict.nodup_keys _
    refine ⟨distinct, ?_⟩
    have required := tells.required
    rw [selected] at required
    intro pair member
    obtain ⟨property, held, repeats⟩ := tells.each pair.2 (List.mem_map_of_mem member)
    have same := Option.some.inj ((found distinct member).symm.trans held)
    rw [matches_iff]
    refine ⟨?_, (map_filter_eq_iff distinct).mp required pair member⟩
    rw [Json.obj.inj same]
    exact repeats
  · intro fine
    obtain ⟨distinct, fits⟩ := fine
    refine ⟨_, _, rfl, built, ?_, ?_, ?_⟩
    · rw [names, Dict.keys, entries distinct, keys]
    · intro one member
      obtain ⟨pair, inside, rfl⟩ := List.mem_map.mp member
      exact ⟨_, found distinct inside, (matches_iff.mp (fits pair inside)).1⟩
    · rw [selected]
      exact (map_filter_eq_iff distinct).mpr
        (fun pair member => (matches_iff.mp (fits pair member)).2)

theorem mem_keys_addParam {parts next : SchemaParts} (added : addParam parts param = .ok next) :
    (∃ name, param.name = .str name) ∧
      ∀ key, key ∈ next.properties.keys ↔ key ∈ parts.properties.keys ∨ param.name = .str key := by
  rw [addParam] at added
  split at added
  · next name given =>
      obtain rfl := Except.ok.inj added
      refine ⟨⟨name, given⟩, ?_⟩
      intro key
      rw [given, Dict.keys_set]
      by_cases stored : name ∈ parts.properties.keys
      · rw [if_pos stored]
        refine ⟨Or.inl, fun either => either.elim id ?_⟩
        intro same
        exact Json.str.inj same ▸ stored
      · rw [if_neg stored, List.mem_append, List.mem_singleton, Json.str.injEq, eq_comm]
  · cases added

theorem mem_keys_foldlM_addParam {params : List EndpointParam} {start parts : SchemaParts}
    (built : params.foldlM addParam start = .ok parts) :
    (∀ param ∈ params, ∃ name, param.name = .str name) ∧
      ∀ key, key ∈ parts.properties.keys ↔ key ∈ start.properties.keys ∨
        ∃ param ∈ params, param.name = .str key := by
  induction params generalizing start with
  | nil =>
      obtain rfl := Except.ok.inj built
      simp
  | cons param params ih =>
      rw [List.foldlM_cons] at built
      cases added : addParam start param with
      | error raised =>
          rw [added] at built
          cases built
      | ok next =>
          rw [added] at built
          obtain ⟨texts, keys⟩ := ih built
          obtain ⟨text, step⟩ := mem_keys_addParam added
          refine ⟨List.forall_mem_cons.mpr ⟨text, texts⟩, ?_⟩
          intro key
          rw [keys, step, or_assoc, List.exists_mem_cons_iff]

theorem names_of_schemaTells {params : List EndpointParam} {declaration : List Declared}
    (tells : SchemaTells (.ok params) declaration) :
    (declaration.map Declared.name).Nodup ∧
      (∀ param ∈ params, ∃ one ∈ declaration, param.name = .str one.name) ∧
      ∀ one ∈ declaration, ∃ param ∈ params, param.name = .str one.name := by
  obtain ⟨loaded, parts, same, built, tells⟩ := tells
  obtain rfl := Except.ok.inj same
  obtain ⟨texts, keys⟩ := mem_keys_foldlM_addParam built
  have mem_keys (key : String) : key ∈ declaration.map Declared.name ↔
      ∃ param ∈ params, param.name = .str key := by
    rw [← tells.keys, keys]
    simp [Dict.keys, EmptyCollection.emptyCollection, Dict.empty]
  refine ⟨tells.keys ▸ Dict.nodup_keys _, ?_, ?_⟩
  · intro param member
    obtain ⟨name, given⟩ := texts param member
    obtain ⟨one, inside, same⟩ := List.mem_map.mp ((mem_keys name).mpr ⟨param, member, given⟩)
    exact ⟨one, inside, by rw [given, same]⟩
  · intro one member
    exact (mem_keys one.name).mp (List.mem_map_of_mem member)

end Building

/-! ### Parameters of the registry -/

def ofToolParam (param : ToolParam) : EndpointParam where
  name := .str param.name
  type := param.type
  description := .str param.description
  required := .bool param.required
  default := param.default
  enum := param.enum.elim .null (fun values => .arr (values.map Json.str))

theorem toJsonSchemaProperty_ofToolParam {param : ToolParam} (itemless : param.itemsType = none) :
    param.toJsonSchemaProperty = .obj (toJsonSchemaProperty (ofToolParam param)) := by
  have items : (if param.type.jsonType = "array" then
      param.itemsType.toList.map (fun items =>
        ("items", Json.obj [("type", Json.str items.jsonType)])) else []) = [] := by
    rw [itemless]
    exact ite_self []
  have described : (Json.str param.description).truthy = true ↔ param.description ≠ "" := by
    simp [Json.truthy]
  rw [ToolParam.toJsonSchemaProperty, toJsonSchemaProperty, items, List.append_nil]
  cases enum : param.enum with
  | none => simp [ofToolParam, enum, Json.isNull, described]
  | some values => simp [ofToolParam, enum, Json.isNull, described]

theorem toJsonSchema_ofToolParam {η : Type} {tool : ToolDefinition η}
    (itemless : ∀ param ∈ tool.parameters, param.itemsType = none) :
    toJsonSchema (tool.parameters.map ofToolParam) = .ok tool.toJsonSchema := by
  have built := @foldlM_addParam
    (tool.parameters.map (fun param => (ofToolParam param, ⟨param.name, none, none, none, false⟩)))
    (List.forall_mem_map.mpr (fun _ _ => rfl)) {}
  have properties : tool.parameters.map
      (fun param => (param.name, Json.obj (toJsonSchemaProperty (ofToolParam param)))) =
      tool.parameters.map (fun param => (param.name, param.toJsonSchemaProperty)) := by
    apply List.map_congr_left
    intro param member
    rw [toJsonSchemaProperty_ofToolParam (itemless param member)]
  have required : ((tool.parameters.map (fun param =>
      (ofToolParam param, (⟨param.name, none, none, none, false⟩ : Declared)))).filter
        (fun pair => pair.1.required.truthy)).map (fun pair => pair.2.name) =
      (tool.parameters.filter ToolParam.required).map ToolParam.name := by
    rw [List.filter_map, List.map_map]
    rfl
  rw [List.map_map, List.map_map, List.nil_append, required] at built
  rw [toJsonSchema, buildSchemaParts]
  refine (congrArg (· >>= _) built).trans ?_
  rw [ToolDefinition.toJsonSchema, Dict.ofList, ← properties]
  simp only [bind, Except.bind, pure, Except.pure, List.map_map]
  rfl

/-! ### Declarative tools -/

/-- The keys of `_TYPE_MAP` that are texts. -/
def pythonType : String → ParamType
  | "str" => .str
  | "int" => .int
  | "float" => .float
  | "bool" => .bool
  | "list" => .list
  | "dict" => .dict
  | _ => .other

/-- The type of a parameter as `_TYPE_MAP` is asked for it: lists and dictionaries are no keys. -/
def spelledType : Json → Except Raised ParamType
  | .str name => .ok (pythonType name)
  | .arr _ => .error .typeError
  | .obj _ => .error .typeError
  | _ => .ok .other

/-- One turn of the loop of `_build_params`. -/
def buildParam (entry : String × Json) : Except Raised EndpointParam := do
  let spec ← asDict entry.2
  let type ← spelledType ((spec.lookup "type").getD (.str "string"))
  pure
    { name := .str entry.1, type
      description := (spec.lookup "description").getD (.str "")
      required := (spec.lookup "required").getD (.bool false)
      default := spec.lookup "default"
      enum := (spec.lookup "enum").getD .null }

/-- `_build_params` -/
def buildParams (rawParams : Entries) : Except Raised (List EndpointParam) :=
  rawParams.mapM buildParam

def jsonTypes : List String := ["string", "integer", "number", "boolean", "array", "object"]

def meantType (spelled : String) : Option String :=
  if spelled ∈ jsonTypes then some spelled
  else if pythonType spelled = .other then none
  else some (pythonType spelled).jsonType

/-- An entry under `parameters` of a tool, as `DeclarativeToolSchema` describes it. -/
structure DeclarativeParam where
  name : String
  spec : Entries
  typed : ∀ value, spec.lookup "type" = some value → ∃ spelled, value = .str spelled

def DeclarativeParam.declared (param : DeclarativeParam) : Declared where
  name := param.name
  type :=
    match param.spec.lookup "type" with
    | some (.str spelled) => (meantType spelled).map Json.str
    | _ => none
  enum := present (param.spec.lookup "enum")
  default := param.spec.lookup "default"
  required := ((param.spec.lookup "required").getD (.bool false)).truthy

def DeclarativeParam.raw (param : DeclarativeParam) : String × Json := (param.name, .obj param.spec)

/-- The parameters of a declarative tool, the entries of a dictionary. -/
structure DeclarativeTool where
  params : List DeclarativeParam
  distinct : (params.map DeclarativeParam.name).Nodup

/-- The type is not spelled like a JSON type other than `string`. -/
def DeclarativeParam.Spelled (param : DeclarativeParam) : Prop :=
  ∀ spelled, param.spec.lookup "type" = some (.str spelled) →
    spelled ∉ ["integer", "number", "boolean", "array", "object"]

section Declarative

theorem meantType_eq_iff (spelled : String) :
    (∀ type, meantType spelled = some type → type = (pythonType spelled).jsonType) ↔
      spelled ∉ ["integer", "number", "boolean", "array", "object"] := by
  by_cases json : spelled ∈ jsonTypes
  · have listed := json
    simp only [jsonTypes, List.mem_cons, List.not_mem_nil, or_false] at listed
    rcases listed with rfl | rfl | rfl | rfl | rfl | rfl
    · decide
    · decide
    · decide
    · decide
    · decide
    · decide
  · refine iff_of_true ?_ (fun member => json (List.mem_cons_of_mem _ member))
    intro type meant
    rw [meantType, if_neg json] at meant
    split at meant
    · cases meant
    · exact (Option.some.inj meant).symm

variable {param : DeclarativeParam} {tool : DeclarativeTool}

theorem spelledType_of_typed (param : DeclarativeParam) :
    spelledType ((param.spec.lookup "type").getD (.str "string")) =
      .ok (match param.spec.lookup "type" with
        | some (.str spelled) => pythonType spelled
        | _ => .other) := by
  cases typed : param.spec.lookup "type" with
  | none => rfl
  | some value =>
      obtain ⟨spelled, rfl⟩ := param.typed value typed
      rfl

def DeclarativeParam.loaded (param : DeclarativeParam) : EndpointParam where
  name := .str param.name
  type :=
    match param.spec.lookup "type" with
    | some (.str spelled) => pythonType spelled
    | _ => .other
  description := (param.spec.lookup "description").getD (.str "")
  required := (param.spec.lookup "required").getD (.bool false)
  default := param.spec.lookup "default"
  enum := (param.spec.lookup "enum").getD .null

theorem buildParam_raw (param : DeclarativeParam) : buildParam param.raw = .ok param.loaded := by
  rw [buildParam, DeclarativeParam.raw, asDict]
  simp only [bind, Except.bind]
  rw [spelledType_of_typed]
  rfl

theorem buildParams_raw (params : List DeclarativeParam) :
    buildParams (params.map DeclarativeParam.raw) = .ok (params.map DeclarativeParam.loaded) := by
  rw [buildParams]
  induction params with
  | nil => rfl
  | cons param params ih =>
      rw [List.map_cons, List.mapM_cons, buildParam_raw, ih]
      rfl

theorem matches_loaded_iff : Matches param.loaded param.declared ↔ param.Spelled := by
  have type : (∀ type, param.declared.type = some type → type = .str param.loaded.type.jsonType) ↔
      param.Spelled := by
    unfold DeclarativeParam.Spelled
    simp only [DeclarativeParam.declared, DeclarativeParam.loaded]
    cases typed : param.spec.lookup "type" with
    | none => simp
    | some value =>
        obtain ⟨spelled, rfl⟩ := param.typed value typed
        simp only [Option.some.injEq, Json.str.injEq, forall_eq', ← meantType_eq_iff,
          Option.map_eq_some_iff, forall_exists_index, and_imp, forall_apply_eq_imp_iff₂]
  constructor
  · intro fits
    exact type.mp fits.type
  · intro spelled
    refine ⟨type.mpr spelled, ?_, rfl, rfl⟩
    simp only [DeclarativeParam.declared, DeclarativeParam.loaded]
    cases given : param.spec.lookup "enum" with
    | none => rfl
    | some value => rfl

theorem schemaTells_buildParams_iff (tool : DeclarativeTool) :
    SchemaTells (buildParams (tool.params.map DeclarativeParam.raw))
        (tool.params.map DeclarativeParam.declared) ↔
      ∀ param ∈ tool.params, param.Spelled := by
  have told := @schemaTells_iff (tool.params.map (fun param => (param.loaded, param.declared)))
    (List.forall_mem_map.mpr (fun _ _ => rfl))
  rw [List.map_map, List.map_map, List.map_map] at told
  rw [buildParams_raw]
  refine told.trans ?_
  simp only [List.forall_mem_map, matches_loaded_iff]
  exact and_iff_right tool.distinct

end Declarative

end RagSystem.Tools.ToolSchemas
