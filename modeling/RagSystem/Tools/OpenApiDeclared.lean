import Mathlib.Data.List.Perm.Subperm
import Mathlib.Data.List.ReduceOption
import RagSystem.Tools.ToolSchemas

/-! What the parameters and the JSON body of an OpenAPI operation declare, behind the references of
the document, and when the schema of its tool tells it. -/

namespace RagSystem.Tools.OpenApi

open Raising ToolSchemas

/-! ### References -/

/-- A reference object: what stands beside its pointer is no part of a schema. -/
structure IsReference (holder : Entries) (ref : String) : Prop where
  points : holder.lookup "$ref" = some (.str ref)
  alone : ∀ key, key ∉ ["$ref", "summary", "description"] → holder.lookup key = none

/-- A chain of local references, of any length, from a holder to what it stands for. -/
inductive Leads (spec : Entries) : Entries → Entries → Prop
  | here {holder : Entries} (direct : holder.lookup "$ref" = none) : Leads spec holder holder
  | next {holder target final : Entries} {ref : String} (reference : IsReference holder ref)
      (points : pointed spec ref = some target) (more : Leads spec target final) :
      Leads spec holder final

/-- No more than one reference is between the holder and what it stands for. -/
def Near (spec holder : Entries) : Prop := (schemaOf spec holder).lookup "$ref" = none

section References

variable {spec holder target final : Entries} {ref : String}

theorem not_dangles_of_pointed (points : pointed spec ref = some target) : ¬ Dangles spec ref := by
  intro dangles
  rw [pointed, if_pos dangles.1] at points
  have missing := walk_eq_keyError_iff.mpr dangles.2
  cases found : (Json.obj spec).get? ((pointerParts ref).map Json.Step.key) with
  | none =>
      rw [found] at points
      cases points
  | some value =>
      rw [walk_eq_ok_iff.mpr found] at missing
      cases missing

theorem followable_of_leads (leads : Leads spec holder final) : Followable spec holder := by
  intro target found
  cases leads with
  | here direct =>
      rw [direct] at found
      cases found
  | next reference points more =>
      rw [reference.points] at found
      exact ⟨_, (Option.some.inj found).symm, not_dangles_of_pointed points⟩

theorem targetOf_of_leads (leads : Leads spec holder final) :
    targetOf spec holder = some (schemaOf spec holder) := by
  rw [schemaOf]
  cases leads with
  | here direct => rw [targetOf, direct, Option.getD_some]
  | next reference points more =>
      rw [targetOf, reference.points]
      dsimp only
      rw [points, Option.getD_some]

theorem schemaOf_of_near (leads : Leads spec holder final) (near : Near spec holder) :
    schemaOf spec holder = final := by
  cases leads with
  | here direct => rw [schemaOf, targetOf, direct, Option.getD_some]
  | next reference points more =>
      have target : schemaOf spec holder = _ :=
        Option.some.inj ((targetOf_of_leads (.next reference points more)).symm.trans
          (by rw [targetOf, reference.points]; exact points))
      rw [Near, target] at near
      cases more with
      | here direct => exact target
      | next further _ _ =>
          rw [further.points] at near
          cases near

theorem isReference_of_not_near (leads : Leads spec holder final) (far : ¬ Near spec holder) :
    ∃ ref, IsReference (schemaOf spec holder) ref := by
  cases leads with
  | here direct =>
      apply absurd _ far
      rw [Near, schemaOf, targetOf, direct, Option.getD_some, direct]
  | next reference points more =>
      have target : schemaOf spec holder = _ :=
        Option.some.inj ((targetOf_of_leads (.next reference points more)).symm.trans
          (by rw [targetOf, reference.points]; exact points))
      cases more with
      | here direct => exact absurd (by rw [Near, target, direct]) far
      | next further _ _ => exact ⟨_, target ▸ further⟩

end References

/-! ### Schemas -/

def Known (schema : Entries) : Prop :=
  ∀ type, schema.lookup "type" = some type → ∃ name ∈ jsonTypes, type = .str name

structure Bare (schema : Entries) : Prop where
  enum : present (schema.lookup "enum") = none
  default : schema.lookup "default" = none

structure Plain (schema : Entries) : Prop where
  type : ∀ type, schema.lookup "type" = some type → type = .str "string"
  bare : Bare schema

/-- The type that `_type_from_schema` returns where it does not raise. -/
def readType (schema : Entries) : ParamType :=
  match schema.lookup "type" with
  | some (.str name) => (typeMap name).getD .str
  | _ => .str

section Schemas

variable {schema : Entries}

theorem typeFromSchema_of_plainType (plain : PlainType schema) :
    typeFromSchema schema = .ok (readType schema) := by
  rw [typeFromSchema, readType]
  cases found : schema.lookup "type" with
  | none => rfl
  | some value =>
      have scalar := plain value found
      cases value with
      | arr items => cases scalar
      | obj entries => cases scalar
      | _ => rfl

theorem jsonType_typeMap_iff (name : String) :
    ((typeMap name).getD .str).jsonType = name ↔ name ∈ jsonTypes := by
  by_cases known : name ∈ jsonTypes
  · refine iff_of_true ?_ known
    simp only [jsonTypes, List.mem_cons, List.not_mem_nil, or_false] at known
    rcases known with rfl | rfl | rfl | rfl | rfl | rfl
    · rfl
    · rfl
    · rfl
    · rfl
    · rfl
    · rfl
  · refine iff_of_false ?_ known
    have unknown : typeMap name = none := by
      simp only [jsonTypes, List.mem_cons, List.not_mem_nil, or_false, not_or] at known
      obtain ⟨string, integer, number, boolean, array, object⟩ := known
      rw [typeMap]
      all_goals assumption
    rw [unknown]
    intro same
    exact known (same ▸ List.mem_cons_self)

theorem readType_iff :
    (∀ type, schema.lookup "type" = some type → type = .str (readType schema).jsonType) ↔
      Known schema := by
  rw [Known, readType]
  cases found : schema.lookup "type" with
  | none => simp
  | some value =>
      cases value with
      | str name => simp [← jsonType_typeMap_iff, eq_comm]
      | _ => simp

/-- The type and the values that were read are those of the schema. -/
structure Agrees (seen schema : Entries) : Prop where
  type : ∀ type, schema.lookup "type" = some type → type = .str (readType seen).jsonType
  enum : present (some ((seen.lookup "enum").getD .null)) = present (schema.lookup "enum")

theorem agrees_self_iff : Agrees schema schema ↔ Known schema := by
  rw [← readType_iff]
  constructor
  · intro agrees
    exact agrees.type
  · intro types
    refine ⟨types, ?_⟩
    cases schema.lookup "enum" with
    | none => rfl
    | some value => rfl

theorem agrees_blank_iff {seen : Entries} (type : readType seen = .str)
    (enum : seen.lookup "enum" = none) :
    Agrees seen schema ↔
      (∀ type, schema.lookup "type" = some type → type = .str "string") ∧
        present (schema.lookup "enum") = none := by
  constructor
  · intro agrees
    have types := agrees.type
    have values := agrees.enum
    rw [type] at types
    rw [enum] at values
    exact ⟨types, values.symm⟩
  · intro both
    obtain ⟨types, values⟩ := both
    refine ⟨?_, ?_⟩
    · rw [type]
      exact types
    · rw [enum, values]
      rfl

theorem plainType_of_missing (missing : schema.lookup "type" = none) : PlainType schema := by
  intro value found
  rw [missing] at found
  cases found

theorem plainType_of_known (known : Known schema) : PlainType schema := by
  intro value found
  obtain ⟨name, -, rfl⟩ := known value found
  rfl

theorem known_of_plain (plain : Plain schema) : Known schema := by
  intro type found
  exact ⟨"string", List.mem_cons_self, plain.type type found⟩

theorem shown_iff_of_leads {spec start final : Entries} (leads : Leads spec start final) :
    Known final ∧ (Near spec start ∨ Plain final) ↔
      PlainType (schemaOf spec start) ∧ Agrees (schemaOf spec start) final ∧
        (schemaOf spec start).lookup "default" = final.lookup "default" := by
  by_cases near : Near spec start
  · rw [schemaOf_of_near leads near, agrees_self_iff]
    constructor
    · intro shown
      exact ⟨plainType_of_known shown.1, shown.1, rfl⟩
    · intro read
      exact ⟨read.2.1, .inl near⟩
  · obtain ⟨ref, reference⟩ := isReference_of_not_near leads near
    have untyped := reference.alone "type" (by decide)
    rw [agrees_blank_iff (by rw [readType, untyped]) (reference.alone "enum" (by decide)),
      reference.alone "default" (by decide)]
    constructor
    · intro shown
      have plain := shown.2.resolve_left near
      exact ⟨plainType_of_missing untyped, ⟨plain.type, plain.bare.enum⟩, plain.bare.default.symm⟩
    · intro read
      obtain ⟨-, ⟨type, enum⟩, default⟩ := read
      have plain : Plain final := ⟨type, enum, default.symm⟩
      exact ⟨known_of_plain plain, .inr plain⟩

theorem schemaOf_type (spec : Entries) (value : Json) :
    schemaOf spec [("type", value)] = [("type", value)] := rfl

theorem shown_iff_of_own {seen : Entries}
    (own : seen = [("type", (schema.lookup "type").getD (.str "string"))]) :
    Known schema ∧ Bare schema ↔
      PlainType seen ∧ Agrees seen schema ∧ seen.lookup "default" = schema.lookup "default" := by
  have type : readType seen = readType schema := by
    rw [own, readType, readType]
    cases schema.lookup "type" with
    | none => rfl
    | some value => rfl
  have untold : seen.lookup "enum" = none ∧ seen.lookup "default" = none := by
    rw [own]
    exact ⟨rfl, rfl⟩
  constructor
  · intro shown
    obtain ⟨known, bare⟩ := shown
    refine ⟨?_, ⟨?_, ?_⟩, ?_⟩
    · intro value found
      obtain rfl : (schema.lookup "type").getD (.str "string") = value :=
        Option.some.inj (by rw [← found, own]; rfl)
      cases given : schema.lookup "type" with
      | none => rfl
      | some value => exact plainType_of_known known value given
    · rw [type]
      exact readType_iff.mpr known
    · rw [untold.1, bare.enum]
      rfl
    · rw [untold.2, bare.default]
  · intro read
    obtain ⟨-, agrees, default⟩ := read
    have types := agrees.type
    have values := agrees.enum
    rw [type] at types
    rw [untold.1] at values
    rw [untold.2] at default
    exact ⟨readType_iff.mp types, values.symm, default.symm⟩

theorem shown_iff_of_untyped {seen : Entries} (text : seen = [("type", .str "string")]) :
    Plain schema ↔
      PlainType seen ∧ Agrees seen schema ∧ seen.lookup "default" = schema.lookup "default" := by
  subst text
  rw [agrees_blank_iff rfl rfl]
  constructor
  · intro plain
    refine ⟨?_, ⟨plain.type, plain.bare.enum⟩, plain.bare.default.symm⟩
    intro value found
    obtain rfl := Option.some.inj found
    rfl
  · intro read
    obtain ⟨-, ⟨type, enum⟩, default⟩ := read
    exact ⟨type, enum, default.symm⟩

end Schemas

/-! ### Parameters -/

/-- Where the schema of a parameter stands: under `schema`, behind references; in the parameter
itself (Swagger 2); or under the one media type of `content`. -/
inductive Described (spec resolved : Entries) : Entries → Prop
  | schema {start final : Entries} (given : resolved.lookup "schema" = some (.obj start))
      (leads : Leads spec start final) : Described spec resolved final
  | own (unstructured : resolved.lookup "schema" = none)
      (direct : resolved.lookup "content" = none) : Described spec resolved resolved
  | content {mediaType : String} {media start final : Entries}
      (unstructured : resolved.lookup "schema" = none) (untyped : resolved.lookup "type" = none)
      (given : resolved.lookup "content" = some (.obj [(mediaType, .obj media)]))
      (stored : media.lookup "schema" = some (.obj start))
      (leads : Leads spec start final) : Described spec resolved final

/-- An item of `parameters`, with what it stands for and its schema. -/
structure Parameter (spec : Entries) where
  holder : Entries
  resolved : Entries
  leads : Leads spec holder resolved
  name : String
  named : resolved.lookup "name" = some (.str name)
  nonempty : name ≠ ""
  schema : Entries
  described : Described spec resolved schema

namespace Parameter

variable {spec : Entries} (parameter : Parameter spec)

def raw : Json := .obj parameter.holder

def isRequired : Bool := ((parameter.resolved.lookup "required").getD (.bool false)).truthy

def declared : Declared where
  name := parameter.name
  type := parameter.schema.lookup "type"
  enum := present (parameter.schema.lookup "enum")
  default := parameter.schema.lookup "default"
  required := parameter.isRequired

/-- The schema is read: the type is known and, unless only a text is declared, no more than one
reference leads to it. Of a parameter without `schema` only the own type is read. -/
def Shown : Prop :=
  match parameter.resolved.lookup "schema" with
  | some (.obj start) => Known parameter.schema ∧ (Near spec start ∨ Plain parameter.schema)
  | _ =>
      if parameter.resolved.lookup "content" = none then
        Known parameter.schema ∧ Bare parameter.schema
      else Plain parameter.schema

/-- The parameter is behind at most one reference, required only in the path, and its schema is
read. -/
structure Told : Prop where
  near : Near spec parameter.holder
  path : parameter.isRequired = true → parameter.resolved.lookup "in" = some (.str "path")
  shown : parameter.Shown

/-- What the loop has in `resolved`. -/
def seen : Entries := schemaOf spec parameter.holder

def start : Entries :=
  match ownSchema parameter.seen with
  | .obj entries => entries
  | _ => []

def seenSchema : Entries := schemaOf spec parameter.start

def loaded (str : Json → String) : EndpointParam where
  name := (parameter.seen.lookup "name").getD (.str "")
  type := readType parameter.seenSchema
  description :=
    let description := (parameter.seen.lookup "description").getD (.str "")
    if description.truthy then description
    else .str (str ((parameter.seen.lookup "in").getD (.str "")) ++ " parameter: " ++
      str ((parameter.seen.lookup "name").getD (.str "")))
  required :=
    let required := (parameter.seen.lookup "required").getD (.bool false)
    if required.truthy then
      .bool (isText "path" ((parameter.seen.lookup "in").getD (.str "")))
    else required
  default := parameter.seenSchema.lookup "default"
  enum := (parameter.seenSchema.lookup "enum").getD .null

variable {parameter} {str : Json → String}

theorem seen_of_near (near : Near spec parameter.holder) : parameter.seen = parameter.resolved :=
  schemaOf_of_near parameter.leads near

theorem ownSchema_seen (parameter : Parameter spec) :
    ownSchema parameter.seen = .obj parameter.start ∧ Followable spec parameter.start := by
  have blank (missing : parameter.seen.lookup "schema" = none) :
      ownSchema parameter.seen = .obj parameter.start ∧ Followable spec parameter.start := by
    have own : ownSchema parameter.seen =
        .obj [("type", (parameter.seen.lookup "type").getD (.str "string"))] := by
      rw [ownSchema, missing]
    have started : parameter.start =
        [("type", (parameter.seen.lookup "type").getD (.str "string"))] := by
      rw [start, own]
    refine ⟨by rw [own, started], ?_⟩
    rw [started]
    intro target found
    cases found
  by_cases near : Near spec parameter.holder
  · have same := seen_of_near near
    have described := parameter.described
    generalize parameter.schema = schema at described
    cases described with
    | @schema start final given leads =>
        have own : ownSchema parameter.seen = .obj start := by rw [ownSchema, same, given]
        have started : parameter.start = start := by rw [Parameter.start, own]
        rw [own, started]
        exact ⟨rfl, followable_of_leads leads⟩
    | own unstructured _ => exact blank (same ▸ unstructured)
    | content unstructured _ _ _ _ => exact blank (same ▸ unstructured)
  · obtain ⟨ref, reference⟩ := isReference_of_not_near parameter.leads near
    exact blank (reference.alone "schema" (by decide))

theorem readParameter_raw (plain : PlainType parameter.seenSchema) :
    readParameter str spec parameter.raw = .ok (some (parameter.loaded str)) := by
  have followed := dereference_of_followable (followable_of_leads parameter.leads)
  rw [targetOf_of_leads parameter.leads] at followed
  have own := (ownSchema_seen parameter).1
  have behind := schemaBehind_of_followable (ownSchema_seen parameter).2
  rw [seen] at own
  rw [readParameter, raw, followed]
  simp only [bind, Except.bind]
  rw [own, behind]
  dsimp only
  rw [← seenSchema, typeFromSchema_of_plainType plain]
  rfl

theorem plainType_of_returns (returns : Returns (readParameter str spec parameter.raw)) :
    PlainType parameter.seenSchema := by
  obtain ⟨holder, same, -, readable⟩ := returns_readParameter.mp returns
  obtain rfl := Json.obj.inj same
  obtain ⟨start, given, -, plain⟩ := readable _ (targetOf_of_leads parameter.leads)
  have own := (ownSchema_seen parameter).1
  obtain rfl := Json.obj.inj (own.symm.trans given)
  exact plain

theorem requires_iff (near : Near spec parameter.holder) :
    (parameter.loaded str).required.truthy = parameter.isRequired ↔
      (parameter.isRequired = true → parameter.resolved.lookup "in" = some (.str "path")) := by
  have same := seen_of_near near
  have path : isText "path" ((parameter.resolved.lookup "in").getD (.str "")) = true ↔
      parameter.resolved.lookup "in" = some (.str "path") := by
    cases parameter.resolved.lookup "in" with
    | none => decide
    | some value => cases value <;> simp [isText, eq_comm]
  have flag (value : Bool) : (Json.bool value).truthy = value := rfl
  by_cases required : parameter.isRequired = true
  · rw [← path]
    simp only [loaded, same, isRequired] at required ⊢
    rw [if_pos required, flag, required]
    simp
  · refine iff_of_true ?_ (fun impossible => absurd impossible required)
    simp only [loaded, same, isRequired] at required ⊢
    rw [if_neg required]

theorem shown_iff (near : Near spec parameter.holder) :
    parameter.Shown ↔ PlainType parameter.seenSchema ∧
      Agrees parameter.seenSchema parameter.schema ∧
        parameter.seenSchema.lookup "default" = parameter.schema.lookup "default" := by
  have same := seen_of_near near
  have described := parameter.described
  rw [Shown, seenSchema, start, same]
  generalize parameter.schema = schema at described ⊢
  cases described with
  | schema given leads =>
      rw [ownSchema, given]
      exact shown_iff_of_leads leads
  | own unstructured direct =>
      rw [ownSchema, unstructured]
      dsimp only
      rw [if_pos direct, schemaOf_type]
      exact shown_iff_of_own rfl
  | content unstructured untyped given stored leads =>
      rw [ownSchema, unstructured]
      dsimp only
      rw [if_neg (by rw [given]; exact Option.some_ne_none _), untyped, schemaOf_type]
      exact shown_iff_of_untyped rfl

theorem matches_iff (near : Near spec parameter.holder)
    (plain : PlainType parameter.seenSchema) :
    Matches (parameter.loaded str) parameter.declared ↔ parameter.Told := by
  constructor
  · intro fits
    exact ⟨near, (requires_iff near).mp fits.required,
      (shown_iff near).mpr ⟨plain, ⟨fits.type, fits.enum⟩, fits.default⟩⟩
  · intro told
    obtain ⟨-, agrees, default⟩ := (shown_iff near).mp told.shown
    exact ⟨agrees.type, agrees.enum, default, (requires_iff near).mpr told.path⟩

theorem name_of_near (near : Near spec parameter.holder) :
    (parameter.loaded str).name = .str parameter.declared.name := by
  rw [loaded, seen_of_near near, parameter.named]
  rfl

theorem name_of_not_near (far : ¬ Near spec parameter.holder) :
    (parameter.loaded str).name = .str "" := by
  obtain ⟨ref, reference⟩ := isReference_of_not_near parameter.leads far
  rw [loaded, seen, reference.alone "name" (by decide)]
  rfl

end Parameter

/-! ### The JSON body -/

structure Property (spec : Entries) where
  name : String
  holder : Entries
  schema : Entries
  leads : Leads spec holder schema

namespace Property

variable {spec : Entries} (required : List String) (property : Property spec)

def raw : String × Json := (property.name, .obj property.holder)

def declared : Declared where
  name := property.name
  type := property.schema.lookup "type"
  enum := present (property.schema.lookup "enum")
  default := property.schema.lookup "default"
  required := required.contains property.name

/-- Without a default, of a known type, and behind at most one reference unless it is a text. -/
structure Told : Prop where
  known : Known property.schema
  near : Near spec property.holder ∨ Plain property.schema
  default : property.schema.lookup "default" = none

def loaded : EndpointParam where
  name := .str property.name
  type := readType (schemaOf spec property.holder)
  description := ((schemaOf spec property.holder).lookup "description").getD (.str "")
  required := .bool (required.contains property.name)
  enum := ((schemaOf spec property.holder).lookup "enum").getD .null

variable {required property}

theorem readProperty_raw {bodySchema : Entries}
    (requires : (bodySchema.lookup "required").getD (.arr []) = .arr (required.map Json.str))
    (plain : PlainType (schemaOf spec property.holder)) :
    readProperty spec bodySchema property.raw = .ok (property.loaded required) := by
  have listed : (required.map Json.str).any (isText property.name) =
      required.contains property.name := by
    rw [List.any_map, List.contains_eq_any_beq]
    rfl
  rw [readProperty, raw, schemaBehind_of_followable (followable_of_leads property.leads)]
  simp only [bind, Except.bind]
  rw [typeFromSchema_of_plainType plain, requires, contains]
  dsimp only
  rw [listed]
  rfl

theorem plainType_of_returns {bodySchema : Entries}
    (returns : Returns (readProperty spec bodySchema property.raw)) :
    PlainType (schemaOf spec property.holder) := by
  obtain ⟨⟨holder, same, -, plain⟩, -⟩ := returns_readProperty.mp returns
  obtain rfl := Json.obj.inj same
  exact plain

theorem told_iff (required : List String) :
    property.Told ↔ PlainType (schemaOf spec property.holder) ∧
      Matches (property.loaded required) (property.declared required) := by
  have shown := shown_iff_of_leads property.leads
  constructor
  · intro told
    obtain ⟨plain, agrees, -⟩ := shown.mp ⟨told.known, told.near⟩
    exact ⟨plain, agrees.type, agrees.enum, told.default.symm, rfl⟩
  · intro read
    obtain ⟨plain, fits⟩ := read
    have default : property.schema.lookup "default" = none := fits.default.symm
    have agrees : Agrees (schemaOf spec property.holder) property.schema := ⟨fits.type, fits.enum⟩
    by_cases near : Near spec property.holder
    · rw [schemaOf_of_near property.leads near, agrees_self_iff] at agrees
      exact ⟨agrees, .inl near, default⟩
    · obtain ⟨ref, reference⟩ := isReference_of_not_near property.leads near
      obtain ⟨known, told⟩ := shown.mpr
        ⟨plain, agrees, (reference.alone "default" (by decide)).trans default.symm⟩
      exact ⟨known, told, default⟩

end Property

/-- A request body; without a JSON schema it is that of an empty one. -/
structure Body (spec : Entries) where
  holder : Entries
  resolved : Entries
  leads : Leads spec holder resolved
  content : Entries
  stored : (resolved.lookup "content").getD (.obj []) = .obj content
  media : Entries
  json : (content.lookup "application/json").getD (.obj []) = .obj media
  start : Entries
  given : (media.lookup "schema").getD (.obj []) = .obj start
  schema : Entries
  described : Leads spec start schema
  properties : List (Property spec)
  listed : (schema.lookup "properties").getD (.obj []) = .obj (properties.map Property.raw)
  required : List String
  requires : (schema.lookup "required").getD (.arr []) = .arr (required.map Json.str)

namespace Body

variable {spec : Entries} (body : Body spec)

def raw : Json := .obj body.holder

def declared : List Declared := body.properties.map (Property.declared body.required)

def pairs : List (EndpointParam × Declared) :=
  body.properties.map (fun property =>
    (property.loaded body.required, property.declared body.required))

/-- The body and its schema are behind at most one reference each, and the schema has its type. -/
structure Read : Prop where
  near : Near spec body.holder
  direct : Near spec body.start
  object : body.schema.lookup "type" = some (.str "object")

structure Told : Prop where
  read : body.properties ≠ [] → body.Read
  each : ∀ property ∈ body.properties, property.Told

variable {body}

theorem readBody_raw :
    readBody spec body.raw = readContent spec (schemaOf spec body.holder) := by
  rw [raw, readBody, readPresentBody,
    dereference_of_followable (followable_of_leads body.leads), targetOf_of_leads body.leads]
  · rfl
  · intro impossible
    cases impossible

theorem readContent_of_near (near : Near spec body.holder) :
    readContent spec (schemaOf spec body.holder) =
      readProperties spec (schemaOf spec body.start) := by
  rw [schemaOf_of_near body.leads near, readContent, body.stored]
  simp only [asDict, bind, Except.bind]
  rw [body.json]
  dsimp only
  rw [body.given, schemaBehind_of_followable (followable_of_leads body.described)]

theorem readBody_of_read (read : body.Read) :
    readBody spec body.raw = (body.properties.map Property.raw).mapM
      (readProperty spec body.schema) := by
  have listed := body.listed
  rw [readBody_raw, readContent_of_near read.near, schemaOf_of_near body.described read.direct,
    readProperties, read.object, if_pos (by decide)]
  cases given : body.schema.lookup "properties" with
  | none =>
      rw [given, Option.getD_none] at listed
      rw [← Json.obj.inj listed]
      rfl
  | some value =>
      rw [given, Option.getD_some] at listed
      rw [listed]
      rfl

theorem readBody_of_not_read (unread : ¬ body.Read) : readBody spec body.raw = .ok [] := by
  rw [readBody_raw]
  by_cases near : Near spec body.holder
  · rw [readContent_of_near near, readProperties]
    by_cases direct : Near spec body.start
    · rw [schemaOf_of_near body.described direct, if_neg]
      · rfl
      · intro object
        apply unread
        refine ⟨near, direct, ?_⟩
        cases type : body.schema.lookup "type" with
        | none =>
            rw [type] at object
            cases object
        | some value =>
            rw [type] at object
            cases value with
            | str name => simpa [isText, eq_comm] using object
            | _ => cases object
    · obtain ⟨ref, reference⟩ := isReference_of_not_near body.described direct
      rw [reference.alone "type" (by decide)]
      rfl
  · obtain ⟨ref, reference⟩ := isReference_of_not_near body.leads near
    rw [readContent, reference.alone "content" (by decide)]
    rfl

theorem map_fst_pairs :
    body.pairs.map Prod.fst = body.properties.map (Property.loaded body.required) := by
  rw [pairs, List.map_map]
  rfl

theorem mapM_readProperty
    (plain : ∀ property ∈ body.properties, PlainType (schemaOf spec property.holder)) :
    (body.properties.map Property.raw).mapM (readProperty spec body.schema) =
      .ok (body.properties.map (Property.loaded body.required)) := by
  have requires := body.requires
  generalize body.properties = properties at plain
  induction properties with
  | nil => rfl
  | cons property properties ih =>
      obtain ⟨first, rest⟩ := List.forall_mem_cons.mp plain
      exact mapM_cons_eq (Property.readProperty_raw requires first) (ih rest)

theorem readBody_of_told (told : body.Told) :
    readBody spec body.raw = .ok (body.properties.map (Property.loaded body.required)) := by
  by_cases read : body.Read
  · rw [readBody_of_read read]
    exact mapM_readProperty fun property member =>
      ((Property.told_iff body.required).mp (told.each property member)).1
  · have none : body.properties = [] := by
      by_contra some
      exact read (told.read some)
    rw [readBody_of_not_read read, none, List.map_nil]

theorem loaded_of_readBody {params : List EndpointParam}
    (loaded : readBody spec body.raw = .ok params) :
    (params = body.properties.map (Property.loaded body.required) ∧
        (body.properties ≠ [] → body.Read) ∧
        ∀ property ∈ body.properties, PlainType (schemaOf spec property.holder)) ∨
      (params = [] ∧ body.properties ≠ []) := by
  by_cases read : body.Read
  · left
    have plain : ∀ property ∈ body.properties, PlainType (schemaOf spec property.holder) := by
      rw [readBody_of_read read] at loaded
      intro property member
      exact Property.plainType_of_returns
        (returns_mapM.mp ⟨params, loaded⟩ _ (List.mem_map_of_mem member))
    rw [readBody_of_read read, mapM_readProperty plain] at loaded
    exact ⟨(Except.ok.inj loaded).symm, fun _ => read, plain⟩
  · rw [readBody_of_not_read read] at loaded
    obtain rfl := Except.ok.inj loaded
    by_cases none : body.properties = []
    · left
      rw [none]
      exact ⟨rfl, fun some => absurd rfl some, fun _ member => absurd member List.not_mem_nil⟩
    · exact .inr ⟨rfl, none⟩

end Body

/-! ### Operations -/

structure Operation (spec : Entries) where
  entries : Entries
  parameters : List (Parameter spec)
  listed : (entries.lookup "parameters").getD (.arr []) = .arr (parameters.map Parameter.raw)
  body : Option (Body spec)
  given : entries.lookup "requestBody" = body.map Body.raw

namespace Operation

variable {spec : Entries} (operation : Operation spec)

def bodyDeclared : List Declared := operation.body.elim [] Body.declared

def declared : List Declared :=
  operation.parameters.map Parameter.declared ++ operation.bodyDeclared

/-- No name is declared twice, and each parameter and the body is told. -/
structure Told : Prop where
  distinct : (operation.declared.map Declared.name).Nodup
  parameters : ∀ parameter ∈ operation.parameters, parameter.Told
  body : ∀ body ∈ operation.body, body.Told

def bodyPairs : List (EndpointParam × Declared) := operation.body.elim [] Body.pairs

def pairs (str : Json → String) : List (EndpointParam × Declared) :=
  operation.parameters.map (fun parameter => (parameter.loaded str, parameter.declared)) ++
    operation.bodyPairs

variable {operation} {str : Json → String}

theorem map_snd_bodyPairs : operation.bodyPairs.map Prod.snd = operation.bodyDeclared := by
  rw [bodyPairs, bodyDeclared]
  cases operation.body with
  | none => rfl
  | some body => exact List.map_map

theorem map_snd_pairs (str : Json → String) :
    (operation.pairs str).map Prod.snd = operation.declared := by
  rw [pairs, declared, List.map_append, List.map_map, map_snd_bodyPairs]
  rfl

theorem extractParameters_entries : extractParameters str spec operation.entries = (do
    let params ← (operation.parameters.map Parameter.raw).mapM (readParameter str spec)
    let body ← readBody spec ((operation.entries.lookup "requestBody").getD .null)
    pure (params.reduceOption ++ body)) := by
  rw [extractParameters, operation.listed]
  rfl

theorem mapM_readParameter
    (plain : ∀ parameter ∈ operation.parameters, PlainType parameter.seenSchema) :
    (operation.parameters.map Parameter.raw).mapM (readParameter str spec) =
      .ok (operation.parameters.map (fun parameter => some (parameter.loaded str))) := by
  generalize operation.parameters = parameters at plain
  induction parameters with
  | nil => rfl
  | cons parameter parameters ih =>
      obtain ⟨first, rest⟩ := List.forall_mem_cons.mp plain
      exact mapM_cons_eq (Parameter.readParameter_raw first) (ih rest)

theorem extractParameters_of_body
    (plain : ∀ parameter ∈ operation.parameters, PlainType parameter.seenSchema)
    {params : List EndpointParam}
    (body : readBody spec ((operation.entries.lookup "requestBody").getD .null) = .ok params) :
    extractParameters str spec operation.entries =
      .ok (operation.parameters.map (Parameter.loaded · str) ++ params) := by
  have present (parameters : List (Parameter spec)) :
      (parameters.map (fun parameter => some (parameter.loaded str))).reduceOption =
        parameters.map (Parameter.loaded · str) := by
    induction parameters with
    | nil => rfl
    | cons parameter parameters ih =>
        rw [List.map_cons, List.reduceOption_cons_of_some, ih, List.map_cons]
  rw [extractParameters_entries, mapM_readParameter plain, body]
  simp only [bind, Except.bind]
  rw [present]
  rfl

theorem readBody_of_told (told : operation.Told) :
    readBody spec ((operation.entries.lookup "requestBody").getD .null) =
      .ok (operation.bodyPairs.map Prod.fst) := by
  rw [operation.given, bodyPairs]
  cases held : operation.body with
  | none => rfl
  | some body =>
      rw [Option.map_some, Option.getD_some, Body.readBody_of_told (told.body body held)]
      exact congrArg Except.ok Body.map_fst_pairs.symm

theorem loaded_of_readBody {params : List EndpointParam}
    (loaded : readBody spec ((operation.entries.lookup "requestBody").getD .null) = .ok params) :
    (params = operation.bodyPairs.map Prod.fst ∧
        ∀ body ∈ operation.body, (body.properties ≠ [] → body.Read) ∧
          ∀ property ∈ body.properties, PlainType (schemaOf spec property.holder)) ∨
      (params = [] ∧ operation.bodyDeclared ≠ []) := by
  rw [operation.given] at loaded
  rw [bodyPairs, bodyDeclared]
  cases held : operation.body with
  | none =>
      rw [held] at loaded
      obtain rfl := Except.ok.inj loaded
      exact .inl ⟨rfl, nofun⟩
  | some body =>
      rw [held, Option.map_some, Option.getD_some] at loaded
      rcases Body.loaded_of_readBody loaded with all | none
      · left
        obtain ⟨rfl, read, plain⟩ := all
        refine ⟨Body.map_fst_pairs.symm, ?_⟩
        intro other member
        obtain rfl := Option.some.inj member
        exact ⟨read, plain⟩
      · right
        refine ⟨none.1, ?_⟩
        intro empty
        exact none.2 (List.map_eq_nil_iff.mp empty)

theorem named_bodyPairs : ∀ pair ∈ operation.bodyPairs, pair.1.name = .str pair.2.name := by
  rw [bodyPairs]
  cases operation.body with
  | none => exact nofun
  | some body => exact List.forall_mem_map.mpr (fun _ _ => rfl)

theorem matches_bodyPairs_iff
    (readable : ∀ body ∈ operation.body, (body.properties ≠ [] → body.Read) ∧
      ∀ property ∈ body.properties, PlainType (schemaOf spec property.holder)) :
    (∀ pair ∈ operation.bodyPairs, Matches pair.1 pair.2) ↔
      ∀ body ∈ operation.body, body.Told := by
  rw [bodyPairs]
  cases held : operation.body with
  | none => exact iff_of_true nofun nofun
  | some body =>
      obtain ⟨read, plain⟩ := readable body held
      rw [Option.elim_some, Body.pairs]
      simp only [Option.mem_some_iff, forall_eq']
      constructor
      · intro fits
        refine ⟨read, ?_⟩
        intro property member
        exact (Property.told_iff body.required).mpr
          ⟨plain property member, fits _ (List.mem_map_of_mem member)⟩
      · intro told
        refine List.forall_mem_map.mpr ?_
        intro property member
        exact ((Property.told_iff body.required).mp (told.each property member)).2

theorem forall_eq_of_perm {α : Type} {blank : α} {pairs : List (α × α)}
    (each : ∀ pair ∈ pairs, pair.1 = pair.2 ∨ pair.1 = blank)
    (perm : (pairs.map Prod.fst).Perm (pairs.map Prod.snd)) : ∀ pair ∈ pairs, pair.1 = pair.2 := by
  classical
  induction pairs with
  | nil => exact nofun
  | cons pair pairs ih =>
      obtain ⟨first, rest⟩ := List.forall_mem_cons.mp each
      rw [List.map_cons, List.map_cons] at perm
      have same : pair.1 = pair.2 := by
        by_contra different
        have blanked := first.resolve_left different
        have fewer : (pairs.map Prod.snd).countP (· = blank) ≤
            (pairs.map Prod.fst).countP (· = blank) := by
          rw [List.countP_map, List.countP_map]
          apply List.countP_mono_left
          intro other member blank
          rcases rest other member with equal | already
          · simpa [equal] using blank
          · simpa using already
        have counted := perm.countP_eq (· = blank)
        rw [List.countP_cons_of_pos (by simpa using blanked),
          List.countP_cons_of_neg (by simpa [← blanked] using Ne.symm different)] at counted
        omega
      rw [same] at perm
      exact List.forall_mem_cons.mpr ⟨same, ih rest perm.cons_inv⟩

theorem pairs_of_schemaTells
    (tells : SchemaTells (extractParameters str spec operation.entries) operation.declared) :
    extractParameters str spec operation.entries = .ok ((operation.pairs str).map Prod.fst) ∧
      (∀ pair ∈ operation.pairs str, pair.1.name = .str pair.2.name) ∧
      (∀ parameter ∈ operation.parameters,
        Near spec parameter.holder ∧ PlainType parameter.seenSchema) ∧
      ∀ body ∈ operation.body, (body.properties ≠ [] → body.Read) ∧
        ∀ property ∈ body.properties, PlainType (schemaOf spec property.holder) := by
  obtain ⟨loaded, -, extracted, -⟩ := id tells
  have returns : Returns (extractParameters str spec operation.entries) := ⟨loaded, extracted⟩
  rw [extractParameters_entries, returns_bind] at returns
  obtain ⟨params, read, more⟩ := returns
  obtain ⟨ofBody, body⟩ := returns_bind_pure.mp more
  have plain : ∀ parameter ∈ operation.parameters, PlainType parameter.seenSchema := by
    intro parameter member
    exact Parameter.plainType_of_returns
      (returns_mapM.mp ⟨params, read⟩ _ (List.mem_map_of_mem member))
  have whole := @extractParameters_of_body spec operation str plain ofBody body
  rw [whole] at tells
  obtain ⟨distinct, -, covered⟩ := names_of_schemaTells tells
  -- all declared names were loaded, and no more parameters than declared ones
  have covers : (operation.declared.map (fun one => Json.str one.name)).Subperm
      ((operation.parameters.map (Parameter.loaded · str) ++ ofBody).map EndpointParam.name) := by
    apply List.subperm_of_subset
    · have injective : Function.Injective Json.str := fun _ _ => Json.str.inj
      have mapped := distinct.map injective
      rwa [List.map_map] at mapped
    · intro name member
      obtain ⟨one, inside, rfl⟩ := List.mem_map.mp member
      obtain ⟨param, loaded, named⟩ := covered one inside
      exact List.mem_map.mpr ⟨param, loaded, named⟩
  have few := covers.length_le
  simp only [declared, List.length_map, List.length_append] at few
  rcases loaded_of_readBody body with all | none
  · obtain ⟨rfl, readable⟩ := all
    have pairs : operation.parameters.map (Parameter.loaded · str) ++
        operation.bodyPairs.map Prod.fst = (operation.pairs str).map Prod.fst := by
      rw [Operation.pairs, List.map_append, List.map_map]
      rfl
    have each : ∀ pair ∈ operation.pairs str,
        pair.1.name = .str pair.2.name ∨ pair.1.name = .str "" := by
      rw [Operation.pairs]
      intro pair member
      rcases List.mem_append.mp member with first | second
      · obtain ⟨parameter, -, rfl⟩ := List.mem_map.mp first
        by_cases near : Near spec parameter.holder
        · exact .inl (Parameter.name_of_near near)
        · exact .inr (Parameter.name_of_not_near near)
      · exact .inl (named_bodyPairs pair second)
    have named : ∀ pair ∈ operation.pairs str, pair.1.name = .str pair.2.name := by
      rw [pairs, ← map_snd_pairs str, List.map_map, List.map_map] at covers
      have perm := covers.perm_of_length_le (by simp)
      have exact := @forall_eq_of_perm Json (.str "")
        ((operation.pairs str).map (fun pair => (pair.1.name, Json.str pair.2.name)))
        (List.forall_mem_map.mpr each)
        (by
          rw [List.map_map, List.map_map]
          exact perm.symm)
      exact List.forall_mem_map.mp exact
    refine ⟨whole.trans (congrArg Except.ok pairs), named, ?_, readable⟩
    intro parameter member
    refine ⟨?_, plain parameter member⟩
    by_contra far
    have name := named (parameter.loaded str, parameter.declared)
      (List.mem_append_left _ (List.mem_map_of_mem member))
    rw [Parameter.name_of_not_near far] at name
    exact parameter.nonempty (Json.str.inj name).symm
  · obtain ⟨rfl, some⟩ := none
    have positive := List.length_pos_iff.mpr some
    simp only [List.length_nil] at few
    omega

theorem schemaTells_extractParameters_iff (str : Json → String) (operation : Operation spec) :
    SchemaTells (extractParameters str spec operation.entries) operation.declared ↔
      operation.Told := by
  have names : (operation.pairs str).map (fun pair => pair.2.name) =
      operation.declared.map Declared.name := by
    rw [← map_snd_pairs str, List.map_map]
    rfl
  have split (holds : EndpointParam × Declared → Prop) :
      (∀ pair ∈ operation.pairs str, holds pair) ↔
        (∀ parameter ∈ operation.parameters, holds (parameter.loaded str, parameter.declared)) ∧
          ∀ pair ∈ operation.bodyPairs, holds pair := by
    rw [pairs, List.forall_mem_append, List.forall_mem_map]
  constructor
  · intro tells
    obtain ⟨extracted, named, near, readable⟩ := pairs_of_schemaTells tells
    rw [extracted, ← map_snd_pairs str, schemaTells_iff named, split] at tells
    obtain ⟨distinct, params, body⟩ := tells
    refine ⟨names ▸ distinct, ?_, (matches_bodyPairs_iff readable).mp body⟩
    intro parameter member
    obtain ⟨direct, plain⟩ := near parameter member
    exact (Parameter.matches_iff direct plain).mp (params parameter member)
  · intro told
    have plain : ∀ parameter ∈ operation.parameters, PlainType parameter.seenSchema := by
      intro parameter member
      obtain ⟨near, -, shown⟩ := told.parameters parameter member
      exact ((Parameter.shown_iff near).mp shown).1
    have extracted : extractParameters str spec operation.entries =
        .ok ((operation.pairs str).map Prod.fst) := by
      rw [extractParameters_of_body plain (readBody_of_told told), pairs, List.map_append,
        List.map_map]
      rfl
    have named : ∀ pair ∈ operation.pairs str, pair.1.name = .str pair.2.name := by
      refine (split _).mpr ⟨?_, named_bodyPairs⟩
      intro parameter member
      exact Parameter.name_of_near (told.parameters parameter member).near
    rw [extracted, ← map_snd_pairs str, schemaTells_iff named, split, names]
    refine ⟨told.distinct, ?_, ?_⟩
    · intro parameter member
      exact (Parameter.matches_iff (told.parameters parameter member).near
        (plain parameter member)).mpr (told.parameters parameter member)
    · apply (matches_bodyPairs_iff ?_).mpr told.body
      intro body member
      refine ⟨(told.body body member).read, ?_⟩
      intro property inside
      exact ((Property.told_iff body.required).mp
        ((told.body body member).each property inside)).1

end Operation

end RagSystem.Tools.OpenApi
