import RagSystem.Data.Raising
import RagSystem.Tools.OpenApi

/-! When a tool is generated from an operation and when the generation raises: which references it
follows and what it has to find there. -/

namespace RagSystem.Tools.OpenApi

open Raising

section Pointer

variable {spec : Entries} {current value : Json} {part ref : String} {parts rest : List String}

theorem walk_obj {entries : Entries} (found : entries.lookup part = some value) :
    walk (.obj entries) (part :: rest) = walk value rest := by
  rw [walk, found]

theorem walk_missing {entries : Entries} (missing : entries.lookup part = none) :
    walk (.obj entries) (part :: rest) = .error .keyError := by
  rw [walk, missing]

theorem walk_other (other : current.isObj = false) :
    walk current (part :: rest) = .error .valueError := by
  cases current with
  | obj entries => cases other
  | _ => rfl

theorem get?_other (other : current.isObj = false) :
    current.get? (.key part :: rest.map Json.Step.key) = none := by
  cases current with
  | obj entries => cases other
  | _ => rfl

theorem walk_eq_ok_iff :
    walk current parts = .ok value ↔ current.get? (parts.map Json.Step.key) = some value := by
  induction parts generalizing current with
  | nil => simp [walk]
  | cons part rest ih =>
      cases isObj : current.isObj with
      | false => simp [walk_other isObj, get?_other isObj]
      | true =>
          cases current with
          | obj entries =>
              cases found : entries.lookup part with
              | none => simp [walk_missing found, found]
              | some inner => simp [walk_obj found, found, ih]
          | _ => cases isObj

def Misses (current : Json) (parts : List String) : Prop :=
  ∃ before part after entries, parts = before ++ part :: after ∧
    current.get? (before.map Json.Step.key) = some (.obj entries) ∧ entries.lookup part = none

theorem not_misses_nil : ¬ Misses current [] := by
  intro misses
  obtain ⟨before, part, after, entries, parts, -⟩ := misses
  simp at parts

theorem misses_cons_iff : Misses current (part :: rest) ↔
    ∃ entries, current = .obj entries ∧ ∀ value, entries.lookup part = some value →
      Misses value rest := by
  constructor
  · intro misses
    obtain ⟨before, next, after, last, parts, reached, missing⟩ := misses
    cases before with
    | nil =>
        obtain ⟨rfl, rfl⟩ : part = next ∧ rest = after := by simpa using parts
        rw [List.map_nil, Json.get?_nil, Option.some.injEq] at reached
        refine ⟨last, reached, fun value found => ?_⟩
        rw [missing] at found
        cases found
    | cons first before =>
        obtain ⟨rfl, rfl⟩ : part = first ∧ rest = before ++ next :: after := by simpa using parts
        cases isObj : current.isObj with
        | false =>
            rw [List.map_cons, get?_other isObj] at reached
            cases reached
        | true =>
            cases current with
            | obj entries =>
                refine ⟨entries, rfl, fun value found => ?_⟩
                rw [List.map_cons, Json.get?_obj_key, found, Option.bind_some] at reached
                exact ⟨before, next, after, last, rfl, reached, missing⟩
            | _ => cases isObj
  · intro inner
    obtain ⟨entries, rfl, later⟩ := inner
    cases found : entries.lookup part with
    | none => exact ⟨[], part, rest, entries, rfl, by simp, found⟩
    | some value =>
        obtain ⟨before, next, after, last, rfl, reached, missing⟩ := later value found
        refine ⟨part :: before, next, after, last, rfl, ?_, missing⟩
        rw [List.map_cons, Json.get?_obj_key, found, Option.bind_some, reached]

theorem walk_eq_keyError_iff : walk current parts = .error .keyError ↔ Misses current parts := by
  induction parts generalizing current with
  | nil => simp [walk, not_misses_nil]
  | cons part rest ih =>
      rw [misses_cons_iff]
      cases isObj : current.isObj with
      | false =>
          rw [walk_other isObj]
          constructor
          · intro impossible
            cases impossible
          · intro misses
            obtain ⟨entries, rfl, -⟩ := misses
            cases isObj
      | true =>
          cases current with
          | obj entries =>
              cases found : entries.lookup part with
              | none => simp [walk_missing found, found]
              | some inner => simp [walk_obj found, found, ih]
          | _ => cases isObj

theorem walk_ne_typeError : walk current parts ≠ .error .typeError := by
  induction parts generalizing current with
  | nil => simp [walk]
  | cons part rest ih =>
      cases isObj : current.isObj with
      | false => simp [walk_other isObj]
      | true =>
          cases current with
          | obj entries =>
              cases found : entries.lookup part with
              | none => simp [walk_missing found]
              | some inner => simpa [walk_obj found] using ih
          | _ => cases isObj

end Pointer

section Reference

variable {spec holder : Entries} {value : Json} {ref : String}

/-- A pointer into the document that comes to a dictionary without the next key. -/
def Dangles (spec : Entries) (ref : String) : Prop :=
  isLocal ref = true ∧ Misses (.obj spec) (pointerParts ref)

def pointed (spec : Entries) (ref : String) : Option Entries :=
  if isLocal ref then
    match (Json.obj spec).get? ((pointerParts ref).map Json.Step.key) with
    | some (.obj entries) => some entries
    | _ => none
  else none

/-- The dictionary that a holder stands for, behind its `$ref` if it has one. -/
def targetOf (spec holder : Entries) : Option Entries :=
  match holder.lookup "$ref" with
  | none => some holder
  | some (.str ref) => pointed spec ref
  | some _ => none

def schemaOf (spec holder : Entries) : Entries := (targetOf spec holder).getD holder

/-- A reference, where there is one, is a text and does not dangle. -/
def Followable (spec holder : Entries) : Prop :=
  ∀ target, holder.lookup "$ref" = some target → ∃ ref, target = .str ref ∧ ¬ Dangles spec ref

theorem resolveRef_of_dangles (dangles : Dangles spec ref) :
    resolveRef spec ref = .error .keyError := by
  rw [resolveRef, if_pos dangles.1, walk_eq_keyError_iff.mpr dangles.2]
  rfl

theorem resolveRef_of_not_dangles (sound : ¬ Dangles spec ref) :
    resolveRef spec ref = match pointed spec ref with
      | some entries => .ok entries
      | none => .error .valueError := by
  unfold resolveRef pointed
  cases isLocal : isLocal ref with
  | false => rfl
  | true =>
      have arrives : ¬ Misses (.obj spec) (pointerParts ref) := fun misses =>
        sound ⟨isLocal, misses⟩
      rw [if_pos rfl, if_pos rfl]
      cases walked : walk (.obj spec) (pointerParts ref) with
      | ok value =>
          rw [walk_eq_ok_iff.mp walked]
          cases value <;> rfl
      | error raised =>
          have nowhere : (Json.obj spec).get? ((pointerParts ref).map Json.Step.key) = none := by
            cases found : (Json.obj spec).get? ((pointerParts ref).map Json.Step.key) with
            | none => rfl
            | some value =>
                rw [walk_eq_ok_iff.mpr found] at walked
                cases walked
          rw [nowhere]
          cases raised with
          | keyError => exact absurd (walk_eq_keyError_iff.mp walked) arrives
          | valueError => rfl
          | typeError => exact absurd walked walk_ne_typeError

theorem dereference_of_followable (followable : Followable spec holder) :
    dereference spec (.obj holder) = .ok (targetOf spec holder) := by
  unfold dereference targetOf
  cases found : holder.lookup "$ref" with
  | none => simp only [asDict, bind, Except.bind, found]; rfl
  | some target =>
      obtain ⟨ref, rfl, sound⟩ := followable target found
      simp only [asDict, bind, Except.bind, found, resolveRef_of_not_dangles sound]
      cases pointed spec ref <;> rfl

theorem followable_of_returns (returns : Returns (dereference spec value)) :
    ∃ holder, value = .obj holder ∧ Followable spec holder := by
  cases value with
  | obj holder =>
      refine ⟨holder, rfl, fun target found => ?_⟩
      unfold dereference at returns
      simp only [asDict, bind, Except.bind, found] at returns
      cases target with
      | str ref =>
          refine ⟨ref, rfl, fun dangles => ?_⟩
          simp only [resolveRef_of_dangles dangles] at returns
          exact not_returns_error _ returns
      | _ => exact absurd returns (not_returns_error _)
  | _ => exact absurd returns (not_returns_error _)

theorem schemaBehind_of_followable (followable : Followable spec holder) :
    schemaBehind spec (.obj holder) = .ok (schemaOf spec holder) := by
  rw [schemaBehind, dereference_of_followable followable]
  rfl

theorem returns_bind_schemaBehind {α : Type} {next : Entries → Except Raised α} :
    Returns (schemaBehind spec value >>= next) ↔
      ∃ holder, value = .obj holder ∧ Followable spec holder ∧
        Returns (next (schemaOf spec holder)) := by
  rw [returns_bind]
  constructor
  · intro both
    obtain ⟨schema, read, more⟩ := both
    have followed : Returns (dereference spec value) := by
      unfold schemaBehind at read
      have all : Returns (asDict value >>= fun holder => dereference spec value >>= fun target =>
          pure (target.getD holder)) := ⟨schema, read⟩
      obtain ⟨holder, -, rest⟩ := returns_bind.mp all
      exact returns_bind_pure.mp rest
    obtain ⟨holder, rfl, followable⟩ := followable_of_returns followed
    rw [schemaBehind_of_followable followable] at read
    cases read
    exact ⟨holder, rfl, followable, more⟩
  · intro parts
    obtain ⟨holder, rfl, followable, more⟩ := parts
    exact ⟨_, schemaBehind_of_followable followable, more⟩

end Reference

/-! What each part of an operation has to be like. -/

section Readable

variable (spec : Entries)

def PlainType (schema : Entries) : Prop :=
  ∀ value, schema.lookup "type" = some value → value.isScalar = true

def ReadableSchema (value : Json) : Prop :=
  ∃ holder, value = .obj holder ∧ Followable spec holder ∧ PlainType (schemaOf spec holder)

def ReadableParameter (rawParam : Json) : Prop :=
  ∃ holder, rawParam = .obj holder ∧ Followable spec holder ∧
    ∀ resolved, targetOf spec holder = some resolved → ReadableSchema spec (ownSchema resolved)

/-- A value that `in` looks for a name in. -/
def Searchable : Json → Prop
  | .arr _ => True
  | .obj _ => True
  | .str _ => True
  | _ => False

def ReadableProperties (bodySchema : Entries) : Prop :=
  (bodySchema.lookup "type").any (isText "object") = true →
    ∀ value, bodySchema.lookup "properties" = some value →
      ∃ properties, value = .obj properties ∧ ∀ property ∈ properties,
        ReadableSchema spec property.2 ∧
          Searchable ((bodySchema.lookup "required").getD (.arr []))

def ReadableContent (requestBody : Entries) : Prop :=
  ∃ content jsonContent holder,
    (requestBody.lookup "content").getD (.obj []) = .obj content ∧
    (content.lookup "application/json").getD (.obj []) = .obj jsonContent ∧
    (jsonContent.lookup "schema").getD (.obj []) = .obj holder ∧
    Followable spec holder ∧ ReadableProperties spec (schemaOf spec holder)

def ReadableBody (value : Json) : Prop :=
  value.isNull = true ∨ ∃ holder, value = .obj holder ∧ Followable spec holder ∧
    ∀ requestBody, targetOf spec holder = some requestBody → ReadableContent spec requestBody

/-- The references that are followed do not dangle, and what is read has the right shape. -/
structure Readable (operation : Entries) : Prop where
  parameters : ∃ rawParams,
    iterate ((operation.lookup "parameters").getD (.arr [])) = .ok rawParams ∧
      ∀ rawParam ∈ rawParams, ReadableParameter spec rawParam
  requestBody : ReadableBody spec ((operation.lookup "requestBody").getD .null)

variable {spec} {str : Json → String} {value : Json} {operation : Entries}

theorem returns_typeFromSchema {schema : Entries} :
    Returns (typeFromSchema schema) ↔ PlainType schema := by
  unfold typeFromSchema PlainType
  cases found : schema.lookup "type" with
  | none => simp
  | some value => cases value <;> simp [Json.isScalar]

theorem returns_asDict_bind {α : Type} {next : Entries → Except Raised α} :
    Returns (asDict value >>= next) ↔ ∃ entries, value = .obj entries ∧ Returns (next entries) := by
  cases value with
  | obj entries =>
      constructor
      · intro returns
        exact ⟨entries, rfl, returns⟩
      · intro both
        obtain ⟨others, same, returns⟩ := both
        cases same
        exact returns
  | _ =>
      constructor
      · intro returns
        exact absurd returns (not_returns_error _)
      · intro both
        obtain ⟨entries, impossible, -⟩ := both
        cases impossible

theorem returns_bind_dereference {α : Type} {next : Option Entries → Except Raised α} :
    Returns (dereference spec value >>= next) ↔
      ∃ holder, value = .obj holder ∧ Followable spec holder ∧
        Returns (next (targetOf spec holder)) := by
  rw [returns_bind]
  constructor
  · intro both
    obtain ⟨target, read, more⟩ := both
    obtain ⟨holder, rfl, followable⟩ := followable_of_returns ⟨target, read⟩
    rw [dereference_of_followable followable] at read
    cases read
    exact ⟨holder, rfl, followable, more⟩
  · intro parts
    obtain ⟨holder, rfl, followable, more⟩ := parts
    exact ⟨_, dereference_of_followable followable, more⟩

theorem returns_readParameter {rawParam : Json} :
    Returns (readParameter str spec rawParam) ↔ ReadableParameter spec rawParam := by
  unfold readParameter ReadableParameter
  rw [returns_bind_dereference]
  apply exists_congr
  intro holder
  apply and_congr_right
  intro _
  apply and_congr_right
  intro _
  cases targetOf spec holder with
  | none => simp
  | some resolved =>
      dsimp only
      rw [returns_bind_schemaBehind]
      simp only [returns_bind_pure, returns_typeFromSchema, Option.some.injEq, forall_eq']
      rfl

theorem returns_contains {name : String} : Returns (contains name value) ↔ Searchable value := by
  cases value <;> simp [contains, Searchable]

theorem returns_readProperty {bodySchema : Entries} {property : String × Json} :
    Returns (readProperty spec bodySchema property) ↔ ReadableSchema spec property.2 ∧
      Searchable ((bodySchema.lookup "required").getD (.arr [])) := by
  unfold readProperty ReadableSchema
  rw [returns_bind_schemaBehind]
  simp only [returns_bind_of_forall (fun _ => returns_bind_pure.trans returns_contains),
    returns_typeFromSchema]
  constructor
  · intro parts
    obtain ⟨holder, schema, followable, plain, searchable⟩ := parts
    exact ⟨⟨holder, schema, followable, plain⟩, searchable⟩
  · intro parts
    obtain ⟨⟨holder, schema, followable, plain⟩, searchable⟩ := parts
    exact ⟨holder, schema, followable, plain, searchable⟩

theorem returns_readProperties {bodySchema : Entries} :
    Returns (readProperties spec bodySchema) ↔ ReadableProperties spec bodySchema := by
  unfold readProperties ReadableProperties
  by_cases object : (bodySchema.lookup "type").any (isText "object") = true
  · rw [if_pos object]
    simp only [object, true_implies]
    cases found : bodySchema.lookup "properties" with
    | none => simp
    | some properties =>
        simp only [returns_asDict_bind, returns_mapM, returns_readProperty, Option.some.injEq,
          forall_eq']
  · rw [if_neg object]
    simp [object]

theorem returns_readContent {requestBody : Entries} :
    Returns (readContent spec requestBody) ↔ ReadableContent spec requestBody := by
  unfold readContent ReadableContent
  simp only [returns_asDict_bind, returns_bind_schemaBehind, returns_readProperties]
  constructor
  · intro parts
    obtain ⟨content, first, jsonContent, second, holder, third, more⟩ := parts
    exact ⟨content, jsonContent, holder, first, second, third, more⟩
  · intro parts
    obtain ⟨content, jsonContent, holder, first, second, third, more⟩ := parts
    exact ⟨content, first, jsonContent, second, holder, third, more⟩

theorem returns_readPresentBody :
    Returns (readPresentBody spec value) ↔ ∃ holder, value = .obj holder ∧
      Followable spec holder ∧ ∀ requestBody, targetOf spec holder = some requestBody →
        ReadableContent spec requestBody := by
  unfold readPresentBody
  rw [returns_bind_dereference]
  apply exists_congr
  intro holder
  apply and_congr_right
  intro _
  apply and_congr_right
  intro _
  cases targetOf spec holder with
  | none => simp
  | some requestBody => simp [returns_readContent]

theorem returns_readBody : Returns (readBody spec value) ↔ ReadableBody spec value := by
  unfold ReadableBody
  rw [← returns_readPresentBody]
  cases value with
  | null => simp [readBody, Json.isNull]
  | _ => simp [readBody, Json.isNull]

theorem returns_extractParameters :
    Returns (extractParameters str spec operation) ↔ Readable spec operation := by
  unfold extractParameters
  rw [returns_bind]
  have rest : ∀ rawParams : List Json,
      Returns (do
        let params ← rawParams.mapM (readParameter str spec)
        let body ← readBody spec ((operation.lookup "requestBody").getD .null)
        pure (params.reduceOption ++ body)) ↔
      (∀ rawParam ∈ rawParams, ReadableParameter spec rawParam) ∧
        ReadableBody spec ((operation.lookup "requestBody").getD .null) := by
    intro rawParams
    rw [returns_bind_of_forall (fun _ => returns_bind_pure.trans returns_readBody), returns_mapM]
    simp only [returns_readParameter]
  simp only [rest]
  constructor
  · intro parts
    obtain ⟨rawParams, iterated, readable, body⟩ := parts
    exact ⟨⟨rawParams, iterated, readable⟩, body⟩
  · intro readable
    obtain ⟨rawParams, iterated, each⟩ := readable.parameters
    exact ⟨rawParams, iterated, each, readable.requestBody⟩

theorem returns_fromEndpoint {path method baseUrl : String} {visibility : ToolVisibility} :
    Returns (fromEndpoint str path method operation spec baseUrl visibility) ↔
      Readable spec operation := by
  unfold fromEndpoint
  rw [returns_bind_pure, returns_extractParameters]

theorem name_of_fromEndpoint {path method baseUrl : String} {visibility : ToolVisibility}
    {tool : EndpointTool}
    (returned : fromEndpoint str path method operation spec baseUrl visibility = .ok tool) :
    tool.name = toolName path method operation := by
  unfold fromEndpoint at returned
  cases read : extractParameters str spec operation with
  | error raised =>
      rw [read] at returned
      cases returned
  | ok parameters =>
      rw [read] at returned
      cases returned
      rfl

end Readable

end RagSystem.Tools.OpenApi
