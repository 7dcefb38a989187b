import Mathlib.Data.List.Dedup
import RagSystem.Data.Joining
import RagSystem.Tools.OpenApiReading

/-! When the tools of an OpenAPI document are as many as its endpoints: their names, from an
operation's id or from its path, and what the registry keeps of them. -/

namespace RagSystem.Tools.OpenApi

open Raising

section Names

variable {path otherPath method otherMethod : String}

def pathWords (path : String) : List (List Char) := Joining.words '_' (segments path)

theorem segments_full (path : String) : ∀ segment ∈ segments path, segment ≠ [] := by
  intro segment member
  simpa using (List.mem_filter.mp member).2

theorem slugifyPath_eq_iff :
    slugifyPath path = slugifyPath otherPath ↔ pathWords path = pathWords otherPath := by
  rw [slugifyPath, slugifyPath, String.ofList_inj,
    Joining.intercalate_eq_iff (segments_full path) (segments_full otherPath)]
  rfl

theorem plain_of_mem (known : method ∈ httpMethods) :
    method.toLower = method ∧ '_' ∉ method.toList := by
  have all : ∀ method ∈ httpMethods, method.toLower = method ∧ '_' ∉ method.toList := by
    decide +kernel
  exact all method known

theorem slugName_eq_iff (known : method ∈ httpMethods) (otherKnown : otherMethod ∈ httpMethods) :
    slugName method path = slugName otherMethod otherPath ↔
      method = otherMethod ∧ pathWords path = pathWords otherPath := by
  obtain ⟨lower, plain⟩ := plain_of_mem known
  obtain ⟨otherLower, otherPlain⟩ := plain_of_mem otherKnown
  have letters : ∀ first second : String, first = second ↔ first.toList = second.toList :=
    fun _ _ => String.toList_inj.symm
  rw [slugName, slugName, lower, otherLower, ← slugifyPath_eq_iff, letters, letters method,
    letters (slugifyPath path)]
  simp only [String.toList_append, List.append_assoc]
  exact Joining.append_separator_inj plain otherPlain

end Names

/-- Two endpoints that are given one name: by one id, by paths of the same words under the same
method, or by an id that reads like the method and path of the other. -/
def Clash (first second : Endpoint) : Prop :=
  match operationId first.operation, operationId second.operation with
  | some id, some other => id = other
  | none, none =>
      first.method = second.method ∧ pathWords first.path = pathWords second.path
  | some id, none => id = slugName second.method second.path
  | none, some other => other = slugName first.method first.path

def Endpoint.name (endpoint : Endpoint) : String :=
  toolName endpoint.path endpoint.method endpoint.operation

theorem name_eq_iff {first second : Endpoint} (known : first.method ∈ httpMethods)
    (otherKnown : second.method ∈ httpMethods) :
    first.name = second.name ↔ Clash first second := by
  unfold Endpoint.name toolName Clash
  cases operationId first.operation with
  | none =>
      cases operationId second.operation with
      | none => exact slugName_eq_iff known otherKnown
      | some other => exact eq_comm
  | some id =>
      cases operationId second.operation with
      | none => exact Iff.rfl
      | some other => exact Iff.rfl

theorem method_of_mem_endpoints {methods : List String} {paths : Entries} {endpoint : Endpoint}
    (member : endpoint ∈ endpoints methods paths) : endpoint.method ∈ methods := by
  obtain ⟨entry, -, inside⟩ := List.mem_flatMap.mp member
  unfold endpointsOf at inside
  split at inside
  · obtain ⟨method, known, found⟩ := List.mem_filterMap.mp inside
    split at found
    · cases found
      exact known
    · cases found
  · cases inside

section Registering

variable {η : Type} {name : String}

theorem mem_names_register {registry : Registry η} {tool : ToolDefinition η} :
    name ∈ (registry.register tool).tools.map ToolDefinition.name ↔
      name = tool.name ∨ name ∈ registry.tools.map ToolDefinition.name := by
  rw [List.mem_map, List.mem_map]
  constructor
  · intro present
    obtain ⟨other, member, rfl⟩ := present
    rcases Registry.mem_register.mp member with rfl | ⟨old, -⟩
    · exact Or.inl rfl
    · exact Or.inr ⟨other, old, rfl⟩
  · intro either
    by_cases same : name = tool.name
    · exact ⟨tool, Registry.mem_register.mpr (Or.inl rfl), same.symm⟩
    · obtain ⟨other, old, rfl⟩ := either.resolve_left same
      exact ⟨other, Registry.mem_register.mpr (Or.inr ⟨old, same⟩), rfl⟩

theorem mem_names_registerAll {state : ProviderRegistry η} {tools : List (ToolDefinition η)} :
    name ∈ (state.registerAll tools).registry.tools.map ToolDefinition.name ↔
      name ∈ tools.map ToolDefinition.name ∨
        name ∈ state.registry.tools.map ToolDefinition.name := by
  induction tools generalizing state with
  | nil => simp [ProviderRegistry.registerAll]
  | cons tool rest ih =>
      have unfolded : state.registerAll (tool :: rest) =
          (state.register tool).registerAll rest := rfl
      have registered : (state.register tool).registry = state.registry.register tool := rfl
      rw [unfolded, ih, registered, mem_names_register, List.map_cons, List.mem_cons, or_left_comm,
        or_assoc]

theorem length_registerAll_iff {tools : List (ToolDefinition η)} :
    (ProviderRegistry.registerAll tools {}).registry.tools.length = tools.length ↔
      (tools.map ToolDefinition.name).Nodup := by
  have same : ((ProviderRegistry.registerAll tools {}).registry.tools.map
      ToolDefinition.name).Perm (tools.map ToolDefinition.name).dedup := by
    rw [List.perm_ext_iff_of_nodup (ProviderRegistry.registerAll tools {}).registry.distinct
      (List.nodup_dedup _)]
    intro name
    rw [mem_names_registerAll, List.mem_dedup]
    simp
  have kept : (ProviderRegistry.registerAll tools {}).registry.tools.length =
      (tools.map ToolDefinition.name).dedup.length := by
    simpa using same.length_eq
  rw [kept, ← List.length_map (f := ToolDefinition.name), ← List.dedup_eq_self]
  constructor
  · exact (List.dedup_sublist _).eq_of_length
  · exact congrArg List.length

end Registering

def isStr : Json → Bool
  | .str _ => true
  | _ => false

/-- A document: its paths are a dictionary, and the ids of its operations are texts. -/
structure Document where
  spec : Entries
  paths : Entries
  hasPaths : (spec.lookup "paths").getD (.obj []) = .obj paths
  idTexts : ∀ endpoint ∈ endpoints httpMethods paths,
    (endpoint.operation.lookup "operationId").all isStr = true

section Distinct

variable (str : Json → String) (methods : List String) (document : Document) (baseUrl : String)
  (visibility : ToolVisibility)

def Document.endpoints (document : Document) (methods : List String) : List Endpoint :=
  OpenApi.endpoints methods document.paths

def Document.generate (endpoint : Endpoint) : Except Raised EndpointTool :=
  fromEndpoint str endpoint.path endpoint.method endpoint.operation document.spec baseUrl
    visibility

/-- Each endpoint has a tool of its own in the registry, and no reference stops a generation. -/
structure ToolsDistinct : Prop where
  registered : ∃ tools,
    discoverAuto str methods document.paths document.spec baseUrl visibility = .ok tools ∧
      (tools.map EndpointTool.name).Nodup ∧
      (registerTools tools).registry.getAll.length = (document.endpoints methods).length
  resolved : ∀ endpoint ∈ document.endpoints methods,
    document.generate str baseUrl visibility endpoint ≠ .error .keyError

end Distinct

variable {str : Json → String} {methods : List String} {document : Document} {baseUrl : String}
  {visibility : ToolVisibility}

theorem returns_discoverAuto (str : Json → String) (methods : List String) (document : Document)
    (baseUrl : String) (visibility : ToolVisibility) :
    Returns (discoverAuto str methods document.paths document.spec baseUrl visibility) ↔
      ∀ endpoint ∈ document.endpoints methods, Readable document.spec endpoint.operation := by
  rw [discoverAuto, returns_mapM]
  simp only [returns_fromEndpoint]
  rfl

theorem names_of_discoverAuto {tools : List EndpointTool}
    (discovered : discoverAuto str methods document.paths document.spec baseUrl visibility =
      .ok tools) :
    tools.map EndpointTool.name = (document.endpoints methods).map Endpoint.name :=
  map_eq_of_mapM discovered fun _ _ _ returned => name_of_fromEndpoint returned

theorem nodup_names_iff (document : Document) (order : methods.Perm httpMethods) :
    ((document.endpoints methods).map Endpoint.name).Nodup ↔
      (document.endpoints methods).Pairwise (fun first second => ¬ Clash first second) := by
  rw [List.Nodup, List.pairwise_map]
  apply List.Pairwise.iff_of_mem
  intro first second member other
  have known := order.subset (method_of_mem_endpoints member)
  have otherKnown := order.subset (method_of_mem_endpoints other)
  exact not_congr (name_eq_iff known otherKnown)

/-- The tools are as many as the endpoints if and only if no two endpoints clash and every
operation can be read: the references that are followed do not dangle. -/
theorem toolsDistinct_iff (str : Json → String) {methods : List String}
    (order : methods.Perm httpMethods) (document : Document) (baseUrl : String)
    (visibility : ToolVisibility) :
    ToolsDistinct str methods document baseUrl visibility ↔
      (document.endpoints methods).Pairwise (fun first second => ¬ Clash first second) ∧
      ∀ endpoint ∈ document.endpoints methods, Readable document.spec endpoint.operation := by
  rw [← nodup_names_iff document order]
  constructor
  · intro distinct
    obtain ⟨tools, discovered, apart, -⟩ := distinct.registered
    rw [names_of_discoverAuto discovered] at apart
    exact ⟨apart, (returns_discoverAuto ..).mp ⟨tools, discovered⟩⟩
  · intro both
    obtain ⟨apart, readable⟩ := both
    obtain ⟨tools, discovered⟩ :=
      (returns_discoverAuto str methods document baseUrl visibility).mpr readable
    have names := names_of_discoverAuto discovered
    have sizes : tools.length = (document.endpoints methods).length := by
      simpa using congrArg List.length names
    rw [← names] at apart
    constructor
    · have once : ((tools.map EndpointTool.toDefinition).map ToolDefinition.name).Nodup := by
        rw [List.map_map]
        exact apart
      refine ⟨tools, discovered, apart, ?_⟩
      calc (registerTools tools).registry.getAll.length
        _ = (tools.map EndpointTool.toDefinition).length := length_registerAll_iff.mpr once
        _ = tools.length := List.length_map _
        _ = (document.endpoints methods).length := sizes
    · intro endpoint member raised
      have returns : Returns (document.generate str baseUrl visibility endpoint) :=
        returns_fromEndpoint.mpr (readable endpoint member)
      rw [raised] at returns
      exact not_returns_error _ returns

/-- `str` of a text. -/
def plainText : Json → String
  | .str text => text
  | _ => ""

def petsPaths : Entries :=
  [("/pets", .obj [("get", .obj [("operationId", .str "listPets"),
      ("parameters", .arr [.obj [("$ref", .str "#/parameters/Limit")]])])]),
    ("/pets/{id}", .obj [("get", .obj []), ("delete", .obj [])])]

def petsDocument : Document where
  spec := [("paths", .obj petsPaths), ("parameters", .obj [("Limit", .obj
    [("name", .str "limit"), ("in", .str "query"), ("schema", .obj [("type", .str "integer")])])])]
  paths := petsPaths
  hasPaths := rfl
  idTexts := by decide +kernel

theorem toolsDistinct_iff_pets :
    ToolsDistinct plainText httpMethods petsDocument "https://pets" .public ∧
      (petsDocument.endpoints httpMethods).length = 3 := by
  have names : ((petsDocument.endpoints httpMethods).map Endpoint.name).Nodup := by
    decide +kernel
  have generated : Returns (discoverAuto plainText httpMethods petsDocument.paths
      petsDocument.spec "https://pets" .public) := by
    decide +kernel
  refine ⟨?_, by decide +kernel⟩
  apply (toolsDistinct_iff plainText (List.Perm.refl _) petsDocument "https://pets" .public).mpr
  exact ⟨(nodup_names_iff petsDocument (List.Perm.refl _)).mp names,
    (returns_discoverAuto ..).mp generated⟩

def templatePaths : Entries :=
  [("/pets/{id}", .obj [("get", .obj [])]), ("/pets/id", .obj [("get", .obj [])])]

def templateDocument : Document where
  spec := [("paths", .obj templatePaths)]
  paths := templatePaths
  hasPaths := rfl
  idTexts := by decide +kernel

def danglingPaths : Entries :=
  [("/pets", .obj [("get", .obj [("parameters",
    .arr [.obj [("$ref", .str "#/components/parameters/Limit")]])])])]

def danglingDocument : Document where
  spec := [("paths", .obj danglingPaths)]
  paths := danglingPaths
  hasPaths := rfl
  idTexts := by decide +kernel

theorem tools_not_distinct :
    ¬ ToolsDistinct plainText httpMethods templateDocument "https://pets" .public ∧
      ¬ ToolsDistinct plainText httpMethods danglingDocument "https://pets" .public := by
  constructor
  · intro distinct
    obtain ⟨tools, discovered, apart, -⟩ := distinct.registered
    rw [names_of_discoverAuto discovered] at apart
    exact absurd apart (by decide +kernel)
  · intro distinct
    obtain ⟨tools, discovered, -⟩ := distinct.registered
    have generated : Returns (discoverAuto plainText httpMethods danglingDocument.paths
      danglingDocument.spec "https://pets" .public) := ⟨tools, discovered⟩
    exact absurd generated (by decide +kernel)

end RagSystem.Tools.OpenApi
