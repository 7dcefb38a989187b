import Mathlib.Data.List.Nodup
import RagSystem.Data.Json

/-! Tool definitions and the registry of `proxy/app/tools/definition.py` and
`proxy/app/tools/registry.py`. The type `η` of the handlers stands for the Python callables. -/

namespace RagSystem.Tools

inductive ToolVisibility
  | «public»
  | admin
  | expert
  | user
  deriving DecidableEq, Repr

def ToolVisibility.value : ToolVisibility → String
  | .public => "public"
  | .admin => "admin"
  | .expert => "expert"
  | .user => "user"

/-- A Python type or its name; `other` is a type without an entry in `_TYPE_MAP`. -/
inductive ParamType
  | str
  | int
  | float
  | bool
  | list
  | dict
  | other
  deriving DecidableEq, Repr

/-- `_TYPE_MAP.get(type, "string")` -/
def ParamType.jsonType : ParamType → String
  | .str => "string"
  | .int => "integer"
  | .float => "number"
  | .bool => "boolean"
  | .list => "array"
  | .dict => "object"
  | .other => "string"

structure ToolParam where
  name : String
  type : ParamType
  description : String := ""
  required : Bool := true
  default : Option Json := none
  enum : Option (List String) := none
  itemsType : Option ParamType := none
  deriving Repr

structure RetryPolicy where
  maxRetries : Int := 3
  deriving DecidableEq, Repr

structure ToolDefinition (η : Type) where
  name : String
  description : String := ""
  parameters : List ToolParam := []
  handler : Option η := none
  asyncHandler : Option η := none
  category : String := "general"
  tags : List String := []
  visibility : ToolVisibility := .public
  timeoutSeconds : ℚ := 30
  retryPolicy : Option RetryPolicy := none
  dependsOn : List String := []
  provider : String := "sdk"
  deriving Repr

abbrev Params := Dict String Json

structure ToolResult where
  toolName : String
  toolCallId : String := ""
  content : String := ""
  error : Option String := none
  retryCount : Nat := 0
  deriving DecidableEq, Repr

namespace ToolParam

/-- `to_json_schema_property` -/
def toJsonSchemaProperty (param : ToolParam) : Json :=
  let jsonType := param.type.jsonType
  .obj ([("type", Json.str jsonType)] ++
    (if param.description ≠ "" then [("description", Json.str param.description)] else []) ++
    (param.enum.toList.map (fun values => ("enum", Json.arr (values.map Json.str)))) ++
    (param.default.toList.map (fun value => ("default", value))) ++
    (if jsonType = "array" then
      param.itemsType.toList.map (fun items =>
        ("items", Json.obj [("type", Json.str items.jsonType)]))
    else []))

end ToolParam

namespace ToolDefinition

variable {η : Type}

def toJsonSchema (tool : ToolDefinition η) : Json :=
  let properties : Dict String Json :=
    Dict.ofList (tool.parameters.map (fun param => (param.name, param.toJsonSchemaProperty)))
  .obj [("type", .str "object"), ("properties", .obj properties.entries),
    ("required", .arr ((tool.parameters.filter (·.required)).map (fun param => .str param.name)))]

def toOpenaiFormat (tool : ToolDefinition η) : Json :=
  .obj [("type", .str "function"),
    ("function", .obj [("name", .str tool.name), ("description", .str tool.description),
      ("parameters", tool.toJsonSchema)])]

def toAnthropicFormat (tool : ToolDefinition η) : Json :=
  .obj [("name", .str tool.name), ("description", .str tool.description),
    ("input_schema", tool.toJsonSchema)]

end ToolDefinition

/-- `_tools`: the registered tools in order, each under its own name. -/
structure Registry (η : Type) where
  tools : List (ToolDefinition η) := []
  distinct : (tools.map ToolDefinition.name).Nodup := by simp

namespace Registry

variable {η : Type}

def register (tool : ToolDefinition η) (registry : Registry η) : Registry η :=
  if known : tool.name ∈ registry.tools.map ToolDefinition.name then
    ⟨registry.tools.map (fun other => if other.name = tool.name then tool else other), by
      have kept : (fun other : ToolDefinition η =>
          (if other.name = tool.name then tool else other).name) = ToolDefinition.name := by
        funext other
        split
        · next same => exact same.symm
        · rfl
      simpa [Function.comp_def, kept] using registry.distinct⟩
  else
    ⟨registry.tools ++ [tool], by
      rw [List.map_append, List.nodup_append']
      refine ⟨registry.distinct, by simp, ?_⟩
      intro name present single
      obtain rfl : name = tool.name := by simpa using single
      exact known present⟩

def unregister (name : String) (registry : Registry η) : Registry η :=
  ⟨registry.tools.filter (fun tool => tool.name ≠ name),
    registry.distinct.sublist (List.filter_sublist.map ToolDefinition.name)⟩

/-- `get_tool` -/
def getTool (registry : Registry η) (name : String) : Option (ToolDefinition η) :=
  registry.tools.find? (fun tool => tool.name = name)

def getAll (registry : Registry η) : List (ToolDefinition η) := registry.tools

/-- `get_dependency_graph` -/
def getDependencyGraph (registry : Registry η) : Dict String (List String) :=
  Dict.ofList (registry.tools.map (fun tool => (tool.name, tool.dependsOn)))

theorem eq_of_name {registry : Registry η} {first second : ToolDefinition η}
    (known : first ∈ registry.tools) (other : second ∈ registry.tools)
    (same : first.name = second.name) : first = second :=
  List.inj_on_of_nodup_map registry.distinct known other same

theorem getTool_eq_some_iff {registry : Registry η} {name : String} {tool : ToolDefinition η} :
    registry.getTool name = some tool ↔ tool ∈ registry.tools ∧ tool.name = name := by
  constructor
  · intro found
    exact ⟨List.mem_of_find?_eq_some found, by simpa using List.find?_some found⟩
  · intro given
    rcases given with ⟨known, rfl⟩
    have hit : (registry.getTool tool.name).isSome := by
      rw [getTool, List.find?_isSome]
      exact ⟨tool, known, by simp⟩
    obtain ⟨other, found⟩ := Option.isSome_iff_exists.mp hit
    have same : other.name = tool.name := by simpa using List.find?_some found
    rw [found, eq_of_name (List.mem_of_find?_eq_some found) known same]

end Registry

/-- `ROLE_HIERARCHY` -/
def roleHierarchy : Dict String (List String) := Dict.ofList
  [("admin", ["public", "admin", "expert", "user"]), ("expert", ["public", "expert", "user"]),
    ("user", ["public", "user"]), ("read_only", ["public"])]

/-- `DEFAULT_VISIBILITY` -/
def defaultVisibility : List String := ["public"]

/-- `_visible_for_role` -/
def visibleForRole (visibility : ToolVisibility) : Option String → Bool
  | none => visibility = .public
  | some role => visibility.value ∈ (roleHierarchy.get? role).getD defaultVisibility

structure Filters where
  category : Option String := none
  tags : Option (List String) := none
  visibilityFilter : Option String := none
  provider : Option String := none

section Listing

variable {η : Type}

/-- `list_tools` -/
def listTools (registry : Registry η) (filters : Filters) : List (ToolDefinition η) :=
  let results := registry.tools
  let results := match filters.category with
    | none => results
    | some category => results.filter (·.category = category)
  let results := match filters.tags with
    | none => results
    | some tags => results.filter (fun tool => tags.all (· ∈ tool.tags))
  let results := match filters.provider with
    | none => results
    | some provider => results.filter (·.provider = provider)
  match filters.visibilityFilter with
  | none => results
  | some role => results.filter (fun tool => visibleForRole tool.visibility (some role))

def llmFormat (providerType : String) (tool : ToolDefinition η) : Json :=
  if providerType = "openai" then tool.toOpenaiFormat
  else if providerType = "anthropic" then tool.toAnthropicFormat
  else tool.toOpenaiFormat

/-- `get_tools_for_llm` -/
def getToolsForLlm (registry : Registry η) (providerType : String) (userRole : Option String) :
    List Json :=
  (listTools registry { visibilityFilter := userRole }).map (llmFormat providerType)

theorem name_eq_of_llmFormat {providerType : String} {first second : ToolDefinition η}
    (same : llmFormat providerType first = llmFormat providerType second) :
    first.name = second.name := by
  unfold llmFormat at same
  split at same
  · simp_all [ToolDefinition.toOpenaiFormat]
  · split at same
    · simp_all [ToolDefinition.toAnthropicFormat]
    · simp_all [ToolDefinition.toOpenaiFormat]

end Listing

section Execution

variable {η : Type} (call : η → Params → Except String String)

/-- The result of an execution and the handler that it ran, if it came that far. -/
structure Execution (η : Type) where
  result : ToolResult
  ran : Option η := none

/-- `_validate_params` -/
def validateParams (tool : ToolDefinition η) (params : Params) : List String :=
  (tool.parameters.filter (fun param => param.required ∧ param.name ∉ params.keys)).map (·.name)

/-- `execute` and `execute_async` with the handler they take. `call` is what running a handler
gives: its content, or the text of the exception. -/
def executeWith (handlerOf : ToolDefinition η → Option η) (registry : Registry η) (name : String)
    (params : Params) : Execution η :=
  match registry.getTool name with
  | none => { result := { toolName := name, error := some s!"Tool '{name}' not found" } }
  | some tool =>
      let missing := validateParams tool params
      if missing ≠ [] then
        let names := ", ".intercalate missing
        { result := { toolName := name, error := some s!"Missing required parameters: {names}" } }
      else
        match handlerOf tool with
        | none => { result := { toolName := name, error := some s!"Tool '{name}' has no handler" } }
        | some handler =>
            match call handler params with
            | .ok content => { result := { toolName := name, content }, ran := some handler }
            | .error text =>
                { result := { toolName := name, error := some text }, ran := some handler }

def execute (registry : Registry η) (name : String) (params : Params) : Execution η :=
  executeWith call ToolDefinition.handler registry name params

def executeAsync (registry : Registry η) (name : String) (params : Params) : Execution η :=
  executeWith call (fun tool => tool.asyncHandler.or tool.handler) registry name params

theorem executeWith_ran {handlerOf : ToolDefinition η → Option η} {registry : Registry η}
    {name : String} {params : Params} {tool : ToolDefinition η}
    (registered : registry.getTool name = some tool) :
    (executeWith call handlerOf registry name params).ran =
      if validateParams tool params = [] then handlerOf tool else none := by
  unfold executeWith
  rw [registered]
  by_cases complete : validateParams tool params = []
  · cases taken : handlerOf tool with
    | none => simp [complete, taken]
    | some handler => cases outcome : call handler params <;> simp [complete, taken, outcome]
  · simp [complete]

def completeParams (tool : ToolDefinition η) : Params :=
  Dict.ofList (tool.parameters.map (fun param => (param.name, Json.null)))

theorem validateParams_completeParams (tool : ToolDefinition η) :
    validateParams tool (completeParams tool) = [] := by
  unfold validateParams
  rw [List.map_eq_nil_iff, List.filter_eq_nil_iff]
  intro param member
  have named : param.name ∈ (completeParams tool).keys := by
    rw [Dict.mem_keys_iff, completeParams, Dict.exists_get?_ofList]
    exact ⟨(param.name, Json.null), List.mem_map.mpr ⟨param, member, rfl⟩, rfl⟩
  simp [named]

end Execution

end RagSystem.Tools
