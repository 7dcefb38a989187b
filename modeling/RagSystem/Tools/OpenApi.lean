import RagSystem.Data.JsonPath
import RagSystem.Data.Substitution
import RagSystem.Tools.ProviderIndex

/-! Tools from an OpenAPI document (`proxy/app/tools/openapi/converter.py` and the loop over the
paths in `discovery.py`). A dictionary of the document is the list of its entries. -/

namespace RagSystem.Tools.OpenApi

abbrev Entries := List (String × Json)

/-- Exceptions: of a dictionary without the key, of the resolver's own checks, and those of a
value of the wrong type (`TypeError`, `AttributeError`). -/
inductive Raised
  | keyError
  | valueError
  | typeError
  deriving DecidableEq, Repr

/-- `HTTP_METHODS`, a set: the order in which a run goes through it is not the document's. -/
def httpMethods : List String := ["get", "post", "put", "delete", "patch", "head", "options"]

section Slug

def stripSlashes (text : List Char) : List Char :=
  ((text.dropWhile (· = '/')).reverse.dropWhile (· = '/')).reverse

def segments (path : String) : List (List Char) :=
  let cleaned := path.toList.filter (fun char => char ≠ '{' ∧ char ≠ '}')
  ((stripSlashes cleaned).splitOn '/').filter (· ≠ [])

/-- `_slugify_path` -/
def slugifyPath (path : String) : String := String.ofList (['_'].intercalate (segments path))

end Slug

section Pointer

/-- `str.replace` of a two-letter text. -/
def replacePair (first second : Char) (replacement : List Char) (text : List Char) : List Char :=
  Substitution.substitute (fun text => if [first, second].isPrefixOf text then 2 else 0)
    replacement text

def unescape (part : List Char) : String :=
  String.ofList (replacePair '~' '0' ['~'] (replacePair '~' '1' ['/'] part))

def isLocal (ref : String) : Bool := ['#', '/'].isPrefixOf ref.toList

def pointerParts (ref : String) : List String :=
  ((ref.toList.drop 2).splitOn '/').map unescape

/-- The loop of `_resolve_ref` over the parts that are left. -/
def walk (current : Json) : List String → Except Raised Json
  | [] => .ok current
  | part :: rest =>
      match current with
      | .obj entries =>
          match entries.lookup part with
          | some value => walk value rest
          | none => .error .keyError
      | _ => .error .valueError

/-- `_resolve_ref` -/
def resolveRef (spec : Entries) (ref : String) : Except Raised Entries :=
  if isLocal ref then do
    match ← walk (.obj spec) (pointerParts ref) with
    | .obj entries => pure entries
    | _ => .error .valueError
  else .error .valueError

end Pointer

section Reading

variable (spec : Entries)

def asDict : Json → Except Raised Entries
  | .obj entries => .ok entries
  | _ => .error .typeError

/-- The dictionary behind the `$ref` of a value, the value itself without one, and `none` after a
`ValueError` of the resolver, the only exception that is caught. -/
def dereference (value : Json) : Except Raised (Option Entries) := do
  let holder ← asDict value
  match holder.lookup "$ref" with
  | none => pure (some holder)
  | some (.str ref) =>
      match resolveRef spec ref with
      | .ok target => pure (some target)
      | .error .valueError => pure none
      | .error other => .error other
  | some _ => .error .typeError

/-- A schema whose `$ref` is not resolved stays as it is. -/
def schemaBehind (value : Json) : Except Raised Entries := do
  let holder ← asDict value
  let target ← dereference spec value
  pure (target.getD holder)

def typeMap : String → Option ParamType
  | "string" => some .str
  | "integer" => some .int
  | "number" => some .float
  | "boolean" => some .bool
  | "array" => some .list
  | "object" => some .dict
  | _ => none

/-- `_type_from_schema`: lists and dictionaries are no keys. -/
def typeFromSchema (schema : Entries) : Except Raised ParamType :=
  match (schema.lookup "type").getD (.str "string") with
  | .str name => .ok ((typeMap name).getD .str)
  | .arr _ => .error .typeError
  | .obj _ => .error .typeError
  | _ => .ok .str

/-- The items of a `for` loop over the value. -/
def iterate : Json → Except Raised (List Json)
  | .arr items => .ok items
  | .obj entries => .ok (entries.map (fun entry => .str entry.1))
  | .str text => .ok (text.toList.map (fun char => .str (String.ofList [char])))
  | _ => .error .typeError

def isText (text : String) : Json → Bool
  | .str other => text = other
  | _ => false

/-- `name in value` -/
def contains (name : String) : Json → Except Raised Bool
  | .arr items => .ok (items.any (isText name))
  | .obj entries => .ok (entries.any (fun entry => entry.1 = name))
  | .str text => .ok (text.toList.tails.any (fun suffix => name.toList.isPrefixOf suffix))
  | _ => .error .typeError

end Reading

/-- A `ToolParam` with the values of the document as they are. -/
structure EndpointParam where
  name : Json
  type : ParamType
  description : Json
  required : Json
  default : Option Json := none
  enum : Json
  deriving Repr

section Parameters

variable (str : Json → String) (spec : Entries)

/-- The schema of a parameter; `type` at the top level is that of Swagger 2. -/
def ownSchema (resolved : Entries) : Json :=
  match resolved.lookup "schema" with
  | none => .obj [("type", (resolved.lookup "type").getD (.str "string"))]
  | some .null => .obj [("type", (resolved.lookup "type").getD (.str "string"))]
  | some schema => schema

/-- One turn of the loop over `parameters`; `none` is a turn that is left with `continue`. -/
def readParameter (rawParam : Json) : Except Raised (Option EndpointParam) := do
  match ← dereference spec rawParam with
  | none => pure none
  | some resolved =>
      let name := (resolved.lookup "name").getD (.str "")
      let location := (resolved.lookup "in").getD (.str "")
      let description := (resolved.lookup "description").getD (.str "")
      let required := (resolved.lookup "required").getD (.bool false)
      let schema ← schemaBehind spec (ownSchema resolved)
      let type ← typeFromSchema schema
      pure (some
        { name, type
          description := if description.truthy then description
            else .str (str location ++ " parameter: " ++ str name)
          required := if required.truthy then .bool (isText "path" location) else required
          default := schema.lookup "default"
          enum := (schema.lookup "enum").getD .null })

def readProperty (bodySchema : Entries) (property : String × Json) :
    Except Raised EndpointParam := do
  let schema ← schemaBehind spec property.2
  let requiredList := (bodySchema.lookup "required").getD (.arr [])
  let type ← typeFromSchema schema
  let required ← contains property.1 requiredList
  pure
    { name := .str property.1, type
      description := (schema.lookup "description").getD (.str "")
      required := .bool required
      enum := (schema.lookup "enum").getD .null }

def readProperties (bodySchema : Entries) : Except Raised (List EndpointParam) :=
  if ((bodySchema.lookup "type").any (isText "object")) then
    match bodySchema.lookup "properties" with
    | some properties => do
        let properties ← asDict properties
        properties.mapM (readProperty spec bodySchema)
    | none => pure []
  else pure []

def readContent (requestBody : Entries) : Except Raised (List EndpointParam) := do
  let content ← asDict ((requestBody.lookup "content").getD (.obj []))
  let jsonContent ← asDict ((content.lookup "application/json").getD (.obj []))
  let bodySchema ← schemaBehind spec ((jsonContent.lookup "schema").getD (.obj []))
  readProperties spec bodySchema

def readPresentBody (requestBody : Json) : Except Raised (List EndpointParam) := do
  match ← dereference spec requestBody with
  | none => pure []
  | some requestBody => readContent spec requestBody

def readBody : Json → Except Raised (List EndpointParam)
  | .null => pure []
  | requestBody => readPresentBody spec requestBody

/-- `_extract_parameters` -/
def extractParameters (operation : Entries) : Except Raised (List EndpointParam) := do
  let rawParams ← iterate ((operation.lookup "parameters").getD (.arr []))
  let params ← rawParams.mapM (readParameter str spec)
  let body ← readBody spec ((operation.lookup "requestBody").getD .null)
  pure (params.reduceOption ++ body)

end Parameters

/-- What the handler of `_make_openapi_handler` is closed over. -/
structure OpenapiHandler where
  baseUrl : String
  pathTemplate : String
  method : String
  deriving DecidableEq, Repr

/-- A `ToolDefinition` of the provider `openapi`. -/
structure EndpointTool where
  name : String
  description : Json
  parameters : List EndpointParam
  asyncHandler : OpenapiHandler
  category : String
  tags : Json
  provider : String := "openapi"
  visibility : ToolVisibility
  deriving Repr

section Generator

def operationId (operation : Entries) : Option String :=
  match operation.lookup "operationId" with
  | some (.str id) => if id = "" then none else some id
  | _ => none

def slugName (method path : String) : String := method.toLower ++ "_" ++ slugifyPath path

def toolName (path method : String) (operation : Entries) : String :=
  (operationId operation).getD (slugName method path)

def firstTruthy (first second : Option Json) (fallback : Json) : Json :=
  ((first.filter Json.truthy).or (second.filter Json.truthy)).getD fallback

/-- `OpenAPIToolGenerator.from_endpoint` -/
def fromEndpoint (str : Json → String) (path method : String) (operation spec : Entries)
    (baseUrl : String) (defaultVisibility : ToolVisibility) : Except Raised EndpointTool := do
  let parameters ← extractParameters str spec operation
  pure
    { name := toolName path method operation
      description := firstTruthy (operation.lookup "description") (operation.lookup "summary")
        (.str (method.toUpper ++ " " ++ path))
      parameters
      asyncHandler := ⟨baseUrl, path, method.toLower⟩
      category := if method.toLower = "get" then "search" else "action"
      tags := (operation.lookup "tags").getD (.arr [])
      visibility := defaultVisibility }

structure Endpoint where
  path : String
  method : String
  operation : Entries
  deriving Repr

def endpointsOf (methods : List String) (entry : String × Json) : List Endpoint :=
  match entry.2 with
  | .obj operations => methods.filterMap (fun method =>
      match operations.lookup method with
      | some (.obj operation) => some ⟨entry.1, method, operation⟩
      | _ => none)
  | _ => []

def endpoints (methods : List String) (paths : Entries) : List Endpoint :=
  paths.flatMap (endpointsOf methods)

/-- The loops of `_discover_auto`, without tag filters. -/
def discoverAuto (str : Json → String) (methods : List String) (paths spec : Entries)
    (baseUrl : String) (defaultVisibility : ToolVisibility) :
    Except Raised (List EndpointTool) :=
  (endpoints methods paths).mapM (fun endpoint =>
    fromEndpoint str endpoint.path endpoint.method endpoint.operation spec baseUrl
      defaultVisibility)

def EndpointTool.toDefinition (tool : EndpointTool) : ToolDefinition OpenapiHandler where
  name := tool.name
  asyncHandler := some tool.asyncHandler
  category := tool.category
  visibility := tool.visibility
  provider := tool.provider

def registerTools (tools : List EndpointTool) : ProviderRegistry OpenapiHandler :=
  ProviderRegistry.registerAll (tools.map EndpointTool.toDefinition) {}

end Generator

end RagSystem.Tools.OpenApi
