import RagSystem.Data.Layering
import RagSystem.Tools.Registry
import RagSystem.Transition.Run

/-! The parallel executor of `proxy/app/tools/orchestrator.py`: dependency levels, the concurrent
executions of a level and the assembly of their results. -/

namespace RagSystem.Tools

open Layering Transition

structure ToolCall where
  id : String
  name : String
  arguments : Params := ∅

inductive ResolutionError
  | unresolved (tool dependency : String)
  | circular (remaining : List String)
  deriving DecidableEq, Repr

/-- The loop of `_resolve_dependency_levels`; the fuel is the number of names left. -/
def levelsFrom (deps : String → List String) :
    Nat → List String → Except ResolutionError (List (List String))
  | 0, _ => .ok []
  | fuel + 1, remaining =>
      if remaining.isEmpty then .ok []
      else
        let level := sources deps remaining
        if level.isEmpty then .error (.circular remaining)
        else (levelsFrom deps fuel (remaining.filter (· ∉ level))).map (level :: ·)

variable {η : Type}

/-- The set `tool_names`. -/
def toolNames (tools : List (ToolDefinition η)) : List String :=
  (tools.map ToolDefinition.name).dedup

/-- The dictionary `deps`. -/
def dependencies (tools : List (ToolDefinition η)) (name : String) : List String :=
  let deps : Dict String (List String) :=
    Dict.ofList (tools.map (fun tool => (tool.name, tool.dependsOn)))
  (deps.get? name).getD []

/-- `_resolve_dependency_levels` -/
def resolveDependencyLevels (tools : List (ToolDefinition η)) :
    Except ResolutionError (List (List String)) :=
  match tools.findSome? (fun tool =>
      (tool.dependsOn.find? (· ∉ toolNames tools)).map
        (fun dependency => (tool.name, dependency))) with
  | some (tool, dependency) => .error (.unresolved tool dependency)
  | none => levelsFrom (dependencies tools) (toolNames tools).length (toolNames tools)

/-- How one attempt at a call ends: with what the handlers give at that time, or with a timeout. -/
inductive Attempt (η : Type)
  | returned (respond : η → Params → Except String String)
  | timedOut

section Single

variable (secondsText : ℚ → String) (registry : Registry η) (call : ToolCall)

def timeoutError : String :=
  let seconds := secondsText (((registry.getTool call.name).map (·.timeoutSeconds)).getD 30)
  s!"Tool '{call.name}' timed out after {seconds}s"

def attempted (respond : η → Params → Except String String) (retryCount : Nat) : ToolResult :=
  { (executeAsync respond registry call.name call.arguments).result with
    toolCallId := call.id, retryCount }

def exhausted (lastError : Option String) (retryCount : Nat) : ToolResult where
  toolName := call.name
  toolCallId := call.id
  error := some (if lastError.getD "" = "" then "Unknown error" else lastError.getD "")
  retryCount := retryCount

/-- The attempts of `execute_single` that are left. -/
def attemptLoop (attempts : Nat → Attempt η) : Nat → Nat → Option String → ToolResult
  | 0, retryCount, lastError => exhausted call lastError retryCount
  | left + 1, retryCount, _ =>
      match attempts retryCount with
      | .returned respond =>
          let result := attempted registry call respond retryCount
          if result.error.getD "" ≠ "" ∧ 0 < left then
            attemptLoop attempts left (retryCount + 1) result.error
          else result
      | .timedOut =>
          let lastError := some (timeoutError secondsText registry call)
          if 0 < left then attemptLoop attempts left (retryCount + 1) lastError
          else exhausted call lastError retryCount

def totalAttempts : Nat :=
  (1 + (((registry.getTool call.name).bind (·.retryPolicy)).map (·.maxRetries)).getD 0).toNat

def executeSingle (attempts : Nat → Attempt η) : ToolResult :=
  attemptLoop secondsText registry call attempts (totalAttempts registry call) 0 none

end Single

structure Placed where
  index : Nat
  call : ToolCall

/-- `name_to_call`: of the calls of one tool the last one stays. -/
def nameToCall (calls : List ToolCall) : Dict String Placed :=
  Dict.ofList (calls.zipIdx.map (fun item => (item.1.name, ⟨item.2, item.1⟩)))

def calledTools (registry : Registry η) (calls : List ToolCall) : List (ToolDefinition η) :=
  calls.filterMap (fun call => registry.getTool call.name)

/-- The levels that `execute_all` goes through, or the `ValueError` it ends with. -/
def plan (registry : Registry η) (calls : List ToolCall) :
    Except ResolutionError (List (List String)) :=
  let tools := calledTools registry calls
  if tools.isEmpty then .ok [] else resolveDependencyLevels tools

inductive Phase
  | waiting
  | running
  | done (result : ToolResult)

structure Slot where
  placed : Placed
  phase : Phase := .waiting

def Slot.isWaiting (slot : Slot) : Bool :=
  match slot.phase with
  | .waiting => true
  | _ => false

def Slot.isRunning (slot : Slot) : Bool :=
  match slot.phase with
  | .running => true
  | _ => false

def Slot.result? (slot : Slot) : Option ToolResult :=
  match slot.phase with
  | .done result => some result
  | _ => none

/-- The state of `execute_all` between two steps of the event loop: the levels still to come, the
coroutines of the one being gathered and `results_map`. -/
structure Progress where
  rest : List (List String)
  active : List Slot := []
  results : Dict String ToolResult := ∅

inductive Action (η : Type)
  | start (index : Nat)
  | finish (index : Nat) (attempts : Nat → Attempt η)
  | advance

def slotsOf (calls : List ToolCall) (level : List String) : List Slot :=
  (level.filterMap (nameToCall calls).get?).map (fun placed => { placed })

def Slot.binding (slot : Slot) : Option (String × ToolResult) :=
  slot.result?.map (fun result => (slot.placed.call.name, result))

/-- `results_map` with the results of the level that is being gathered. -/
def Progress.collect (progress : Progress) : Dict String ToolResult :=
  progress.results.setAll (progress.active.filterMap Slot.binding)

section System

variable (secondsText : ℚ → String) (registry : Registry η) (calls : List ToolCall)
  (maxConcurrency : Nat)

def Slot.start (index : Nat) (slot : Slot) : Slot :=
  if slot.placed.index = index ∧ slot.isWaiting then { slot with phase := .running } else slot

/-- `execute_single` returns in a coroutine. -/
def Slot.finish (index : Nat) (attempts : Nat → Attempt η) (slot : Slot) : Slot :=
  if slot.placed.index = index ∧ slot.isRunning then
    { slot with phase := .done (executeSingle secondsText registry slot.placed.call attempts) }
  else slot

/-- A coroutine starts when it gets the semaphore and ends at any time after that; once all of the
level have ended their results are stored and the next level is gathered. -/
def step (progress : Progress) : Action η → Option Progress
  | .start index =>
      if (∃ slot ∈ progress.active, slot.placed.index = index ∧ slot.isWaiting) ∧
          progress.active.countP Slot.isRunning < maxConcurrency then
        some { progress with active := progress.active.map (Slot.start index) }
      else none
  | .finish index attempts =>
      if ∃ slot ∈ progress.active, slot.placed.index = index ∧ slot.isRunning then
        some { progress with
          active := progress.active.map (Slot.finish secondsText registry index attempts) }
      else none
  | .advance =>
      if progress.active.all (·.result?.isSome) then
        match progress.rest with
        | level :: rest =>
            some { rest, results := progress.collect, active := slotsOf calls level }
        | [] =>
            if progress.active.isEmpty then none
            else some { rest := [], results := progress.collect }
      else none

def Progress.Finished (progress : Progress) : Prop := progress.rest = [] ∧ progress.active = []

/-- The list that `execute_all` returns, in the order of the calls. -/
def gathered (results : Dict String ToolResult) : List ToolResult :=
  if (calledTools registry calls).isEmpty then
    calls.map (fun call =>
      { toolName := call.name, toolCallId := call.id,
        error := some s!"Tool '{call.name}' not found" })
  else
    calls.map (fun call => (results.get? call.name).getD
      { toolName := call.name, toolCallId := call.id,
        error := some s!"No result for '{call.name}'" })

end System

end RagSystem.Tools
