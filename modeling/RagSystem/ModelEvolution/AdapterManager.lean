import RagSystem.Data.Dict
import RagSystem.Transition.Interleaving

/-! The adapter manager of `proxy/app/model_evolution/adapter_manager.py`. Its operations take the
lock for one section at a time; the callbacks run in between, and so may other threads. -/

namespace RagSystem.AdapterManager

open Transition

inductive AdapterState
  | unloaded
  | loading
  | active
  | draining
  | retiring
  | error
  deriving DecidableEq, Repr

/-- `_VALID_TRANSITIONS` -/
def validTransitions : AdapterState → List AdapterState
  | .unloaded => [.loading, .error]
  | .loading => [.active, .error]
  | .active => [.draining, .error]
  | .draining => [.retiring, .active, .loading, .error]
  | .retiring => [.unloaded, .error]
  | .error => [.unloaded, .loading, .active]

structure ModelAdapter where
  name : String
  state : AdapterState := .unloaded
  version : String := "base"
  modelPath : Option String := none
  adapterType : String := "lora"
  baseModel : String := ""
  loadedAt : Option String := none
  requestCount : Nat := 0
  errorCount : Nat := 0
  deriving DecidableEq, Repr

namespace ModelAdapter

/-- `transition_to`: a transition that is not valid is refused with `False`. -/
def transitionTo (target : AdapterState) (adapter : ModelAdapter) : ModelAdapter × Bool :=
  if target ∈ validTransitions adapter.state then ({ adapter with state := target }, true)
  else (adapter, false)

def moved (target : AdapterState) (adapter : ModelAdapter) : ModelAdapter :=
  (adapter.transitionTo target).1

/-- `load_adapter` once its callback has succeeded. -/
def commit (path version now : String) (adapter : ModelAdapter) : ModelAdapter :=
  { adapter with version, modelPath := some path, loadedAt := some now, errorCount := 0 }.moved
    .active

/-- `load_adapter` once its callback has failed. -/
def fail (adapter : ModelAdapter) : ModelAdapter :=
  let adapter := adapter.moved .error
  { adapter with errorCount := adapter.errorCount + 1 }

def retire (adapter : ModelAdapter) : ModelAdapter := (adapter.moved .retiring).moved .unloaded

def clear (adapter : ModelAdapter) : ModelAdapter :=
  { adapter with modelPath := none, loadedAt := none }

end ModelAdapter

inductive Operation
  | register (name version adapterType baseModel : String)
  | load (name path version : String)
  | unload (name : String)
  | hotReload (name path version : String)
  | beginRequest (name : String)
  | endRequest (name : String)
  deriving DecidableEq, Repr

def Operation.name : Operation → String
  | .register name _ _ _ => name
  | .load name _ _ => name
  | .unload name => name
  | .hotReload name _ _ => name
  | .beginRequest name => name
  | .endRequest name => name

/-- How far an operation has come. The phases of `hot_reload` know the adapter as it was found, of
which the source keeps the version and the path. -/
inductive Phase
  | started
  | loading
  | unloading
  | reloading (old : ModelAdapter)
  | swapping (old : ModelAdapter)
  | restoring (old : ModelAdapter)
  | draining (attempts : Nat)
  | returned
  | raised
  deriving DecidableEq, Repr

/-- What a turn meets: how the callback before it ended, if there was one, and the clock. -/
structure Input where
  succeeded : Bool := true
  now : String := ""
  deriving DecidableEq, Repr

/-- The first section of `load_adapter`: whether the adapter is skipped, starts to load or refuses
to. -/
inductive Begun
  | skipped
  | begun
  | refused
  deriving DecidableEq, Repr

def beginLoad (adapter : ModelAdapter) : ModelAdapter × Begun :=
  if adapter.state = .active then (adapter, .skipped)
  else
    let (adapter, valid) := adapter.transitionTo .loading
    (adapter, if valid then .begun else .refused)

/-- The first section of `unload_adapter`. -/
def beginUnload (adapter : ModelAdapter) : ModelAdapter × Phase :=
  match adapter.state with
  | .unloaded => (adapter, .returned)
  | .active => (adapter.moved .draining, .unloading)
  | .error => ((adapter.moved .unloaded).clear, .returned)
  | _ => (adapter, .unloading)

/-- `max_drain_attempts` -/
def maxDrainAttempts : Nat := 60

/-- Where `hot_reload` goes on when `load_adapter` has returned. -/
def afterLoad (old : ModelAdapter) : Phase :=
  if old.modelPath.isSome then .draining 0 else .returned

def act (input : Input) (operation : Operation) (phase : Phase) (adapter : ModelAdapter) :
    Option (ModelAdapter × Phase) :=
  match operation, phase with
  | .register _ _ _ _, .started => some (adapter, .raised)
  | .load _ _ _, .started =>
      match beginLoad adapter with
      | (adapter, .skipped) => some (adapter, .returned)
      | (adapter, .begun) => some (adapter, .loading)
      | (adapter, .refused) => some (adapter, .raised)
  | .load _ path version, .loading =>
      if input.succeeded then some (adapter.commit path version input.now, .returned)
      else some (adapter.fail, .raised)
  | .unload _, .started => some (beginUnload adapter)
  | .unload _, .unloading =>
      if input.succeeded then some (adapter.retire.clear, .returned)
      else some (adapter.moved .error, .raised)
  | .hotReload _ path version, .started =>
      if adapter.state = .unloaded then
        -- `load_adapter` is called with the lock held, its callback included
        let adapter := (beginLoad adapter).1
        if input.succeeded then some (adapter.commit path version input.now, .returned)
        else some (adapter.fail, .raised)
      else some (adapter.moved .draining, .reloading adapter)
  | .hotReload _ _ _, .reloading old =>
      match beginLoad adapter with
      | (adapter, .skipped) => some (adapter, afterLoad old)
      | (adapter, .begun) => some (adapter, .swapping old)
      | (adapter, .refused) => some (adapter, .restoring old)
  | .hotReload _ path version, .swapping old =>
      if input.succeeded then some (adapter.commit path version input.now, afterLoad old)
      else some (adapter.fail, .restoring old)
  | .hotReload _ _ _, .restoring _ => some (adapter.moved .active, .raised)
  | .hotReload _ _ _, .draining attempts =>
      if attempts < maxDrainAttempts then
        if adapter.requestCount = 0 then some (adapter.retire, .returned)
        else some (adapter, .draining (attempts + 1))
      else some (if adapter.state = .draining then adapter.retire else adapter, .returned)
  | .beginRequest _, .started =>
      some ({ adapter with requestCount := adapter.requestCount + 1 }, .returned)
  | .endRequest _, .started =>
      some ({ adapter with requestCount := adapter.requestCount - 1 }, .returned)
  | _, _ => none

def actMissing (operation : Operation) (phase : Phase) : Option (Option ModelAdapter × Phase) :=
  match operation, phase with
  | .register name version adapterType baseModel, .started =>
      some (some { name, version, adapterType, baseModel }, .returned)
  | .beginRequest _, .started => some (none, .returned)
  | .endRequest _, .started => some (none, .returned)
  | _, .started => some (none, .raised)
  | _, _ => none

abbrev Adapters := Dict String ModelAdapter

def turn (input : Input) (operation : Operation) (phase : Phase) (adapters : Adapters) :
    Option (Adapters × Phase) :=
  match adapters.get? operation.name with
  | some adapter =>
      (act input operation phase adapter).map (fun result =>
        (adapters.set operation.name result.1, result.2))
  | none =>
      (actMissing operation phase).map (fun result =>
        (match result.1 with
          | some adapter => adapters.set operation.name adapter
          | none => adapters, result.2))

end RagSystem.AdapterManager
