import Mathlib.Algebra.Order.Field.Rat
import Mathlib.Data.List.Count
import Mathlib.Tactic.Linarith
import RagSystem.Transition.Run

/-! The circuit breaker of `proxy/app/shared/circuit_breaker.py` and the calls it guards. -/

namespace RagSystem.CircuitBreaker

open Transition

inductive State
  | closed
  | opened
  | halfOpen
  deriving DecidableEq, Repr

structure Config where
  failureThreshold : Int := 5
  cooldownSeconds : Rat := 30
  halfOpenMax : Int := 2
  deriving DecidableEq, Repr

structure Breaker where
  state : State := .closed
  failureCount : Nat := 0
  lastFailureTime : Rat := 0
  halfOpenCalls : Nat := 0
  openedAt : Rat := 0
  deriving DecidableEq, Repr

variable (cfg : Config)

def maybeTransition (now : Rat) (breaker : Breaker) : Breaker :=
  if breaker.state = .opened ∧ cfg.cooldownSeconds ≤ now - breaker.openedAt then
    { breaker with state := .halfOpen, halfOpenCalls := 0 }
  else breaker

def transition (state : State) (breaker : Breaker) : Breaker :=
  { breaker with state := state }

def success (breaker : Breaker) : Breaker :=
  let breaker := { breaker with failureCount := 0 }
  if breaker.state ≠ .closed then transition .closed breaker else breaker

def failure (now : Rat) (breaker : Breaker) : Breaker :=
  let breaker := { breaker with failureCount := breaker.failureCount + 1, lastFailureTime := now }
  if breaker.state = .halfOpen then transition .opened { breaker with openedAt := now }
  else if breaker.state = .closed ∧ cfg.failureThreshold ≤ breaker.failureCount then
    transition .opened { breaker with openedAt := now }
  else breaker

/-- `_check_and_enter`: the breaker afterwards, and whether the call was let through
(`false` is a raised `CircuitBreakerOpenError`). -/
def checkAndEnter (now : Rat) (breaker : Breaker) : Breaker × Bool :=
  let breaker := maybeTransition cfg now breaker
  match breaker.state with
  | .opened => (breaker, false)
  | .halfOpen =>
      if cfg.halfOpenMax ≤ breaker.halfOpenCalls then (breaker, false)
      else ({ breaker with halfOpenCalls := breaker.halfOpenCalls + 1 }, true)
  | .closed => (breaker, true)

/-- How the guarded function ends. A cancellation is no `Exception`, so it passes the handler
of `call` by, as does the `CircuitBreakerOpenError` of a nested breaker, which is re-raised. -/
inductive Outcome
  | returned
  | raised
  | circuitOpen
  | cancelled
  deriving DecidableEq, Repr

/-- What `call` does to the breaker once the guarded function has ended. -/
def complete (now : Rat) (breaker : Breaker) : Outcome → Breaker
  | .returned => success breaker
  | .raised => failure cfg now breaker
  | .circuitOpen => breaker
  | .cancelled => breaker

/-- A call in flight, with the half-open period whose slot it took, if any. -/
structure Call where
  id : Nat
  probe : Option Nat
  deriving DecidableEq, Repr

/-- The breaker among its callers. `period` counts the changes to HALF_OPEN, `lost` the probes
of the current period that ended without being recorded; neither is read by the breaker. -/
structure Service where
  breaker : Breaker := {}
  clock : Rat := 0
  calls : List Call := []
  period : Nat := 0
  lost : Nat := 0
  deriving DecidableEq, Repr

inductive Act
  | enter (id : Nat)
  | finish (id : Nat) (outcome : Outcome)
  | readState
  deriving DecidableEq, Repr

structure Action where
  now : Rat
  act : Act
  deriving DecidableEq, Repr

/-- The service once the property `state` has been read at `now`: the only change it can make is
OPEN → HALF_OPEN, which starts a new period. -/
def Service.ready (service : Service) (now : Rat) : Service :=
  let breaker := maybeTransition cfg now service.breaker
  if breaker.state = service.breaker.state then { service with clock := now, breaker := breaker }
  else { service with clock := now, breaker := breaker, period := service.period + 1, lost := 0 }

def isProbe (service : Service) (call : Call) : Bool :=
  decide (service.breaker.state = .halfOpen) && decide (call.probe = some service.period)

def Outcome.recorded : Outcome → Bool
  | .returned => true
  | .raised => true
  | .circuitOpen => false
  | .cancelled => false

def Service.enter (service : Service) (now : Rat) (id : Nat) : Service :=
  let ready := service.ready cfg now
  let entered := checkAndEnter cfg now service.breaker
  let probe := if entered.1.state = .halfOpen then some ready.period else none
  { ready with
    breaker := entered.1
    calls := if entered.2 then ⟨id, probe⟩ :: ready.calls else ready.calls }

def Service.lostAfter (service : Service) (call : Call) (outcome : Outcome) : Nat :=
  if isProbe service call && !outcome.recorded then service.lost + 1 else service.lost

def Service.finish (service : Service) (now : Rat) (call : Call) (outcome : Outcome) : Service :=
  { service with
    clock := now
    breaker := complete cfg now service.breaker outcome
    calls := service.calls.erase call
    lost := service.lostAfter call outcome }

/-- One event of the interleaving. The clock never goes back, an entering call is a new one and
a finishing call is in flight; otherwise any order and any outcome is possible. -/
def step (service : Service) (action : Action) : Option Service :=
  if action.now < service.clock then none else
  match action.act with
  | .readState => some (service.ready cfg action.now)
  | .enter id =>
      if service.calls.any (fun call => call.id = id) then none
      else some (service.enter cfg action.now id)
  | .finish id outcome =>
      match service.calls.find? (fun call => call.id = id) with
      | none => none
      | some call => some (service.finish cfg action.now call outcome)

variable {cfg} {service next : Service} {action : Action}

theorem step_cases (stepped : step cfg service action = some next) :
    service.clock ≤ action.now ∧
      ((action.act = .readState ∧ next = service.ready cfg action.now) ∨
        (∃ id, action.act = .enter id ∧ next = service.enter cfg action.now id) ∨
        ∃ id outcome call, action.act = .finish id outcome ∧
          service.calls.find? (fun call => call.id = id) = some call ∧
          next = service.finish cfg action.now call outcome) := by
  obtain ⟨now, act⟩ := action
  simp only [step] at stepped
  split at stepped
  · simp at stepped
  · rename_i forward
    refine ⟨not_lt.mp forward, ?_⟩
    cases act with
    | readState => exact Or.inl ⟨rfl, (Option.some.inj stepped).symm⟩
    | enter id =>
        simp only at stepped
        split at stepped
        · simp at stepped
        · exact Or.inr (Or.inl ⟨id, rfl, (Option.some.inj stepped).symm⟩)
    | finish id outcome =>
        simp only at stepped
        split at stepped
        · simp at stepped
        · rename_i call found
          exact Or.inr (Or.inr ⟨id, outcome, call, rfl, found, (Option.some.inj stepped).symm⟩)

theorem ready_cases (cfg : Config) (service : Service) (now : Rat) :
    (service.breaker.state = .opened ∧ service.breaker.openedAt + cfg.cooldownSeconds ≤ now ∧
      service.ready cfg now =
        { service with
          clock := now
          breaker := { service.breaker with state := .halfOpen, halfOpenCalls := 0 }
          period := service.period + 1
          lost := 0 }) ∨
    ((service.breaker.state = .opened → now < service.breaker.openedAt + cfg.cooldownSeconds) ∧
      service.ready cfg now = { service with clock := now }) := by
  by_cases due : service.breaker.state = .opened ∧
      cfg.cooldownSeconds ≤ now - service.breaker.openedAt
  · left
    refine ⟨due.1, by linarith [due.2], ?_⟩
    have changed : State.halfOpen ≠ service.breaker.state := by simp [due.1]
    simp only [Service.ready, maybeTransition, if_pos due, if_neg changed]
  · right
    refine ⟨?_, by simp only [Service.ready, maybeTransition, if_neg due, if_true]⟩
    intro opened
    by_contra elapsed
    exact due ⟨opened, by linarith [not_lt.mp elapsed]⟩

theorem ready_breaker (cfg : Config) (service : Service) (now : Rat) :
    (service.ready cfg now).breaker = maybeTransition cfg now service.breaker := by
  unfold Service.ready
  simp only
  split <;> rfl

theorem checkAndEnter_cases (cfg : Config) (now : Rat) (breaker : Breaker) :
    (checkAndEnter cfg now breaker = (maybeTransition cfg now breaker, false) ∧
      (maybeTransition cfg now breaker).state ≠ .closed) ∨
    (checkAndEnter cfg now breaker = (maybeTransition cfg now breaker, true) ∧
      (maybeTransition cfg now breaker).state = .closed) ∨
    (checkAndEnter cfg now breaker =
        ({ maybeTransition cfg now breaker with
          halfOpenCalls := (maybeTransition cfg now breaker).halfOpenCalls + 1 }, true) ∧
      (maybeTransition cfg now breaker).state = .halfOpen ∧
      ((maybeTransition cfg now breaker).halfOpenCalls : Int) < cfg.halfOpenMax) := by
  simp only [checkAndEnter]
  split
  · rename_i opened
    exact Or.inl ⟨rfl, by simp [opened]⟩
  · rename_i halfOpen
    split
    · exact Or.inl ⟨rfl, by simp [halfOpen]⟩
    · rename_i free
      exact Or.inr (Or.inr ⟨rfl, halfOpen, not_le.mp free⟩)
  · rename_i closed
    exact Or.inr (Or.inl ⟨rfl, closed⟩)

theorem enter_cases (cfg : Config) (service : Service) (now : Rat) (id : Nat) :
    ((checkAndEnter cfg now service.breaker).2 = false ∧
      (service.ready cfg now).breaker.state ≠ .closed ∧
      service.enter cfg now id = service.ready cfg now) ∨
    ((checkAndEnter cfg now service.breaker).2 = true ∧
      (service.ready cfg now).breaker.state = .closed ∧
      service.enter cfg now id =
        { service.ready cfg now with calls := ⟨id, none⟩ :: (service.ready cfg now).calls }) ∨
    ((checkAndEnter cfg now service.breaker).2 = true ∧
      (service.ready cfg now).breaker.state = .halfOpen ∧
      service.enter cfg now id =
        { service.ready cfg now with
          breaker := { (service.ready cfg now).breaker with
            halfOpenCalls := (service.ready cfg now).breaker.halfOpenCalls + 1 }
          calls := ⟨id, some (service.ready cfg now).period⟩ :: (service.ready cfg now).calls }) := by
  have same := ready_breaker cfg service now
  rcases checkAndEnter_cases cfg now service.breaker with
    ⟨entered, shape⟩ | ⟨entered, closed⟩ | ⟨entered, halfOpen, -⟩
  · refine Or.inl ⟨by rw [entered], by rwa [same], ?_⟩
    simp only [Service.enter, entered, ← same, Bool.false_eq_true, if_false]
  · refine Or.inr (Or.inl ⟨by rw [entered], by rwa [same], ?_⟩)
    have idle : maybeTransition cfg now service.breaker = (service.ready cfg now).breaker := same.symm
    have outside : (service.ready cfg now).breaker.state ≠ .halfOpen := by simp [same, closed]
    simp only [Service.enter, entered, idle, if_neg outside, if_true]
  · refine Or.inr (Or.inr ⟨by rw [entered], by rwa [same], ?_⟩)
    simp only [Service.enter, entered, halfOpen, same, if_true]

@[simp] theorem transition_state (state : State) (breaker : Breaker) :
    (transition state breaker).state = state := rfl

@[simp] theorem success_state (breaker : Breaker) : (success breaker).state = .closed := by
  unfold success
  simp only
  split
  · rfl
  · rename_i closed
    exact not_not.mp closed

theorem complete_halfOpen (cfg : Config) {now : Rat} {breaker : Breaker} {outcome : Outcome}
    (halfOpen : (complete cfg now breaker outcome).state = .halfOpen) :
    outcome.recorded = false ∧ complete cfg now breaker outcome = breaker := by
  cases outcome with
  | returned => simp [complete] at halfOpen
  | raised =>
      simp only [complete, failure] at halfOpen
      split at halfOpen
      · simp at halfOpen
      · split at halfOpen
        · simp at halfOpen
        · contradiction
  | circuitOpen => exact ⟨rfl, rfl⟩
  | cancelled => exact ⟨rfl, rfl⟩

theorem complete_unrecorded {outcome : Outcome} (unrecorded : outcome.recorded = false)
    (now : Rat) (breaker : Breaker) : complete cfg now breaker outcome = breaker := by
  cases outcome with
  | returned => simp [Outcome.recorded] at unrecorded
  | raised => simp [Outcome.recorded] at unrecorded
  | circuitOpen => rfl
  | cancelled => rfl

/-- The books of the half-open slots: each taken slot belongs to a call in flight or is lost. -/
structure Accounted (service : Service) : Prop where
  past : ∀ call ∈ service.calls, ∀ period, call.probe = some period → period ≤ service.period
  slots : service.breaker.state = .halfOpen →
    service.breaker.halfOpenCalls =
      service.calls.countP (fun call => decide (call.probe = some service.period)) + service.lost

theorem accounted_ready (cfg : Config) (books : Accounted service) (now : Rat) :
    Accounted (service.ready cfg now) := by
  rcases ready_cases cfg service now with ⟨-, -, shape⟩ | ⟨-, shape⟩
  · rw [shape]
    refine ⟨fun call member period taken => ?_, fun _ => ?_⟩
    · exact Nat.le_succ_of_le (books.past call member period taken)
    · have fresh : service.calls.countP
          (fun call => decide (call.probe = some (service.period + 1))) = 0 := by
        rw [List.countP_eq_zero]
        intro call member taken
        have bound := books.past call member _ (of_decide_eq_true taken)
        omega
      simp only [fresh]
  · rw [shape]
    exact ⟨books.past, books.slots⟩

theorem accounted_enter (books : Accounted service) (now : Rat) (id : Nat) :
    Accounted (service.enter cfg now id) := by
  have ready := accounted_ready cfg books now
  rcases enter_cases cfg service now id with
    ⟨-, -, shape⟩ | ⟨-, closed, shape⟩ | ⟨-, halfOpen, shape⟩
  · rwa [shape]
  · rw [shape]
    refine ⟨fun call member period taken => ?_, fun halfOpen => ?_⟩
    · rcases List.mem_cons.mp member with rfl | old
      · simp at taken
      · exact ready.past call old period taken
    · rw [closed] at halfOpen
      contradiction
  · rw [shape]
    refine ⟨fun call member period taken => ?_, fun _ => ?_⟩
    · rcases List.mem_cons.mp member with rfl | old
      · exact (Option.some.inj taken).ge
      · exact ready.past call old period taken
    · have before := ready.slots halfOpen
      simp only [List.countP_cons, decide_true, if_true]
      omega

theorem accounted_finish (books : Accounted service) (now : Rat) {call : Call}
    (present : call ∈ service.calls) (outcome : Outcome) :
    Accounted (service.finish cfg now call outcome) := by
  refine ⟨fun other member => books.past other (List.mem_of_mem_erase member), fun halfOpen => ?_⟩
  obtain ⟨unrecorded, unchanged⟩ := complete_halfOpen cfg halfOpen
  have before : service.breaker.state = .halfOpen := by
    simpa only [Service.finish, unchanged] using halfOpen
  have taken := books.slots before
  simp only [Service.finish, unchanged, Service.lostAfter, isProbe, before, unrecorded,
    List.countP_erase, present]
  by_cases probe : call.probe = some service.period
  · have counted : 0 < service.calls.countP
        (fun call => decide (call.probe = some service.period)) :=
      List.countP_pos_iff.mpr ⟨call, present, by simp [probe]⟩
    simp only [probe, decide_true, Bool.not_false, Bool.and_true, true_and, if_true]
    omega
  · simpa [probe] using taken

theorem accounted_step (books : Accounted service)
    (stepped : step cfg service action = some next) : Accounted next := by
  obtain ⟨-, ⟨-, rfl⟩ | ⟨id, -, rfl⟩ | ⟨id, outcome, call, -, found, rfl⟩⟩ := step_cases stepped
  · exact accounted_ready cfg books action.now
  · exact accounted_enter books action.now id
  · exact accounted_finish books action.now (List.mem_of_find?_eq_some found) outcome

theorem accounted_run {events : List (Event Service Action)} {service : Service}
    (run : Run (step cfg) {} events service) : Accounted service :=
  Run.invariant_always Accounted ⟨by simp, by simp⟩
    (fun _ _ _ books stepped => accounted_step books stepped) run

/-- HALF_OPEN, every slot taken, and nobody left who could give one back. -/
def Stuck (cfg : Config) (service : Service) : Prop :=
  service.breaker.state = .halfOpen ∧ service.calls = [] ∧
    cfg.halfOpenMax ≤ service.breaker.halfOpenCalls

/-- The step does not end the last call in flight of a HALF_OPEN breaker unrecorded once all its
slots are lost; with `half_open_max < 1` it also starts no period without a call in flight. -/
def Spared (cfg : Config) (event : Event Service Action) : Prop :=
  match event.action.act with
  | .finish id outcome =>
      outcome.recorded = true ∨ event.before.breaker.state ≠ .halfOpen ∨
        1 < event.before.calls.length ∨
        ∀ call ∈ event.before.calls.find? (fun call => call.id = id),
          (event.before.lostAfter call outcome : Int) < cfg.halfOpenMax
  | _ =>
      0 < cfg.halfOpenMax ∨ event.before.calls ≠ [] ∨
        (event.before.breaker.state = .opened →
          event.action.now < event.before.breaker.openedAt + cfg.cooldownSeconds)

instance decidableSpared (cfg : Config) : DecidablePred (Spared cfg)
  | ⟨_, ⟨_, .finish _ _⟩, _⟩ => inferInstanceAs (Decidable (_ ∨ _ ∨ _ ∨ ∀ call ∈ _, _ < _))
  | ⟨_, ⟨_, .enter _⟩, _⟩ => inferInstanceAs (Decidable (_ < _ ∨ _ ≠ _ ∨ (_ = _ → _ < _)))
  | ⟨_, ⟨_, .readState⟩, _⟩ => inferInstanceAs (Decidable (_ < _ ∨ _ ≠ _ ∨ (_ = _ → _ < _)))

theorem stuck_iff_lost (books : Accounted service) :
    Stuck cfg service ↔ service.breaker.state = .halfOpen ∧ service.calls = [] ∧
      cfg.halfOpenMax ≤ service.lost := by
  constructor
  · intro given
    rcases given with ⟨halfOpen, idle, full⟩
    have taken := books.slots halfOpen
    simp only [idle, List.countP_nil, Nat.zero_add] at taken
    exact ⟨halfOpen, idle, by omega⟩
  · intro given
    rcases given with ⟨halfOpen, idle, full⟩
    have taken := books.slots halfOpen
    simp only [idle, List.countP_nil, Nat.zero_add] at taken
    exact ⟨halfOpen, idle, by omega⟩

theorem stuck_ready_iff (service : Service) (now : Rat) :
    Stuck cfg (service.ready cfg now) ↔
      Stuck cfg service ∨ (service.breaker.state = .opened ∧
        service.breaker.openedAt + cfg.cooldownSeconds ≤ now ∧ service.calls = [] ∧
        cfg.halfOpenMax ≤ 0) := by
  rcases ready_cases cfg service now with ⟨opened, elapsed, shape⟩ | ⟨waiting, shape⟩
  · simp [shape, Stuck, opened, elapsed]
  · rw [shape]
    constructor
    · exact Or.inl
    · intro given
      rcases given with stuck | ⟨opened, elapsed, -, -⟩
      · exact stuck
      · exact absurd elapsed (not_le.mpr (waiting opened))

theorem stuck_enter_iff (service : Service) (now : Rat) (id : Nat) :
    Stuck cfg (service.enter cfg now id) ↔ Stuck cfg (service.ready cfg now) := by
  rcases enter_cases cfg service now id with
    ⟨-, -, shape⟩ | ⟨-, closed, shape⟩ | ⟨admitted, halfOpen, shape⟩
  · rw [shape]
  · simp [shape, Stuck, closed]
  · rw [shape]
    constructor
    · intro given
      rcases given with ⟨-, idle, -⟩
      simp at idle
    · intro given
      rcases given with ⟨-, -, full⟩
      rcases checkAndEnter_cases cfg now service.breaker with
        ⟨entered, -⟩ | ⟨-, closed⟩ | ⟨-, -, free⟩
      · simp [entered] at admitted
      · rw [ready_breaker] at halfOpen
        simp [closed] at halfOpen
      · rw [ready_breaker] at full
        exact absurd full (not_le.mpr free)

theorem stuck_finish_iff (books : Accounted service) (now : Rat) {call : Call}
    (present : call ∈ service.calls) (outcome : Outcome) :
    Stuck cfg (service.finish cfg now call outcome) ↔
      outcome.recorded = false ∧ service.breaker.state = .halfOpen ∧
        service.calls.length ≤ 1 ∧ cfg.halfOpenMax ≤ service.lostAfter call outcome := by
  rw [stuck_iff_lost (accounted_finish books now present outcome)]
  have alone : service.calls.erase call = [] ↔ service.calls.length ≤ 1 := by
    rw [← List.length_eq_zero_iff, List.length_erase_of_mem present]
    omega
  constructor
  · intro given
    rcases given with ⟨halfOpen, idle, full⟩
    obtain ⟨unrecorded, unchanged⟩ := complete_halfOpen cfg halfOpen
    have before : service.breaker.state = .halfOpen := by
      simpa only [Service.finish, unchanged] using halfOpen
    exact ⟨unrecorded, before, alone.mp idle, full⟩
  · intro given
    rcases given with ⟨unrecorded, halfOpen, single, full⟩
    refine ⟨?_, alone.mpr single, full⟩
    simpa only [Service.finish, complete_unrecorded unrecorded] using halfOpen

theorem stuck_step_iff (books : Accounted service) (fine : ¬ Stuck cfg service)
    (stepped : step cfg service action = some next) :
    Stuck cfg next ↔ ¬ Spared cfg ⟨service, action, next⟩ := by
  obtain ⟨-, ⟨act, rfl⟩ | ⟨id, act, rfl⟩ | ⟨id, outcome, call, act, found, rfl⟩⟩ :=
    step_cases stepped
  · simp only [stuck_ready_iff, fine, Spared, act]
    grind
  · simp only [stuck_enter_iff, stuck_ready_iff, fine, Spared, act]
    grind
  · simp only [stuck_finish_iff books action.now (List.mem_of_find?_eq_some found), Spared, act,
      found]
    grind

theorem admits_of_not_stuck (fine : ¬ Stuck cfg service)
    (halfOpen : service.breaker.state = .halfOpen) (idle : service.calls = []) (now : Rat) :
    (checkAndEnter cfg now service.breaker).2 = true := by
  have free : ¬ cfg.halfOpenMax ≤ service.breaker.halfOpenCalls := fun full =>
    fine ⟨halfOpen, idle, full⟩
  simp [checkAndEnter, maybeTransition, halfOpen, free]

theorem not_stuck_of_spared {events : List (Event Service Action)}
    (run : Run (step cfg) {} events service) (spared : ∀ event ∈ events, Spared cfg event) :
    ¬ Stuck cfg service := by
  have both : Accounted service ∧ ¬ Stuck cfg service :=
    Run.invariant (Spared cfg) (fun service => Accounted service ∧ ¬ Stuck cfg service)
      ⟨⟨by simp, by simp⟩, by simp [Stuck]⟩
      (fun _ _ _ past stepped allowed => ⟨accounted_step past.1 stepped, fun stuck =>
        (stuck_step_iff past.1 past.2 stepped).mp stuck allowed⟩)
      run spared
  exact both.2

/-- No call in flight and all slots taken is never reached, and a half-open breaker without
calls admits the next one, in exactly the runs whose steps are all spared. -/
theorem never_stuck_iff_spared (cfg : Config) {events : List (Event Service Action)}
    {service : Service} (run : Run (step cfg) {} events service) :
    (∀ event ∈ events, ¬ Stuck cfg event.after ∧
      (event.after.breaker.state = .halfOpen → event.after.calls = [] →
        ∀ now, (checkAndEnter cfg now event.after.breaker).2 = true)) ↔
      ∀ event ∈ events, Spared cfg event := by
  induction run with
  | nil => simp
  | @snoc events state earlier action next stepped ih =>
      simp only [List.mem_append, List.mem_singleton, or_imp, forall_and, forall_eq] at ih ⊢
      constructor
      · intro given
        rcases given with ⟨⟨past, fine⟩, ⟨pastAdmits, -⟩⟩
        have spared := ih.mp ⟨past, pastAdmits⟩
        have before := not_stuck_of_spared earlier spared
        exact ⟨spared, not_not.mp
          ((stuck_step_iff (accounted_run earlier) before stepped).not.mp fine)⟩
      · intro given
        rcases given with ⟨spared, allowed⟩
        obtain ⟨past, pastAdmits⟩ := ih.mpr spared
        have before := not_stuck_of_spared earlier spared
        have fine : ¬ Stuck cfg next := fun stuck =>
          (stuck_step_iff (accounted_run earlier) before stepped).mp stuck allowed
        exact ⟨⟨past, fine⟩, ⟨pastAdmits, admits_of_not_stuck fine⟩⟩

def fiveFailures : List Action :=
  (List.range 5).flatMap (fun id => [⟨0, .enter id⟩, ⟨0, .finish id .raised⟩])

def oneProbeCancelled : List Action :=
  fiveFailures ++
    [⟨30, .enter 5⟩, ⟨31, .finish 5 .cancelled⟩, ⟨31, .enter 6⟩, ⟨32, .finish 6 .returned⟩]

def bothProbesCancelled : List Action :=
  fiveFailures ++
    [⟨30, .enter 5⟩, ⟨30, .enter 6⟩, ⟨31, .finish 5 .cancelled⟩, ⟨31, .finish 6 .cancelled⟩]

theorem never_stuck_one_probe_cancelled :
    ∃ events, record (step {}) {} oneProbeCancelled = some events ∧
      ∀ event ∈ events, ¬ Stuck {} event.after ∧
        (event.after.breaker.state = .halfOpen → event.after.calls = [] →
          ∀ now, (checkAndEnter {} now event.after.breaker).2 = true) := by
  have recorded : record (step {}) {} oneProbeCancelled =
      some ((record (step {}) {} oneProbeCancelled).getD []) := by decide +kernel
  exact ⟨_, recorded, (never_stuck_iff_spared {} (run_of_record recorded)).mpr
    (by decide +kernel)⟩

theorem cancelled_probes_stick :
    ∃ events service, Run (step {}) {} events service ∧ Stuck {} service := by
  have recorded : record (step {}) {} bothProbesCancelled =
      some ((record (step {}) {} bothProbesCancelled).getD []) := by decide +kernel
  exact ⟨_, _, run_of_record recorded, by unfold Stuck; decide +kernel⟩

def Opens (event : Event Service Action) : Prop :=
  event.before.breaker.state ≠ .opened ∧ event.after.breaker.state = .opened

def Act.enters : Act → Bool
  | .enter _ => true
  | _ => false

def Act.returns : Act → Bool
  | .finish _ .returned => true
  | _ => false

def Admits (cfg : Config) (event : Event Service Action) : Prop :=
  event.action.act.enters = true ∧
    (checkAndEnter cfg event.action.now event.before.breaker).2 = true

instance decidableOpens : DecidablePred Opens := fun _ =>
  inferInstanceAs (Decidable (_ ≠ _ ∧ _ = _))

instance decidableAdmits (cfg : Config) : DecidablePred (Admits cfg) := fun _ =>
  inferInstanceAs (Decidable (_ = _ ∧ _ = _))

/-- No call is admitted within the cooldown of any earlier opening. -/
def CooldownRespected (cfg : Config) (events : List (Event Service Action)) : Prop :=
  events.Pairwise (fun opening later => Opens opening → Admits cfg later →
    opening.action.now + cfg.cooldownSeconds ≤ later.action.now)

def KeepsOpen (event : Event Service Action) : Prop :=
  ∀ id outcome, event.action.act = .finish id outcome →
    event.before.breaker.state = .opened → event.after.breaker.state = .opened

def LateReturn (event : Event Service Action) : Prop :=
  event.before.breaker.state = .opened ∧ event.action.act.returns = true

instance decidableLateReturn : DecidablePred LateReturn := fun _ =>
  inferInstanceAs (Decidable (_ = _ ∧ _ = _))

def EarlyReturn (cfg : Config) (event : Event Service Action) : Prop :=
  LateReturn event ∧
    event.action.now < event.before.breaker.openedAt + cfg.cooldownSeconds

instance decidableEarlyReturn (cfg : Config) : DecidablePred (EarlyReturn cfg) := fun _ =>
  inferInstanceAs (Decidable (LateReturn _ ∧ _ < _))

/-- Every opening so far is either the current one or its cooldown is over. -/
def CoolingOff (cfg : Config) (events : List (Event Service Action)) (service : Service) : Prop :=
  ∀ event ∈ events, Opens event →
    (service.breaker.state = .opened ∧ event.action.now ≤ service.breaker.openedAt) ∨
      event.action.now + cfg.cooldownSeconds ≤ service.clock

theorem opened_step (opened : service.breaker.state = .opened)
    (stepped : step cfg service action = some next) :
    (next.breaker.state = .opened ∧ next.breaker.openedAt = service.breaker.openedAt) ∨
      service.breaker.openedAt + cfg.cooldownSeconds ≤ next.clock ∨
      EarlyReturn cfg ⟨service, action, next⟩ := by
  have kept (now : Rat) : ((service.ready cfg now).breaker.state = .opened ∧
      (service.ready cfg now).breaker.openedAt = service.breaker.openedAt) ∨
      service.breaker.openedAt + cfg.cooldownSeconds ≤ (service.ready cfg now).clock := by
    rcases ready_cases cfg service now with ⟨-, elapsed, shape⟩ | ⟨-, shape⟩
    · exact Or.inr (by rw [shape]; exact elapsed)
    · exact Or.inl (by rw [shape]; exact ⟨opened, rfl⟩)
  obtain ⟨-, ⟨act, rfl⟩ | ⟨id, act, rfl⟩ | ⟨id, outcome, call, act, found, rfl⟩⟩ :=
    step_cases stepped
  · exact (kept action.now).imp_right Or.inl
  · rcases enter_cases cfg service action.now id with
      ⟨-, -, shape⟩ | ⟨-, closed, shape⟩ | ⟨-, halfOpen, shape⟩
    · rw [shape]
      exact (kept action.now).imp_right Or.inl
    · rcases kept action.now with ⟨still, -⟩ | elapsed
      · simp [closed] at still
      · exact Or.inr (Or.inl (by rw [shape]; exact elapsed))
    · rcases kept action.now with ⟨still, -⟩ | elapsed
      · simp [halfOpen] at still
      · exact Or.inr (Or.inl (by rw [shape]; exact elapsed))
  · by_cases elapsed : service.breaker.openedAt + cfg.cooldownSeconds ≤ action.now
    · exact Or.inr (Or.inl elapsed)
    · cases outcome with
      | returned => exact Or.inr (Or.inr ⟨⟨opened, by rw [act]; rfl⟩, not_le.mp elapsed⟩)
      | raised => exact Or.inl (by simp [Service.finish, complete, failure, opened])
      | circuitOpen => exact Or.inl ⟨opened, rfl⟩
      | cancelled => exact Or.inl ⟨opened, rfl⟩

theorem clock_step (stepped : step cfg service action = some next) :
    service.clock ≤ next.clock ∧ next.clock = action.now := by
  have readyClock (now : Rat) : (service.ready cfg now).clock = now := by
    rcases ready_cases cfg service now with ⟨-, -, shape⟩ | ⟨-, shape⟩ <;> rw [shape]
  obtain ⟨forward, ⟨-, rfl⟩ | ⟨id, -, rfl⟩ | ⟨id, outcome, call, -, -, rfl⟩⟩ := step_cases stepped
  · rw [readyClock]
    exact ⟨forward, rfl⟩
  · have entered : (service.enter cfg action.now id).clock = (service.ready cfg action.now).clock :=
      rfl
    rw [entered, readyClock]
    exact ⟨forward, rfl⟩
  · exact ⟨forward, rfl⟩

theorem not_opens_ready (cfg : Config) (closed : service.breaker.state ≠ .opened) (now : Rat) :
    (service.ready cfg now).breaker.state ≠ .opened := by
  rcases ready_cases cfg service now with ⟨opened, -, -⟩ | ⟨-, shape⟩
  · exact absurd opened closed
  · rwa [shape]

theorem opens_step (opens : Opens ⟨service, action, next⟩)
    (stepped : step cfg service action = some next) :
    next.breaker.openedAt = action.now := by
  obtain ⟨closed, opened⟩ := opens
  have unopened := not_opens_ready cfg closed action.now
  obtain ⟨-, ⟨-, rfl⟩ | ⟨id, -, rfl⟩ | ⟨id, outcome, call, -, -, rfl⟩⟩ := step_cases stepped
  · exact absurd opened unopened
  · rcases enter_cases cfg service action.now id with
      ⟨-, -, shape⟩ | ⟨-, -, shape⟩ | ⟨-, -, shape⟩
    all_goals
      simp only [shape] at opened
      exact absurd opened unopened
  · cases outcome with
    | returned => simp [Service.finish, complete] at opened
    | raised =>
        simp only [Service.finish, complete, failure] at opened ⊢
        split
        · rfl
        · rename_i notHalfOpen
          rw [if_neg notHalfOpen] at opened
          split
          · rfl
          · rename_i below
            rw [if_neg below] at opened
            exact absurd opened closed
    | circuitOpen => exact absurd opened closed
    | cancelled => exact absurd opened closed

theorem admits_not_opened (admits : Admits cfg ⟨service, action, next⟩)
    (stepped : step cfg service action = some next) : next.breaker.state ≠ .opened := by
  obtain ⟨enters, admitted⟩ := admits
  simp only at enters admitted
  obtain ⟨-, ⟨other, -⟩ | ⟨entering, entered, rfl⟩ | ⟨_, _, _, other, -⟩⟩ := step_cases stepped
  · simp [other, Act.enters] at enters
  · rcases enter_cases cfg service action.now entering with
      ⟨refused, -, -⟩ | ⟨-, closed, shape⟩ | ⟨-, halfOpen, shape⟩
    · simp [admitted] at refused
    · simp [shape, closed]
    · simp [shape, halfOpen]
  · simp [other, Act.enters] at enters

theorem coolingOff_step {events : List (Event Service Action)}
    (past : CoolingOff cfg events service) (stepped : step cfg service action = some next)
    (timely : ¬ EarlyReturn cfg ⟨service, action, next⟩) :
    CoolingOff cfg (events ++ [⟨service, action, next⟩]) next := by
  intro event member opens
  obtain ⟨forward, now⟩ := clock_step stepped
  rcases List.mem_append.mp member with old | new
  · rcases past event old opens with ⟨opened, order⟩ | elapsed
    · rcases opened_step opened stepped with ⟨still, same⟩ | elapsed | early
      · exact Or.inl ⟨still, by rwa [same]⟩
      · exact Or.inr (by linarith)
      · exact absurd early timely
    · exact Or.inr (elapsed.trans forward)
  · obtain rfl := List.mem_singleton.mp new
    exact Or.inl ⟨opens.2, (opens_step opens stepped).ge⟩

theorem cooldownRespected_run {events : List (Event Service Action)}
    (run : Run (step cfg) {} events service)
    (timely : ∀ event ∈ events, ¬ EarlyReturn cfg event) :
    CoolingOff cfg events service ∧ CooldownRespected cfg events := by
  refine Run.history_induction (fun event => ¬ EarlyReturn cfg event)
    (fun events service => CoolingOff cfg events service ∧ CooldownRespected cfg events)
    ⟨by simp [CoolingOff], by simp [CooldownRespected]⟩ ?_ run timely
  intro events service action next _ past stepped allowed
  have cooling := coolingOff_step past.1 stepped allowed
  refine ⟨cooling, List.pairwise_append.mpr ⟨past.2, by simp, ?_⟩⟩
  intro opening member later single opens admits
  obtain rfl := List.mem_singleton.mp single
  -- an admitting step leaves the breaker closed or half-open, so every opening has cooled down
  rcases cooling opening (List.mem_append_left _ member) opens with ⟨still, -⟩ | elapsed
  · exact absurd still (admits_not_opened admits stepped)
  · rwa [(clock_step stepped).2] at elapsed

theorem keepsOpen_iff (stepped : step cfg service action = some next) :
    KeepsOpen ⟨service, action, next⟩ ↔ ¬ LateReturn ⟨service, action, next⟩ := by
  constructor
  · intro kept given
    rcases given with ⟨opened, returns⟩
    simp only at opened returns
    obtain ⟨-, ⟨other, -⟩ | ⟨_, other, -⟩ | ⟨id, outcome, call, finished, -, rfl⟩⟩ :=
      step_cases stepped
    · simp [other, Act.returns] at returns
    · simp [other, Act.returns] at returns
    · have still := kept id outcome finished opened
      cases outcome with
      | returned => simp [Service.finish, complete] at still
      | raised => simp [finished, Act.returns] at returns
      | circuitOpen => simp [finished, Act.returns] at returns
      | cancelled => simp [finished, Act.returns] at returns
  · intro notLate id outcome act opened
    simp only at act opened ⊢
    obtain ⟨-, ⟨other, -⟩ | ⟨_, other, -⟩ | ⟨_, ended, call, finished, -, rfl⟩⟩ :=
      step_cases stepped
    · simp [act] at other
    · simp [act] at other
    · obtain ⟨rfl, rfl⟩ := Act.finish.inj (act.symm.trans finished)
      cases outcome with
      | returned => exact absurd ⟨opened, by simp [finished, Act.returns]⟩ notLate
      | raised => simp [Service.finish, complete, failure, opened]
      | circuitOpen => exact opened
      | cancelled => exact opened

/-- The cooldown holds and no ending call moves an OPEN breaker in exactly the runs without a
late return; for the cooldown alone it is enough that none comes before the cooldown is over. -/
theorem cooldown_iff_no_late_return (cfg : Config) {events : List (Event Service Action)}
    {service : Service} (run : Run (step cfg) {} events service) :
    ((CooldownRespected cfg events ∧ ∀ event ∈ events, KeepsOpen event) ↔
        ∀ event ∈ events, ¬ LateReturn event) ∧
      ((∀ event ∈ events, ¬ EarlyReturn cfg event) → CooldownRespected cfg events) := by
  have keeps : ∀ event ∈ events, (KeepsOpen event ↔ ¬ LateReturn event) := fun event member =>
    keepsOpen_iff (run.event_of_mem member).1
  refine ⟨⟨fun held event member => (keeps event member).mp (held.2 event member), ?_⟩,
    fun timely => (cooldownRespected_run run timely).2⟩
  intro notLate
  have timely : ∀ event ∈ events, ¬ EarlyReturn cfg event := fun event member early =>
    notLate event member early.1
  exact ⟨(cooldownRespected_run run timely).2, fun event member =>
    (keeps event member).mpr (notLate event member)⟩

/-- A call admitted before five others fail returns `late` seconds after they did; then a new
call comes in. -/
def straggler (late : Rat) : List Action :=
  ⟨0, .enter 9⟩ :: fiveFailures ++ [⟨late, .finish 9 .returned⟩, ⟨late, .enter 10⟩]

/-- The straggler returns only once the cooldown is over, so admission is still timely. -/
theorem cooldown_late_straggler :
    ∃ events, record (step {}) {} (straggler 40) = some events ∧ CooldownRespected {} events := by
  have recorded : record (step {}) {} (straggler 40) =
      some ((record (step {}) {} (straggler 40)).getD []) := by decide +kernel
  exact ⟨_, recorded, (cooldown_iff_no_late_return {} (run_of_record recorded)).2
    (by decide +kernel)⟩

theorem late_success_admits_within_cooldown :
    ∃ events service, Run (step {}) {} events service ∧ ¬ CooldownRespected {} events := by
  have recorded : record (step {}) {} (straggler 1) =
      some ((record (step {}) {} (straggler 1)).getD []) := by decide +kernel
  refine ⟨_, _, run_of_record recorded, ?_⟩
  unfold CooldownRespected
  decide +kernel

end RagSystem.CircuitBreaker
