import RagSystem.Shared.CircuitBreaker

/-! How many calls the circuit breaker counts as failed and how many it admits while it tests the
recovery. -/

namespace RagSystem.CircuitBreaker

open Transition

def HalfOpens (event : Event Service Action) : Prop :=
  event.before.breaker.state ≠ .halfOpen ∧ event.after.breaker.state = .halfOpen

instance decidableHalfOpens : DecidablePred HalfOpens := fun _ =>
  inferInstanceAs (Decidable (_ ≠ _ ∧ _ = _))

def Act.raises : Act → Bool
  | .finish _ .raised => true
  | _ => false

def BelowThreshold (cfg : Config) (service : Service) : Prop :=
  service.breaker.state = .closed → (service.breaker.failureCount : Int) < cfg.failureThreshold

/-- From a change into HALF_OPEN on, as long as the breaker neither closes nor changes into
HALF_OPEN again, no more calls are admitted than `half_open_max`. -/
def AdmissionsBounded (cfg : Config) (events : List (Event Service Action)) : Prop :=
  ∀ (first : List (Event Service Action)) (entry : Event Service Action)
    (between rest : List (Event Service Action)), events = first ++ entry :: (between ++ rest) →
    HalfOpens entry → (∀ event ∈ between, ¬ HalfOpens event) →
    (∀ event ∈ between, event.after.breaker.state ≠ .closed) →
      ((entry :: between).countP (fun event => Admits cfg event) : Int) ≤ cfg.halfOpenMax

variable {cfg : Config} {service next : Service} {action : Action}

theorem ready_eq_of_not_halfOpens (now : Rat)
    (quiet : service.breaker.state ≠ .halfOpen → (service.ready cfg now).breaker.state ≠ .halfOpen) :
    (service.ready cfg now).breaker = service.breaker := by
  rcases ready_cases cfg service now with ⟨opened, -, shape⟩ | ⟨-, shape⟩
  · have outside : service.breaker.state ≠ .halfOpen := by simp [opened]
    exact absurd (by rw [shape]) (quiet outside)
  · rw [shape]

theorem ready_halfOpenCalls (now : Rat) (outside : service.breaker.state ≠ .halfOpen)
    (halfOpen : (service.ready cfg now).breaker.state = .halfOpen) :
    (service.ready cfg now).breaker.halfOpenCalls = 0 := by
  rcases ready_cases cfg service now with ⟨-, -, shape⟩ | ⟨-, shape⟩
  · rw [shape]
  · rw [shape] at halfOpen
    exact absurd halfOpen outside

/-! Failures. -/

theorem belowThreshold_ready (below : BelowThreshold cfg service) (now : Rat) :
    BelowThreshold cfg (service.ready cfg now) := by
  rcases ready_cases cfg service now with ⟨-, -, shape⟩ | ⟨-, shape⟩
  · rw [shape]
    intro closed
    cases closed
  · rw [shape]
    exact below

theorem belowThreshold_complete (threshold : 0 < cfg.failureThreshold)
    (below : BelowThreshold cfg service) (now : Rat) (outcome : Outcome)
    (closed : (complete cfg now service.breaker outcome).state = .closed) :
    ((complete cfg now service.breaker outcome).failureCount : Int) < cfg.failureThreshold := by
  cases outcome with
  | returned =>
      have reset : (success service.breaker).failureCount = 0 := by
        simp only [success]
        split <;> rfl
      rw [complete, reset]
      exact threshold
  | raised =>
      simp only [complete, failure] at closed ⊢
      split at closed
      · simp at closed
      · rename_i notHalfOpen
        rw [if_neg notHalfOpen]
        split at closed
        · simp at closed
        · rename_i few
          rw [if_neg few]
          by_contra reached
          exact few ⟨closed, not_lt.mp reached⟩
  | circuitOpen => exact below closed
  | cancelled => exact below closed

theorem belowThreshold_step (threshold : 0 < cfg.failureThreshold)
    (below : BelowThreshold cfg service) (stepped : step cfg service action = some next) :
    BelowThreshold cfg next := by
  have ready := belowThreshold_ready below action.now
  obtain ⟨-, ⟨-, rfl⟩ | ⟨id, -, rfl⟩ | ⟨id, outcome, call, -, -, rfl⟩⟩ := step_cases stepped
  · exact ready
  · rcases enter_cases cfg service action.now id with
      ⟨-, -, shape⟩ | ⟨-, -, shape⟩ | ⟨-, halfOpen, shape⟩
    · rwa [shape]
    · rw [shape]
      exact ready
    · rw [shape]
      intro closed
      rw [halfOpen] at closed
      cases closed
  · exact belowThreshold_complete threshold below action.now outcome

theorem raises_of_opens (stepped : step cfg service action = some next)
    (opens : Opens ⟨service, action, next⟩) : action.act.raises = true := by
  obtain ⟨closed, opened⟩ := opens
  have unopened := not_opens_ready cfg closed action.now
  obtain ⟨-, ⟨-, rfl⟩ | ⟨id, -, rfl⟩ | ⟨id, outcome, call, finished, -, rfl⟩⟩ := step_cases stepped
  · exact absurd opened unopened
  · rcases enter_cases cfg service action.now id with
      ⟨-, -, shape⟩ | ⟨-, -, shape⟩ | ⟨-, -, shape⟩
    all_goals
      simp only [shape] at opened
      exact absurd opened unopened
  · cases outcome with
    | returned => simp [Service.finish, complete] at opened
    | raised => rw [finished, Act.raises]
    | circuitOpen => exact absurd opened closed
    | cancelled => exact absurd opened closed

/-! Admissions. -/

def admitted (cfg : Config) (event : Event Service Action) : Nat :=
  [event].countP (fun event => Admits cfg event)

theorem admitted_of_not (refused : ¬ Admits cfg ⟨service, action, next⟩) :
    admitted cfg ⟨service, action, next⟩ = 0 := by
  simp [admitted, refused]

theorem admitted_of_not_enters (outside : action.act.enters = false) :
    admitted cfg ⟨service, action, next⟩ = 0 := by
  apply admitted_of_not
  intro given
  rcases given with ⟨enters, -⟩
  exact Bool.false_ne_true (outside.symm.trans enters)

theorem ready_slots (now : Rat) (halfOpen : (service.ready cfg now).breaker.state = .halfOpen) :
    (service.ready cfg now).breaker.halfOpenCalls =
      if service.breaker.state = .halfOpen then service.breaker.halfOpenCalls else 0 := by
  split
  · rename_i inside
    rw [ready_eq_of_not_halfOpens now fun outside => absurd inside outside]
  · rename_i outside
    exact ready_halfOpenCalls now outside halfOpen

theorem finish_slots {call : Call} {outcome : Outcome}
    (halfOpen : (service.finish cfg action.now call outcome).breaker.state = .halfOpen) :
    (service.finish cfg action.now call outcome).breaker.halfOpenCalls =
      if service.breaker.state = .halfOpen then service.breaker.halfOpenCalls else 0 := by
  obtain ⟨-, unchanged⟩ := complete_halfOpen cfg halfOpen
  have before : service.breaker.state = .halfOpen := by
    simpa only [Service.finish, unchanged] using halfOpen
  rw [if_pos before]
  simp only [Service.finish, unchanged]

theorem ready_has_slot {now : Rat} (enters : (checkAndEnter cfg now service.breaker).2 = true)
    (halfOpen : (service.ready cfg now).breaker.state = .halfOpen) :
    ((service.ready cfg now).breaker.halfOpenCalls : Int) < cfg.halfOpenMax := by
  rcases checkAndEnter_cases cfg now service.breaker with
    ⟨entered, -⟩ | ⟨-, closed⟩ | ⟨-, -, free⟩
  · simp [entered] at enters
  · rw [ready_breaker] at halfOpen
    simp [closed] at halfOpen
  · rwa [ready_breaker]

theorem admitted_step (stepped : step cfg service action = some next)
    (unclosed : next.breaker.state ≠ .closed) :
    (next.breaker.state = .halfOpen →
        next.breaker.halfOpenCalls = admitted cfg ⟨service, action, next⟩ +
          if service.breaker.state = .halfOpen then service.breaker.halfOpenCalls else 0) ∧
      (admitted cfg ⟨service, action, next⟩ = 0 ∨ next.breaker.state = .halfOpen ∧
        (next.breaker.halfOpenCalls : Int) ≤ cfg.halfOpenMax) := by
  obtain ⟨-, ⟨act, rfl⟩ | ⟨id, act, rfl⟩ | ⟨id, outcome, call, act, -, rfl⟩⟩ := step_cases stepped
  · rw [admitted_of_not_enters (by simp [act, Act.enters]), Nat.zero_add]
    exact ⟨ready_slots action.now, Or.inl rfl⟩
  · rcases enter_cases cfg service action.now id with
      ⟨refused, -, shape⟩ | ⟨-, closed, shape⟩ | ⟨enters, halfOpen, shape⟩
    · have none : ¬ Admits cfg ⟨service, action, service.enter cfg action.now id⟩ := by
        intro given
        rcases given with ⟨-, admits⟩
        simp [refused] at admits
      rw [admitted_of_not none, Nat.zero_add, shape]
      exact ⟨ready_slots action.now, Or.inl rfl⟩
    · rw [shape] at unclosed
      exact absurd closed unclosed
    · have one : admitted cfg ⟨service, action, service.enter cfg action.now id⟩ = 1 := by
        simp [admitted, Admits, act, Act.enters, enters]
      have free := ready_has_slot enters halfOpen
      rw [one, shape]
      constructor
      · intro _
        dsimp only
        rw [ready_slots action.now halfOpen, Nat.add_comm]
      · refine Or.inr ⟨halfOpen, ?_⟩
        push_cast
        omega
  · rw [admitted_of_not_enters (by simp [act, Act.enters]), Nat.zero_add]
    exact ⟨finish_slots, Or.inl rfl⟩

/-- What was admitted since the breaker changed into HALF_OPEN: the slots taken, as long as it is
HALF_OPEN, and never too many. -/
structure Tested (cfg : Config) (count : Nat) (service : Service) : Prop where
  taken : service.breaker.state = .halfOpen → service.breaker.halfOpenCalls = count
  bounded : (count : Int) ≤ cfg.halfOpenMax

theorem tested_of_halfOpens (slots : 0 ≤ cfg.halfOpenMax)
    (stepped : step cfg service action = some next)
    (reopens : HalfOpens ⟨service, action, next⟩) :
    Tested cfg (admitted cfg ⟨service, action, next⟩) next := by
  obtain ⟨outside, halfOpen⟩ := reopens
  have unclosed : next.breaker.state ≠ .closed := by
    change next.breaker.state = .halfOpen at halfOpen
    simp [halfOpen]
  obtain ⟨taken, bound⟩ := admitted_step stepped unclosed
  have same := taken halfOpen
  rw [if_neg outside, Nat.add_zero] at same
  constructor
  · exact fun _ => same
  · rcases bound with none | ⟨-, bound⟩
    · rw [none]
      exact slots
    · rwa [← same]

theorem tested_step {count : Nat} (tested : Tested cfg count service)
    (stepped : step cfg service action = some next)
    (quiet : ¬ HalfOpens ⟨service, action, next⟩) (unclosed : next.breaker.state ≠ .closed) :
    Tested cfg (count + admitted cfg ⟨service, action, next⟩) next := by
  obtain ⟨taken, bound⟩ := admitted_step stepped unclosed
  have slots : next.breaker.state = .halfOpen →
      next.breaker.halfOpenCalls = count + admitted cfg ⟨service, action, next⟩ := by
    intro halfOpen
    have inside : service.breaker.state = .halfOpen := by
      by_contra outside
      exact quiet ⟨outside, halfOpen⟩
    rw [taken halfOpen, if_pos inside, tested.taken inside, Nat.add_comm]
  constructor
  · exact slots
  · rcases bound with none | ⟨halfOpen, bound⟩
    · rw [none]
      exact tested.bounded
    · rwa [← slots halfOpen]

theorem admissionsBounded_run (slots : 0 ≤ cfg.halfOpenMax)
    {events : List (Event Service Action)} (run : Run (step cfg) {} events service) :
    AdmissionsBounded cfg events := by
  intro first entry between rest given reopens quiet unclosed
  rcases given with rfl
  obtain ⟨-, stepped, later⟩ := run.split
  obtain ⟨middle, testing, -⟩ := later.of_append
  have tested := testing.history_induction
    (fun event => ¬ HalfOpens event ∧ event.after.breaker.state ≠ .closed)
    (fun events service =>
      Tested cfg ((entry :: events).countP (fun event => Admits cfg event)) service)
    (tested_of_halfOpens slots stepped reopens)
    (by
      intro events service action next _ past stepped allowed
      rw [← List.cons_append, List.countP_append]
      exact tested_step past stepped allowed.1 allowed.2)
    (fun event member => ⟨quiet event member, unclosed event member⟩)
  exact tested.bounded

/-- In every run a CLOSED breaker is below its threshold, only failures open it, and each test of
the recovery admits at most `half_open_max` calls. -/
theorem breaker_counts (cfg : Config) (threshold : 1 ≤ cfg.failureThreshold)
    (slots : 1 ≤ cfg.halfOpenMax) {events : List (Event Service Action)} {service : Service}
    (run : Run (step cfg) {} events service) :
    BelowThreshold cfg service ∧
      (∀ event ∈ events, Opens event → event.action.act.raises = true) ∧
      AdmissionsBounded cfg events := by
  refine ⟨?_, ?_, admissionsBounded_run (by omega) run⟩
  · have fresh : BelowThreshold cfg {} := fun _ => by
      change (0 : Int) < cfg.failureThreshold
      omega
    exact run.invariant_always (BelowThreshold cfg) fresh
      fun _ _ _ below stepped => belowThreshold_step (by omega) below stepped
  · intro event member
    exact raises_of_opens (run.event_of_mem member).1

def twoProbes : List Action :=
  fiveFailures ++ [⟨30, .enter 5⟩, ⟨30, .enter 6⟩, ⟨30, .enter 7⟩, ⟨31, .finish 5 .raised⟩]

theorem breaker_counts_two_probes :
    ∃ events service, Run (step {}) {} events service ∧ BelowThreshold {} service ∧
      (∀ event ∈ events, Opens event → event.action.act.raises = true) ∧
      AdmissionsBounded {} events := by
  have recorded : record (step {}) {} twoProbes =
      some ((record (step {}) {} twoProbes).getD []) := by decide +kernel
  have run := run_of_record recorded
  exact ⟨_, _, run, breaker_counts {} (by decide) (by decide) run⟩

end RagSystem.CircuitBreaker
