import RagSystem.Shared.CircuitBreaker

/-! `async_retry` and `sync_retry` (`proxy/app/shared/retry.py`): the attempts at a call, the waits
between them and what a named circuit breaker is told. -/

namespace RagSystem.Retry

open CircuitBreaker

inductive BackoffStrategy
  | constant
  | linear
  | exponential
  deriving DecidableEq, Repr

/-- `retryable` is `_is_retryable`, `breaker` the configuration of the breaker named in
`circuit_breaker_name`. -/
structure RetryConfig (Failure : Type) where
  maxAttempts : Int := 3
  baseDelay : ℚ := 1
  maxDelay : ℚ := 60
  strategy : BackoffStrategy := .exponential
  jitter : Bool := true
  retryable : Failure → Bool := fun _ => true
  breaker : Option CircuitBreaker.Config := none

/-- `exhausted` is a `RetryExhaustedError`; its last error is missing when nothing was tried. -/
inductive Outcome (α Failure : Type)
  | rejected
  | returned (value : α)
  | raised (error : Failure)
  | exhausted (attempts : Int) (lastError : Option Failure)
  deriving DecidableEq, Repr

structure Ran (α Failure : Type) where
  outcome : Outcome α Failure
  calls : Nat
  delays : List ℚ
  breaker : Breaker
  deriving DecidableEq, Repr

/-- How each attempt ends and when, the draw for each wait, and what other users of the breaker do
to it before an attempt ends. -/
structure Circumstances (α Failure : Type) where
  fn : Nat → Except Failure α
  times : Nat → ℚ := fun _ => 0
  draws : Nat → ℚ := fun _ => 1
  others : Nat → Breaker → Breaker := fun _ breaker => breaker

section Retrying

variable {α Failure : Type} (config : RetryConfig Failure) (circumstances : Circumstances α Failure)

def computeDelay (draw : ℚ) (attempt : Nat) : ℚ :=
  let delay :=
    match config.strategy with
    | .constant => config.baseDelay
    | .linear => config.baseDelay * (attempt + 1)
    | .exponential => config.baseDelay * 2 ^ attempt
  let delay := min delay config.maxDelay
  if config.jitter then delay * draw else delay

def recordCircuitBreaker (now : ℚ) (succeeded : Bool) (breaker : Breaker) : Breaker :=
  match config.breaker with
  | none => breaker
  | some cfg => if succeeded then success breaker else failure cfg now breaker

/-- The loop from an attempt on. -/
def attemptsFrom : Nat → Nat → Breaker → Ran α Failure
  | 0, attempt, breaker => ⟨.exhausted config.maxAttempts none, attempt, [], breaker⟩
  | left + 1, attempt, breaker =>
      let breaker := circumstances.others attempt breaker
      let now := circumstances.times attempt
      match circumstances.fn attempt with
      | .ok value =>
          ⟨.returned value, attempt + 1, [], recordCircuitBreaker config now true breaker⟩
      | .error error =>
          let breaker := recordCircuitBreaker config now false breaker
          if ! config.retryable error then ⟨.raised error, attempt + 1, [], breaker⟩
          else if attempt < config.maxAttempts - 1 then
            let rest := attemptsFrom left (attempt + 1) breaker
            { rest with
              delays := computeDelay config (circumstances.draws attempt) attempt :: rest.delays }
          else ⟨.exhausted config.maxAttempts (some error), attempt + 1, [], breaker⟩

/-- Only here is the state of the breaker looked at. -/
def preflight (now : ℚ) (breaker : Breaker) : Breaker :=
  match config.breaker with
  | none => breaker
  | some cfg => maybeTransition cfg now breaker

def Refuses (now : ℚ) (breaker : Breaker) : Prop :=
  config.breaker.isSome ∧ (preflight config now breaker).state = .opened

instance decidableRefuses (now : ℚ) (breaker : Breaker) : Decidable (Refuses config now breaker) :=
  inferInstanceAs (Decidable (_ ∧ _))

def retry (now : ℚ) (breaker : Breaker) : Ran α Failure :=
  let checked := preflight config now breaker
  if Refuses config now breaker then ⟨.rejected, 0, [], checked⟩
  else attemptsFrom config circumstances config.maxAttempts.toNat 0 checked

end Retrying

section Spec

variable {α Failure : Type} {config : RetryConfig Failure} {circumstances : Circumstances α Failure}

/-- The attempt fails in a way that may be tried again. -/
def Retries (config : RetryConfig Failure) (circumstances : Circumstances α Failure)
    (attempt : Nat) : Prop :=
  ∃ error, circumstances.fn attempt = .error error ∧ config.retryable error = true

/-- What a run from an attempt on did: all attempts before the last may be tried again, each with
its wait, and the last one decides. -/
structure Explains (config : RetryConfig Failure) (circumstances : Circumstances α Failure)
    (first : Nat) (ran : Ran α Failure) : Prop where
  retried : ∀ attempt, first ≤ attempt → attempt + 1 < ran.calls →
    Retries config circumstances attempt
  within : ran.calls ≤ config.maxAttempts.toNat
  waits : ran.delays = (List.range' first (ran.calls - 1 - first)).map
    (fun attempt => computeDelay config (circumstances.draws attempt) attempt)
  ends :
    match ran.outcome with
    | .rejected => False
    | .returned value => ∃ last, ran.calls = last + 1 ∧ circumstances.fn last = .ok value
    | .raised error => ∃ last, ran.calls = last + 1 ∧ circumstances.fn last = .error error ∧
        config.retryable error = false
    | .exhausted attempts none => attempts = config.maxAttempts ∧ attempts ≤ 0
    | .exhausted attempts (some error) => attempts = config.maxAttempts ∧
        (ran.calls : Int) = attempts ∧ config.retryable error = true ∧
          ∃ last, ran.calls = last + 1 ∧ circumstances.fn last = .error error

theorem lt_calls_attemptsFrom (left attempt : Nat) (breaker : Breaker) :
    attempt < (attemptsFrom config circumstances (left + 1) attempt breaker).calls := by
  induction left generalizing attempt breaker with
  | zero =>
      simp only [attemptsFrom]
      cases circumstances.fn attempt with
      | ok value => exact Nat.lt_succ_self attempt
      | error error => dsimp only; split_ifs <;> exact Nat.lt_succ_self attempt
  | succ left ih =>
      rw [attemptsFrom]
      cases circumstances.fn attempt with
      | ok value => exact Nat.lt_succ_self attempt
      | error error =>
          dsimp only
          split_ifs
          · exact Nat.lt_succ_self attempt
          · exact Nat.lt_of_succ_lt (ih (attempt + 1) _)
          · exact Nat.lt_succ_self attempt

theorem explains_attemptsFrom (left attempt : Nat) (breaker : Breaker)
    (counted : left + attempt = config.maxAttempts.toNat) (some_left : left = 0 → attempt = 0) :
    Explains config circumstances attempt
      (attemptsFrom config circumstances left attempt breaker) := by
  induction left generalizing attempt breaker with
  | zero =>
      have none : config.maxAttempts ≤ 0 := Int.toNat_eq_zero.mp (by omega)
      have start := some_left rfl
      subst start
      exact ⟨fun _ _ late => absurd late (by simp [attemptsFrom]), by simp [attemptsFrom],
        by simp [attemptsFrom], ⟨rfl, none⟩⟩
  | succ left ih =>
      have single {outcome : Outcome α Failure} {later : Breaker}
          (ends : match outcome with
            | .rejected => False
            | .returned value => circumstances.fn attempt = .ok value
            | .raised error => circumstances.fn attempt = .error error ∧
                config.retryable error = false
            | .exhausted _ none => False
            | .exhausted attempts (some error) => attempts = config.maxAttempts ∧
                (attempt + 1 : Int) = attempts ∧ config.retryable error = true ∧
                  circumstances.fn attempt = .error error) :
          Explains config circumstances attempt ⟨outcome, attempt + 1, [], later⟩ := by
        refine ⟨fun other low high => ?_, ?_, by simp, ?_⟩
        · dsimp only at high
          omega
        · dsimp only
          omega
        · cases outcome with
          | rejected => exact ends
          | returned value => exact ⟨attempt, rfl, ends⟩
          | raised error => exact ⟨attempt, rfl, ends⟩
          | exhausted attempts last =>
              cases last with
              | none => exact ends.elim
              | some error => exact ⟨ends.1, ends.2.1, ends.2.2.1, attempt, rfl, ends.2.2.2⟩
      rw [attemptsFrom]
      cases ended : circumstances.fn attempt with
      | ok value => exact single ended
      | error error =>
          dsimp only
          cases again : config.retryable error with
          | false => exact single ⟨ended, again⟩
          | true =>
              simp only [Bool.not_true, Bool.false_eq_true, if_false]
              by_cases more : (attempt : Int) < config.maxAttempts - 1
              · rw [if_pos more]
                obtain ⟨rest, rfl⟩ : ∃ rest, left = rest + 1 :=
                  Nat.exists_eq_succ_of_ne_zero (by omega)
                let told := recordCircuitBreaker config (circumstances.times attempt) false
                  (circumstances.others attempt breaker)
                have later := ih (attempt + 1) told (by omega) (by omega)
                have tried : attempt + 1 <
                    (attemptsFrom config circumstances (rest + 1) (attempt + 1) told).calls :=
                  lt_calls_attemptsFrom rest (attempt + 1) told
                have size :
                    (attemptsFrom config circumstances (rest + 1) (attempt + 1) told).calls - 1 -
                      attempt =
                    (attemptsFrom config circumstances (rest + 1) (attempt + 1) told).calls - 1 -
                      (attempt + 1) + 1 := by omega
                refine ⟨fun other low high => ?_, later.within, ?_, later.ends⟩
                · rcases Nat.eq_or_lt_of_le low with rfl | above
                  · exact ⟨error, ended, again⟩
                  · exact later.retried other above high
                · dsimp only
                  rw [size, List.range'_succ, List.map_cons, later.waits]
              · rw [if_neg more]
                exact single ⟨rfl, by omega, again, ended⟩

/-- Past the check of its breaker, a retry is decided by the attempts alone: as many calls as are
needed and no more than are allowed, with a wait after each but the last. -/
theorem retry_explains (config : RetryConfig Failure) (circumstances : Circumstances α Failure)
    (now : ℚ) (breaker : Breaker) :
    if Refuses config now breaker then
      (retry config circumstances now breaker).outcome = .rejected ∧
        (retry config circumstances now breaker).calls = 0
    else Explains config circumstances 0 (retry config circumstances now breaker) := by
  by_cases refused : Refuses config now breaker
  · simp [retry, refused]
  · simp only [retry, refused, if_false]
    exact explains_attemptsFrom _ 0 _ rfl (fun _ => rfl)

/-! ### What the breaker is told -/

/-- The breaker has counted so many failures, and opened at the threshold. -/
structure Counted (cfg : CircuitBreaker.Config) (count : Nat) (breaker : Breaker) : Prop where
  failures : breaker.failureCount = count
  steady : breaker.state ≠ .halfOpen
  opened : breaker.state = .opened ↔ cfg.failureThreshold ≤ count

theorem Counted.failure {cfg : CircuitBreaker.Config} {count : Nat} {breaker : Breaker}
    (counted : Counted cfg count breaker) (now : ℚ) :
    Counted cfg (count + 1) (failure cfg now breaker) := by
  have more := counted.failures
  have opened := counted.opened
  cases state : breaker.state with
  | halfOpen => exact absurd state counted.steady
  | opened =>
      have reached := opened.mp state
      refine ⟨?_, ?_, ?_⟩ <;> simp [CircuitBreaker.failure, state, more]
      omega
  | closed =>
      have below : ¬ cfg.failureThreshold ≤ count := fun reached => by
        simpa [state] using opened.mpr reached
      by_cases reaches : cfg.failureThreshold ≤ count + 1
      · refine ⟨?_, ?_, ?_⟩ <;>
          simp [CircuitBreaker.failure, state, more, reaches, transition]
      · refine ⟨?_, ?_, ?_⟩ <;>
          simp [CircuitBreaker.failure, state, more, reaches]

theorem success_failureCount (breaker : Breaker) : (success breaker).failureCount = 0 := by
  rw [success]
  split <;> rfl

/-- After a retry that nobody else interferes with. -/
def Told (cfg : CircuitBreaker.Config) (count : Nat) (ran : Ran α Failure) : Prop :=
  match ran.outcome with
  | .returned _ => ran.breaker.state = .closed ∧ ran.breaker.failureCount = 0
  | _ => Counted cfg (count + ran.calls) ran.breaker

theorem told_attemptsFrom {cfg : CircuitBreaker.Config} (named : config.breaker = some cfg)
    (quiet : ∀ attempt breaker, circumstances.others attempt breaker = breaker) {count : Nat}
    (left attempt : Nat) {breaker : Breaker} (counted : Counted cfg (count + attempt) breaker) :
    Told cfg count (attemptsFrom config circumstances left attempt breaker) := by
  induction left generalizing attempt breaker with
  | zero => exact counted
  | succ left ih =>
      have next := counted.failure (circumstances.times attempt)
      rw [attemptsFrom]
      simp only [quiet, recordCircuitBreaker, named]
      cases circumstances.fn attempt with
      | ok value => exact ⟨success_state breaker, success_failureCount breaker⟩
      | error error =>
          simp only [Bool.false_eq_true, if_false]
          split_ifs
          · exact next
          · exact ih (attempt + 1) next
          · exact next

/-- A retry that succeeds closes its breaker. One that does not adds its calls to the failures, and
leaves the breaker open exactly if they reach the threshold, even when it opened on the way. -/
theorem retry_told {cfg : CircuitBreaker.Config} (named : config.breaker = some cfg)
    (quiet : ∀ attempt breaker, circumstances.others attempt breaker = breaker) {breaker : Breaker}
    (closed : breaker.state = .closed) (below : breaker.failureCount < cfg.failureThreshold)
    (now : ℚ) : Told cfg breaker.failureCount (retry config circumstances now breaker) := by
  have checked : preflight config now breaker = breaker := by
    simp [preflight, named, maybeTransition, closed]
  have counted : Counted cfg (breaker.failureCount + 0) breaker := by
    refine ⟨rfl, by simp [closed], ?_⟩
    simp [closed, below]
  have admitted : ¬ Refuses config now breaker := by simp [Refuses, checked, closed]
  rw [retry, if_neg admitted, checked]
  exact told_attemptsFrom named quiet _ 0 counted

/-- Two failures bring a breaker with three of them to its threshold. -/
theorem retry_told_of_three :
    let config : RetryConfig String := { maxAttempts := 2, breaker := some {} }
    let circumstances : Circumstances Unit String := { fn := fun _ => .error "refused" }
    Told {} 3 (retry config circumstances 0 { failureCount := 3 }) ∧
      (retry config circumstances 0 { failureCount := 3 }).breaker.state = .opened := by
  intro config circumstances
  have told : Told {} 3 (retry config circumstances 0 { failureCount := 3 }) :=
    @retry_told Unit String config circumstances {} rfl (fun _ _ => rfl) { failureCount := 3 } rfl
      (by decide) 0
  exact ⟨told, by decide +kernel⟩

end Spec

end RagSystem.Retry
