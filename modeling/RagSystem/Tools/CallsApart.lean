import Mathlib.Algebra.Order.BigOperators.Group.List
import Mathlib.Data.Nat.Cast.Basic
import RagSystem.Tools.DependencyLevels

/-! Whether the executor keeps the calls of a list apart, over every completion order. -/

namespace RagSystem.Tools

open Layering Transition

variable {η : Type}

/-! ## Single calls -/

section Single

variable (secondsText : ℚ → String) (registry : Registry η) (call : ToolCall)

/-- One of the attempts at the call was the last one, and `result` is what came of it. -/
inductive OutcomeOf (attempts : Nat → Attempt η) : ToolResult → Prop
  | returned {attempt : Nat} {respond : η → Params → Except String String}
      (made : attempt < totalAttempts registry call)
      (answered : attempts attempt = .returned respond) :
      OutcomeOf attempts (attempted registry call respond attempt)
  | timedOut {attempt : Nat} (made : attempt < totalAttempts registry call)
      (cut : attempts attempt = .timedOut) :
      OutcomeOf attempts
        { toolName := call.name, toolCallId := call.id, retryCount := attempt,
          error := some (timeoutError secondsText registry call) }

variable {secondsText registry call} {attempts : Nat → Attempt η} {result : ToolResult}

theorem OutcomeOf.toolCallId (outcome : OutcomeOf secondsText registry call attempts result) :
    result.toolCallId = call.id := by
  cases outcome with
  | returned _ _ => rfl
  | timedOut _ _ => rfl

theorem OutcomeOf.totalAttempts_pos
    (outcome : OutcomeOf secondsText registry call attempts result) :
    0 < totalAttempts registry call := by
  cases outcome with
  | returned made _ => omega
  | timedOut made _ => omega

theorem timeoutError_ne_empty : timeoutError secondsText registry call ≠ "" := by
  intro empty
  have letters := congrArg String.toList empty
  simp [timeoutError, toString] at letters

theorem attemptLoop_outcome {left retryCount : Nat} (lastError : Option String) (some_left : 0 < left)
    (total : retryCount + left = totalAttempts registry call) :
    OutcomeOf secondsText registry call attempts
      (attemptLoop secondsText registry call attempts left retryCount lastError) := by
  induction left generalizing retryCount lastError with
  | zero => omega
  | succ left ih =>
      have made : retryCount < totalAttempts registry call := by omega
      cases ended : attempts retryCount with
      | returned respond =>
          simp only [attemptLoop, ended]
          split
          · next again => exact ih _ again.2 (by omega)
          · exact OutcomeOf.returned made ended
      | timedOut =>
          simp only [attemptLoop, ended]
          split
          · next again => exact ih _ again (by omega)
          · have outcome : OutcomeOf secondsText registry call attempts _ := .timedOut made ended
            simpa [exhausted, timeoutError_ne_empty] using outcome

theorem executeSingle_outcome (some_left : 0 < totalAttempts registry call) :
    OutcomeOf secondsText registry call attempts
      (executeSingle secondsText registry call attempts) :=
  attemptLoop_outcome none some_left (by omega)

end Single

theorem totalAttempts_pos_iff {registry : Registry η} {call : ToolCall} {tool : ToolDefinition η}
    (registered : registry.getTool call.name = some tool) :
    0 < totalAttempts registry call ↔
      ∀ policy, tool.retryPolicy = some policy → 0 ≤ policy.maxRetries := by
  cases attached : tool.retryPolicy with
  | none => simp [totalAttempts, registered, attached]
  | some policy =>
      simp only [totalAttempts, registered, attached, Option.bind_some, Option.map_some,
        Option.getD_some, Option.some.injEq, forall_eq']
      omega

/-! ## Runs -/

section Slots

variable {secondsText : ℚ → String} {registry : Registry η} {index : Nat}
  {attempts : Nat → Attempt η}

@[simp] theorem Slot.start_placed (slot : Slot) : (slot.start index).placed = slot.placed := by
  unfold Slot.start
  split <;> rfl

@[simp] theorem Slot.finish_placed (slot : Slot) :
    (slot.finish secondsText registry index attempts).placed = slot.placed := by
  unfold Slot.finish
  split <;> rfl

theorem Slot.result_of_start {slot : Slot} {result : ToolResult}
    (ended : (slot.start index).result? = some result) : slot.result? = some result := by
  unfold Slot.start at ended
  split at ended
  · cases ended
  · exact ended

theorem Slot.result_of_finish {slot : Slot} {result : ToolResult}
    (ended : (slot.finish secondsText registry index attempts).result? = some result) :
    slot.result? = some result ∨ slot.placed.index = index ∧
      result = executeSingle secondsText registry slot.placed.call attempts := by
  unfold Slot.finish at ended
  split at ended
  · next taken => exact Or.inr ⟨taken.1, (Option.some.inj ended).symm⟩
  · exact Or.inl ended

end Slots

section System

variable {secondsText : ℚ → String} {registry : Registry η} {calls : List ToolCall}
  {maxConcurrency : Nat} {progress next : Progress}

theorem step_start {index : Nat}
    (stepped : step secondsText registry calls maxConcurrency progress (.start index) =
      some next) :
    (∃ slot ∈ progress.active, slot.placed.index = index ∧ slot.isWaiting) ∧
      progress.active.countP Slot.isRunning < maxConcurrency ∧
      next = { progress with active := progress.active.map (Slot.start index) } := by
  simp only [step] at stepped
  split at stepped
  · next enabled => exact ⟨enabled.1, enabled.2, (Option.some.inj stepped).symm⟩
  · cases stepped

theorem step_finish {index : Nat} {attempts : Nat → Attempt η}
    (stepped : step secondsText registry calls maxConcurrency progress (.finish index attempts) =
      some next) :
    (∃ slot ∈ progress.active, slot.placed.index = index ∧ slot.isRunning) ∧
      next = { progress with
        active := progress.active.map (Slot.finish secondsText registry index attempts) } := by
  simp only [step] at stepped
  split at stepped
  · next enabled => exact ⟨enabled, (Option.some.inj stepped).symm⟩
  · cases stepped

theorem step_advance
    (stepped : step secondsText registry calls maxConcurrency progress .advance = some next) :
    (∀ slot ∈ progress.active, slot.result?.isSome) ∧ next.results = progress.collect ∧
      ((∃ level, progress.rest = level :: next.rest ∧ next.active = slotsOf calls level) ∨
        progress.rest = [] ∧ next.rest = [] ∧ next.active = []) := by
  simp only [step] at stepped
  split at stepped
  · next ended =>
      refine ⟨by simpa using ended, ?_⟩
      split at stepped
      · next level rest shape =>
          obtain rfl := Option.some.inj stepped
          exact ⟨rfl, Or.inl ⟨level, shape, rfl⟩⟩
      · next shape =>
          split at stepped
          · cases stepped
          · obtain rfl := Option.some.inj stepped
            exact ⟨rfl, Or.inr ⟨shape, rfl, rfl⟩⟩
  · cases stepped

def Ended (secondsText : ℚ → String) (registry : Registry η)
    (events : List (Event Progress (Action η))) (placed : Placed) (result : ToolResult) : Prop :=
  ∃ event ∈ events, ∃ attempts, event.action = .finish placed.index attempts ∧
    result = executeSingle secondsText registry placed.call attempts

theorem Ended.mono {first second : List (Event Progress (Action η))} {placed : Placed}
    {result : ToolResult} (ended : Ended secondsText registry first placed result) :
    Ended secondsText registry (first ++ second) placed result := by
  obtain ⟨event, member, found⟩ := ended
  exact ⟨event, List.mem_append_left _ member, found⟩

/-- What is true of a run of the executor: `past` are the tools whose results are stored and
`current` the ones of the level being gathered. -/
structure Tracked (secondsText : ℚ → String) (registry : Registry η) (calls : List ToolCall)
    (past current : List String) (events : List (Event Progress (Action η)))
    (progress : Progress) : Prop where
  covered : ∀ name, name ∈ past ++ current ++ progress.rest.flatten ↔
    name ∈ toolNames (calledTools registry calls)
  layered : Layered (dependencies (calledTools registry calls)) past (current :: progress.rest)
  placed : progress.active.map Slot.placed = current.filterMap (nameToCall calls).get?
  stored : ∀ name ∈ past, ∀ placed, (nameToCall calls).get? name = some placed →
    ∃ result, progress.results.get? name = some result ∧
      Ended secondsText registry events placed result
  others : ∀ name, name ∉ past → progress.results.get? name = none
  ended : ∀ slot ∈ progress.active, ∀ result, slot.result? = some result →
    Ended secondsText registry events slot.placed result

variable {past current : List String} {events : List (Event Progress (Action η))}

theorem tracked_initial {levels : List (List String)}
    (planned : plan registry calls = .ok levels) :
    Tracked secondsText registry calls [] [] [] { rest := levels } where
  covered := by simpa using (layered_plan planned).2
  layered := ⟨by simp, by simpa using (layered_plan planned).1⟩
  placed := rfl
  stored := by simp
  others := by simp
  ended := by simp

theorem Tracked.mem_current (tracked : Tracked secondsText registry calls past current events progress)
    {slot : Slot} (active : slot ∈ progress.active) :
    slot.placed.call.name ∈ current ∧
      (nameToCall calls).get? slot.placed.call.name = some slot.placed := by
  have listed : slot.placed ∈ current.filterMap (nameToCall calls).get? := by
    rw [← tracked.placed]
    exact List.mem_map_of_mem active
  obtain ⟨name, member, found⟩ := List.mem_filterMap.mp listed
  obtain rfl := (get?_nameToCall found).2
  exact ⟨member, found⟩

theorem Tracked.exists_slot
    (tracked : Tracked secondsText registry calls past current events progress) {name : String}
    (member : name ∈ current) {placed : Placed}
    (found : (nameToCall calls).get? name = some placed) :
    ∃ slot ∈ progress.active, slot.placed = placed := by
  have listed : placed ∈ progress.active.map Slot.placed := by
    rw [tracked.placed]
    exact List.mem_filterMap.mpr ⟨name, member, found⟩
  exact List.mem_map.mp listed

theorem Tracked.collected
    (tracked : Tracked secondsText registry calls past current events progress)
    (ended : ∀ slot ∈ progress.active, slot.result?.isSome) :
    (∀ name ∈ past ++ current, ∀ placed, (nameToCall calls).get? name = some placed →
      ∃ result, progress.collect.get? name = some result ∧
        Ended secondsText registry events placed result) ∧
      ∀ name, name ∉ past ++ current → progress.collect.get? name = none := by
  have source : ∀ name result, (name, result) ∈ progress.active.filterMap Slot.binding →
      ∃ slot ∈ progress.active, slot.result? = some result ∧ slot.placed.call.name = name := by
    intro name result listed
    obtain ⟨slot, active, same⟩ := List.mem_filterMap.mp listed
    obtain ⟨_, got, pair⟩ := Option.map_eq_some_iff.mp same
    obtain ⟨rfl, rfl⟩ := Prod.mk.inj pair
    exact ⟨slot, active, got, rfl⟩
  constructor
  · intro name member placed found
    by_cases present : ∃ binding ∈ progress.active.filterMap Slot.binding, binding.1 = name
    · obtain ⟨result, listed, got⟩ := Dict.get?_setAll_of_mem present progress.results
      obtain ⟨slot, active, has, rfl⟩ := source name result listed
      obtain rfl : slot.placed = placed :=
        Option.some.inj ((tracked.mem_current active).2.symm.trans found)
      exact ⟨result, got, tracked.ended slot active result has⟩
    · push Not at present
      rcases List.mem_append.mp member with before | now
      · obtain ⟨result, got, finished⟩ := tracked.stored name before placed found
        exact ⟨result, (Dict.get?_setAll_of_not_mem present _).trans got, finished⟩
      · obtain ⟨slot, active, rfl⟩ := tracked.exists_slot now found
        obtain ⟨result, has⟩ := Option.isSome_iff_exists.mp (ended slot active)
        have bound : slot.binding = some (slot.placed.call.name, result) := by
          simp [Slot.binding, has]
        have listed := List.mem_filterMap.mpr ⟨slot, active, bound⟩
        exact absurd (get?_nameToCall found).2 (present _ listed)
  · intro name absent
    rw [List.mem_append, not_or] at absent
    have missing := tracked.others name absent.1
    rw [← missing]
    apply Dict.get?_setAll_of_not_mem
    intro given listed also
    rcases given with ⟨other, result⟩
    rcases also with rfl
    obtain ⟨slot, active, -, rfl⟩ := source other result listed
    exact absent.2 (tracked.mem_current active).1

theorem tracked_step {action : Action η}
    (tracked : Tracked secondsText registry calls past current events progress)
    (stepped : step secondsText registry calls maxConcurrency progress action = some next) :
    ∃ past current, Tracked secondsText registry calls past current
      (events ++ [⟨progress, action, next⟩]) next := by
  cases action with
  | start index =>
      obtain ⟨-, -, rfl⟩ := step_start stepped
      exact ⟨past, current, {
        covered := tracked.covered
        layered := tracked.layered
        placed := by simpa [Function.comp_def] using tracked.placed
        stored := by
          intro name member placed found
          obtain ⟨result, got, finished⟩ := tracked.stored name member placed found
          exact ⟨result, got, finished.mono⟩
        others := tracked.others
        ended := by
          intro slot active result has
          obtain ⟨old, known, rfl⟩ := List.mem_map.mp active
          rw [Slot.start_placed]
          exact (tracked.ended old known result (Slot.result_of_start has)).mono }⟩
  | finish index attempts =>
      obtain ⟨-, rfl⟩ := step_finish stepped
      exact ⟨past, current, {
        covered := tracked.covered
        layered := tracked.layered
        placed := by simpa [Function.comp_def] using tracked.placed
        stored := by
          intro name member placed found
          obtain ⟨result, got, finished⟩ := tracked.stored name member placed found
          exact ⟨result, got, finished.mono⟩
        others := tracked.others
        ended := by
          intro slot active result has
          obtain ⟨old, known, rfl⟩ := List.mem_map.mp active
          rw [Slot.finish_placed]
          rcases Slot.result_of_finish has with before | ⟨same, value⟩
          · exact (tracked.ended old known result before).mono
          · exact ⟨_, List.mem_append_right _ (List.mem_singleton_self _), attempts, by rw [same],
              value⟩ }⟩
  | advance =>
      obtain ⟨ended, results, moved⟩ := step_advance stepped
      obtain ⟨kept, missing⟩ := tracked.collected ended
      have stored : ∀ name ∈ past ++ current, ∀ placed,
          (nameToCall calls).get? name = some placed →
          ∃ result, next.results.get? name = some result ∧
            Ended secondsText registry (events ++ [⟨progress, .advance, next⟩]) placed result := by
        intro name member placed found
        obtain ⟨result, got, finished⟩ := kept name member placed found
        exact ⟨result, results ▸ got, finished.mono⟩
      have others : ∀ name, name ∉ past ++ current → next.results.get? name = none := by
        rw [results]
        exact missing
      rcases moved with ⟨level, shape, active⟩ | ⟨shape, last, active⟩
      · have covered := tracked.covered
        have layered := tracked.layered.2
        rw [shape] at covered layered
        exact ⟨past ++ current, level, {
          covered := by simpa using covered
          layered
          placed := by simp [active, slotsOf, Function.comp_def]
          stored
          others
          ended := by
            intro slot member result has
            rw [active, slotsOf] at member
            obtain ⟨placed, -, rfl⟩ := List.mem_map.mp member
            cases has }⟩
      · have covered := tracked.covered
        rw [shape] at covered
        exact ⟨past ++ current, [], {
          covered := by simpa [last] using covered
          layered := by simp [Layered, last]
          placed := by simp [active]
          stored
          others
          ended := by simp [active] }⟩

theorem tracked_of_run {levels : List (List String)} (planned : plan registry calls = .ok levels)
    (run : Run (step secondsText registry calls maxConcurrency) { rest := levels } events
      progress) :
    ∃ past current, Tracked secondsText registry calls past current events progress :=
  Run.history_induction (fun _ => True)
    (fun events progress => ∃ past current,
      Tracked secondsText registry calls past current events progress)
    ⟨[], [], tracked_initial planned⟩
    (fun _ _ _ _ _ reached stepped _ => by
      obtain ⟨past, current, tracked⟩ := reached
      exact tracked_step tracked stepped)
    run (fun _ _ => trivial)

end System

/-! ## Completion -/

section Completion

variable {secondsText : ℚ → String} {registry : Registry η} {calls : List ToolCall}
  {maxConcurrency : Nat}

def Phase.ahead : Phase → Nat
  | .waiting => 2
  | .running => 1
  | .done _ => 0

def Progress.ahead (progress : Progress) : Nat :=
  (progress.active.map (·.phase.ahead)).sum + (if progress.active.isEmpty then 0 else 1) +
    (progress.rest.map (fun level => 2 * level.length + 2)).sum

theorem Slot.ahead_start (index : Nat) (slot : Slot) :
    (slot.start index).phase.ahead ≤ slot.phase.ahead ∧
      (slot.placed.index = index ∧ slot.isWaiting →
        (slot.start index).phase.ahead < slot.phase.ahead) := by
  unfold Slot.start
  split
  · next due =>
      have waiting := due.2
      unfold Slot.isWaiting at waiting
      split at waiting
      · next phase => simp [phase, Phase.ahead]
      · cases waiting
  · next idle => exact ⟨le_rfl, fun due => absurd due idle⟩

theorem Slot.ahead_finish (index : Nat) (attempts : Nat → Attempt η) (slot : Slot) :
    (slot.finish secondsText registry index attempts).phase.ahead ≤ slot.phase.ahead ∧
      (slot.placed.index = index ∧ slot.isRunning →
        (slot.finish secondsText registry index attempts).phase.ahead < slot.phase.ahead) := by
  unfold Slot.finish
  split
  · next due =>
      have running := due.2
      unfold Slot.isRunning at running
      split at running
      · next phase => simp [phase, Phase.ahead]
      · cases running
  · next idle => exact ⟨le_rfl, fun due => absurd due idle⟩

theorem ahead_map_lt {progress : Progress} {change : Slot → Slot}
    (closer : ∀ slot, (change slot).phase.ahead ≤ slot.phase.ahead)
    (one : ∃ slot ∈ progress.active, (change slot).phase.ahead < slot.phase.ahead) :
    Progress.ahead { progress with active := progress.active.map change } <
      progress.ahead := by
  have fewer : ((progress.active.map change).map (·.phase.ahead)).sum <
      (progress.active.map (·.phase.ahead)).sum := by
    rw [List.map_map]
    exact List.sum_lt_sum _ _ (fun slot _ => closer slot) one
  simp only [Progress.ahead, List.isEmpty_map]
  omega

theorem ahead_of_done {active : List Slot} (ended : ∀ slot ∈ active, slot.result?.isSome) :
    (active.map (·.phase.ahead)).sum = 0 := by
  apply List.sum_eq_zero
  intro ahead listed
  obtain ⟨slot, member, rfl⟩ := List.mem_map.mp listed
  have some_result := ended slot member
  unfold Slot.result? at some_result
  split at some_result
  · next phase => simp [phase, Phase.ahead]
  · cases some_result

theorem ahead_slotsOf (level : List String) :
    ((slotsOf calls level).map (·.phase.ahead)).sum ≤ 2 * level.length := by
  have waiting : (slotsOf calls level).map (·.phase.ahead) =
      List.replicate (slotsOf calls level).length 2 := by
    apply List.map_eq_replicate_iff.mpr
    intro slot member
    obtain ⟨placed, -, rfl⟩ := List.mem_map.mp member
    rfl
  have shorter : (slotsOf calls level).length ≤ level.length := by
    simpa [slotsOf] using List.length_filterMap_le _ level
  rw [waiting, List.sum_replicate, nsmul_eq_mul, Nat.cast_id]
  omega

theorem exists_step (permitted : 0 < maxConcurrency) (progress : Progress)
    (unfinished : ¬ progress.Finished) :
    ∃ action next, step secondsText registry calls maxConcurrency progress action = some next ∧
      next.ahead < progress.ahead := by
  by_cases ended : ∀ slot ∈ progress.active, slot.result?.isSome
  · have enabled : progress.active.all (·.result?.isSome) = true := by simpa using ended
    refine ⟨.advance, ?_⟩
    simp only [step, enabled, if_true]
    have idle := ahead_of_done ended
    cases shape : progress.rest with
    | nil =>
        have active : progress.active.isEmpty = false := by
          rw [Progress.Finished, not_and] at unfinished
          simpa using unfinished shape
        simp [active, Progress.ahead, shape, idle]
    | cons level rest =>
        refine ⟨_, rfl, ?_⟩
        have fresh : ((slotsOf calls level).map (·.phase.ahead)).sum ≤ 2 * level.length :=
          ahead_slotsOf level
        simp only [Progress.ahead, shape, List.map_cons, List.sum_cons]
        split <;> omega
  · push Not at ended
    obtain ⟨slot, active, unended⟩ := ended
    by_cases busy : ∃ slot ∈ progress.active, slot.isRunning = true
    · obtain ⟨slot, active, running⟩ := busy
      refine ⟨.finish slot.placed.index (fun _ => .timedOut), _,
        if_pos ⟨slot, active, rfl, running⟩, ?_⟩
      exact ahead_map_lt (fun other => (Slot.ahead_finish _ _ other).1)
        ⟨slot, active, (Slot.ahead_finish _ _ slot).2 ⟨rfl, running⟩⟩
    · push Not at busy
      have waiting : slot.isWaiting = true := by
        have quiet := busy slot active
        cases phase : slot.phase with
        | waiting => simp [Slot.isWaiting, phase]
        | running => simp [Slot.isRunning, phase] at quiet
        | done result => simp [Slot.result?, phase] at unended
      have free : progress.active.countP Slot.isRunning < maxConcurrency := by
        have none_running : progress.active.countP Slot.isRunning = 0 :=
          List.countP_eq_zero.mpr busy
        omega
      refine ⟨.start slot.placed.index, _, if_pos ⟨⟨slot, active, rfl, waiting⟩, free⟩, ?_⟩
      exact ahead_map_lt (fun other => (Slot.ahead_start _ other).1)
        ⟨slot, active, (Slot.ahead_start _ slot).2 ⟨rfl, waiting⟩⟩

theorem not_running {levels : List (List String)} {events : List (Event Progress (Action η))}
    {progress : Progress} (run : Run (step secondsText registry calls 0) { rest := levels } events
      progress) : ∀ slot ∈ progress.active, slot.isRunning = false := by
  apply run.invariant_always (fun progress => ∀ slot ∈ progress.active, slot.isRunning = false)
    (by simp)
  intro state action next quiet stepped
  cases action with
  | start index =>
      obtain ⟨-, permitted, -⟩ := step_start stepped
      omega
  | finish index attempts =>
      obtain ⟨⟨slot, active, -, running⟩, -⟩ := step_finish stepped
      rw [quiet slot active] at running
      cases running
  | advance =>
      obtain ⟨-, -, ⟨level, -, active⟩ | ⟨-, -, active⟩⟩ := step_advance stepped
      · rw [active]
        intro slot member
        obtain ⟨placed, -, rfl⟩ := List.mem_map.mp member
        rfl
      · simp [active]

end Completion

/-! ## The calls of a list -/

section Calls

variable (secondsText : ℚ → String) (registry : Registry η) (calls : List ToolCall)
  (maxConcurrency : Nat)

/-- Each call gets its own result under its own id, and waits for the calls it depends on. -/
structure Apart (events : List (Event Progress (Action η))) (results : List ToolResult) : Prop where
  listed : results.map (·.toolCallId) = calls.map (·.id)
  own : ∀ i (call : ToolCall), calls[i]? = some call → registry.getTool call.name ≠ none →
    ∃ event ∈ events, ∃ attempts result, event.action = .finish i attempts ∧
      results[i]? = some result ∧ OutcomeOf secondsText registry call attempts result
  unknown : ∀ (i : Nat) (call : ToolCall) result, calls[i]? = some call →
    registry.getTool call.name = none → results[i]? = some result → result.error.isSome
  ordered : ∀ (first : List (Event Progress (Action η))) (event : Event Progress (Action η)) rest i,
    events = first ++ event :: rest → event.action = .start i →
    ∀ call tool, calls[i]? = some call → registry.getTool call.name = some tool →
      ∀ (j : Nat) (other : ToolCall), calls[j]? = some other → other.name ∈ tool.dependsOn →
        ∃ earlier ∈ first, ∃ attempts, earlier.action = .finish j attempts

/-- Every run of the executor leads on to its end, and every one that has ended has kept the calls
apart. -/
def KeepsApart : Prop :=
  ∃ levels, plan registry calls = .ok levels ∧
    (∀ events progress,
      Run (step secondsText registry calls maxConcurrency) { rest := levels } events progress →
        ∃ later last, Run (step secondsText registry calls maxConcurrency) progress later last ∧
          last.Finished) ∧
    ∀ events last,
      Run (step secondsText registry calls maxConcurrency) { rest := levels } events last →
        last.Finished →
        Apart secondsText registry calls events (gathered registry calls last.results)

structure Separable : Prop where
  distinct : DistinctCalls registry calls
  present : Present registry calls
  attempted : ∀ tool ∈ calledTools registry calls, ∀ policy, tool.retryPolicy = some policy →
    0 ≤ policy.maxRetries
  permitted : calledTools registry calls ≠ [] → 0 < maxConcurrency

variable {secondsText registry calls maxConcurrency}

theorem called_of_getTool {i : Nat} {call : ToolCall} (listed : calls[i]? = some call)
    (registered : registry.getTool call.name ≠ none) :
    call.name ∈ toolNames (calledTools registry calls) :=
  mem_toolNames.mpr ⟨⟨call, List.mem_of_getElem? listed, rfl⟩, registered⟩

theorem calledTools_ne_nil {i : Nat} {call : ToolCall} (listed : calls[i]? = some call)
    (registered : registry.getTool call.name ≠ none) : calledTools registry calls ≠ [] := by
  obtain ⟨tool, called, -⟩ := exists_called_of_name (called_of_getTool listed registered)
  exact List.ne_nil_of_mem called

theorem Tracked.result_of_finished {past current : List String}
    {events : List (Event Progress (Action η))} {last : Progress}
    (tracked : Tracked secondsText registry calls past current events last)
    (finished : last.Finished) {placed : Placed} {name : String}
    (known : name ∈ toolNames (calledTools registry calls))
    (found : (nameToCall calls).get? name = some placed) :
    ∃ result, last.results.get? name = some result ∧
      Ended secondsText registry events placed result := by
  have covered := (tracked.covered name).mpr known
  rw [finished.1, List.flatten_nil, List.append_nil, List.mem_append] at covered
  rcases covered with past | current
  · exact tracked.stored name past placed found
  · obtain ⟨slot, active, -⟩ := tracked.exists_slot current found
    rw [finished.2] at active
    cases active

theorem Tracked.result_of_unknown {past current : List String}
    {events : List (Event Progress (Action η))} {progress : Progress}
    (tracked : Tracked secondsText registry calls past current events progress) {name : String}
    (unknown : registry.getTool name = none) : progress.results.get? name = none := by
  apply tracked.others
  intro member
  have known := (tracked.covered name).mp (by simp [member])
  exact (mem_toolNames.mp known).2 unknown

theorem Tracked.placed_call {past current : List String}
    {events : List (Event Progress (Action η))} {progress : Progress}
    (tracked : Tracked secondsText registry calls past current events progress) {slot : Slot}
    (active : slot ∈ progress.active) {call : ToolCall}
    (listed : calls[slot.placed.index]? = some call) :
    slot.placed.call = call ∧ call.name ∈ current := by
  obtain ⟨member, found⟩ := tracked.mem_current active
  obtain rfl := Option.some.inj ((get?_nameToCall found).1.symm.trans listed)
  exact ⟨rfl, member⟩

theorem apart_of_separable (separable : Separable registry calls maxConcurrency)
    {levels : List (List String)} (planned : plan registry calls = .ok levels)
    {events : List (Event Progress (Action η))} {last : Progress}
    (run : Run (step secondsText registry calls maxConcurrency) { rest := levels } events last)
    (finished : last.Finished) :
    Apart secondsText registry calls events (gathered registry calls last.results) := by
  obtain ⟨past, current, tracked⟩ := tracked_of_run planned run
  have stored : ∀ i call, calls[i]? = some call → registry.getTool call.name ≠ none →
      ∃ event ∈ events, ∃ attempts result, event.action = .finish i attempts ∧
        last.results.get? call.name = some result ∧
        OutcomeOf secondsText registry call attempts result := by
    intro i call listed registered
    have found := get?_nameToCall_of_distinct separable.distinct listed registered
    obtain ⟨result, got, event, member, attempts, finish, same⟩ :=
      tracked.result_of_finished finished (called_of_getTool listed registered) found
    obtain ⟨tool, held⟩ := Option.ne_none_iff_exists'.mp registered
    have called := mem_calledTools.mpr ⟨call, List.mem_of_getElem? listed, held⟩
    have some_left := (totalAttempts_pos_iff held).mpr (separable.attempted tool called)
    exact ⟨event, member, attempts, result, finish, got, same ▸ executeSingle_outcome some_left⟩
  exact {
    listed := by
      unfold gathered
      split
      · simp [Function.comp_def]
      · rw [List.map_map]
        apply List.map_congr_left
        intro call member
        by_cases registered : registry.getTool call.name = none
        · simp [tracked.result_of_unknown registered]
        · obtain ⟨i, listed⟩ := List.mem_iff_getElem?.mp member
          obtain ⟨_, _, _, result, _, got, outcome⟩ := stored i call listed registered
          simp [got, outcome.toolCallId]
    own := by
      intro i call listed registered
      obtain ⟨event, member, attempts, result, finish, got, outcome⟩ :=
        stored i call listed registered
      have some_called : (calledTools registry calls).isEmpty = false := by
        simpa using calledTools_ne_nil listed registered
      exact ⟨event, member, attempts, result, finish, by simp [gathered, some_called, listed, got],
        outcome⟩
    unknown := by
      intro i call result listed registered got
      unfold gathered at got
      split at got
      · rw [List.getElem?_map, listed] at got
        obtain rfl := Option.some.inj got
        rfl
      · rw [List.getElem?_map, listed] at got
        obtain rfl := Option.some.inj got
        simp [tracked.result_of_unknown registered]
    ordered := by
      intro first event rest i given started call tool listed held j other placed needed
      rcases given with rfl
      obtain ⟨before, stepped, -⟩ := run.split
      obtain ⟨past, current, then_tracked⟩ := tracked_of_run planned before
      rw [started] at stepped
      obtain ⟨⟨slot, active, rfl, -⟩, -⟩ := step_start stepped
      have now := (then_tracked.placed_call active listed).2
      have called := mem_calledTools.mpr ⟨call, List.mem_of_getElem? listed, held⟩
      have named := name_of_getTool held
      have asked : other.name ∈ dependencies (calledTools registry calls) call.name := by
        rw [← named, dependencies_of_called called]
        exact needed
      have stored := then_tracked.stored other.name
        (then_tracked.layered.1 call.name now other.name asked) ⟨j, other⟩
      have known := (mem_toolNames.mp (separable.present tool called other.name needed)).2
      obtain ⟨-, -, earlier, member, attempts, finish, -⟩ :=
        stored (get?_nameToCall_of_distinct separable.distinct placed known)
      exact ⟨earlier, member, attempts, finish⟩ }

theorem finished_call {levels : List (List String)} (planned : plan registry calls = .ok levels)
    {events : List (Event Progress (Action η))} {last : Progress}
    (run : Run (step secondsText registry calls maxConcurrency) { rest := levels } events last)
    {event : Event Progress (Action η)} (member : event ∈ events) {i : Nat}
    {attempts : Nat → Attempt η} (finish : event.action = .finish i attempts) {call : ToolCall}
    (listed : calls[i]? = some call) :
    0 < maxConcurrency ∧ (nameToCall calls).get? call.name = some ⟨i, call⟩ := by
  obtain ⟨stepped, earlier, -, before⟩ := run.event_of_mem member
  obtain ⟨past, current, tracked⟩ := tracked_of_run planned before
  rw [finish] at stepped
  obtain ⟨⟨slot, active, rfl, running⟩, -⟩ := step_finish stepped
  constructor
  · by_contra none_permitted
    obtain rfl : maxConcurrency = 0 := by omega
    rw [not_running before slot active] at running
    cases running
  · have found := (tracked.mem_current active).2
    obtain ⟨same, -⟩ := tracked.placed_call active listed
    rw [same] at found
    rw [found, ← same]

theorem separable_of_keepsApart (apart : KeepsApart secondsText registry calls maxConcurrency) :
    Separable registry calls maxConcurrency := by
  obtain ⟨levels, planned, returns, separated⟩ := apart
  obtain ⟨events, last, run, finished⟩ := returns [] _ Run.nil
  have kept := separated events last run finished
  exact {
    distinct := by
      intro i j first second listed other same registered
      obtain ⟨event, member, attempts, -, finish, -⟩ := kept.own i first listed registered
      obtain ⟨event', member', attempts', -, finish', -⟩ :=
        kept.own j second other (same ▸ registered)
      have here := (finished_call planned run member finish listed).2
      have there := (finished_call planned run member' finish' other).2
      rw [same, there] at here
      exact congrArg Placed.index (Option.some.inj here.symm)
    present := present_of_plan planned
    attempted := by
      intro tool called
      obtain ⟨call, member, held⟩ := mem_calledTools.mp called
      obtain ⟨i, listed⟩ := List.mem_iff_getElem?.mp member
      obtain ⟨_, _, _, _, _, _, outcome⟩ := kept.own i call listed (by simp [held])
      exact (totalAttempts_pos_iff held).mp outcome.totalAttempts_pos
    permitted := by
      intro some_called
      obtain ⟨tool, called⟩ := List.exists_mem_of_ne_nil _ some_called
      obtain ⟨call, member, held⟩ := mem_calledTools.mp called
      obtain ⟨i, listed⟩ := List.mem_iff_getElem?.mp member
      obtain ⟨event, taken, attempts, -, finish, -⟩ := kept.own i call listed (by simp [held])
      exact (finished_call planned run taken finish listed).1 }

theorem finished_of_none {events : List (Event Progress (Action η))} {progress : Progress}
    (run : Run (step secondsText registry calls maxConcurrency) { rest := [] } events progress) :
    progress.Finished := by
  apply run.invariant_always Progress.Finished ⟨rfl, rfl⟩
  intro state action next given stepped
  rcases given with ⟨rest, active⟩
  cases action with
  | start index =>
      obtain ⟨⟨slot, member, -⟩, -⟩ := step_start stepped
      rw [active] at member
      cases member
  | finish index attempts =>
      obtain ⟨⟨slot, member, -⟩, -⟩ := step_finish stepped
      rw [active] at member
      cases member
  | advance =>
      simp [step, rest, active] at stepped

/-- The calls are kept apart exactly if no two name one registered tool, their tools depend on
called tools only, no retry policy forbids the first attempt and something may run at all. -/
theorem parallel_calls_apart_iff (acyclic : Acyclic registry calls) :
    KeepsApart secondsText registry calls maxConcurrency ↔
      Separable registry calls maxConcurrency := by
  constructor
  · exact separable_of_keepsApart
  · intro separable
    obtain ⟨levels, planned⟩ := plan_isOk separable.present acyclic
    refine ⟨levels, planned, ?_, fun events last run finished =>
      apart_of_separable separable planned run finished⟩
    intro events progress run
    by_cases none_called : calledTools registry calls = []
    · have empty : levels = [] := by
        simp only [plan, none_called, List.isEmpty_nil, if_true] at planned
        exact (Except.ok.inj planned).symm
      subst empty
      exact ⟨[], progress, Run.nil, finished_of_none run⟩
    · exact exists_run_to Progress.Finished Progress.ahead
        (exists_step (separable.permitted none_called)) progress

end Calls

def chainRegistry : Registry Unit :=
  ⟨[{ name := "search", handler := some () },
    { name := "answer", handler := some (), dependsOn := ["search"] }], by decide⟩

theorem chain_calls_apart :
    KeepsApart (fun _ => "30.0") chainRegistry [⟨"1", "answer", ∅⟩, ⟨"2", "search", ∅⟩] 10 := by
  refine (parallel_calls_apart_iff ?_).mpr ?_
  · refine ⟨fun name => if name = "answer" then 1 else 0, ?_⟩
    simp [calledTools, chainRegistry, Registry.getTool]
  · constructor
    · exact distinct_of_nodup (by decide)
    · simp [Present, calledTools, chainRegistry, Registry.getTool, toolNames]
    · simp [calledTools, chainRegistry, Registry.getTool]
    · simp

/-- Of two calls of one tool the first is never executed. -/
theorem repeated_tool_collapses :
    let calls : List ToolCall := [⟨"1", "search", ∅⟩, ⟨"2", "search", ∅⟩]
    Acyclic chainRegistry calls ∧ ¬ KeepsApart (fun _ => "30.0") chainRegistry calls 10 := by
  constructor
  · refine ⟨fun _ => 0, ?_⟩
    simp [calledTools, chainRegistry, Registry.getTool]
  · intro apart
    have distinct := (separable_of_keepsApart apart).distinct 0 1 _ _ rfl rfl rfl
      (by simp [chainRegistry, Registry.getTool])
    cases distinct

end RagSystem.Tools
