import Mathlib.Algebra.Order.Field.Rat
import Mathlib.Data.List.Induction
import Mathlib.Tactic.Linarith
import Mathlib.Tactic.Positivity
import RagSystem.Data.Dict
import RagSystem.Transition.Noninterference

/-! The canary controller of `proxy/app/model_evolution/canary_controller.py`, and which recorded
results its rollback decision depends on. -/

namespace RagSystem.CanaryController

open Transition

inductive CanaryPhase
  | idle
  | ramp5
  | ramp25
  | ramp50
  | ramp75
  | full
  | rollback
  deriving DecidableEq, Repr

def defaultThresholds : Dict String (ℚ × String) :=
  Dict.ofList [("error_rate", (5 / 100, "gt")), ("p95_latency_ms", (10000, "gt"))]

structure CanaryConfig where
  modelName : String := ""
  stableVersion : String := "baseline"
  canaryVersion : String := ""
  canaryPercent : ℚ := 0
  minSamples : Int := 100
  rollbackThresholds : Dict String (ℚ × String) := defaultThresholds
  cooldownSeconds : Int := 3600
  deriving DecidableEq, Repr

structure Counts where
  success : Nat := 0
  error : Nat := 0
  deriving DecidableEq, Repr

def Counts.total (counts : Counts) : Nat := counts.success + counts.error

structure Controller where
  configs : Dict String CanaryConfig := ∅
  phase : Dict String CanaryPhase := ∅
  phaseStartedAt : Dict String ℚ := ∅
  rollbackCooldownUntil : Dict String ℚ := ∅
  stats : Dict String (Dict String Counts) := ∅
  latencies : Dict String (Dict String (List ℚ)) := ∅
  deriving DecidableEq, Repr

/-- `_infer_phase` -/
def inferPhase (percent : ℚ) : CanaryPhase :=
  if percent ≤ 0 then .idle
  else if percent < 5 / 100 then .ramp5
  else if percent < 25 / 100 then .ramp25
  else if percent < 50 / 100 then .ramp50
  else if percent < 75 / 100 then .ramp75
  else .full

def configOf (controller : Controller) (modelName : String) : CanaryConfig :=
  (controller.configs.get? modelName).getD { modelName }

/-- `none` is the `ValueError` for a fraction outside of [0, 1]. -/
def setSplit (modelName : String) (canaryPercent : ℚ) (controller : Controller) :
    Option Controller :=
  if 0 ≤ canaryPercent ∧ canaryPercent ≤ 1 then
    some { controller with
      configs := controller.configs.set modelName
        { configOf controller modelName with canaryPercent }
      phase := controller.phase.set modelName
        (if canaryPercent = 0 then .idle else if 1 ≤ canaryPercent then .full
          else inferPhase canaryPercent) }
  else none

structure Settings where
  stableVersion : String := "baseline"
  canaryVersion : String := ""
  canaryPercent : ℚ := 0
  minSamples : Int := 100
  rollbackThresholds : Option (Dict String (ℚ × String)) := none
  cooldownSeconds : Int := 3600
  deriving DecidableEq, Repr

def configure (modelName : String) (settings : Settings) (now : ℚ) (controller : Controller) :
    Controller :=
  let thresholds := settings.rollbackThresholds.getD ∅
  let config : CanaryConfig := {
    modelName
    stableVersion := settings.stableVersion
    canaryVersion := settings.canaryVersion
    canaryPercent := settings.canaryPercent
    minSamples := settings.minSamples
    rollbackThresholds := if thresholds.entries.isEmpty then defaultThresholds else thresholds
    cooldownSeconds := settings.cooldownSeconds }
  { controller with
    configs := controller.configs.set modelName config
    phase := controller.phase.set modelName
      (if settings.canaryPercent = 0 then .idle else inferPhase settings.canaryPercent)
    phaseStartedAt := controller.phaseStartedAt.set modelName now }

inductive Target
  | stable
  | canary
  deriving DecidableEq, Repr

def coolingDown (controller : Controller) (modelName : String) (now : ℚ) : Bool :=
  now < (controller.rollbackCooldownUntil.get? modelName).getD 0

/-- `draw` is `self._rng.random()`. -/
def route (controller : Controller) (modelName : String) (draw now : ℚ) : Target :=
  match controller.configs.get? modelName with
  | none => .stable
  | some config =>
      let percent := if coolingDown controller modelName now then 0 else config.canaryPercent
      if draw < percent then .canary else .stable

def recordResult (modelName target : String) (success : Bool) (latencyMs : ℚ)
    (controller : Controller) : Controller :=
  let stats := (controller.stats.get? modelName).getD ∅
  let counts := (stats.get? target).getD {}
  let counts := if success then { counts with success := counts.success + 1 }
    else { counts with error := counts.error + 1 }
  let controller := { controller with
    stats := controller.stats.set modelName (stats.set target counts) }
  if 0 < latencyMs then
    let latencies := (controller.latencies.get? modelName).getD ∅
    { controller with
      latencies := controller.latencies.set modelName
        (latencies.set target ((latencies.get? target).getD [] ++ [latencyMs])) }
  else controller

def countsOf (controller : Controller) (modelName target : String) : Counts :=
  (((controller.stats.get? modelName).getD ∅).get? target).getD {}

def errorRate (counts : Counts) : ℚ :=
  if 0 < counts.total then counts.error / counts.total else 0

structure Metrics where
  totalStable : Nat
  totalCanary : Nat
  errorsStable : Nat
  errorsCanary : Nat
  stableErrorRate : ℚ
  canaryErrorRate : ℚ
  deriving DecidableEq, Repr

def getMetrics (controller : Controller) (modelName : String) : Metrics :=
  let stable := countsOf controller modelName "stable"
  let canary := countsOf controller modelName "canary"
  { totalStable := stable.total, totalCanary := canary.total
    errorsStable := stable.error, errorsCanary := canary.error
    stableErrorRate := errorRate stable, canaryErrorRate := errorRate canary }

/-- `_COMPARATORS`; an unknown comparison is skipped. -/
def breached (comparison : String) (value threshold : ℚ) : Bool :=
  if comparison = "gt" then threshold < value
  else if comparison = "gte" then threshold ≤ value
  else if comparison = "lt" then value < threshold
  else if comparison = "lte" then value ≤ threshold
  else false

def shouldRollback (controller : Controller) (modelName : String) (now : ℚ) : Bool :=
  match controller.configs.get? modelName with
  | none => false
  | some config =>
      let phase := (controller.phase.get? modelName).getD .idle
      if phase = .idle ∨ phase = .full ∨ phase = .rollback then false
      else if coolingDown controller modelName now then false
      else if (countsOf controller modelName "canary").total < config.minSamples then false
      else
        let metrics := getMetrics controller modelName
        config.rollbackThresholds.entries.any (fun entry =>
          -- no other metric is computed, whatever the thresholds name
          entry.1 = "error_rate" ∧ breached entry.2.2 metrics.canaryErrorRate entry.2.1)

def rollback (modelName : String) (now : ℚ) (controller : Controller) : Controller :=
  let config := configOf controller modelName
  { controller with
    configs := controller.configs.set modelName { config with canaryPercent := 0 }
    phase := controller.phase.set modelName .rollback
    rollbackCooldownUntil :=
      controller.rollbackCooldownUntil.set modelName (now + config.cooldownSeconds) }

def promote (modelName : String) (controller : Controller) : Controller :=
  match controller.configs.get? modelName with
  | none => controller
  | some config =>
      { controller with
        configs := controller.configs.set modelName { config with
          canaryPercent := 1, stableVersion := config.canaryVersion, canaryVersion := "" }
        phase := controller.phase.set modelName .full }

def reset (modelName : Option String) (controller : Controller) : Controller :=
  match modelName with
  | none => {}
  | some modelName =>
      if modelName = "" then {}
      else
        { configs := controller.configs.erase modelName
          phase := controller.phase.erase modelName
          phaseStartedAt := controller.phaseStartedAt.erase modelName
          rollbackCooldownUntil := controller.rollbackCooldownUntil.erase modelName
          stats := controller.stats.erase modelName
          latencies := controller.latencies.erase modelName }

inductive Op
  | setSplit (modelName : String) (canaryPercent : ℚ)
  | configure (modelName : String) (settings : Settings) (now : ℚ)
  | route (modelName : String) (draw now : ℚ)
  | recordResult (modelName target : String) (success : Bool) (latencyMs : ℚ)
  | shouldRollback (modelName : String) (now : ℚ)
  | rollback (modelName : String) (now : ℚ)
  | promote (modelName : String)
  | reset (modelName : Option String)
  deriving DecidableEq, Repr

/-- Routing and the decision itself leave the controller as it is, and so does a split that is
refused. -/
def perform (controller : Controller) : Op → Controller
  | .setSplit modelName canaryPercent => (setSplit modelName canaryPercent controller).getD controller
  | .configure modelName settings now => configure modelName settings now controller
  | .route .. => controller
  | .recordResult modelName target success latencyMs =>
      recordResult modelName target success latencyMs controller
  | .shouldRollback .. => controller
  | .rollback modelName now => rollback modelName now controller
  | .promote modelName => promote modelName controller
  | .reset modelName => reset modelName controller

def Op.isResult : Op → Bool
  | .recordResult .. => true
  | _ => false

def Op.isForeign (model : String) : Op → Bool
  | .recordResult modelName target _ _ => !(modelName = model ∧ target = "canary")
  | _ => false

def Op.configures (model : String) : Op → Bool
  | .configure modelName _ _ => modelName = model
  | _ => false

section Model

variable {model : String} {first second : Controller}

/-- The two controllers differ on the model by recorded results only. -/
structure Agree (model : String) (first second : Controller) : Prop where
  config : first.configs.get? model = second.configs.get? model
  phase : first.phase.get? model = second.phase.get? model
  cooldown : first.rollbackCooldownUntil.get? model = second.rollbackCooldownUntil.get? model

theorem Agree.configOf (agree : Agree model first second) :
    configOf first model = configOf second model := by
  unfold CanaryController.configOf
  rw [agree.config]

theorem Agree.set (agree : Agree model first second) {name : String}
    {config other : CanaryConfig} (same : name = model → config = other) (phase : CanaryPhase)
    (started : Dict String ℚ) (otherStarted : Dict String ℚ) :
    Agree model
      { first with
        configs := first.configs.set name config
        phase := first.phase.set name phase
        phaseStartedAt := started }
      { second with
        configs := second.configs.set name other
        phase := second.phase.set name phase
        phaseStartedAt := otherStarted } := by
  by_cases here : model = name
  · subst here
    exact ⟨by simp [same rfl], by simp, agree.cooldown⟩
  · exact ⟨by simp [Dict.get?_set_of_ne here, agree.config],
      by simp [Dict.get?_set_of_ne here, agree.phase], agree.cooldown⟩

theorem agree_recordResult (controller : Controller) (name target : String) (success : Bool)
    (latencyMs : ℚ) :
    Agree model (recordResult name target success latencyMs controller) controller := by
  simp only [recordResult]
  split <;> exact ⟨rfl, rfl, rfl⟩

theorem Agree.symm (agree : Agree model first second) : Agree model second first :=
  ⟨agree.config.symm, agree.phase.symm, agree.cooldown.symm⟩

theorem Agree.trans {third : Controller} (agree : Agree model first second)
    (next : Agree model second third) : Agree model first third :=
  ⟨agree.config.trans next.config, agree.phase.trans next.phase,
    agree.cooldown.trans next.cooldown⟩

theorem agree_perform (agree : Agree model first second) (op : Op) :
    Agree model (perform first op) (perform second op) := by
  cases op with
  | setSplit name canaryPercent =>
      simp only [perform, setSplit]
      by_cases inRange : 0 ≤ canaryPercent ∧ canaryPercent ≤ 1
      · simp only [inRange, and_self, if_true, Option.getD_some]
        exact agree.set (by rintro rfl; rw [agree.configOf]) _ _ _
      · simpa [inRange] using agree
  | configure name settings now => exact agree.set (fun _ => rfl) _ _ _
  | route name draw now => exact agree
  | recordResult name target success latencyMs =>
      exact (agree_recordResult first name target success latencyMs).trans
        (agree.trans (agree_recordResult second name target success latencyMs).symm)
  | shouldRollback name now => exact agree
  | rollback name now =>
      by_cases here : model = name
      · subst here
        exact ⟨by simp [perform, rollback, agree.configOf], by simp [perform, rollback],
          by simp [perform, rollback, agree.configOf]⟩
      · exact ⟨by simp [perform, rollback, Dict.get?_set_of_ne here, agree.config],
          by simp [perform, rollback, Dict.get?_set_of_ne here, agree.phase],
          by simp [perform, rollback, Dict.get?_set_of_ne here, agree.cooldown]⟩
  | promote name =>
      by_cases here : model = name
      · subst here
        simp only [perform, promote, agree.config]
        cases second.configs.get? model with
        | none => exact agree
        | some config => exact ⟨by simp, by simp, agree.cooldown⟩
      · have apart : ∀ controller, Agree model (promote name controller) controller := by
          intro controller
          unfold promote
          cases controller.configs.get? name with
          | none => exact ⟨rfl, rfl, rfl⟩
          | some config =>
              exact ⟨Dict.get?_set_of_ne here _ _, Dict.get?_set_of_ne here _ _, rfl⟩
        exact (apart first).trans (agree.trans (apart second).symm)
  | reset name =>
      cases name with
      | none => exact ⟨rfl, rfl, rfl⟩
      | some name =>
          simp only [perform, reset]
          split
          · exact ⟨rfl, rfl, rfl⟩
          · by_cases here : model = name
            · exact ⟨by simp [Dict.get?_erase, here], by simp [Dict.get?_erase, here],
                by simp [Dict.get?_erase, here]⟩
            · exact ⟨by simp [Dict.get?_erase, here, agree.config],
                by simp [Dict.get?_erase, here, agree.phase],
                by simp [Dict.get?_erase, here, agree.cooldown]⟩

def tally (model : String) (op : Op) (counts : Counts) : Counts :=
  match op with
  | .recordResult modelName target success _ =>
      if modelName = model ∧ target = "canary" then
        if success then { counts with success := counts.success + 1 }
        else { counts with error := counts.error + 1 }
      else counts
  | .reset none => {}
  | .reset (some modelName) => if modelName = "" ∨ modelName = model then {} else counts
  | _ => counts

theorem countsOf_recordResult (controller : Controller) (model name target : String)
    (success : Bool) (latencyMs : ℚ) :
    countsOf (recordResult name target success latencyMs controller) model "canary" =
      tally model (.recordResult name target success latencyMs)
        (countsOf controller model "canary") := by
  have stats : (recordResult name target success latencyMs controller).stats =
      (recordResult name target success 0 controller).stats := by
    simp only [recordResult]
    split <;> simp
  unfold countsOf
  rw [stats]
  simp only [recordResult, lt_irrefl, if_false, Dict.get?_set, tally]
  by_cases here : model = name
  · subst here
    by_cases canary : "canary" = target
    · subst canary
      simp
    · have other : target ≠ "canary" := fun reverse => canary reverse.symm
      simp [Dict.get?_set, canary, other]
  · have other : name ≠ model := fun reverse => here reverse.symm
    simp [here, other]

theorem countsOf_perform (controller : Controller) (op : Op) :
    countsOf (perform controller op) model "canary" =
      tally model op (countsOf controller model "canary") := by
  cases op with
  | recordResult name target success latencyMs =>
      exact countsOf_recordResult controller model name target success latencyMs
  | setSplit name canaryPercent =>
      simp only [perform, setSplit]
      split <;> rfl
  | promote name =>
      simp only [perform, promote]
      split <;> rfl
  | reset name =>
      cases name with
      | none => rfl
      | some name =>
          simp only [perform, reset, tally]
          by_cases unnamed : name = ""
          · simp [unnamed, countsOf]
          · by_cases here : model = name
            · simp [unnamed, here, countsOf, Dict.get?_erase]
            · have other : name ≠ model := fun reverse => here reverse.symm
              simp [unnamed, here, other, countsOf, Dict.get?_erase]
  | _ => rfl

theorem shouldRollback_congr (agree : Agree model first second)
    (counts : countsOf first model "canary" = countsOf second model "canary") (now : ℚ) :
    shouldRollback first model now = shouldRollback second model now := by
  have metrics : (getMetrics first model).canaryErrorRate =
      (getMetrics second model).canaryErrorRate := by
    simp only [getMetrics, counts]
  unfold shouldRollback coolingDown
  rw [agree.config, agree.phase, agree.cooldown, counts]
  cases second.configs.get? model with
  | none => rfl
  | some config => simp only [metrics]

end Model

/-- The rollback decision on the canary configured after `before` is the one without any result
recorded earlier, and without the later ones of other models and targets. -/
def Accounts (model : String) (before : List Op) : Prop :=
  ∀ settings since later now, (∀ op ∈ later, op.configures model = false) →
    shouldRollback (replay perform {} (before ++ .configure model settings since :: later))
        model now =
      shouldRollback (replay perform {} (purge Op.isResult before ++
        .configure model settings since :: purge (Op.isForeign model) later)) model now

theorem agree_before (model : String) (before : List Op) :
    Agree model (replay perform {} before) (replay perform {} (purge Op.isResult before)) := by
  refine agree_purge Op.isResult (Agree model) ?_ ?_ ⟨rfl, rfl, rfl⟩ before
  · intro first second op _ agree
    exact agree_perform agree op
  · intro first second op result agree
    cases op with
    | recordResult name target success latencyMs =>
        exact (agree_recordResult first name target success latencyMs).trans agree
    | _ => cases result

theorem countsOf_purge (model : String) (before : List Op) :
    countsOf (replay perform {} (purge Op.isResult before)) model "canary" = {} := by
  induction before using List.reverseRecOn with
  | nil => rfl
  | append_singleton earlier op ih =>
      cases kind : op.isResult with
      | true => simpa [purge, kind] using ih
      | false =>
          have split : purge Op.isResult (earlier ++ [op]) = purge Op.isResult earlier ++ [op] := by
            simp [purge, kind]
          rw [split, replay_append, replay_cons]
          simp only [replay, List.foldl_nil] at ih ⊢
          rw [countsOf_perform, ih]
          cases op with
          | recordResult name target success latencyMs => cases kind
          | reset name =>
              cases name with
              | none => rfl
              | some name => simp [tally]
          | _ => rfl

theorem decision_since {model : String} {first second : Controller}
    (agree : Agree model first second)
    (counts : countsOf first model "canary" = countsOf second model "canary") (later : List Op)
    (now : ℚ) :
    shouldRollback (replay perform first later) model now =
      shouldRollback (replay perform second (purge (Op.isForeign model) later)) model now := by
  have both := agree_purge (Op.isForeign model)
    (fun first second => Agree model first second ∧
      countsOf first model "canary" = countsOf second model "canary")
    (by
      intro first second op given also
      rcases given with -
      rcases also with ⟨agree, counts⟩
      exact ⟨agree_perform agree op, by rw [countsOf_perform, countsOf_perform, counts]⟩)
    (by
      intro first second op foreign given
      rcases given with ⟨agree, counts⟩
      cases op with
      | recordResult name target success latencyMs =>
          have other : ¬ (name = model ∧ target = "canary") := by
            simp only [Op.isForeign, Bool.not_eq_true', decide_eq_false_iff_not] at foreign
            exact foreign
          refine ⟨(agree_recordResult first name target success latencyMs).trans agree, ?_⟩
          rw [countsOf_perform, tally, if_neg other, counts]
      | _ => cases foreign)
    ⟨agree, counts⟩ later
  exact shouldRollback_congr both.1 both.2 now

/-- A canary whose error rate always breaches its threshold once it has `samples` results. -/
def strict (samples : Nat) : Settings :=
  { canaryPercent := 1 / 10, minSamples := samples
    rollbackThresholds := some (Dict.ofList [("error_rate", (-1, "gt"))]) }

theorem errorRate_nonneg (counts : Counts) : 0 ≤ errorRate counts := by
  unfold errorRate
  split
  · positivity
  · exact le_refl 0

theorem shouldRollback_strict {controller : Controller} {model : String} {samples : Nat}
    {since now : ℚ} (rested : coolingDown controller model now = false) :
    shouldRollback (configure model (strict samples) since controller) model now =
      decide (samples ≤ (countsOf controller model "canary").total) := by
  have config : (configure model (strict samples) since controller).configs.get? model =
      some { modelName := model, canaryPercent := 1 / 10, minSamples := samples,
             rollbackThresholds := Dict.ofList [("error_rate", (-1, "gt"))] } := by
    simp only [configure, strict, Dict.get?_set_self]
    rfl
  have phase : (configure model (strict samples) since controller).phase.get? model =
      some .ramp25 := by
    simp only [configure, strict, Dict.get?_set_self]
    norm_num [inferPhase]
  have waits : coolingDown (configure model (strict samples) since controller) model now =
      false := rested
  have counts : countsOf (configure model (strict samples) since controller) model "canary" =
      countsOf controller model "canary" := rfl
  have above : (-1 : ℚ) < errorRate (countsOf controller model "canary") :=
    lt_of_lt_of_le (by norm_num) (errorRate_nonneg _)
  have entries : (Dict.ofList [("error_rate", ((-1 : ℚ), "gt"))]).entries =
      [("error_rate", ((-1 : ℚ), "gt"))] := rfl
  simp only [shouldRollback, config, phase, waits, counts, getMetrics, entries]
  by_cases enough : samples ≤ (countsOf controller model "canary").total
  · have reached : ¬ ((countsOf controller model "canary").total : Int) < samples := by omega
    simp [reached, enough, breached, above]
  · have short : ((countsOf controller model "canary").total : Int) < samples := by omega
    simp [short, enough]

theorem exists_decision_ne {model : String} {first second : Controller}
    (agree : Agree model first second)
    (recorded : (countsOf first model "canary").total ≠ 0)
    (unrecorded : countsOf second model "canary" = {}) :
    ∃ settings now, shouldRollback (configure model settings 0 first) model now ≠
      shouldRollback (configure model settings 0 second) model now := by
  have rested : coolingDown first model ((first.rollbackCooldownUntil.get? model).getD 0) =
      false := by
    simp [coolingDown]
  have others : coolingDown second model ((first.rollbackCooldownUntil.get? model).getD 0) =
      false := by
    simp [coolingDown, agree.cooldown]
  refine ⟨strict (countsOf first model "canary").total,
    (first.rollbackCooldownUntil.get? model).getD 0, ?_⟩
  rw [shouldRollback_strict rested, shouldRollback_strict others, unrecorded]
  simpa [Counts.total] using recorded

/-- The decision on a canary is a function of its own results exactly if none of the model's canary
results are still recorded when it is configured. -/
theorem canary_accounting_iff (model : String) (before : List Op) :
    Accounts model before ↔
      (countsOf (replay perform {} before) model "canary").total = 0 := by
  constructor
  · intro accounts
    by_contra recorded
    obtain ⟨settings, now, differ⟩ := exists_decision_ne (agree_before model before) recorded
      (countsOf_purge model before)
    have same := accounts settings 0 [] now (by simp)
    rw [replay_append, replay_append] at same
    exact differ same
  · intro unrecorded settings since later now _
    rw [replay_append, replay_append, replay_cons, replay_cons]
    refine decision_since (agree_perform (agree_before model before) _) ?_ later now
    rw [countsOf_perform, countsOf_perform, countsOf_purge]
    congr 1
    cases counts : countsOf (replay perform {} before) model "canary" with
    | mk success error =>
        rw [counts] at unrecorded
        simp only [Counts.total] at unrecorded
        obtain ⟨rfl, rfl⟩ : success = 0 ∧ error = 0 := by omega
        rfl

def badCanary : List Op :=
  [.configure "llm" { canaryVersion := "v2", canaryPercent := 1 / 10, minSamples := 1 } 0,
    .recordResult "llm" "canary" false 20, .rollback "llm" 1]

/-- The second canary is to be rolled back before it has served a request. -/
theorem bad_canary_carries_over : ¬ Accounts "llm" badCanary := by
  intro accounts
  have same := accounts { canaryVersion := "v3", canaryPercent := 1 / 10, minSamples := 1 } 4000 []
    4001 (by simp)
  revert same
  decide +kernel

end RagSystem.CanaryController
