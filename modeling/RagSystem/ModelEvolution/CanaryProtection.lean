import RagSystem.ModelEvolution.CanaryController

/-! What the canary controller protects from: breached thresholds that call for a rollback, and
traffic during the cooldown after one. -/

namespace RagSystem.CanaryController

open Transition

/-- `_latencies` of the canary. -/
def canaryLatencies (controller : Controller) (model : String) : List ℚ :=
  (((controller.latencies.get? model).getD ∅).get? "canary").getD []

section Metrics

variable (p95 : List ℚ → Option ℚ)

def metricValue (controller : Controller) (model metric : String) : Option ℚ :=
  if metric = "error_rate" then some (errorRate (countsOf controller model "canary"))
  else if metric = "p95_latency_ms" then p95 (canaryLatencies controller model)
  else none

def Breaches (controller : Controller) (model : String) (config : CanaryConfig) (metric : String) :
    Prop :=
  ∃ threshold comparison value,
    config.rollbackThresholds.get? metric = some (threshold, comparison) ∧
      metricValue p95 controller model metric = some value ∧
        breached comparison value threshold = true

/-- A split canary with enough samples outside of its cooldown. -/
structure Due (controller : Controller) (model : String) (now : ℚ) (config : CanaryConfig) :
    Prop where
  configured : controller.configs.get? model = some config
  positive : 0 < config.canaryPercent
  split : config.canaryPercent < 1
  samples : config.minSamples ≤ (countsOf controller model "canary").total
  rested : coolingDown controller model now = false

def Protected (controller : Controller) (model : String) (now : ℚ) : Prop :=
  ∀ config, Due controller model now config →
    (∃ metric, Breaches p95 controller model config metric) →
      shouldRollback controller model now = true

/-- Where a threshold is breached, the split is below 75 % and the error rate breaches its own. -/
def Noticed (controller : Controller) (model : String) (now : ℚ) : Prop :=
  ∀ config, Due controller model now config →
    (∃ metric, Breaches p95 controller model config metric) →
      config.canaryPercent < 75 / 100 ∧ Breaches p95 controller model config "error_rate"

end Metrics

/-- The phase of a split canary is the one inferred from its split. -/
def Phased (controller : Controller) : Prop :=
  ∀ model config, controller.configs.get? model = some config → 0 < config.canaryPercent →
    config.canaryPercent < 1 → controller.phase.get? model = some (inferPhase config.canaryPercent)

variable {controller : Controller} {model : String} {now : ℚ}

theorem Phased.set (phased : Phased controller) {name : String} {config : CanaryConfig}
    {phase : CanaryPhase} {next : Controller}
    (configs : next.configs = controller.configs.set name config)
    (phases : next.phase = controller.phase.set name phase)
    (inferred : 0 < config.canaryPercent → config.canaryPercent < 1 →
      phase = inferPhase config.canaryPercent) : Phased next := by
  intro model other found positive split
  rw [configs, Dict.get?_set] at found
  rw [phases, Dict.get?_set]
  by_cases here : model = name
  · rw [if_pos here, Option.some.injEq] at found
    subst found
    rw [if_pos here, inferred positive split]
  · rw [if_neg here] at found ⊢
    exact phased model other found positive split

theorem Phased.same (phased : Phased controller) {next : Controller}
    (configs : next.configs = controller.configs) (phases : next.phase = controller.phase) :
    Phased next := by
  intro model config found
  rw [configs] at found
  rw [phases]
  exact phased model config found

theorem phased_perform (phased : Phased controller) (op : Op) : Phased (perform controller op) := by
  cases op with
  | setSplit name percent =>
      simp only [perform, setSplit]
      split
      · refine phased.set rfl rfl ?_
        intro positive split
        dsimp only at positive split ⊢
        rw [if_neg positive.ne', if_neg (not_le.mpr split)]
      · exact phased
  | configure name settings since =>
      refine phased.set rfl rfl ?_
      intro positive split
      dsimp only at positive split ⊢
      rw [if_neg positive.ne']
  | route name draw now => exact phased
  | recordResult name target success latencyMs =>
      simp only [perform, recordResult]
      split
      · exact phased.same rfl rfl
      · exact phased.same rfl rfl
  | shouldRollback name now => exact phased
  | rollback name now => exact phased.set rfl rfl fun positive => absurd positive (lt_irrefl 0)
  | promote name =>
      simp only [perform, promote]
      split
      · exact phased
      · exact phased.set rfl rfl fun _ split => absurd split (lt_irrefl 1)
  | reset name =>
      have fresh : Phased {} := by
        intro model config found
        simp at found
      cases name with
      | none => exact fresh
      | some name =>
          simp only [perform, reset]
          split
          · exact fresh
          · intro model config found positive split
            dsimp only at found ⊢
            rw [Dict.get?_erase] at found ⊢
            split at found
            · cases found
            · rename_i other
              rw [if_neg other]
              exact phased model config found positive split

theorem phased_replay (ops : List Op) : Phased (replay perform {} ops) :=
  replay_invariant (fun _ => True) Phased (fun _ op _ phased => phased_perform phased op)
    (fun _ _ found => by simp at found) (fun _ _ => trivial)

theorem inferPhase_cases {percent : ℚ} (positive : 0 < percent) :
    inferPhase percent ≠ .idle ∧ inferPhase percent ≠ .rollback ∧
      (inferPhase percent = .full ↔ ¬ percent < 75 / 100) := by
  unfold inferPhase
  rw [if_neg (not_le.mpr positive)]
  by_cases five : percent < 5 / 100
  · simp only [if_pos five]
    refine ⟨by simp, by simp, by simp; linarith⟩
  by_cases quarter : percent < 25 / 100
  · simp only [if_neg five, if_pos quarter]
    refine ⟨by simp, by simp, by simp; linarith⟩
  by_cases half : percent < 50 / 100
  · simp only [if_neg five, if_neg quarter, if_pos half]
    refine ⟨by simp, by simp, by simp; linarith⟩
  by_cases most : percent < 75 / 100
  · simp only [if_neg five, if_neg quarter, if_neg half, if_pos most]
    exact ⟨by simp, by simp, by simp [most]⟩
  · simp only [if_neg five, if_neg quarter, if_neg half, if_neg most]
    exact ⟨by simp, by simp, by simp [most]⟩

theorem shouldRollback_iff (p95 : List ℚ → Option ℚ) (phased : Phased controller)
    {config : CanaryConfig} (due : Due controller model now config) :
    shouldRollback controller model now = true ↔
      config.canaryPercent < 75 / 100 ∧ Breaches p95 controller model config "error_rate" := by
  have phase := phased model config due.configured due.positive due.split
  obtain ⟨notIdle, notRollback, full⟩ := inferPhase_cases due.positive
  have enough : ¬ ((countsOf controller model "canary").total : Int) < config.minSamples :=
    not_lt.mpr due.samples
  have breaches : Breaches p95 controller model config "error_rate" ↔
      config.rollbackThresholds.entries.any (fun entry => entry.1 = "error_rate" ∧
        breached entry.2.2 (getMetrics controller model).canaryErrorRate entry.2.1) = true := by
    simp only [Breaches, ← Dict.mem_entries_iff, metricValue, if_true, Option.some.injEq,
      List.any_eq_true, decide_eq_true_eq]
    constructor
    · intro given
      rcases given with ⟨threshold, comparison, _, entered, rfl, breach⟩
      exact ⟨("error_rate", (threshold, comparison)), entered, rfl, breach⟩
    · intro given
      rcases given with ⟨⟨_, threshold, comparison⟩, entered, rfl, breach⟩
      exact ⟨threshold, comparison, _, entered, rfl, breach⟩
  simp only [shouldRollback, due.configured, phase, Option.getD_some, notIdle, notRollback, full,
    due.rested, enough, false_or, or_false, Bool.false_eq_true, if_false]
  by_cases below : config.canaryPercent < 75 / 100
  · rw [if_neg (not_not.mpr below), breaches]
    simp [below]
  · rw [if_pos below]
    simp [below]

theorem protected_iff_noticed (p95 : List ℚ → Option ℚ) (phased : Phased controller) :
    Protected p95 controller model now ↔ Noticed p95 controller model now := by
  constructor
  · intro protects config due breach
    exact (shouldRollback_iff p95 phased due).mp (protects config due breach)
  · intro noticed config due breach
    exact (shouldRollback_iff p95 phased due).mpr (noticed config due breach)

/-! The cooldown. -/

def Op.spares (model : String) : Op → Bool
  | .rollback modelName _ => modelName ≠ model
  | .reset none => false
  | .reset (some modelName) => modelName ≠ "" ∧ modelName ≠ model
  | _ => true

theorem cooldown_perform {op : Op} (spared : op.spares model = true) :
    (perform controller op).rollbackCooldownUntil.get? model =
      controller.rollbackCooldownUntil.get? model := by
  cases op with
  | setSplit name percent =>
      simp only [perform, setSplit]
      split <;> rfl
  | configure name settings since => rfl
  | route name draw now => rfl
  | recordResult name target success latencyMs =>
      simp only [perform, recordResult]
      split <;> rfl
  | shouldRollback name now => rfl
  | rollback name now =>
      have other : model ≠ name := by simpa [Op.spares, ne_comm] using spared
      exact Dict.get?_set_of_ne other _ _
  | promote name =>
      simp only [perform, promote]
      split <;> rfl
  | reset name =>
      cases name with
      | none => simp [Op.spares] at spared
      | some name =>
          obtain ⟨named, other⟩ : name ≠ "" ∧ name ≠ model := by simpa [Op.spares] using spared
          simp only [perform, reset, if_neg named]
          rw [Dict.get?_erase, if_neg (Ne.symm other)]

/-- Until the cooldown that a rollback starts is over, whatever is configured since, no request goes
to the canary. -/
def CooldownStable (controller : Controller) (model : String) : Prop :=
  ∀ (since : ℚ) (later : List Op), (∀ op ∈ later, op.spares model = true) →
    ∀ draw now : ℚ, 0 ≤ draw → now < since + (configOf controller model).cooldownSeconds →
      route (replay perform (perform controller (.rollback model since)) later) model draw now =
        .stable

theorem cooldownStable (controller : Controller) (model : String) :
    CooldownStable controller model := by
  intro since later spared draw now drawn within
  have started : (perform controller (.rollback model since)).rollbackCooldownUntil.get? model =
      some (since + (configOf controller model).cooldownSeconds) := by simp [perform, rollback]
  have kept := replay_invariant (fun op : Op => op.spares model = true)
    (fun after : Controller => after.rollbackCooldownUntil.get? model =
      some (since + (configOf controller model).cooldownSeconds))
    (fun _ _ spared past => (cooldown_perform spared).trans past) started spared
  have cooling : coolingDown (replay perform (perform controller (.rollback model since)) later)
      model now = true := by
    simpa [coolingDown, kept] using within
  unfold route
  split
  · rfl
  · simp only [cooling, if_true, if_neg (not_lt.mpr drawn)]

/-- After every history the canary is protected from breached thresholds exactly if the breaches are
noticed, and no request goes to it during a cooldown. -/
theorem canary_protection_iff (p95 : List ℚ → Option ℚ) (ops : List Op) (model : String) :
    (∀ now, Protected p95 (replay perform {} ops) model now ↔
        Noticed p95 (replay perform {} ops) model now) ∧
      CooldownStable (replay perform {} ops) model :=
  ⟨fun _ => protected_iff_noticed p95 (phased_replay ops), cooldownStable _ model⟩

def failingCanary : List Op :=
  [.configure "llm" { canaryVersion := "v2", canaryPercent := 8 / 10, minSamples := 1 } 0,
    .recordResult "llm" "canary" false 20]

/-- However the latencies are summed up, the failing canary is not protected. -/
theorem failing_canary_missed :
    ¬∃ p95, Protected p95 (replay perform {} failingCanary) "llm" 1 := by
  intro covered
  obtain ⟨p95, protects⟩ := covered
  have rolledBack := protects
    { modelName := "llm", canaryVersion := "v2", canaryPercent := 8 / 10, minSamples := 1 }
    ⟨by decide +kernel, by decide +kernel, by decide +kernel, by decide +kernel,
      by decide +kernel⟩
    ⟨"error_rate", 5 / 100, "gt", 1, by decide +kernel, by
      rw [metricValue, if_pos rfl]
      decide +kernel, by decide +kernel⟩
  revert rolledBack
  decide +kernel

end RagSystem.CanaryController
