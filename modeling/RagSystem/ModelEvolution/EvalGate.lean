import Mathlib.Algebra.Order.Field.Rat
import Mathlib.Tactic.Linarith
import RagSystem.Data.Dict

/-! The evaluation gate of `proxy/app/model_evolution/eval_gate.py`, and how its status depends on
the metrics. -/

namespace RagSystem.EvalGate

inductive GateStatus
  | pass
  | warn
  | fail
  deriving DecidableEq, Repr

def GateStatus.rank : GateStatus → Nat
  | .pass => 0
  | .warn => 1
  | .fail => 2

structure MetricThreshold where
  metricName : String
  threshold : ℚ
  comparison : String
  severity : String := "fail"
  tolerance : ℚ := 0
  deriving DecidableEq, Repr

structure Texts where
  number : ℚ → String
  fourDecimals : ℚ → String
  quoted : String → String

/-- `_COMPARATORS` -/
def comparators : Dict String (ℚ → ℚ → Bool) :=
  Dict.ofList [
    ("gt", fun value bound => decide (bound < value)),
    ("gte", fun value bound => decide (bound ≤ value)),
    ("lt", fun value bound => decide (value < bound)),
    ("lte", fun value bound => decide (value ≤ bound))]

/-- The error is the `ValueError` for a comparison that has no comparator. -/
def MetricThreshold.evaluate (texts : Texts) (threshold : MetricThreshold) (value : ℚ) :
    Except String Bool :=
  match comparators.get? threshold.comparison with
  | none => .error ("Unknown comparison " ++ texts.quoted threshold.comparison)
  | some comparator => .ok (comparator value threshold.threshold)

structure GateResult where
  status : GateStatus := .pass
  modelName : String := ""
  version : String := ""
  metrics : Dict String ℚ := ∅
  thresholds : List MetricThreshold := []
  failures : List String := []
  warnings : List String := []
  baselineMetrics : Dict String ℚ := ∅
  deltaMetrics : Dict String ℚ := ∅
  mlflowRunId : Option String := none
  reportPath : Option String := none
  deriving DecidableEq, Repr

structure EvalGateConfig where
  modelName : String
  thresholds : List MetricThreshold := []
  requireBaselineComparison : Bool := true
  baselineRegressionTolerance : ℚ := 2 / 100
  minEvalSamples : Int := 50
  deriving DecidableEq, Repr

structure Findings where
  failures : List String := []
  warnings : List String := []
  deriving DecidableEq, Repr

section Evaluation

variable (texts : Texts) (metrics : Dict String ℚ)

def failureMessage (threshold : MetricThreshold) (value : ℚ) : String :=
  threshold.metricName ++ " " ++ texts.number value ++ " is not " ++ threshold.comparison ++ " " ++
    texts.number threshold.threshold

def addMessage (findings : Findings) (threshold : MetricThreshold) (value : ℚ) : Findings :=
  let message := failureMessage texts threshold value
  if threshold.severity = "fail" then
    { findings with failures := findings.failures ++ [message] }
  else { findings with warnings := findings.warnings ++ [message] }

def checkThreshold (findings : Findings) (threshold : MetricThreshold) :
    Except String Findings :=
  match metrics.get? threshold.metricName with
  | none => .ok findings
  | some value =>
    (threshold.evaluate texts value).map (fun passed =>
      if passed then findings else addMessage texts findings threshold value)

def checkThresholds (thresholds : List MetricThreshold) : Except String Findings :=
  thresholds.foldlM (checkThreshold texts metrics) {}

def deltaMetrics (baseline : Dict String ℚ) : Dict String ℚ :=
  Dict.ofList (metrics.entries.filterMap (fun entry =>
    (baseline.get? entry.1).map (fun former => (entry.1, entry.2 - former))))

def regressionWarning (tolerance : ℚ) (deltas : Dict String ℚ) (threshold : MetricThreshold) :
    Option String :=
  if threshold.severity ≠ "fail" then none
  else
    match deltas.get? threshold.metricName with
    | none => none
    | some delta =>
      if delta < -tolerance then
        some (threshold.metricName ++ " regressed by " ++ texts.fourDecimals |delta| ++
          " (tolerance: " ++ texts.number tolerance ++ ")")
      else none

/-- The warnings of the comparison with the baseline; no baseline and an empty one are the same. -/
def baselineWarnings (config : EvalGateConfig) (baseline : Dict String ℚ) : List String :=
  if baseline.entries.isEmpty then
    if config.requireBaselineComparison then ["No baseline metrics provided for comparison"] else []
  else if 0 < config.baselineRegressionTolerance then
    config.thresholds.filterMap
      (regressionWarning texts config.baselineRegressionTolerance (deltaMetrics metrics baseline))
  else []

def statusOf (findings : Findings) : GateStatus :=
  if findings.failures ≠ [] then .fail
  else if findings.warnings ≠ [] then .warn
  else .pass

def resultOf (config : EvalGateConfig) (baseline : Dict String ℚ) (version : Option String)
    (checked : Findings) : GateResult :=
  let findings := { checked with
    warnings := checked.warnings ++ baselineWarnings texts metrics config baseline }
  { status := statusOf findings
    modelName := config.modelName
    version := if version.getD "" = "" then "unknown" else version.getD ""
    metrics
    thresholds := config.thresholds
    failures := findings.failures
    warnings := findings.warnings
    baselineMetrics := baseline
    deltaMetrics := if baseline.entries.isEmpty then ∅ else deltaMetrics metrics baseline }

/-- `EvalGate.evaluate` -/
def evaluate (config : EvalGateConfig) (baselineMetrics : Option (Dict String ℚ) := none)
    (version : Option String := none) : Except String GateResult :=
  (checkThresholds texts metrics config.thresholds).map
    (resultOf texts metrics config (baselineMetrics.getD ∅) version)

def fromMlflowRun (config : EvalGateConfig) (runId : Option String := none)
    (baselineMetrics : Option (Dict String ℚ) := none) : Except String GateResult :=
  (evaluate texts metrics config baselineMetrics runId).map
    (fun result => { result with mlflowRunId := runId })

end Evaluation

def isPassing (result : GateResult) : Bool := result.status ≠ .fail

theorem get?_deltaMetrics (metrics baseline : Dict String ℚ) (name : String) (delta : ℚ) :
    (deltaMetrics metrics baseline).get? name = some delta ↔
      ∃ value former, metrics.get? name = some value ∧ baseline.get? name = some former ∧
        delta = value - former := by
  have listed : ∀ binding, binding ∈ metrics.entries.filterMap (fun entry =>
      (baseline.get? entry.1).map (fun former => (entry.1, entry.2 - former))) ↔
      ∃ value former, metrics.get? binding.1 = some value ∧
        baseline.get? binding.1 = some former ∧ binding.2 = value - former := by
    intro binding
    rw [List.mem_filterMap]
    constructor
    · intro ⟨entry, member, made⟩
      obtain ⟨former, stored, rfl⟩ := Option.map_eq_some_iff.mp made
      exact ⟨entry.2, former, (Dict.mem_entries_iff metrics _ _).mp member, stored, rfl⟩
    · intro ⟨value, former, held, stored, difference⟩
      refine ⟨(binding.1, value), (Dict.mem_entries_iff metrics _ _).mpr held, ?_⟩
      rw [stored, Option.map_some, ← difference]
  constructor
  · intro found
    exact (listed _).mp (Dict.mem_of_get?_ofList found)
  · intro ⟨value, former, held, stored, difference⟩
    have member := (listed (name, delta)).mpr ⟨value, former, held, stored, difference⟩
    obtain ⟨other, found⟩ := Dict.exists_get?_ofList.mpr ⟨_, member, rfl⟩
    obtain ⟨value', former', held', stored', difference'⟩ :=
      (listed _).mp (Dict.mem_of_get?_ofList found)
    cases held.symm.trans held'
    cases stored.symm.trans stored'
    rw [difference, ← difference']
    exact found

def MetricThreshold.Known (threshold : MetricThreshold) : Prop :=
  threshold.comparison ∈ comparators.keys

theorem comparators_keys : comparators.keys = ["gt", "gte", "lt", "lte"] := rfl

/-- `value` is at least as good as `other` in the direction of the threshold. -/
def MetricThreshold.Better (threshold : MetricThreshold) (value other : ℚ) : Prop :=
  if threshold.comparison = "gt" ∨ threshold.comparison = "gte" then other ≤ value
  else value ≤ other

def Misses (metrics : Dict String ℚ) (threshold : MetricThreshold) : Prop :=
  ∃ value comparator, metrics.get? threshold.metricName = some value ∧
    comparators.get? threshold.comparison = some comparator ∧
    comparator value threshold.threshold = false

section Statuses

variable (texts : Texts) (metrics : Dict String ℚ)

variable {metrics} in
theorem checkThreshold_lacking {threshold : MetricThreshold}
    (lacking : metrics.get? threshold.metricName = none) (findings : Findings) :
    checkThreshold texts metrics findings threshold = .ok findings := by
  simp only [checkThreshold, lacking]

theorem addMessage_nonempty (findings : Findings) (threshold : MetricThreshold) (value : ℚ) :
    ((addMessage texts findings threshold value).failures ≠ [] ↔
      findings.failures ≠ [] ∨ threshold.severity = "fail") ∧
    ((addMessage texts findings threshold value).warnings ≠ [] ↔
      findings.warnings ≠ [] ∨ threshold.severity ≠ "fail") := by
  by_cases severe : threshold.severity = "fail"
  · simp [addMessage, severe]
  · simp [addMessage, severe]

theorem checkThreshold_known {threshold : MetricThreshold} (known : threshold.Known)
    (findings : Findings) :
    ∃ checked, checkThreshold texts metrics findings threshold = .ok checked ∧
      (checked.failures ≠ [] ↔ findings.failures ≠ [] ∨
        threshold.severity = "fail" ∧ Misses metrics threshold) ∧
      (checked.warnings ≠ [] ↔ findings.warnings ≠ [] ∨
        threshold.severity ≠ "fail" ∧ Misses metrics threshold) := by
  obtain ⟨comparator, compared⟩ := (Dict.mem_keys_iff comparators _).mp known
  cases held : metrics.get? threshold.metricName with
  | none =>
      have kept : ¬Misses metrics threshold := by simp [Misses, held]
      exact ⟨findings, checkThreshold_lacking texts held findings, by simp [kept], by simp [kept]⟩
  | some value =>
      have misses : Misses metrics threshold ↔ comparator value threshold.threshold = false := by
        simp [Misses, held, compared]
      have checked : checkThreshold texts metrics findings threshold =
          .ok (if comparator value threshold.threshold then findings
            else addMessage texts findings threshold value) := by
        simp only [checkThreshold, held, MetricThreshold.evaluate, compared, Except.map]
      refine ⟨_, checked, ?_⟩
      cases passed : comparator value threshold.threshold with
      | true => simp [misses, passed]
      | false => simpa [misses, passed] using addMessage_nonempty texts findings threshold value

theorem checkThresholds_cons (threshold : MetricThreshold) (rest : List MetricThreshold)
    (findings : Findings) :
    (threshold :: rest).foldlM (checkThreshold texts metrics) findings =
      (checkThreshold texts metrics findings threshold).bind
        (fun checked => rest.foldlM (checkThreshold texts metrics) checked) := List.foldlM_cons

theorem checkThresholds_known {thresholds : List MetricThreshold}
    (known : ∀ threshold ∈ thresholds, threshold.Known) (findings : Findings) :
    ∃ checked, thresholds.foldlM (checkThreshold texts metrics) findings = .ok checked ∧
      (checked.failures ≠ [] ↔ findings.failures ≠ [] ∨
        ∃ threshold ∈ thresholds, threshold.severity = "fail" ∧ Misses metrics threshold) ∧
      (checked.warnings ≠ [] ↔ findings.warnings ≠ [] ∨
        ∃ threshold ∈ thresholds, threshold.severity ≠ "fail" ∧ Misses metrics threshold) := by
  induction thresholds generalizing findings with
  | nil => exact ⟨findings, rfl, by simp, by simp⟩
  | cons threshold rest ih =>
      obtain ⟨next, checked, failed, warned⟩ :=
        checkThreshold_known texts metrics (known threshold List.mem_cons_self) findings
      obtain ⟨final, run, failures, warnings⟩ :=
        ih (fun other member => known other (List.mem_cons_of_mem threshold member)) next
      refine ⟨final, ?_, ?_, ?_⟩
      · rw [checkThresholds_cons, checked]
        exact run
      · rw [failures, failed, List.exists_mem_cons_iff, or_assoc]
      · rw [warnings, warned, List.exists_mem_cons_iff, or_assoc]

theorem regressionWarning_isSome {tolerance : ℚ} {baseline : Dict String ℚ}
    {threshold : MetricThreshold} :
    (regressionWarning texts tolerance (deltaMetrics metrics baseline) threshold).isSome ↔
      threshold.severity = "fail" ∧ ∃ value former,
        metrics.get? threshold.metricName = some value ∧
        baseline.get? threshold.metricName = some former ∧ value - former < -tolerance := by
  by_cases severe : threshold.severity = "fail"
  · cases found : (deltaMetrics metrics baseline).get? threshold.metricName with
    | none =>
        simp only [regressionWarning, severe, found, ne_eq, not_true_eq_false, if_false,
          Option.isSome_none, Bool.false_eq_true, true_and, false_iff]
        intro known
        obtain ⟨value, former, held, stored, -⟩ := known
        have delta := (get?_deltaMetrics metrics baseline _ _).mpr ⟨_, _, held, stored, rfl⟩
        rw [found] at delta
        cases delta
    | some delta =>
        obtain ⟨value, former, held, stored, rfl⟩ :=
          (get?_deltaMetrics metrics baseline _ _).mp found
        by_cases below : value - former < -tolerance
        · simp [regressionWarning, severe, found, held, stored, below]
        · simp [regressionWarning, severe, found, held, stored, below]
  · simp [regressionWarning, severe]

/-- The comparison with a baseline warns. -/
def Regressed (metrics : Dict String ℚ) (config : EvalGateConfig) (baseline : Dict String ℚ) :
    Prop :=
  if baseline.entries.isEmpty then config.requireBaselineComparison = true
  else 0 < config.baselineRegressionTolerance ∧
    ∃ threshold ∈ config.thresholds, threshold.severity = "fail" ∧ ∃ value former,
      metrics.get? threshold.metricName = some value ∧
      baseline.get? threshold.metricName = some former ∧
      value - former < -config.baselineRegressionTolerance

theorem baselineWarnings_nonempty (config : EvalGateConfig) (baseline : Dict String ℚ) :
    baselineWarnings texts metrics config baseline ≠ [] ↔ Regressed metrics config baseline := by
  by_cases empty : baseline.entries.isEmpty
  · simp [baselineWarnings, Regressed, empty]
  · by_cases tolerant : 0 < config.baselineRegressionTolerance
    · simp only [baselineWarnings, Regressed, empty, tolerant, if_true, if_false,
        Bool.false_eq_true, true_and, ne_eq, List.filterMap_eq_nil_iff, not_forall,
        ← Option.isSome_iff_ne_none, regressionWarning_isSome, exists_prop]
    · simp [baselineWarnings, Regressed, empty, tolerant]

def Failing (metrics : Dict String ℚ) (config : EvalGateConfig) : Prop :=
  ∃ threshold ∈ config.thresholds, threshold.severity = "fail" ∧ Misses metrics threshold

def Warned (metrics : Dict String ℚ) (config : EvalGateConfig) (baseline : Dict String ℚ) : Prop :=
  (∃ threshold ∈ config.thresholds, threshold.severity ≠ "fail" ∧ Misses metrics threshold) ∨
    Regressed metrics config baseline

theorem statusOf_eq_fail (findings : Findings) :
    statusOf findings = .fail ↔ findings.failures ≠ [] := by
  by_cases failed : findings.failures ≠ []
  · simp [statusOf, failed]
  · by_cases warned : findings.warnings ≠ []
    · simp [statusOf, failed, warned]
    · simp [statusOf, failed, warned]

theorem statusOf_eq_pass (findings : Findings) :
    statusOf findings = .pass ↔ ¬findings.failures ≠ [] ∧ ¬findings.warnings ≠ [] := by
  by_cases failed : findings.failures ≠ []
  · simp [statusOf, failed]
  · by_cases warned : findings.warnings ≠ []
    · simp [statusOf, failed, warned]
    · simp [statusOf, failed, warned]

theorem evaluate_known {config : EvalGateConfig}
    (known : ∀ threshold ∈ config.thresholds, threshold.Known)
    (baselineMetrics : Option (Dict String ℚ)) (version : Option String) :
    ∃ result, evaluate texts metrics config baselineMetrics version = .ok result ∧
      (result.status = .fail ↔ Failing metrics config) ∧
      (result.status = .pass ↔
        ¬Failing metrics config ∧ ¬Warned metrics config (baselineMetrics.getD ∅)) := by
  obtain ⟨checked, run, failures, warnings⟩ :=
    checkThresholds_known texts metrics known {}
  have failed : checked.failures ≠ [] ↔ Failing metrics config := by
    simpa [Failing] using failures
  have warned : checked.warnings ++
      baselineWarnings texts metrics config (baselineMetrics.getD ∅) ≠ [] ↔
        Warned metrics config (baselineMetrics.getD ∅) := by
    rw [Warned, ← baselineWarnings_nonempty texts metrics, ne_eq, List.append_eq_nil_iff,
      not_and_or, ← ne_eq, warnings]
    simp
  have returned : evaluate texts metrics config baselineMetrics version =
      .ok (resultOf texts metrics config (baselineMetrics.getD ∅) version checked) := by
    rw [evaluate, checkThresholds, run, Except.map]
  refine ⟨_, returned, ?_, ?_⟩
  · exact (statusOf_eq_fail _).trans failed
  · exact (statusOf_eq_pass _).trans (and_congr (not_congr failed) (not_congr warned))

end Statuses

/-- What the report has, the other one has too, at most as good in the direction of the
threshold. -/
def AtLeastAsGood (config : EvalGateConfig) (second first : Dict String ℚ) : Prop :=
  ∀ threshold ∈ config.thresholds, ∀ value, second.get? threshold.metricName = some value →
    ∃ former, first.get? threshold.metricName = some former ∧ threshold.Better value former

/-- No metric that is better when it is lower lies further below the baseline than the regression
test tolerates. -/
def NotFarBelow (config : EvalGateConfig) (baseline metrics : Dict String ℚ) : Prop :=
  ∀ threshold ∈ config.thresholds, threshold.severity = "fail" →
    (threshold.comparison = "lt" ∨ threshold.comparison = "lte") →
    0 < config.baselineRegressionTolerance → ∀ value former,
    metrics.get? threshold.metricName = some value →
    baseline.get? threshold.metricName = some former →
    former - config.baselineRegressionTolerance ≤ value

section Monotone

variable {config : EvalGateConfig} {baseline first second : Dict String ℚ}

theorem comparator_mono {threshold : MetricThreshold} {comparator : ℚ → ℚ → Bool}
    (compared : comparators.get? threshold.comparison = some comparator) {value former bound : ℚ}
    (better : threshold.Better value former) (missed : comparator value bound = false) :
    comparator former bound = false := by
  have listed := (Dict.mem_entries_iff comparators _ _).mpr compared
  have cases : comparators.entries = [
    ("gt", fun value bound => decide (bound < value)),
    ("gte", fun value bound => decide (bound ≤ value)),
    ("lt", fun value bound => decide (value < bound)),
    ("lte", fun value bound => decide (value ≤ bound))] := rfl
  rw [cases] at listed
  simp only [List.mem_cons, Prod.mk.injEq, List.not_mem_nil, or_false] at listed
  rcases listed with ⟨named, rfl⟩ | ⟨named, rfl⟩ | ⟨named, rfl⟩ | ⟨named, rfl⟩
  · have ordered : former ≤ value := by simpa [MetricThreshold.Better, named] using better
    exact decide_eq_false (fun above => of_decide_eq_false missed (above.trans_le ordered))
  · have ordered : former ≤ value := by simpa [MetricThreshold.Better, named] using better
    exact decide_eq_false (fun above => of_decide_eq_false missed (above.trans ordered))
  · have ordered : value ≤ former := by simpa [MetricThreshold.Better, named] using better
    exact decide_eq_false (fun under => of_decide_eq_false missed (ordered.trans_lt under))
  · have ordered : value ≤ former := by simpa [MetricThreshold.Better, named] using better
    exact decide_eq_false (fun under => of_decide_eq_false missed (ordered.trans under))

theorem misses_mono {threshold : MetricThreshold} (member : threshold ∈ config.thresholds)
    (better : AtLeastAsGood config second first) (missed : Misses second threshold) :
    Misses first threshold := by
  obtain ⟨value, comparator, held, compared, below⟩ := missed
  obtain ⟨former, had, atLeast⟩ := better threshold member value held
  exact ⟨former, comparator, had, compared, comparator_mono compared atLeast below⟩

theorem regressed_mono (known : ∀ threshold ∈ config.thresholds, threshold.Known)
    (better : AtLeastAsGood config second first) (near : NotFarBelow config baseline second)
    (regressed : Regressed second config baseline) : Regressed first config baseline := by
  by_cases empty : baseline.entries.isEmpty
  · simpa [Regressed, empty] using regressed
  · simp only [Regressed, empty, Bool.false_eq_true, if_false] at regressed ⊢
    obtain ⟨tolerant, threshold, member, severe, value, former, held, stored, below⟩ := regressed
    obtain ⟨other, had, atLeast⟩ := better threshold member value held
    refine ⟨tolerant, threshold, member, severe, other, former, had, stored, ?_⟩
    by_cases higher : threshold.comparison = "gt" ∨ threshold.comparison = "gte"
    · rw [MetricThreshold.Better, if_pos higher] at atLeast
      linarith
    · have named : threshold.comparison ∈ ["gt", "gte", "lt", "lte"] := by
        rw [← comparators_keys]
        exact known threshold member
      have lower : threshold.comparison = "lt" ∨ threshold.comparison = "lte" := by
        simp only [List.mem_cons, List.not_mem_nil, or_false] at named
        tauto
      have kept := near threshold member severe lower tolerant value former held stored
      linarith

theorem status_mono {former latter : GateResult}
    (failed : latter.status = .fail → former.status = .fail)
    (passed : former.status = .pass → latter.status = .pass) :
    latter.status.rank ≤ former.status.rank := by
  cases before : former.status with
  | pass => rw [passed before]
  | warn =>
      cases after : latter.status with
      | pass => decide
      | warn => exact Nat.le_refl _
      | fail => cases before.symm.trans (failed after)
  | fail => cases latter.status <;> decide

end Monotone

section Lacking

variable (texts : Texts) {metrics : Dict String ℚ}

theorem checkThresholds_lacking {threshold : MetricThreshold}
    (lacking : metrics.get? threshold.metricName = none) (before after : List MetricThreshold) :
    checkThresholds texts metrics (before ++ threshold :: after) =
      checkThresholds texts metrics (before ++ after) := by
  have skipped : ∀ findings, (threshold :: after).foldlM (checkThreshold texts metrics) findings =
      after.foldlM (checkThreshold texts metrics) findings := by
    intro findings
    rw [checkThresholds_cons, checkThreshold_lacking texts lacking]
    rfl
  unfold checkThresholds
  rw [List.foldlM_append, List.foldlM_append]
  exact congrArg _ (funext skipped)

theorem baselineWarnings_lacking {config : EvalGateConfig} {threshold : MetricThreshold}
    (lacking : metrics.get? threshold.metricName = none) {before after : List MetricThreshold}
    (parts : config.thresholds = before ++ threshold :: after) (baseline : Dict String ℚ) :
    baselineWarnings texts metrics config baseline =
      baselineWarnings texts metrics { config with thresholds := before ++ after } baseline := by
  have silent : regressionWarning texts config.baselineRegressionTolerance
      (deltaMetrics metrics baseline) threshold = none := by
    rw [← Option.not_isSome_iff_eq_none, regressionWarning_isSome]
    intro ⟨_, value, former, held, _⟩
    rw [lacking] at held
    cases held
  simp only [baselineWarnings, parts, List.filterMap_append, List.filterMap_cons, silent]

def GateResult.verdict (result : GateResult) : GateStatus × List String × List String :=
  (result.status, result.failures, result.warnings)

theorem verdict_lacking {config : EvalGateConfig} {threshold : MetricThreshold}
    (lacking : metrics.get? threshold.metricName = none) {before after : List MetricThreshold}
    (parts : config.thresholds = before ++ threshold :: after)
    (baselineMetrics : Option (Dict String ℚ)) (version : Option String) :
    (evaluate texts metrics config baselineMetrics version).map GateResult.verdict =
      (evaluate texts metrics { config with thresholds := before ++ after } baselineMetrics
        version).map GateResult.verdict := by
  have checked := checkThresholds_lacking texts lacking before after
  have warned := baselineWarnings_lacking texts lacking parts (baselineMetrics.getD ∅)
  simp only [evaluate, parts, checked]
  cases checkThresholds texts metrics (before ++ after) with
  | error message => rfl
  | ok findings =>
      simp only [Except.map, GateResult.verdict, resultOf]
      rw [warned]

end Lacking

/-- A report that is at least as good never gets a worse status, unless one of its metrics that is
better when lower fell far below the baseline; a metric that a report lacks is skipped; and a
metric that misses a threshold of the severity `fail` fails the gate. -/
theorem better_report_not_worse (texts : Texts) (config : EvalGateConfig)
    (known : ∀ threshold ∈ config.thresholds, threshold.Known)
    (baselineMetrics : Option (Dict String ℚ)) :
    (∀ (first second : Dict String ℚ) (version version' : Option String),
      AtLeastAsGood config second first →
      NotFarBelow config (baselineMetrics.getD ∅) second →
      ∃ former latter, evaluate texts first config baselineMetrics version = .ok former ∧
        evaluate texts second config baselineMetrics version' = .ok latter ∧
        latter.status.rank ≤ former.status.rank) ∧
    (∀ (metrics : Dict String ℚ) (version : Option String) (threshold : MetricThreshold)
      (before after : List MetricThreshold), config.thresholds = before ++ threshold :: after →
      metrics.get? threshold.metricName = none →
      (evaluate texts metrics config baselineMetrics version).map GateResult.verdict =
        (evaluate texts metrics { config with thresholds := before ++ after } baselineMetrics
          version).map GateResult.verdict) ∧
    ∀ (metrics : Dict String ℚ) (version : Option String), ∀ threshold ∈ config.thresholds,
      threshold.severity = "fail" → Misses metrics threshold →
      ∃ result, evaluate texts metrics config baselineMetrics version = .ok result ∧
        result.status = .fail := by
  refine ⟨?_, ?_, ?_⟩
  · intro first second version version' better near
    obtain ⟨former, ran, failed, passed⟩ :=
      evaluate_known texts first known baselineMetrics version
    obtain ⟨latter, ran', failed', passed'⟩ :=
      evaluate_known texts second known baselineMetrics version'
    have failing : Failing second config → Failing first config := by
      intro ⟨threshold, member, severe, missed⟩
      exact ⟨threshold, member, severe, misses_mono member better missed⟩
    have warned : Warned second config (baselineMetrics.getD ∅) →
        Warned first config (baselineMetrics.getD ∅) := by
      intro warned
      cases warned with
      | inl missing =>
          obtain ⟨threshold, member, mild, missed⟩ := missing
          exact .inl ⟨threshold, member, mild, misses_mono member better missed⟩
      | inr regressed => exact .inr (regressed_mono known better near regressed)
    refine ⟨former, latter, ran, ran', status_mono ?_ ?_⟩
    · exact fun fails => failed.mpr (failing (failed'.mp fails))
    · intro passes
      have clean := passed.mp passes
      exact passed'.mpr ⟨fun fails => clean.1 (failing fails), fun warns => clean.2 (warned warns)⟩
  · intro metrics version threshold before after parts lacking
    exact verdict_lacking texts lacking parts baselineMetrics version
  · intro metrics version threshold member severe missed
    obtain ⟨result, ran, failed, _⟩ := evaluate_known texts metrics known baselineMetrics version
    exact ⟨result, ran, failed.mpr ⟨threshold, member, severe, missed⟩⟩

def plainTexts : Texts where
  number value := if value = 2 / 100 then "0.02" else toString value.num
  fourDecimals value := toString value.num ++ ".0000"
  quoted text := "'" ++ text ++ "'"

def latencyGate : EvalGateConfig where
  modelName := "llm"
  thresholds := [{ metricName := "latency", threshold := 100, comparison := "lt" }]

theorem better_report_not_worse_faster :
    ∃ former latter,
      evaluate plainTexts (Dict.ofList [("latency", 120)]) latencyGate
        (some (Dict.ofList [("latency", 90)])) = .ok former ∧
      evaluate plainTexts (Dict.ofList [("latency", 95)]) latencyGate
        (some (Dict.ofList [("latency", 90)])) = .ok latter ∧
      latter.status.rank ≤ former.status.rank := by
  apply (better_report_not_worse plainTexts latencyGate
    (by simp [latencyGate, MetricThreshold.Known, comparators_keys])
    (some (Dict.ofList [("latency", 90)]))).1 (Dict.ofList [("latency", 120)])
    (Dict.ofList [("latency", 95)]) none none
  · simp [AtLeastAsGood, latencyGate, Dict.get?_ofList_singleton, MetricThreshold.Better]
    norm_num
  · simp [NotFarBelow, latencyGate, Dict.get?_ofList_singleton]
    norm_num

/-- The regression test takes a lower latency for a regression, and a report without the metric
passes. -/
theorem faster_report_warned :
    ((evaluate plainTexts (Dict.ofList [("latency", 50)]) latencyGate
      (some (Dict.ofList [("latency", 50)]))).map GateResult.status).toOption = some .pass ∧
    ((evaluate plainTexts (Dict.ofList [("latency", 20)]) latencyGate
      (some (Dict.ofList [("latency", 50)]))).map GateResult.status).toOption = some .warn ∧
    ((evaluate plainTexts ∅ latencyGate
      (some (Dict.ofList [("latency", 50)]))).map GateResult.status).toOption = some .pass := by
  decide +kernel

end RagSystem.EvalGate
