import Mathlib.Algebra.BigOperators.Ring.List
import RagSystem.Data.RandomChoice
import RagSystem.ModelEvolution.CanaryController

/-! The variants of `ABTestRunner` (`proxy/app/shared/ab_test.py`) and which of them a model is
answered with while its rollout goes on. -/

namespace RagSystem.CanaryRouting

open CanaryController RandomChoice

structure ModelVariant where
  modelName : String
  adapterVersion : String := "baseline"
  weight : ℚ := 1
  deriving DecidableEq, Repr

/-- The variants by the names of their models: one for each model. -/
structure ABTestRunner where
  variants : Dict String ModelVariant := ∅
  keyed : ∀ name variant, variants.get? name = some variant → variant.modelName = name := by
    intro name variant found
    cases found

def registerVariant (variant : ModelVariant) (runner : ABTestRunner) : ABTestRunner :=
  { variants := runner.variants.set variant.modelName variant
    keyed := by
      intro name other found
      rw [Dict.get?_set] at found
      split at found
      · rename_i same
        rw [← Option.some.inj found, same]
      · exact runner.keyed name other found }

def ABTestRunner.all (runner : ABTestRunner) : List ModelVariant :=
  runner.variants.entries.map Prod.snd

/-- The weighted draw from a pool; without a positive total every item has the same chance. `none`
is the error for an empty pool. -/
def drawFrom (pool : List ModelVariant) (draw : ℚ) : Option ModelVariant :=
  if pool = [] then none
  else
    let total := (pool.map ModelVariant.weight).sum
    if total ≤ 0 then pool[choiceIndex pool.length draw]?
    else pool[choicesIndex (pool.map (fun variant => variant.weight / total)) draw]?

def selectModel (runner : ABTestRunner) (draw : ℚ) : Option ModelVariant :=
  drawFrom runner.all draw

def versionOf (config : CanaryConfig) : Target → String
  | .stable => config.stableVersion
  | .canary => config.canaryVersion

structure Rollout where
  runner : ABTestRunner := {}
  controller : Controller := {}

/-- The variants that are drawn from for a routing decision: those of any model with the version, or
all of them when there are none. -/
def Rollout.pool (rollout : Rollout) (modelName : String) (target : Target) : List ModelVariant :=
  match rollout.controller.configs.get? modelName with
  | none => rollout.runner.all
  | some config =>
      let pool := rollout.runner.all.filter
        (fun variant => variant.adapterVersion = versionOf config target)
      if pool = [] then rollout.runner.all else pool

def selectModelWithCanary (rollout : Rollout) (modelName : String) (routeDraw now draw : ℚ) :
    Option ModelVariant :=
  drawFrom (rollout.pool modelName (route rollout.controller modelName routeDraw now)) draw

inductive RolloutOp
  | registerVariant (variant : ModelVariant)
  | configure (modelName : String) (settings : Settings) (now : ℚ)
  | setSplit (modelName : String) (canaryPercent : ℚ)
  | promote (modelName : String)
  | rollback (modelName : String) (now : ℚ)
  deriving DecidableEq, Repr

def perform (rollout : Rollout) : RolloutOp → Rollout
  | .registerVariant variant => { rollout with runner := registerVariant variant rollout.runner }
  | .configure modelName settings now =>
      { rollout with controller := configure modelName settings now rollout.controller }
  | .setSplit modelName canaryPercent =>
      { rollout with
        controller := (setSplit modelName canaryPercent rollout.controller).getD
          rollout.controller }
  | .promote modelName => { rollout with controller := promote modelName rollout.controller }
  | .rollback modelName now =>
      { rollout with controller := rollback modelName now rollout.controller }

/-! ### What has happened to a model -/

/-- The rollout with the versions registered for a model, the last one first, and the version that
its last promotion or rollback left it with, if the split has not been set since. -/
structure Tracked where
  rollout : Rollout := {}
  registered : List String := []
  expected : Option String := none

def bothRegistered (config : CanaryConfig) (registered : List String) : Prop :=
  config.stableVersion ∈ registered ∧ config.canaryVersion ∈ registered

instance (config : CanaryConfig) (registered : List String) :
    Decidable (bothRegistered config registered) := inferInstanceAs (Decidable (_ ∧ _))

/-- The version that the model is to be answered with from now on. Only a configuration with both
versions registered is followed. -/
def expectedAfter (model : String) (tracked : Tracked) : RolloutOp → Option String
  | .registerVariant _ => tracked.expected
  | .configure modelName _ _ => if modelName = model then none else tracked.expected
  | .setSplit modelName canaryPercent =>
      if modelName = model ∧ 0 ≤ canaryPercent ∧ canaryPercent ≤ 1 then none else tracked.expected
  | .promote modelName =>
      if modelName = model then
        (tracked.rollout.controller.configs.get? model).bind fun config =>
          if bothRegistered config tracked.registered then some config.canaryVersion else none
      else tracked.expected
  | .rollback modelName _ =>
      if modelName = model then
        (tracked.rollout.controller.configs.get? model).bind fun config =>
          if bothRegistered config tracked.registered then some config.stableVersion else none
      else tracked.expected

def track (model : String) (tracked : Tracked) (op : RolloutOp) : Tracked :=
  { rollout := perform tracked.rollout op
    registered := match op with
      | .registerVariant variant =>
          if variant.modelName = model then variant.adapterVersion :: tracked.registered
          else tracked.registered
      | _ => tracked.registered
    expected := expectedAfter model tracked op }

def trackAll (model : String) (ops : List RolloutOp) : Tracked := ops.foldl (track model) {}

section Selection

variable (model : String) (tracked : Tracked) (now : ℚ)

/-- Whatever is drawn, the model gets a variant of its own with the version. -/
def Answers (version : Target → String) : Prop :=
  ∀ routeDraw draw, IsDraw routeDraw → IsDraw draw →
    ∃ variant, selectModelWithCanary tracked.rollout model routeDraw now draw = some variant ∧
      variant.modelName = model ∧
      variant.adapterVersion = version (route tracked.rollout.controller model routeDraw now)

/-- Selections follow the configured versions, and a promotion or a rollback. -/
structure FollowsRollout : Prop where
  routed : ∀ config, tracked.rollout.controller.configs.get? model = some config →
    bothRegistered config tracked.registered → Answers model tracked now (versionOf config)
  settled : ∀ version, tracked.expected = some version →
    Answers model tracked now (fun _ => version)

def effectivePercent (controller : Controller) : ℚ :=
  match controller.configs.get? model with
  | none => 0
  | some config => if coolingDown controller model now then 0 else config.canaryPercent

/-- Some draw makes the decision. -/
def Possible (controller : Controller) : Target → Prop
  | .stable => effectivePercent model now controller < 1
  | .canary => 0 < effectivePercent model now controller

def CanDraw (pool : List ModelVariant) (variant : ModelVariant) : Prop :=
  ∃ draw, IsDraw draw ∧ drawFrom pool draw = some variant

/-- Every decision that can be made finds the version registered last for the model, and no variant
of another model that can be drawn instead. -/
def Keeps (version : Target → String) : Prop :=
  ∀ target, Possible model now tracked.rollout.controller target →
    tracked.registered.head? = some (version target) ∧
      ∀ variant ∈ tracked.rollout.pool model target,
        CanDraw (tracked.rollout.pool model target) variant → variant.modelName = model

structure InStep : Prop where
  routed : ∀ config, tracked.rollout.controller.configs.get? model = some config →
    bothRegistered config tracked.registered → Keeps model tracked now (versionOf config)
  settled : ∀ version, tracked.expected = some version →
    Keeps model tracked now (fun _ => version)

end Selection

section Draws

variable {pool : List ModelVariant} {variant : ModelVariant} {draw : ℚ}

theorem drawFrom_isSome (some_variant : pool ≠ []) (drawn : IsDraw draw) :
    ∃ variant, drawFrom pool draw = some variant := by
  have length := List.length_pos_iff.mpr some_variant
  unfold drawFrom
  rw [if_neg some_variant]
  dsimp only
  split
  · exact ⟨_, List.getElem?_eq_getElem (choiceIndex_lt drawn length)⟩
  · have mapped : pool.map (fun variant =>
        variant.weight / (pool.map ModelVariant.weight).sum) ≠ [] := by simpa using some_variant
    have inside := choicesIndex_lt mapped draw
    rw [List.length_map] at inside
    exact ⟨_, List.getElem?_eq_getElem inside⟩

theorem mem_of_drawFrom (taken : drawFrom pool draw = some variant) : variant ∈ pool := by
  unfold drawFrom at taken
  dsimp only at taken
  split at taken
  · cases taken
  · split at taken
    · exact List.mem_of_getElem? taken
    · exact List.mem_of_getElem? taken

theorem canDraw_iff (nonneg : ∀ variant ∈ pool, 0 ≤ variant.weight) (inside : variant ∈ pool) :
    CanDraw pool variant ↔ (pool.map ModelVariant.weight).sum ≤ 0 ∨ 0 < variant.weight := by
  have some_variant : pool ≠ [] := List.ne_nil_of_mem inside
  obtain ⟨index, found⟩ := List.mem_iff_getElem?.mp inside
  by_cases flat : (pool.map ModelVariant.weight).sum ≤ 0
  · refine iff_of_true ?_ (Or.inl flat)
    have early : index < pool.length := (List.getElem?_eq_some_iff.mp found).1
    obtain ⟨draw, drawn, at_index⟩ := exists_choiceIndex early
    exact ⟨draw, drawn, by simp [drawFrom, some_variant, flat, at_index, found]⟩
  · let whole := (pool.map ModelVariant.weight).sum
    have total : 0 < whole := not_le.mp flat
    have scaled : (pool.map (fun variant => variant.weight / whole)).sum = 1 := by
      calc (pool.map (fun variant => variant.weight / whole)).sum
          = (pool.map ModelVariant.weight).sum / whole := by
            simp only [div_eq_mul_inv, List.sum_map_mul_right]
        _ = 1 := div_self total.ne'
    have shared : ∀ {place : Nat}, pool[place]? = some variant →
        (pool.map (fun variant => variant.weight / whole))[place]? =
          some (variant.weight / whole) := by
      intro place at_place
      rw [List.getElem?_map, at_place]
      rfl
    simp only [flat, false_or]
    constructor
    · intro given
      rcases given with ⟨draw, drawn, taken⟩
      have at_index : pool[choicesIndex (pool.map (fun variant => variant.weight / whole)) draw]? =
          some variant := by simpa [drawFrom, some_variant, flat] using taken
      have share := choicesIndex_positive (by rw [scaled]; norm_num) drawn (shared at_index)
      rwa [div_pos_iff_of_pos_right total] at share
    · intro positive
      have shares : ∀ share ∈ pool.map (fun variant => variant.weight / whole), 0 ≤ share := by
        intro share member
        obtain ⟨other, listed, rfl⟩ := List.mem_map.mp member
        exact div_nonneg (nonneg other listed) total.le
      obtain ⟨draw, drawn, at_index⟩ :=
        exists_choicesIndex shares (shared found) (div_pos positive total)
      have taken : drawFrom pool draw =
          pool[choicesIndex (pool.map (fun variant => variant.weight / whole)) draw]? := by
        simp [drawFrom, some_variant, flat, whole]
      exact ⟨draw, drawn, by rw [taken, at_index, found]⟩

theorem canDraw_iff_weightless :
    CanDraw [⟨"m", "1", 1⟩, ⟨"m", "2", 0⟩] ⟨"m", "2", 0⟩ ↔
      ([⟨"m", "1", 1⟩, ⟨"m", "2", 0⟩].map ModelVariant.weight).sum ≤ 0 ∨ (0 : ℚ) < 0 :=
  canDraw_iff (by simp) (by simp)

end Draws

section Runs

variable {model : String} {tracked : Tracked} {now : ℚ}

theorem route_eq (controller : Controller) (draw : ℚ) (drawn : IsDraw draw) :
    route controller model draw now =
      if draw < effectivePercent model now controller then Target.canary else Target.stable := by
  unfold route effectivePercent
  cases controller.configs.get? model with
  | none =>
      have positive : ¬ draw < 0 := not_lt.mpr drawn.1
      simp [positive]
  | some config => rfl

theorem possible_iff (controller : Controller) (target : Target) :
    Possible model now controller target ↔
      ∃ draw, IsDraw draw ∧ route controller model draw now = target := by
  constructor
  · intro possible
    cases target with
    | stable =>
        -- a draw at or above the percentage
        have below : effectivePercent model now controller < 1 := possible
        have drawn : IsDraw (max 0 (effectivePercent model now controller)) :=
          ⟨le_max_left _ _, max_lt (by norm_num) below⟩
        refine ⟨_, drawn, ?_⟩
        rw [route_eq controller _ drawn, if_neg (not_lt.mpr (le_max_right _ _))]
    | canary =>
        have above : 0 < effectivePercent model now controller := possible
        refine ⟨0, isDraw_zero, ?_⟩
        rw [route_eq controller _ isDraw_zero, if_pos above]
  · intro given
    rcases given with ⟨draw, drawn, decided⟩
    rw [route_eq controller draw drawn] at decided
    split at decided
    · rename_i below
      subst decided
      exact lt_of_le_of_lt drawn.1 below
    · rename_i above
      subst decided
      exact lt_of_le_of_lt (not_lt.mp above) drawn.2

theorem trackAll_concat (model : String) (ops : List RolloutOp) (op : RolloutOp) :
    trackAll model (ops ++ [op]) = track model (trackAll model ops) op := by
  simp [trackAll]

theorem registered_head (ops : List RolloutOp) :
    (trackAll model ops).registered.head? =
      ((trackAll model ops).rollout.runner.variants.get? model).map
        ModelVariant.adapterVersion := by
  induction ops using List.reverseRecOn with
  | nil => rfl
  | append_singleton ops op ih =>
      rw [trackAll_concat]
      cases op with
      | registerVariant variant =>
          by_cases own : variant.modelName = model
          · simp [track, perform, registerVariant, own]
          · have other : model ≠ variant.modelName := fun same => own same.symm
            simpa [track, perform, registerVariant, own, Dict.get?_set_of_ne other] using ih
      | configure name settings now => exact ih
      | setSplit name percent => exact ih
      | promote name => exact ih
      | rollback name now => exact ih

theorem mem_all {runner : ABTestRunner} {variant : ModelVariant} :
    variant ∈ runner.all ↔ runner.variants.get? variant.modelName = some variant := by
  simp only [ABTestRunner.all, List.mem_map, Prod.exists, exists_eq_right]
  constructor
  · intro given
    rcases given with ⟨name, member⟩
    have found := (Dict.mem_entries_iff _ _ _).mp member
    rwa [runner.keyed name variant found]
  · intro found
    exact ⟨_, (Dict.mem_entries_iff _ _ _).mpr found⟩

theorem pool_subset (rollout : Rollout) (target : Target) :
    rollout.pool model target ⊆ rollout.runner.all := by
  intro variant member
  unfold Rollout.pool at member
  cases configured : rollout.controller.configs.get? model with
  | none => simpa [configured] using member
  | some config =>
      rw [configured] at member
      dsimp only at member
      split at member
      · exact member
      · exact (List.mem_filter.mp member).1

theorem pool_ne_nil {rollout : Rollout} (registered : rollout.runner.all ≠ []) (target : Target) :
    rollout.pool model target ≠ [] := by
  unfold Rollout.pool
  cases rollout.controller.configs.get? model with
  | none => exact registered
  | some config =>
      dsimp only
      split
      · exact registered
      · assumption

theorem answers_iff_keeps (ops : List RolloutOp) (version : Target → String) :
    Answers model (trackAll model ops) now version ↔ Keeps model (trackAll model ops) now version := by
  have head : (trackAll model ops).registered.head? =
      ((trackAll model ops).rollout.runner.variants.get? model).map
        ModelVariant.adapterVersion := registered_head ops
  generalize trackAll model ops = tracked at head
  constructor
  · intro answers target possible
    obtain ⟨routeDraw, routeDrawn, decided⟩ := (possible_iff _ target).mp possible
    constructor
    · obtain ⟨variant, selected, own, right⟩ := answers routeDraw 0 routeDrawn isDraw_zero
      have listed := pool_subset _ _ (mem_of_drawFrom selected)
      rw [head, ← own, mem_all.mp listed, Option.map_some, right, decided]
    · intro variant member drawable
      obtain ⟨draw, drawn, taken⟩ := drawable
      obtain ⟨other, selected, own, -⟩ := answers routeDraw draw routeDrawn drawn
      rw [selectModelWithCanary, decided, taken] at selected
      rw [Option.some.inj selected]
      exact own
  · intro keeps routeDraw draw routeDrawn drawn
    have possible := (possible_iff tracked.rollout.controller
      (route tracked.rollout.controller model routeDraw now)).mpr ⟨routeDraw, routeDrawn, rfl⟩
    obtain ⟨last, alone⟩ := keeps _ possible
    rw [head] at last
    obtain ⟨own, found, version_eq⟩ := Option.map_eq_some_iff.mp last
    have keyed := tracked.rollout.runner.keyed model own found
    have listed : own ∈ tracked.rollout.runner.all := mem_all.mpr (by rwa [keyed])
    obtain ⟨variant, taken⟩ := drawFrom_isSome
      (pool_ne_nil (List.ne_nil_of_mem listed)
        (route tracked.rollout.controller model routeDraw now)) drawn
    have member := mem_of_drawFrom taken
    have same := alone variant member ⟨draw, drawn, taken⟩
    have stored := mem_all.mp (pool_subset _ _ member)
    rw [same, found] at stored
    refine ⟨variant, taken, same, ?_⟩
    rw [← Option.some.inj stored, version_eq]

/-- In every state of a run the selections follow the rollout exactly when, in every state, each
decision that can be made finds the version registered last for the model and draws from no other
model. -/
theorem routing_follows_rollout_iff (model : String) (ops : List RolloutOp) :
    (∀ earlier, earlier <+: ops → ∀ now, FollowsRollout model (trackAll model earlier) now) ↔
      ∀ earlier, earlier <+: ops → ∀ now, InStep model (trackAll model earlier) now := by
  constructor
  · intro follows earlier reached now
    have here := follows earlier reached now
    exact {
      routed := fun config found both =>
        (answers_iff_keeps earlier _).mp (here.routed config found both)
      settled := fun version expected =>
        (answers_iff_keeps earlier _).mp (here.settled version expected) }
  · intro kept earlier reached now
    have here := kept earlier reached now
    exact {
      routed := fun config found both =>
        (answers_iff_keeps earlier _).mpr (here.routed config found both)
      settled := fun version expected =>
        (answers_iff_keeps earlier _).mpr (here.settled version expected) }

/-- The canary takes the place of the stable variant when it is registered, and is drawn for a
stable decision. -/
theorem stable_route_answers_canary :
    let ops : List RolloutOp :=
      [.registerVariant { modelName := "llm", adapterVersion := "v1" },
        .registerVariant { modelName := "llm", adapterVersion := "v2" },
        .configure "llm" { stableVersion := "v1", canaryVersion := "v2", canaryPercent := 1 / 2 } 0]
    ¬ (∀ earlier, earlier <+: ops → ∀ now, FollowsRollout "llm" (trackAll "llm" earlier) now) := by
  intro ops follows
  have stable : route (trackAll "llm" ops).rollout.controller "llm" (3 / 4) 0 = .stable := by
    decide +kernel
  have selected : (selectModelWithCanary (trackAll "llm" ops).rollout "llm" (3 / 4) 0 0).map
      ModelVariant.adapterVersion = some "v2" := by decide +kernel
  obtain ⟨config, found, both, version⟩ : ∃ config,
      (trackAll "llm" ops).rollout.controller.configs.get? "llm" = some config ∧
        bothRegistered config (trackAll "llm" ops).registered ∧ config.stableVersion = "v1" :=
    ⟨_, rfl, by decide +kernel, rfl⟩
  obtain ⟨variant, taken, -, right⟩ := (follows ops List.prefix_rfl 0).routed config found both
    (3 / 4) 0 ⟨by norm_num, by norm_num⟩ isDraw_zero
  rw [taken, Option.map_some, right, stable, versionOf, version] at selected
  exact absurd selected (by decide)

end Runs

end RagSystem.CanaryRouting
