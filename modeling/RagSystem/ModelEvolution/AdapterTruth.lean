import RagSystem.ModelEvolution.AdapterManager

/-! Whether what an adapter says of itself is true: its path while it is active, and what is left of
it when a reload has failed. -/

namespace RagSystem.AdapterManager

open Transition

/-! ## Sections -/

section Sections

variable {adapter : ModelAdapter} {target : AdapterState}

namespace ModelAdapter

@[simp] theorem moved_modelPath : (adapter.moved target).modelPath = adapter.modelPath := by
  unfold moved transitionTo
  split <;> rfl

@[simp] theorem moved_version : (adapter.moved target).version = adapter.version := by
  unfold moved transitionTo
  split <;> rfl

theorem moved_state : (adapter.moved target).state =
    if target ∈ validTransitions adapter.state then target else adapter.state := by
  unfold moved transitionTo
  split <;> rfl

theorem fail_state : adapter.fail.state = .error := by
  cases state : adapter.state <;> simp [fail, moved_state, state, validTransitions]

theorem retire_state : adapter.retire.state =
    match adapter.state with
    | .draining => .unloaded
    | .retiring => .unloaded
    | .error => .unloaded
    | other => other := by
  cases state : adapter.state <;> simp [retire, moved_state, state, validTransitions]

@[simp] theorem retire_modelPath : adapter.retire.modelPath = adapter.modelPath := by
  simp [retire]

theorem retiring_of_commit {path version now : String}
    (retiring : (adapter.commit path version now).state = .retiring) :
    adapter.state = .retiring := by
  rw [commit, moved_state] at retiring
  split at retiring
  · cases retiring
  · exact retiring

theorem commit_modelPath (path version now : String) :
    (adapter.commit path version now).modelPath = some path := by
  simp [commit]

end ModelAdapter

theorem beginLoad_spec (adapter : ModelAdapter) :
    (beginLoad adapter).1 = adapter ∨ (beginLoad adapter).1 = { adapter with state := .loading } := by
  unfold beginLoad ModelAdapter.transitionTo
  split
  · exact Or.inl rfl
  · by_cases valid : AdapterState.loading ∈ validTransitions adapter.state
    · simp [valid]
    · simp [valid]

theorem retiring_of_beginLoad {adapter : ModelAdapter}
    (retiring : (beginLoad adapter).1.state = .retiring) : adapter.state = .retiring := by
  rcases beginLoad_spec adapter with same | loading
  · rwa [same] at retiring
  · rw [loading] at retiring
    cases retiring

end Sections

/-! ## Runs -/

/-- The adapters and, for every load that was completed, its adapter and path. -/
structure Observed where
  adapters : Adapters := ∅
  loads : List (String × String) := []

structure Task where
  operation : Operation
  phase : Phase := .started
  deriving DecidableEq, Repr

def completes (input : Input) (operation : Operation) (phase : Phase)
    (adapter : Option ModelAdapter) : Option (String × String) :=
  match operation, phase with
  | .load name path _, .loading => if input.succeeded then some (name, path) else none
  | .hotReload name path _, .swapping _ => if input.succeeded then some (name, path) else none
  | .hotReload name path _, .started =>
      if input.succeeded ∧ adapter.any (·.state = .unloaded) then some (name, path) else none
  | _, _ => none

def observe (input : Input) (task : Task) (observed : Observed) : Option (Observed × Task) :=
  (turn input task.operation task.phase observed.adapters).map (fun result =>
    (⟨result.1, observed.loads ++ (completes input task.operation task.phase
        (observed.adapters.get? task.operation.name)).toList⟩,
      { task with phase := result.2 }))

def step : Pool Observed Task → Move Operation Input → Option (Pool Observed Task) :=
  interleave (fun operation => ⟨operation, .started⟩) observe

/-- An adapter that is active has the path of a load that was completed. -/
def Backed (loads : List (String × String)) (name : String) (adapter : ModelAdapter) : Prop :=
  adapter.state = .active → ∃ path, adapter.modelPath = some path ∧ (name, path) ∈ loads

def Truthful (observed : Observed) : Prop :=
  ∀ name adapter, observed.adapters.get? name = some adapter → Backed observed.loads name adapter

def visible (adapter : ModelAdapter) : AdapterState × Option String × String :=
  (adapter.state, adapter.modelPath, adapter.version)

def Phase.found? (current : Option ModelAdapter) : Phase → Option ModelAdapter
  | .started => current
  | .reloading old => some old
  | .swapping old => some old
  | .restoring old => some old
  | _ => none

abbrev Taken := Event (Pool Observed Task) (Move Operation Input)

structure Taken.Advances (event : Taken) (index : Nat) (input : Input) (task : Task) : Prop where
  taken : event.action = .advance index input
  held : event.before.tasks[index]? = some task

/-- A reload that ends with an exception leaves path, version and state as it has found them. -/
def Restores (event : Taken) : Prop :=
  ∀ index input name path version phase,
    event.Advances index input ⟨.hotReload name path version, phase⟩ →
    event.after.tasks[index]? = some ⟨.hotReload name path version, .raised⟩ →
    (event.after.shared.adapters.get? name).map visible =
      (phase.found? (event.before.shared.adapters.get? name)).map visible

/-- No unloading finishes on an active adapter, no reload of an unloaded adapter fails, and one that
fails was started on an active adapter that others have not reloaded or unloaded since. -/
structure Orderly (event : Taken) : Prop where
  unloading : ∀ index input name adapter,
    event.Advances index input ⟨.unload name, .unloading⟩ → input.succeeded = true →
    event.before.shared.adapters.get? name = some adapter → adapter.state ≠ .active
  fresh : ∀ index input name path version adapter,
    event.Advances index input ⟨.hotReload name path version, .started⟩ →
    event.before.shared.adapters.get? name = some adapter → adapter.state = .unloaded →
    input.succeeded = true
  restoring : ∀ index input name path version old adapter,
    event.Advances index input ⟨.hotReload name path version, .restoring old⟩ →
    event.before.shared.adapters.get? name = some adapter →
    old.state = .active ∧ adapter.state ≠ .unloaded ∧ adapter.modelPath = old.modelPath ∧
      adapter.version = old.version

/-- No adapter is seen retiring; a reload under way has found its adapter loaded before, or at
least in a state it cannot be restored to. -/
structure Sound (pool : Pool Observed Task) : Prop where
  truthful : Truthful pool.shared
  settled : ∀ name adapter, pool.shared.adapters.get? name = some adapter →
    adapter.state ≠ .retiring
  found : ∀ (index : Nat) (task : Task) old, pool.tasks[index]? = some task →
    task.phase.found? none = some old →
    Backed pool.shared.loads task.operation.name old ∧ old.state ≠ .unloaded ∧
      old.state ≠ .retiring

/-- The adapter that a reload has found stays the same or is forgotten, and no reload ends with an
exception. -/
structure Plain (operation : Operation) (phase later : Phase) : Prop where
  found : later.found? none = none ∨ later.found? none = phase.found? none
  raised : later = .raised → ∀ name path version, operation ≠ .hotReload name path version

inductive Effect (input : Input) (adapter : ModelAdapter) :
    Operation → Phase → ModelAdapter → Phase → Prop
  | idle {operation phase next later} (state : next.state = adapter.state)
      (path : next.modelPath = adapter.modelPath) (plain : Plain operation phase later) :
      Effect input adapter operation phase next later
  | left {operation phase next later} (inactive : next.state ≠ .active)
      (settled : next.state ≠ .retiring) (plain : Plain operation phase later) :
      Effect input adapter operation phase next later
  | committed {operation phase next later} (path : String)
      (complete : completes input operation phase (some adapter) = some (operation.name, path))
      (stored : next.modelPath = some path)
      (settled : next.state = .retiring → adapter.state = .retiring)
      (plain : Plain operation phase later) :
      Effect input adapter operation phase next later
  | unloaded (name : String) (succeeded : input.succeeded = true) :
      Effect input adapter (.unload name) .unloading adapter.retire.clear .returned
  | found (name path version : String) (loaded : adapter.state ≠ .unloaded) :
      Effect input adapter (.hotReload name path version) .started (adapter.moved .draining)
        (.reloading adapter)
  | failed (name path version : String) (fresh : adapter.state = .unloaded)
      (unsuccessful : input.succeeded = false) {next : ModelAdapter}
      (state : next.state = .error) :
      Effect input adapter (.hotReload name path version) .started next .raised
  | restored (name path version : String) (old : ModelAdapter) :
      Effect input adapter (.hotReload name path version) (.restoring old)
        (adapter.moved .active) .raised
  | retired {operation phase} : Effect input adapter operation phase adapter.retire .returned

section Acts

variable {input : Input} {operation : Operation} {phase later : Phase}
  {adapter next : ModelAdapter}

theorem effect_of_load {load : ModelAdapter × Begun} (begins : beginLoad adapter = load)
    (plain : Plain operation phase later) : Effect input adapter operation phase load.1 later := by
  subst begins
  rcases beginLoad_spec adapter with same | loading
  · rw [same]
    exact .idle rfl rfl plain
  · rw [loading]
    exact .left (by simp) (by simp) plain

theorem effect_of_unload (name : String) :
    Effect input adapter (.unload name) .started (beginUnload adapter).1
      (beginUnload adapter).2 := by
  unfold beginUnload
  split
  · exact .idle rfl rfl ⟨Or.inl rfl, by simp⟩
  · next state =>
      exact .left (by simp [ModelAdapter.moved_state, state, validTransitions])
        (by simp [ModelAdapter.moved_state, state, validTransitions]) ⟨Or.inl rfl, by simp⟩
  · next state =>
      exact .left (by simp [ModelAdapter.clear, ModelAdapter.moved_state, state, validTransitions])
        (by simp [ModelAdapter.clear, ModelAdapter.moved_state, state, validTransitions])
        ⟨Or.inl rfl, by simp⟩
  · exact .idle rfl rfl ⟨Or.inl rfl, by simp⟩

theorem plain_afterLoad (name path version : String) (old : ModelAdapter) (phase : Phase) :
    Plain (.hotReload name path version) phase (afterLoad old) := by
  unfold afterLoad
  split
  · exact ⟨Or.inl rfl, by simp⟩
  · exact ⟨Or.inl rfl, by simp⟩

theorem effect_of_act (took : act input operation phase adapter = some (next, later)) :
    Effect input adapter operation phase next later := by
  unfold act at took
  split at took
  · cases took
    exact .idle rfl rfl ⟨Or.inl rfl, by simp⟩
  · split at took
    · next _ begins =>
        cases took
        exact effect_of_load begins ⟨Or.inl rfl, by simp⟩
    · next _ begins =>
        cases took
        exact effect_of_load begins ⟨Or.inl rfl, by simp⟩
    · next _ begins =>
        cases took
        exact effect_of_load begins ⟨Or.inl rfl, by simp⟩
  · split at took
    · next succeeded =>
        cases took
        exact .committed _ (by simp [completes, succeeded, Operation.name])
          (ModelAdapter.commit_modelPath _ _ _) ModelAdapter.retiring_of_commit
          ⟨Or.inl rfl, by simp⟩
    · cases took
      exact .left (by simp [ModelAdapter.fail_state]) (by simp [ModelAdapter.fail_state])
        ⟨Or.inl rfl, by simp⟩
  · obtain ⟨rfl, rfl⟩ := Prod.mk.inj (Option.some.inj took)
    exact effect_of_unload _
  · split at took
    · next succeeded =>
        cases took
        exact .unloaded _ succeeded
    · cases took
      have state : (adapter.moved .error).state = .error := ModelAdapter.fail_state
      exact .left (by simp [state]) (by simp [state]) ⟨Or.inl rfl, by simp⟩
  · split at took
    · next fresh =>
        split at took
        · next succeeded =>
            cases took
            have settled : (beginLoad adapter).1.state = .retiring → adapter.state = .retiring :=
              retiring_of_beginLoad
            exact .committed _ (by simp [completes, succeeded, fresh, Operation.name])
              (ModelAdapter.commit_modelPath _ _ _)
              (fun retiring => settled (ModelAdapter.retiring_of_commit retiring))
              ⟨Or.inl rfl, by simp⟩
        · next failed =>
            cases took
            exact .failed _ _ _ fresh (by simpa using failed) ModelAdapter.fail_state
    · next loaded =>
        cases took
        exact .found _ _ _ loaded
  · split at took
    · next _ begins =>
        cases took
        exact effect_of_load begins (plain_afterLoad _ _ _ _ _)
    · next _ begins =>
        cases took
        exact effect_of_load begins ⟨Or.inr rfl, by simp⟩
    · next _ begins =>
        cases took
        exact effect_of_load begins ⟨Or.inr rfl, by simp⟩
  · split at took
    · next succeeded =>
        cases took
        exact .committed _ (by simp [completes, succeeded, Operation.name])
          (ModelAdapter.commit_modelPath _ _ _) ModelAdapter.retiring_of_commit
          (plain_afterLoad _ _ _ _ _)
    · cases took
      exact .left (by simp [ModelAdapter.fail_state]) (by simp [ModelAdapter.fail_state])
        ⟨Or.inr rfl, by simp⟩
  · cases took
    exact .restored _ _ _ _
  · split at took
    · split at took
      · cases took
        exact .retired
      · cases took
        exact .idle rfl rfl ⟨Or.inl rfl, by simp⟩
    · split at took
      · cases took
        exact .retired
      · cases took
        exact .idle rfl rfl ⟨Or.inl rfl, by simp⟩
  · cases took
    exact .idle rfl rfl ⟨Or.inl rfl, by simp⟩
  · cases took
    exact .idle rfl rfl ⟨Or.inl rfl, by simp⟩
  · cases took

theorem Effect.backed {loads : List (String × String)}
    (effect : Effect input adapter operation phase next later)
    (known : Backed loads operation.name adapter)
    (unloading : ∀ name, operation = .unload name → phase = .unloading → input.succeeded = true →
      adapter.state ≠ .active)
    (restoring : ∀ name path version old, operation = .hotReload name path version →
      phase = .restoring old → ∃ path, adapter.modelPath = some path ∧ (name, path) ∈ loads) :
    Backed (loads ++ (completes input operation phase (some adapter)).toList) operation.name
      next := by
  cases effect with
  | idle state path _ =>
      intro active
      obtain ⟨path', stored, member⟩ := known (state ▸ active)
      exact ⟨path', path.trans stored, List.mem_append_left _ member⟩
  | left inactive _ _ => exact fun active => absurd active inactive
  | committed path complete stored _ _ =>
      intro active
      exact ⟨path, stored, by simp [complete]⟩
  | unloaded name succeeded =>
      intro active
      have inactive := unloading name rfl rfl succeeded
      simp only [ModelAdapter.clear, ModelAdapter.retire_state] at active
      cases state : adapter.state <;> simp_all
  | found name path version loaded =>
      intro active
      rw [ModelAdapter.moved_state] at active
      split at active
      · cases active
      · obtain ⟨path', stored, member⟩ := known active
        exact ⟨path', by simpa using stored, List.mem_append_left _ member⟩
  | failed _ _ _ _ _ state =>
      intro active
      rw [state] at active
      cases active
  | restored name path version old =>
      intro active
      obtain ⟨path', stored, member⟩ := restoring name path version old rfl rfl
      exact ⟨path', by simpa using stored, List.mem_append_left _ member⟩
  | retired =>
      intro active
      rw [ModelAdapter.retire_state] at active
      have before : adapter.state = .active := by
        cases state : adapter.state <;> simp_all
      obtain ⟨path', stored, member⟩ := known before
      exact ⟨path', by simpa using stored, List.mem_append_left _ member⟩

theorem Effect.settled (effect : Effect input adapter operation phase next later)
    (settled : adapter.state ≠ .retiring) : next.state ≠ .retiring := by
  intro retiring
  apply settled
  cases effect with
  | idle state _ _ => rw [← state, retiring]
  | left _ unsettled _ => exact absurd retiring unsettled
  | committed _ _ _ kept _ => exact kept retiring
  | unloaded _ _ =>
      simp only [ModelAdapter.clear, ModelAdapter.retire_state] at retiring
      cases state : adapter.state <;> simp_all
  | found _ _ _ _ =>
      rw [ModelAdapter.moved_state] at retiring
      split at retiring
      · cases retiring
      · exact retiring
  | failed _ _ _ _ _ state =>
      rw [state] at retiring
      cases retiring
  | restored _ _ _ _ =>
      rw [ModelAdapter.moved_state] at retiring
      split at retiring
      · cases retiring
      · exact retiring
  | retired =>
      rw [ModelAdapter.retire_state] at retiring
      cases state : adapter.state <;> simp_all

theorem Effect.found_cases (effect : Effect input adapter operation phase next later)
    {old : ModelAdapter} (found : later.found? none = some old) :
    phase.found? none = some old ∨
      (phase = .started ∧ old = adapter ∧ adapter.state ≠ .unloaded) := by
  have plainly : Plain operation phase later → phase.found? none = some old := by
    intro plain
    rcases plain.found with forgotten | same
    · rw [forgotten] at found
      cases found
    · rw [← same, found]
  cases effect with
  | idle _ _ plain => exact Or.inl (plainly plain)
  | left _ _ plain => exact Or.inl (plainly plain)
  | committed _ _ _ _ plain => exact Or.inl (plainly plain)
  | unloaded _ _ => cases found
  | found _ _ _ loaded => exact Or.inr ⟨rfl, (Option.some.inj found).symm, loaded⟩
  | failed _ _ _ _ _ _ => cases found
  | restored _ _ _ _ => cases found
  | retired => cases found

theorem Effect.raised {name path version : String}
    (effect : Effect input adapter (.hotReload name path version) phase next .raised) :
    (phase = .started ∧ adapter.state = .unloaded ∧ input.succeeded = false ∧
        next.state = .error) ∨
      ∃ old, phase = .restoring old ∧ next = adapter.moved .active := by
  cases effect with
  | idle _ _ plain => exact absurd rfl (plain.raised rfl name path version)
  | left _ _ plain => exact absurd rfl (plain.raised rfl name path version)
  | committed _ _ _ _ plain => exact absurd rfl (plain.raised rfl name path version)
  | failed _ _ _ fresh unsuccessful state => exact Or.inl ⟨rfl, fresh, unsuccessful, state⟩
  | restored _ _ _ old => exact Or.inr ⟨old, rfl, rfl⟩

theorem reload_alone {name path version : String} (active : adapter.state = .active)
    (unsuccessful : input.succeeded = false) :
    ∃ drained swapped failed,
      act input (.hotReload name path version) .started adapter =
        some (drained, .reloading adapter) ∧
      act input (.hotReload name path version) (.reloading adapter) drained =
        some (swapped, .swapping adapter) ∧
      act input (.hotReload name path version) (.swapping adapter) swapped =
        some (failed, .restoring adapter) ∧
      failed.state = .error ∧ failed.modelPath = adapter.modelPath ∧
      failed.version = adapter.version := by
  have drained : adapter.moved .draining = { adapter with state := .draining } := by
    simp [ModelAdapter.moved, ModelAdapter.transitionTo, active, validTransitions]
  have swapped : beginLoad { adapter with state := .draining } =
      ({ adapter with state := .loading }, .begun) := by
    simp [beginLoad, ModelAdapter.transitionTo, validTransitions]
  refine ⟨{ adapter with state := .draining }, { adapter with state := .loading },
    { adapter with state := .loading }.fail, ?_, ?_, ?_, ModelAdapter.fail_state, ?_, ?_⟩
  · simp [act, active, drained]
  · simp [act, swapped]
  · simp [act, unsuccessful]
  · simp [ModelAdapter.fail]
  · simp [ModelAdapter.fail]

end Acts

/-! ## Turns -/

section Turns

variable {input : Input} {task later : Task} {before after : Observed}

theorem observe_some {adapter : ModelAdapter}
    (present : before.adapters.get? task.operation.name = some adapter)
    (took : observe input task before = some (after, later)) :
    ∃ next, Effect input adapter task.operation task.phase next later.phase ∧
      later.operation = task.operation ∧
      after.adapters = before.adapters.set task.operation.name next ∧
      after.loads = before.loads ++ (completes input task.operation task.phase
        (some adapter)).toList := by
  simp only [observe, turn, present, Option.map_map, Option.map_eq_some_iff] at took
  obtain ⟨⟨next, phase⟩, acted, pair⟩ := took
  obtain ⟨rfl, rfl⟩ := Prod.mk.inj pair
  exact ⟨next, effect_of_act acted, rfl, rfl, rfl⟩

theorem actMissing_cases {operation : Operation} {phase ended : Phase}
    {made : Option ModelAdapter} (acted : actMissing operation phase = some (made, ended)) :
    phase = .started ∧ ended.found? none = none ∧
      (made = none ∨ ∃ fresh, made = some fresh ∧ fresh.state = .unloaded ∧
        ∀ name path version, operation ≠ .hotReload name path version) := by
  unfold actMissing at acted
  split at acted
  · obtain ⟨rfl, rfl⟩ := Prod.mk.inj (Option.some.inj acted)
    exact ⟨rfl, rfl, Or.inr ⟨_, rfl, rfl, by simp⟩⟩
  · obtain ⟨rfl, rfl⟩ := Prod.mk.inj (Option.some.inj acted)
    exact ⟨rfl, rfl, Or.inl rfl⟩
  · obtain ⟨rfl, rfl⟩ := Prod.mk.inj (Option.some.inj acted)
    exact ⟨rfl, rfl, Or.inl rfl⟩
  · obtain ⟨rfl, rfl⟩ := Prod.mk.inj (Option.some.inj acted)
    exact ⟨rfl, rfl, Or.inl rfl⟩
  · cases acted

theorem completes_of_none (operation : Operation) :
    completes input operation .started none = none := by
  cases operation <;> simp [completes]

theorem observe_none (absent : before.adapters.get? task.operation.name = none)
    (took : observe input task before = some (after, later)) :
    task.phase = .started ∧ later.operation = task.operation ∧
      later.phase.found? none = none ∧ after.loads = before.loads ∧
      (after.adapters = before.adapters ∨ ∃ made : ModelAdapter,
        made.state = .unloaded ∧ after.adapters = before.adapters.set task.operation.name made ∧
        ∀ name path version, task.operation ≠ .hotReload name path version) := by
  simp only [observe, turn, absent, Option.map_map, Option.map_eq_some_iff] at took
  obtain ⟨⟨made, phase⟩, acted, pair⟩ := took
  obtain ⟨rfl, rfl⟩ := Prod.mk.inj pair
  obtain ⟨started, forgotten, nothing | ⟨fresh, some_made, unloaded, other⟩⟩ :=
    actMissing_cases acted
  · subst nothing
    exact ⟨started, rfl, forgotten, by simp [started, completes_of_none], Or.inl rfl⟩
  · subst some_made
    exact ⟨started, rfl, forgotten, by simp [started, completes_of_none],
      Or.inr ⟨fresh, unloaded, rfl, other⟩⟩

theorem loads_grow (took : observe input task before = some (after, later)) :
    ∀ load ∈ before.loads, load ∈ after.loads := by
  intro load member
  cases present : before.adapters.get? task.operation.name with
  | none =>
      obtain ⟨-, -, -, loads, -⟩ := observe_none present took
      rw [loads]
      exact member
  | some adapter =>
      obtain ⟨-, -, -, -, loads⟩ := observe_some present took
      rw [loads]
      exact List.mem_append_left _ member

theorem Backed.mono {first second : List (String × String)} {name : String}
    {adapter : ModelAdapter} (grow : ∀ load ∈ first, load ∈ second)
    (known : Backed first name adapter) : Backed second name adapter := by
  intro active
  obtain ⟨path, stored, member⟩ := known active
  exact ⟨path, stored, grow _ member⟩

/-- What a turn has to meet for the adapters to stay truthful. -/
structure Careful (input : Input) (task : Task) (before : Observed) : Prop where
  unloading : ∀ name adapter, task = ⟨.unload name, .unloading⟩ → input.succeeded = true →
    before.adapters.get? name = some adapter → adapter.state ≠ .active
  restoring : ∀ name path version old adapter,
    task = ⟨.hotReload name path version, .restoring old⟩ →
    before.adapters.get? name = some adapter →
    ∃ path, adapter.modelPath = some path ∧ (name, path) ∈ before.loads

theorem truthful_observe (took : observe input task before = some (after, later))
    (truthful : Truthful before) (careful : Careful input task before) : Truthful after := by
  intro name adapter held
  cases present : before.adapters.get? task.operation.name with
  | none =>
      obtain ⟨-, -, -, loads, same | ⟨made, unloaded, adapters, -⟩⟩ := observe_none present took
      · rw [same] at held
        exact (truthful name adapter held).mono (loads_grow took)
      · rw [adapters, Dict.get?_set] at held
        split at held
        · obtain rfl := Option.some.inj held
          intro active
          rw [unloaded] at active
          cases active
        · exact (truthful name adapter held).mono (loads_grow took)
  | some old =>
      obtain ⟨next, effect, -, adapters, loads⟩ := observe_some present took
      rw [adapters, Dict.get?_set] at held
      split at held
      · next same =>
          obtain rfl := Option.some.inj held
          subst same
          obtain ⟨operation, phase⟩ := task
          rw [loads]
          apply effect.backed (truthful _ _ present)
          · intro name given also succeeded
            rcases given with rfl
            rcases also with rfl
            exact careful.unloading name old rfl succeeded present
          · intro name path version found given also
            rcases given with rfl
            rcases also with rfl
            exact careful.restoring name path version found old rfl present
      · exact (truthful name adapter held).mono (loads_grow took)

theorem settled_observe (took : observe input task before = some (after, later))
    (settled : ∀ name adapter, before.adapters.get? name = some adapter →
      adapter.state ≠ .retiring) {name : String} {adapter : ModelAdapter}
    (held : after.adapters.get? name = some adapter) : adapter.state ≠ .retiring := by
  cases present : before.adapters.get? task.operation.name with
  | none =>
      obtain ⟨-, -, -, -, same | ⟨made, unloaded, adapters, -⟩⟩ := observe_none present took
      · rw [same] at held
        exact settled name adapter held
      · rw [adapters, Dict.get?_set] at held
        split at held
        · obtain rfl := Option.some.inj held
          simp [unloaded]
        · exact settled name adapter held
  | some old =>
      obtain ⟨next, effect, -, adapters, -⟩ := observe_some present took
      rw [adapters, Dict.get?_set] at held
      split at held
      · obtain rfl := Option.some.inj held
        exact effect.settled (settled _ old present)
      · exact settled name adapter held

theorem found_observe (took : observe input task before = some (after, later))
    {old : ModelAdapter} (found : later.phase.found? none = some old) :
    task.phase.found? none = some old ∨ (task.phase = .started ∧
      before.adapters.get? task.operation.name = some old ∧ old.state ≠ .unloaded) := by
  cases present : before.adapters.get? task.operation.name with
  | none =>
      obtain ⟨-, -, forgotten, -⟩ := observe_none present took
      rw [forgotten] at found
      cases found
  | some adapter =>
      obtain ⟨next, effect, -⟩ := observe_some present took
      rcases effect.found_cases found with known | ⟨started, rfl, loaded⟩
      · exact Or.inl known
      · exact Or.inr ⟨started, rfl, loaded⟩

theorem operation_observe (took : observe input task before = some (after, later)) :
    later.operation = task.operation := by
  cases present : before.adapters.get? task.operation.name with
  | none => exact (observe_none present took).2.1
  | some adapter =>
      obtain ⟨-, -, same, -⟩ := observe_some present took
      exact same

end Turns

/-! ## Every interleaving -/

section Steps

variable {pool next : Pool Observed Task}

theorem sound_spawn (sound : Sound pool) (operation : Operation) :
    Sound ⟨pool.shared, pool.tasks ++ [⟨operation, .started⟩]⟩ where
  truthful := sound.truthful
  settled := sound.settled
  found := by
    intro index task old held found
    rcases tasks_spawned held with before | ⟨-, rfl⟩
    · exact sound.found index task old before found
    · cases found

theorem careful_of_orderly (sound : Sound pool) {index : Nat} {input : Input} {task : Task}
    (held : pool.tasks[index]? = some task)
    (orderly : Orderly ⟨pool, .advance index input, next⟩) : Careful input task pool.shared where
  unloading := by
    intro name adapter given succeeded present
    rcases given with rfl
    exact orderly.unloading index input name adapter ⟨rfl, held⟩ succeeded present
  restoring := by
    intro name path version old adapter given present
    rcases given with rfl
    obtain ⟨active, -, path', -⟩ :=
      orderly.restoring index input name path version old adapter ⟨rfl, held⟩ present
    rw [path']
    exact (sound.found index _ old held rfl).1 active

theorem sound_step (sound : Sound pool) {move : Move Operation Input}
    (stepped : step pool move = some next) (orderly : Orderly ⟨pool, move, next⟩) :
    Sound next := by
  cases move with
  | spawn operation =>
      rw [interleave_spawn stepped]
      exact sound_spawn sound operation
  | advance index input =>
      obtain ⟨task, shared, later, held, took, rfl⟩ := interleave_advance stepped
      have careful := careful_of_orderly sound held orderly
      exact {
        truthful := truthful_observe took sound.truthful careful
        settled := fun name adapter present => settled_observe took sound.settled present
        found := by
          intro other waiting old present found
          rcases tasks_advanced present with ⟨-, rfl⟩ | ⟨-, before⟩
          · rw [operation_observe took]
            rcases found_observe took found with known | ⟨-, registered, loaded⟩
            · obtain ⟨backed, states⟩ := sound.found index task old held known
              exact ⟨backed.mono (loads_grow took), states⟩
            · exact ⟨(sound.truthful _ _ registered).mono (loads_grow took), loaded,
                sound.settled _ _ registered⟩
          · obtain ⟨backed, states⟩ := sound.found other waiting old before found
            exact ⟨backed.mono (loads_grow took), states⟩ }

theorem truthful_and_restores_of_orderly (sound : Sound pool) {move : Move Operation Input}
    (stepped : step pool move = some next) (orderly : Orderly ⟨pool, move, next⟩) :
    Truthful next.shared ∧ Restores ⟨pool, move, next⟩ := by
  refine ⟨(sound_step sound stepped orderly).truthful, ?_⟩
  intro index input name path version phase advances ended
  obtain rfl : move = .advance index input := advances.taken
  obtain ⟨task, shared, later, held, took, rfl⟩ := interleave_advance stepped
  obtain rfl : task = ⟨.hotReload name path version, phase⟩ :=
    Option.some.inj (held.symm.trans advances.held)
  have inside : index < pool.tasks.length := (List.getElem?_eq_some_iff.mp held).1
  obtain rfl : later = ⟨.hotReload name path version, .raised⟩ := by
    simpa [inside] using ended
  cases present : pool.shared.adapters.get? name with
  | none =>
      obtain ⟨started, -, -, -, same | ⟨-, -, -, other⟩⟩ := observe_none present took
      · obtain rfl : phase = .started := started
        simp [same, present, Phase.found?]
      · exact absurd rfl (other name path version)
  | some adapter =>
      obtain ⟨after, effect, -, adapters, -⟩ := observe_some present took
      rcases effect.raised with ⟨rfl, fresh, failed, -⟩ | ⟨old, rfl, rfl⟩
      · have succeeded := orderly.fresh index input name path version adapter advances present fresh
        rw [failed] at succeeded
        cases succeeded
      · obtain ⟨active, loaded, path', version'⟩ :=
          orderly.restoring index input name path version old adapter advances present
        have unsettled := sound.settled name adapter present
        have restored : (adapter.moved .active).state = .active := by
          rw [ModelAdapter.moved_state]
          cases state : adapter.state <;> simp_all [validTransitions]
        have stored : shared.adapters.get? name = some (adapter.moved .active) := by
          rw [adapters]
          exact Dict.get?_set_self _ _ _
        simp [stored, Phase.found?, visible, restored, active, path', version']

theorem step_of_act {index : Nat} {input : Input} {task : Task} {adapter changed : ModelAdapter}
    {phase : Phase} (stepped : step pool (.advance index input) = some next)
    (held : pool.tasks[index]? = some task)
    (present : pool.shared.adapters.get? task.operation.name = some adapter)
    (acted : act input task.operation task.phase adapter = some (changed, phase)) :
    next.shared.adapters.get? task.operation.name = some changed ∧
      next.tasks[index]? = some { task with phase } := by
  have inside : index < pool.tasks.length := (List.getElem?_eq_some_iff.mp held).1
  obtain ⟨turning, shared, later, found, took, rfl⟩ := interleave_advance stepped
  obtain rfl : turning = task := Option.some.inj (found.symm.trans held)
  simp only [observe, turn, present, acted, Option.map_some] at took
  cases took
  exact ⟨Dict.get?_set_self _ _ _, by simp [inside]⟩

theorem orderly_of_truthful_and_restores (sound : Sound pool) {move : Move Operation Input}
    (stepped : step pool move = some next) (truthful : Truthful next.shared)
    (restores : Restores ⟨pool, move, next⟩) : Orderly ⟨pool, move, next⟩ where
  unloading := by
    intro index input name adapter advances succeeded present active
    obtain rfl : move = .advance index input := advances.taken
    have acted : act input (.unload name) .unloading adapter =
        some (adapter.retire.clear, .returned) := by
      simp [act, succeeded]
    obtain ⟨cleared, -⟩ := step_of_act stepped advances.held present acted
    have still : adapter.retire.clear.state = .active := by
      simp [ModelAdapter.clear, ModelAdapter.retire_state, active]
    obtain ⟨path, stored, -⟩ := truthful name _ cleared still
    cases stored
  fresh := by
    intro index input name path version adapter advances present fresh
    obtain rfl : move = .advance index input := advances.taken
    by_contra unsuccessful
    have acted : act input (.hotReload name path version) .started adapter =
        some ((beginLoad adapter).1.fail, .raised) := by
      simp [act, fresh, unsuccessful]
    obtain ⟨changed, ended⟩ := step_of_act stepped advances.held present acted
    have same := restores index input name path version _ advances ended
    change next.shared.adapters.get? name = _ at changed
    change (next.shared.adapters.get? name).map visible =
      (pool.shared.adapters.get? name).map visible at same
    rw [changed, show pool.shared.adapters.get? name = some adapter from present] at same
    simp [visible, ModelAdapter.fail_state, fresh] at same
  restoring := by
    intro index input name path version old adapter advances present
    obtain rfl : move = .advance index input := advances.taken
    have acted : act input (.hotReload name path version) (.restoring old) adapter =
        some (adapter.moved .active, .raised) := rfl
    obtain ⟨changed, ended⟩ := step_of_act stepped advances.held present acted
    have same := restores index input name path version _ advances ended
    change next.shared.adapters.get? name = _ at changed
    change (next.shared.adapters.get? name).map visible = (some old).map visible at same
    rw [changed] at same
    obtain ⟨state, path', version'⟩ : (adapter.moved .active).state = old.state ∧
        adapter.modelPath = old.modelPath ∧ adapter.version = old.version := by
      simpa [visible] using same
    obtain ⟨-, loaded, unsettled⟩ := sound.found index _ old advances.held rfl
    have settled := sound.settled name adapter present
    rw [ModelAdapter.moved_state] at state
    refine ⟨?_, ?_, path', version'⟩
    · cases now : adapter.state <;> simp_all [validTransitions]
    · intro unloaded
      rw [unloaded] at state
      exact loaded (by simpa [validTransitions] using state.symm)

end Steps

theorem sound_empty : Sound ⟨{}, []⟩ where
  truthful := by
    intro name adapter present
    cases present
  settled := by
    intro name adapter present
    cases present
  found := by
    intro index task old held
    simp at held

/-- What a reload under way calls its old adapter stood there when it started. -/
def FoundAtStart (events : List Taken) (pool : Pool Observed Task) : Prop :=
  ∀ (index : Nat) (task : Task) old, pool.tasks[index]? = some task →
    task.phase.found? none = some old →
    ∃ event ∈ events, ∃ input, event.Advances index input ⟨task.operation, .started⟩ ∧
      event.before.shared.adapters.get? task.operation.name = some old

theorem foundAtStart_of_run {events : List Taken} {last : Pool Observed Task}
    (run : Run step ⟨{}, []⟩ events last) : FoundAtStart events last := by
  refine Run.history_induction (fun _ => True) FoundAtStart ?_ ?_ run (fun _ _ => trivial)
  · intro index task old held
    simp at held
  · intro events pool move next _ known stepped _ index task old held found
    have earlier : ∀ {index : Nat} {task : Task}, pool.tasks[index]? = some task →
        task.phase.found? none = some old →
        ∃ event ∈ events ++ [⟨pool, move, next⟩], ∃ input,
          Taken.Advances event index input ⟨task.operation, .started⟩ ∧
          event.before.shared.adapters.get? task.operation.name = some old := by
      intro index task held found
      obtain ⟨event, member, rest⟩ := known index task old held found
      exact ⟨event, List.mem_append_left _ member, rest⟩
    cases move with
    | spawn operation =>
        rw [interleave_spawn stepped] at held
        rcases tasks_spawned held with before | ⟨-, rfl⟩
        · exact earlier before found
        · cases found
    | advance turned input =>
        obtain ⟨turning, shared, later, had, took, rfl⟩ := interleave_advance stepped
        rcases tasks_advanced held with ⟨rfl, rfl⟩ | ⟨-, before⟩
        · rw [operation_observe took]
          rcases found_observe took found with carried | ⟨started, present, -⟩
          · exact earlier had carried
          · refine ⟨_, List.mem_append_right _ (List.mem_singleton_self _), input,
              ⟨rfl, ?_⟩, present⟩
            rw [← started]
            exact had
        · exact earlier before found

/-- In every interleaving of calls the active adapters have loaded paths and failed reloads change
nothing exactly if the operations on one adapter meet each other in good order. -/
theorem adapter_truth_iff {events : List Taken} {last : Pool Observed Task}
    (run : Run step ⟨{}, []⟩ events last) :
    (∀ first (event : Taken) rest, events = first ++ event :: rest →
        FoundAtStart first event.before) ∧
      ((∀ event ∈ events, Truthful event.after.shared ∧ Restores event) ↔
        ∀ event ∈ events, Orderly event) := by
  constructor
  · intro first event rest given
    rcases given with rfl
    exact foundAtStart_of_run run.split.1
  · exact Run.forall_event_iff Sound (fun event => Truthful event.after.shared ∧ Restores event)
      Orderly sound_empty
      (fun _ _ _ sound stepped => by
        constructor
        · intro both
          exact orderly_of_truthful_and_restores sound stepped both.1 both.2
        · exact truthful_and_restores_of_orderly sound stepped)
      (fun _ _ _ sound stepped orderly => sound_step sound stepped orderly) run

def recorded (moves : List (Move Operation Input)) : List Taken :=
  (record step ⟨{}, []⟩ moves).getD []

theorem recorded_run {moves : List (Move Operation Input)}
    (taken : (record step ⟨{}, []⟩ moves).isSome = true) :
    Run step ⟨{}, []⟩ (recorded moves) (final ⟨{}, []⟩ (recorded moves)) :=
  run_of_isSome taken

def loaded : List (Move Operation Input) :=
  [.spawn (.register "slm" "base" "lora" ""), .advance 0 {}, .spawn (.load "slm" "/v3" "v3"),
    .advance 1 {}, .advance 1 {}]

def failedReload : List (Move Operation Input) :=
  loaded ++ ([.spawn (.hotReload "slm" "/v4" "v4"), .advance 2 {}, .advance 2 {},
    .advance 2 { succeeded := false }, .advance 2 {}] : List (Move Operation Input))

theorem adapter_truth_failed_reload :
    let events := recorded failedReload
    (∀ first (event : Taken) rest, events = first ++ event :: rest →
        FoundAtStart first event.before) ∧
      ((∀ event ∈ events, Truthful event.after.shared ∧ Restores event) ↔
        ∀ event ∈ events, Orderly event) :=
  adapter_truth_iff (recorded_run (by decide +kernel))

def neverLoaded : List (Move Operation Input) :=
  [.spawn (.register "slm" "base" "lora" ""), .advance 0 {},
    .spawn (.hotReload "slm" "/v4" "v4"), .advance 1 { succeeded := false },
    .spawn (.hotReload "slm" "/v4" "v4"), .advance 2 {}, .advance 2 {},
    .advance 2 { succeeded := false }, .advance 2 {}]

def unloadedMeanwhile : List (Move Operation Input) :=
  loaded ++ ([.spawn (.unload "slm"), .spawn (.load "slm" "/v4" "v4"), .advance 2 {},
    .advance 3 {}, .advance 3 {}, .advance 2 {}] : List (Move Operation Input))

theorem not_truthful_of_pathless {observed : Observed} (name : String) (adapter : ModelAdapter)
    (present : observed.adapters.get? name = some adapter) (active : adapter.state = .active)
    (pathless : adapter.modelPath = none) : ¬ Truthful observed := by
  intro truthful
  obtain ⟨path, stored, -⟩ := truthful name adapter present active
  rw [pathless] at stored
  cases stored

/-- Both leave an active adapter without a path. -/
theorem active_without_path :
    (∃ last, Run step ⟨{}, []⟩ (recorded neverLoaded) last ∧ ¬ Truthful last.shared) ∧
      ∃ last, Run step ⟨{}, []⟩ (recorded unloadedMeanwhile) last ∧ ¬ Truthful last.shared := by
  constructor
  · refine ⟨_, recorded_run (by decide +kernel), ?_⟩
    exact not_truthful_of_pathless "slm" { name := "slm", state := .active, errorCount := 2 }
      (by decide +kernel) rfl rfl
  · refine ⟨_, recorded_run (by decide +kernel), ?_⟩
    exact not_truthful_of_pathless "slm" { name := "slm", state := .active, version := "v4" }
      (by decide +kernel) rfl rfl

end RagSystem.AdapterManager
