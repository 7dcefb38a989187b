import RagSystem.Data.Timeline
import RagSystem.ModelEvolution.ModelRegistry
import RagSystem.Transition.Run

/-! The promotion history of the models in the registry, and the rollbacks that are meant to walk
it back. -/

namespace RagSystem.ModelRegistry

open Transition

structure Tracked where
  registry : Registry := ∅
  history : String → Timeline String := fun _ => {}

/-- A version enters the history where it goes from canary into production, leaves it where it is
deleted, and a rollback goes one step back. -/
def advance (op : Op) (registry : Registry) (model : String) (line : Timeline String) :
    Timeline String :=
  match op with
  | .promote name version =>
      if name = model ∧
          ((versionsOf registry name).find? version).map (·.status) = some .canary then
        line.push version
      else line
  | .rollback name => if name = model then line.back else line
  | .delete name version => if name = model then line.forget version else line
  | .register .. => line
  | .updateMetrics .. => line

def step (tracked : Tracked) (op : Op) : Option Tracked :=
  some {
    registry := (perform op tracked.registry).2
    history := fun model => advance op tracked.registry model (tracked.history model) }

/-- `version` has the highest number of the archived versions, and was registered before the
others that have it. -/
def HighestArchived (versions : Versions) (version : String) : Prop :=
  ∃ mv ∈ archivedOf versions, mv.version = version ∧
    (∀ other ∈ archivedOf versions, number other ≤ number mv) ∧
    ∀ other ∈ archivedOf versions, number mv ≤ number other →
      (archivedOf versions).idxOf mv ≤ (archivedOf versions).idxOf other

/-- A model whose promotion history is `line`. -/
structure Matches (versions : Versions) (line : Timeline String) : Prop where
  current : ∀ mv ∈ versions.list, mv.status = .production ↔ line.current = some mv.version
  known : ∀ version, line.current = some version → ∃ mv ∈ versions.list, mv.version = version
  earlier : ∀ version ∈ line.earlier,
    ∃ mv ∈ versions.list, mv.version = version ∧ mv.status = .archived
  distinct : line.earlier.Nodup

namespace Matches

variable {versions : Versions} {line : Timeline String}

theorem add (matched : Matches versions line) {mv : ModelVersion}
    (fresh : versions.find? mv.version = none) (staging : mv.status = .staging) :
    Matches (versions.add mv fresh) line where
  current := by
    intro other member
    rcases List.mem_append.mp member with old | new
    · exact matched.current other old
    · obtain rfl := List.mem_singleton.mp new
      constructor
      · intro inUse
        rw [staging] at inUse
        cases inUse
      · intro current
        obtain ⟨old, known, same⟩ := matched.known _ current
        exact absurd same (find?_eq_none_iff.mp fresh old known)
  known := by
    intro version current
    obtain ⟨old, known, same⟩ := matched.known version current
    exact ⟨old, List.mem_append_left _ known, same⟩
  earlier := by
    intro version past
    obtain ⟨old, known, same⟩ := matched.earlier version past
    exact ⟨old, List.mem_append_left _ known, same⟩
  distinct := matched.distinct

theorem setMetrics (matched : Matches versions line) (version : String)
    (metrics : Dict String ℚ) : Matches (versions.setMetrics version metrics) line := by
  have image : ∀ mv ∈ versions.list, ∃ other ∈ (versions.setMetrics version metrics).list,
      other.version = mv.version ∧ other.status = mv.status := by
    intro mv member
    refine ⟨_, List.mem_map_of_mem member, ?_⟩
    split <;> exact ⟨rfl, rfl⟩
  refine ⟨?_, ?_, ?_, matched.distinct⟩
  · intro mv member
    obtain ⟨old, known, rfl⟩ := List.mem_map.mp member
    have before := matched.current old known
    split <;> exact before
  · intro current inUse
    obtain ⟨old, known, same⟩ := matched.known current inUse
    obtain ⟨mv, member, equal, -⟩ := image old known
    exact ⟨mv, member, equal.trans same⟩
  · intro past inside
    obtain ⟨old, known, same, archived⟩ := matched.earlier past inside
    obtain ⟨mv, member, equal, stage⟩ := image old known
    exact ⟨mv, member, equal.trans same, stage.trans archived⟩

theorem remove (matched : Matches versions line) (version : String) :
    Matches (versions.remove version) (line.forget version) where
  current := by
    intro mv member
    obtain ⟨known, other⟩ := List.mem_filter.mp member
    rw [matched.current mv known]
    simp only [Timeline.forget, Option.filter_eq_some_iff]
    simp_all
  known := by
    intro current inUse
    simp only [Timeline.forget, Option.filter_eq_some_iff] at inUse
    obtain ⟨mv, known, same⟩ := matched.known current inUse.1
    exact ⟨mv, List.mem_filter.mpr ⟨known, by simpa [same] using inUse.2⟩, same⟩
  earlier := by
    intro past inside
    obtain ⟨before, other⟩ := List.mem_filter.mp inside
    obtain ⟨mv, known, same, archived⟩ := matched.earlier past before
    exact ⟨mv, List.mem_filter.mpr ⟨known, by simpa [same] using other⟩, same, archived⟩
  distinct := matched.distinct.filter _

theorem of_restage {stage : ModelVersion → Status}
    (current : ∀ mv ∈ versions.list, stage mv = .production ↔ line.current = some mv.version)
    (known : ∀ version, line.current = some version → ∃ mv ∈ versions.list, mv.version = version)
    (earlier : ∀ version ∈ line.earlier,
      ∃ mv ∈ versions.list, mv.version = version ∧ stage mv = .archived)
    (distinct : line.earlier.Nodup) : Matches (versions.restage stage) line := by
  refine ⟨?_, ?_, ?_, distinct⟩
  · intro mv member
    obtain ⟨old, before, rfl⟩ := mem_restage.mp member
    exact current old before
  · intro version inUse
    obtain ⟨old, before, same⟩ := known version inUse
    exact ⟨_, mem_restage.mpr ⟨old, before, rfl⟩, same⟩
  · intro version past
    obtain ⟨old, before, same, archived⟩ := earlier version past
    exact ⟨_, mem_restage.mpr ⟨old, before, rfl⟩, same, archived⟩

theorem current_not_mem (matched : Matches versions line) {version : String}
    (current : line.current = some version) : version ∉ line.earlier := by
  intro past
  obtain ⟨mv, known, rfl, archived⟩ := matched.earlier version past
  have inUse := (matched.current mv known).mpr current
  rw [archived] at inUse
  cases inUse

theorem setCanary (matched : Matches versions line) {mv : ModelVersion}
    (known : mv ∈ versions.list) (staging : mv.status = .staging) :
    Matches (setStatus mv.version .canary versions) line := by
  refine of_restage ?_ matched.known ?_ matched.distinct
  · intro other member
    split
    · next same =>
        obtain rfl := eq_of_version member known same
        have before := matched.current other member
        simpa [staging] using before
    · exact matched.current other member
  · intro version past
    obtain ⟨old, before, same, archived⟩ := matched.earlier version past
    refine ⟨old, before, same, ?_⟩
    split
    · next equal =>
        rw [eq_of_version before known equal, staging] at archived
        cases archived
    · exact archived

theorem setProduction (matched : Matches versions line) {mv : ModelVersion}
    (known : mv ∈ versions.list) (canary : mv.status = .canary) :
    Matches (setStatus mv.version .production (archivePreviousProduction mv.version versions))
      (line.push mv.version) := by
  have differs : ∀ other ∈ versions.list, other.status ≠ .canary → other.version ≠ mv.version := by
    intro other member stage same
    rw [eq_of_version member known same] at stage
    exact stage canary
  have leaves : Matches (archivePreviousProduction mv.version versions)
      ⟨none, line.current.toList ++ line.earlier⟩ := by
    refine of_restage ?_ (by simp) ?_ ?_
    · intro other member
      by_cases inUse : other.status = .production
      · simp [inUse, differs other member (by simp [inUse])]
      · simp [inUse]
    · intro version past
      rcases List.mem_append.mp past with current | earlier
      · rw [Option.mem_toList] at current
        obtain ⟨old, before, rfl⟩ := matched.known version current
        have inUse := (matched.current old before).mpr current
        exact ⟨old, before, rfl, by simp [inUse, differs old before (by simp [inUse])]⟩
      · obtain ⟨old, before, same, archived⟩ := matched.earlier version earlier
        exact ⟨old, before, same, by simp [archived]⟩
    · cases current : line.current with
      | none => simpa using matched.distinct
      | some version => simpa using ⟨matched.current_not_mem current, matched.distinct⟩
  have stored : ∃ there ∈ (archivePreviousProduction mv.version versions).list,
      there.version = mv.version ∧ there.status = .canary :=
    ⟨_, mem_restage.mpr ⟨mv, known, rfl⟩, rfl, by simp [canary]⟩
  obtain ⟨there, member, same, still⟩ := stored
  refine of_restage ?_ ?_ ?_ leaves.distinct
  · intro other inside
    have unused := leaves.current other inside
    by_cases equal : other.version = mv.version
    · simp [Timeline.push, equal]
    · have apart : mv.version ≠ other.version := fun reverse => equal reverse.symm
      simp_all [Timeline.push]
  · intro version current
    obtain rfl : mv.version = version := by simpa [Timeline.push] using current
    exact ⟨there, member, same⟩
  · intro version past
    obtain ⟨old, before, equal, archived⟩ := leaves.earlier version past
    refine ⟨old, before, equal, ?_⟩
    split
    · next alike =>
        rw [eq_of_version before member (alike.trans same.symm), still] at archived
        cases archived
    · exact archived

theorem rolledBack (matched : Matches versions line) {current previous : ModelVersion}
    (known : current ∈ versions.list) (inUse : current.status = .production)
    (other : previous ∈ versions.list) {rest : List String} (left : rest ⊆ line.earlier)
    (distinct : (previous.version :: rest).Nodup) :
    Matches (setStatus previous.version .production (setStatus current.version .archived versions))
      ⟨some previous.version, rest⟩ := by
  have leaves : Matches (setStatus current.version .archived versions) ⟨none, rest⟩ := by
    refine of_restage ?_ (by simp) ?_ (List.nodup_cons.mp distinct).2
    · intro mv member
      split
      · simp
      · next differs =>
          have only := (matched.current current known).mp inUse
          have unused := matched.current mv member
          rw [only] at unused
          have apart : current.version ≠ mv.version := fun reverse => differs reverse.symm
          simpa [apart] using unused
    · intro version past
      obtain ⟨old, before, same, archived⟩ := matched.earlier version (left past)
      exact ⟨old, before, same, by simp [archived]⟩
  refine of_restage ?_ ?_ ?_ leaves.distinct
  · intro mv member
    have unused := leaves.current mv member
    by_cases equal : mv.version = previous.version
    · simp [equal]
    · have apart : previous.version ≠ mv.version := fun reverse => equal reverse.symm
      simp_all
  · intro version current
    obtain rfl : previous.version = version := by simpa using current
    exact ⟨_, mem_restage.mpr ⟨previous, other, rfl⟩, rfl⟩
  · intro version past
    obtain ⟨old, before, equal, archived⟩ := leaves.earlier version past
    refine ⟨old, before, equal, ?_⟩
    split
    · next alike =>
        have fresh := (List.nodup_cons.mp distinct).1
        rw [← alike, equal] at fresh
        exact absurd past fresh
    · exact archived

theorem inProduction_eq (matched : Matches versions line) :
    inProduction versions = line.current.toList := by
  cases current : line.current with
  | none =>
      have unused : ∀ mv ∈ versions.list, mv.status ≠ .production := by
        intro mv member
        rw [ne_eq, matched.current mv member, current]
        simp
      simpa [inProduction, List.filter_eq_nil_iff] using unused
  | some version =>
      obtain ⟨mv, known, rfl⟩ := matched.known version current
      have only : versions.list.filter (fun other => other.status = .production) =
          versions.list.filter (· == mv) := by
        apply List.filter_congr
        intro other member
        have before := matched.current other member
        rw [current, Option.some.injEq] at before
        have equal : other.status = .production ↔ other = mv :=
          before.trans ⟨fun same => eq_of_version member known same.symm, fun same => by rw [same]⟩
        simp [equal, beq_eq_decide]
      have once : versions.list.count mv = 1 :=
        List.count_eq_one_of_mem (List.Nodup.of_map _ versions.distinct) known
      simp [inProduction, only, List.filter_beq, once]

theorem promoted (matched : Matches versions line) (version : String) :
    Matches (promoted version versions)
      (if (versions.find? version).map (·.status) = some .canary then line.push version
        else line) := by
  unfold ModelRegistry.promoted
  cases found : versions.find? version with
  | none => simpa using matched
  | some mv =>
      obtain ⟨known, rfl⟩ := find?_eq_some_iff.mp found
      cases stage : mv.status with
      | staging => simpa [stage] using matched.setCanary known stage
      | canary => simpa [stage] using matched.setProduction known stage
      | production => simpa [stage] using matched
      | archived => simpa [stage] using matched

end Matches

theorem Matches.perform {registry : Registry} {model : String} {line : Timeline String}
    (matched : Matches (versionsOf registry model) line) (op : Op)
    (other : op ≠ .rollback model) :
    Matches (versionsOf (perform op registry).2 model) (advance op registry model line) := by
  cases op with
  | register name artifactPath metrics version now =>
      rcases versionsOf_register registry name artifactPath model now metrics version with
        same | ⟨mv, fresh, staging, stored⟩
      · rw [same]
        exact matched
      · rw [stored]
        exact matched.add fresh staging
  | promote name version =>
      rw [versionsOf_promote, advance]
      by_cases same : model = name
      · subst same
        simpa using matched.promoted version
      · have apart : name ≠ model := fun reverse => same reverse.symm
        simpa [same, apart] using matched
  | rollback name =>
      have apart : name ≠ model := fun equal => other (by rw [equal])
      have differs : model ≠ name := fun reverse => apart reverse.symm
      rcases rollback_cases registry name with ⟨⟨_, raised⟩, -⟩ | ⟨_, _, -, -, -, -, replied⟩
      · simpa [raised, advance, apart] using matched
      · simpa [replied, advance, apart, versionsOf_set, differs] using matched
  | updateMetrics name version metrics =>
      rcases versionsOf_updateMetrics registry name version model metrics with same | stored
      · rw [same]
        exact matched
      · rw [stored]
        exact matched.setMetrics version metrics
  | delete name version =>
      rw [versionsOf_delete, advance]
      by_cases same : model = name
      · subst same
        simpa using matched.remove version
      · have apart : name ≠ model := fun reverse => same reverse.symm
        simpa [same, apart] using matched

def AtMostOne (registry : Registry) (model : String) : Prop :=
  (inProduction (versionsOf registry model)).length ≤ 1

theorem exists_matches_perform {registry : Registry}
    (before : ∀ model, ∃ line, Matches (versionsOf registry model) line) (op : Op)
    (model : String) : ∃ line, Matches (versionsOf (perform op registry).2 model) line := by
  obtain ⟨line, matched⟩ := before model
  by_cases rolling : op = .rollback model
  · subst rolling
    rcases rollback_cases registry model with
      ⟨⟨_, raised⟩, -⟩ | ⟨current, previous, -, known, inUse, highest, replied⟩
    · rw [raised]
      exact ⟨line, matched⟩
    · have other := (List.mem_filter.mp (List.argmax_mem highest)).1
      have rolled := matched.rolledBack known inUse other (List.nil_subset _)
        (List.nodup_singleton _)
      rw [replied, versionsOf_set, if_pos rfl]
      exact ⟨_, rolled⟩
  · exact ⟨_, matched.perform op rolling⟩

/-- The rollback puts into production what the promotion history has before the current version;
where it has nothing, it raises. -/
def Restores (event : Event Tracked Op) : Prop :=
  ∀ model, event.action = .rollback model →
    match (event.before.history model).path[1]? with
    | some version =>
        (∃ mv, (perform event.action event.before.registry).1 = .ok (some mv) ∧
          mv.version = version) ∧
        inProduction (versionsOf event.after.registry model) = [version]
    | none =>
        (∃ error, (perform event.action event.before.registry).1 = .error error) ∧
        event.after.registry = event.before.registry

/-- Where there is a version to go back to, the versions of the model are numbers and it has the
highest one among those archived; where there is none, nothing is archived that the rollback could
take instead. -/
def Orderly (event : Event Tracked Op) : Prop :=
  ∀ model, event.action = .rollback model →
    let versions := versionsOf event.before.registry model
    match (event.before.history model).path[1]? with
    | some version => Countable versions ∧ HighestArchived versions version
    | none =>
        (event.before.history model).current = none ∨ ¬ Countable versions ∨
          archivedOf versions = []

theorem highestArchived_iff {versions : Versions} {version : String} :
    HighestArchived versions version ↔
      ∃ mv ∈ List.argmax number (archivedOf versions), mv.version = version := by
  constructor
  · intro given
    rcases given with ⟨mv, member, same, above, first⟩
    exact ⟨mv, List.mem_argmax_iff.mpr ⟨member, above, first⟩, same⟩
  · intro given
    rcases given with ⟨mv, highest, same⟩
    obtain ⟨member, above, first⟩ := List.mem_argmax_iff.mp highest
    exact ⟨mv, member, same, above, first⟩

def Faithful (tracked : Tracked) : Prop :=
  ∀ model, Matches (versionsOf tracked.registry model) (tracked.history model)

theorem faithful_empty : Faithful {} := by
  intro model
  refine ⟨?_, ?_, ?_, ?_⟩ <;> simp [versionsOf]

section Step

variable {tracked next : Tracked} {op : Op}

theorem restores_iff_orderly (faithful : Faithful tracked) (stepped : step tracked op = some next) :
    Restores ⟨tracked, op, next⟩ ↔ Orderly ⟨tracked, op, next⟩ := by
  obtain rfl := Option.some.inj stepped
  apply forall_congr'
  intro model
  apply imp_congr_right
  intro given
  rcases given with rfl
  have matched := faithful model
  have used := matched.inProduction_eq
  rcases rollback_cases tracked.registry model with
    ⟨⟨error, raised⟩, reason⟩ | ⟨current, previous, countable, known, inUse, highest, replied⟩
  · cases back : (tracked.history model).path[1]? with
    | none =>
        have fits : (tracked.history model).current = none ∨
            ¬ Countable (versionsOf tracked.registry model) ∨
            archivedOf (versionsOf tracked.registry model) = [] := by
          rcases reason with uncountable | unused | none
          · exact Or.inr (Or.inl uncountable)
          · rw [used, Option.toList_eq_nil_iff] at unused
            exact Or.inl unused
          · exact Or.inr (Or.inr none)
        simpa [raised] using fits
    | some version =>
        have blocked : ¬ (Countable (versionsOf tracked.registry model) ∧
            HighestArchived (versionsOf tracked.registry model) version) := by
          intro given
          rcases given with ⟨countable, mv, archived, -⟩
          rcases reason with uncountable | unused | none
          · exact uncountable countable
          · rw [used, Option.toList_eq_nil_iff] at unused
            simp [Timeline.path, unused] at back
          · simp [none] at archived
        simpa [raised] using blocked
  · have line := (matched.current current known).mp inUse
    cases back : (tracked.history model).path[1]? with
    | none =>
        have some : archivedOf (versionsOf tracked.registry model) ≠ [] :=
          List.ne_nil_of_mem (List.argmax_mem highest)
        simp [replied, line, countable, some]
    | some version =>
        have other := (List.mem_filter.mp (List.argmax_mem highest)).1
        have rolled := (matched.rolledBack known inUse other (List.nil_subset _)
          (List.nodup_singleton _)).inProduction_eq
        have only : HighestArchived (versionsOf tracked.registry model) version ↔
            previous.version = version := by
          rw [highestArchived_iff]
          constructor
          · intro given
            rcases given with ⟨mv, best, same⟩
            rw [Option.mem_unique highest best, same]
          · intro same
            exact ⟨previous, highest, same⟩
        simp only [replied, versionsOf_set, if_pos, rolled, only]
        simp [countable]

theorem faithful_step (faithful : Faithful tracked) (stepped : step tracked op = some next)
    (orderly : Orderly ⟨tracked, op, next⟩) : Faithful next := by
  obtain rfl := Option.some.inj stepped
  intro model
  have matched := faithful model
  by_cases rolling : op = .rollback model
  · subst rolling
    have fits := orderly model rfl
    simp only at fits
    simp only [advance, if_pos]
    rcases rollback_cases tracked.registry model with
      ⟨⟨error, raised⟩, reason⟩ | ⟨current, previous, countable, known, inUse, highest, replied⟩
    · rw [raised]
      cases back : (tracked.history model).path[1]? with
      | none =>
          rw [Timeline.back_of_short back]
          exact matched
      | some version =>
          rw [back] at fits
          obtain ⟨countable, mv, archived, -⟩ := fits
          rcases reason with uncountable | unused | none
          · exact absurd countable uncountable
          · rw [matched.inProduction_eq, Option.toList_eq_nil_iff] at unused
            simp [Timeline.path, unused] at back
          · simp [none] at archived
    · have line := (matched.current current known).mp inUse
      rw [replied, versionsOf_set, if_pos rfl]
      cases back : (tracked.history model).path[1]? with
      | none =>
          rw [back] at fits
          rcases fits with unused | uncountable | none
          · simp [line] at unused
          · exact absurd countable uncountable
          · have archived := List.argmax_mem highest
            simp [none] at archived
      | some version =>
          rw [back] at fits
          obtain ⟨mv, best, rfl⟩ := highestArchived_iff.mp fits.2
          obtain rfl := Option.mem_unique highest best
          have other := (List.mem_filter.mp (List.argmax_mem highest)).1
          cases past : (tracked.history model).earlier with
          | nil => simp [Timeline.path, line, past] at back
          | cons first rest =>
              obtain rfl : first = previous.version := by
                simpa [Timeline.path, line, past] using back
              have shape := Timeline.path_eq_cons.mpr ⟨line, past⟩
              rw [Timeline.back_of_path shape]
              exact matched.rolledBack known inUse other (by simp [past])
                (past ▸ matched.distinct)
  · exact matched.perform op rolling

end Step

theorem rollbacks_walk {start last : Tracked} {events : List (Event Tracked Op)} {model : String}
    (faithful : Faithful start) (run : Run step start events last)
    (orderly : ∀ event ∈ events, Orderly event)
    (rolling : ∀ event ∈ events, event.action = .rollback model) {version : String}
    (back : (start.history model).path[events.length]? = some version) :
    inProduction (versionsOf last.registry model) = [version] := by
  have walked : Faithful last ∧
      last.history model = Timeline.back^[events.length] (start.history model) := by
    refine Run.history_induction
      (fun event => Orderly event ∧ event.action = .rollback model)
      (fun events state => Faithful state ∧
        state.history model = Timeline.back^[events.length] (start.history model))
      ⟨faithful, rfl⟩ ?_ run (fun event member => ⟨orderly event member, rolling event member⟩)
    intro events state action next given also stepped further
    rcases given with -
    rcases also with ⟨before, past⟩
    rcases further with ⟨fine, rfl⟩
    refine ⟨faithful_step before stepped fine, ?_⟩
    obtain rfl := Option.some.inj stepped
    rw [List.length_append, List.length_singleton, Function.iterate_succ_apply', ← past]
    simp [advance]
  have room : events.length < (start.history model).path.length :=
    (List.getElem?_eq_some_iff.mp back).1
  have path : (last.history model).path = (start.history model).path.drop events.length := by
    rw [walked.2, Timeline.path_iterate_back room]
  cases rest : (start.history model).path.drop events.length with
  | nil =>
      rw [List.drop_eq_nil_iff] at rest
      omega
  | cons item earlier =>
      have front : some item = some version := by
        rw [← back, ← Nat.add_zero events.length, ← List.getElem?_drop, rest]
        rfl
      rw [(walked.1 model).inProduction_eq,
        (Timeline.path_eq_cons.mp (path.trans rest)).1, front]
      rfl

/-- Every rollback of the run puts back what was in production immediately before, and any number
of consecutive ones walk back as many steps. -/
def WalksBack (events : List (Event Tracked Op)) : Prop :=
  (∀ event ∈ events, Restores event) ∧
  ∀ (first : List (Event Tracked Op)) (roll : Event Tracked Op) (rolls rest : List (Event Tracked Op)),
    events = first ++ roll :: rolls ++ rest → ∀ model,
    (∀ other ∈ roll :: rolls, other.action = .rollback model) → ∀ version,
      (roll.before.history model).path[(roll :: rolls).length]? = some version →
      inProduction (versionsOf (final roll.before (roll :: rolls)).registry model) = [version]

/-- In every run at most one version of a model is in production, and the rollbacks walk back the
promotion history exactly if each finds the version before the current one to be the highest
archived one. -/
theorem rollback_walks_back_iff {events : List (Event Tracked Op)} {last : Tracked}
    (run : Run step {} events last) :
    (∀ event ∈ events, ∀ model, AtMostOne event.after.registry model) ∧
      (WalksBack events ↔ ∀ event ∈ events, Orderly event) := by
  constructor
  · have matched : ∀ event ∈ events, ∀ model, ∃ line,
        Matches (versionsOf event.after.registry model) line := by
      intro event member
      obtain ⟨stepped, past⟩ := run.invariant_before_always
        (fun tracked => ∀ model, ∃ line, Matches (versionsOf tracked.registry model) line)
        (fun model => ⟨_, faithful_empty model⟩) (by
          intro state action next matched stepped
          obtain rfl := Option.some.inj stepped
          exact exists_matches_perform matched action) member
      obtain made := Option.some.inj stepped
      rw [← made]
      exact exists_matches_perform past event.action
    intro event member model
    obtain ⟨line, accounts⟩ := matched event member model
    unfold AtMostOne
    rw [accounts.inProduction_eq]
    cases line.current <;> simp
  · have each : (∀ event ∈ events, Restores event) ↔ ∀ event ∈ events, Orderly event :=
      Run.forall_event_iff Faithful Restores Orderly faithful_empty
        (fun _ _ _ faithful stepped => restores_iff_orderly faithful stepped)
        (fun _ _ _ faithful stepped orderly => faithful_step faithful stepped orderly) run
    constructor
    · intro walks
      exact each.mp walks.1
    · intro orderly
      refine ⟨each.mpr orderly, ?_⟩
      intro first roll rolls rest given model rolling version back
      rcases given with rfl
      rw [List.append_assoc, List.cons_append] at run
      obtain ⟨before, stepped, after⟩ := run.split
      obtain ⟨middle, segment, -⟩ := after.of_append
      have rolled := Run.cons stepped segment
      have faithful := before.invariant Orderly Faithful faithful_empty
        (fun _ _ _ faithful stepped fine => faithful_step faithful stepped fine)
        (fun event member => orderly event (by simp [member]))
      have fine : ∀ event ∈ roll :: rolls, Orderly event := fun event member =>
        orderly event (List.mem_append_left _ (List.mem_append_right _ member))
      rw [rolled.final_eq]
      exact rollbacks_walk faithful rolled fine rolling back

def promotions (order : List String) : List Op :=
  List.replicate 3 (Op.register "m" "/models/m" none none "2026-01-01") ++
    order.flatMap (fun version => [Op.promote "m" version, Op.promote "m" version])

def recorded (ops : List Op) : List (Event Tracked Op) := (record step {} ops).getD []

theorem recorded_run {ops : List Op} (taken : (record step {} ops).isSome = true) :
    Run step {} (recorded ops) (final {} (recorded ops)) :=
  run_of_isSome taken

/-- Promoted in the order of their numbers, the versions are walked back in that order. -/
theorem rollback_walks_back_in_order :
    let events := recorded (promotions ["1", "2", "3"] ++ [Op.rollback "m"])
    (∀ event ∈ events, ∀ model, AtMostOne event.after.registry model) ∧
      (WalksBack events ↔ ∀ event ∈ events, Orderly event) :=
  rollback_walks_back_iff (recorded_run (by decide +kernel))

/-- With version one promoted after version two, the rollback of version three restores two. -/
theorem rollback_skips_previous :
    let events := recorded (promotions ["2", "1", "3"] ++ [Op.rollback "m"])
    Run step {} events (final {} events) ∧ ¬ WalksBack events := by
  refine ⟨recorded_run (by decide +kernel), ?_⟩
  intro walks
  have shape : ∃ event ∈ recorded (promotions ["2", "1", "3"] ++ [Op.rollback "m"]),
      event.action = .rollback "m" ∧
        (event.before.history "m").path = ["3", "1", "2"] ∧
        inProduction (versionsOf event.after.registry "m") = ["2"] := by
    refine ⟨(recorded (promotions ["2", "1", "3"] ++ [Op.rollback "m"])).get ⟨9, by decide +kernel⟩,
      List.get_mem _ _, by decide +kernel, by decide +kernel, by decide +kernel⟩
  obtain ⟨event, member, rolling, path, restored⟩ := shape
  have right := walks.1 event member "m" rolling
  simp [path, restored] at right

end RagSystem.ModelRegistry
