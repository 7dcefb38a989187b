import RagSystem.Etl.IncrementalJob

/-! When incremental extraction loses no update: what may not happen between the runs and during
them, and the invariant that then carries every object to the next run. -/

namespace RagSystem.Etl.Incremental

open Transition

def State.logs (state : State) : List Wal :=
  state.file :: sources.filterMap fun source => (state.side source).job.map Job.copy

section Conditions

variable (extractors : Source → Extractor) (state : State)

/-- An object that is wanted is only written while no log has it on record, after the dates of all
logs, and not between its listing and its saving, where it is not fetched again. -/
def WrittenInTime (source : Source) (key : String) (item : Item) : Prop :=
  (extractors source).wants key item = true →
    (∀ wal ∈ state.logs, (extractors source).skips wal key item = false ∧
      ∀ date ∈ (extractors source).standing wal,
        (extractors source).passes date item.modified = true) ∧
    ((extractors source).fetches = false →
      ∀ job ∈ (state.side source).job, ∀ entry ∈ job.queue, entry.1 ≠ key)

/-- What a run is still to list stays so when the object is written: no page of the listing has
passed it. -/
def KeepsListing (source : Source) (key : String) (item : Item) : Prop :=
  ∀ job ∈ (state.side source).job, ∀ entry ∈ (state.side source).objects.entries,
    (state.side source).pending entry.1 entry.2 = true →
    entry.1 ∈ (extractors source).toList (state.side source).objects job →
    entry.1 ∈ (extractors source).toList ((state.side source).objects.set key item) job

/-- A date that is not its own does not hide from a run what is pending. -/
def StartsInTime (source : Source) : Prop :=
  (extractors source).standing state.file = none →
    ∀ date ∈ (extractors source).date state.file,
      ∀ entry ∈ (state.side source).objects.entries,
        (extractors source).wants entry.1 entry.2 = true →
        (state.side source).pending entry.1 entry.2 = true →
        (extractors source).passes date entry.2.modified = true

/-- A run that moves the date of the next has come to every object without a failure, and what was
written since it began has been extracted as it is. -/
def EndsInTime (source : Source) (input : Input) (now : Rat) : Prop :=
  ∀ job ∈ (state.side source).job,
    (extractors source).turn (state.side source).objects input now job = .finished →
    (extractors source).standing (state.file.updateLastRun source now) ≠
      (extractors source).standing state.file →
    job.complete = true ∧
      ∀ entry ∈ (state.side source).objects.entries,
        (extractors source).wants entry.1 entry.2 = true →
        job.began.get? entry.1 ≠ some entry.2 →
        (state.side source).pending entry.1 entry.2 = false

instance (source : Source) (key : String) (item : Item) :
    Decidable (WrittenInTime extractors state source key item) := by
  unfold WrittenInTime
  infer_instance

instance (source : Source) (key : String) (item : Item) :
    Decidable (KeepsListing extractors state source key item) := by
  unfold KeepsListing
  infer_instance

instance (source : Source) :
    Decidable (StartsInTime extractors state source) := by
  unfold StartsInTime
  infer_instance

instance (source : Source) (input : Input) (now : Rat) :
    Decidable (EndsInTime extractors state source input now) := by
  unfold EndsInTime
  infer_instance

def InTime (event : Event State Action) : Prop :=
  match event.action with
  | .modify source key space modified =>
      let item := modifiedItem (event.before.side source).objects key space modified
      WrittenInTime extractors event.before source key item ∧
        KeepsListing extractors event.before source key item
  | .start source => StartsInTime extractors event.before source
  | .turn source input now => EndsInTime extractors event.before source input now

instance : (event : Event State Action) → Decidable (InTime extractors event)
  | ⟨_, .modify _ _ _ _, _⟩ =>
      inferInstanceAs (Decidable (WrittenInTime _ _ _ _ _ ∧ KeepsListing _ _ _ _ _))
  | ⟨_, .start _, _⟩ => inferInstanceAs (Decidable (StartsInTime _ _ _))
  | ⟨_, .turn _ _ _, _⟩ => inferInstanceAs (Decidable (EndsInTime _ _ _ _ _))

end Conditions

/-- The parts of the log that the extractors use do not overlap. -/
structure Separate (extractors : Source → Extractor) : Prop where
  skips_other : ∀ source other, source ≠ other → ∀ wal key item now,
    (extractors source).skips ((extractors other).records wal key item now) =
      (extractors source).skips wal
  skips_ne : ∀ source wal key item now other, other ≠ key → ∀ given,
    (extractors source).skips ((extractors source).records wal key item now) other given =
      (extractors source).skips wal other given
  standing_records : ∀ source other wal key item now,
    (extractors source).standing ((extractors other).records wal key item now) =
      (extractors source).standing wal
  skips_updateLastRun : ∀ source other wal now,
    (extractors source).skips (wal.updateLastRun other now) = (extractors source).skips wal
  standing_updateLastRun : ∀ source other, source ≠ other → ∀ wal now,
    (extractors source).standing (wal.updateLastRun other now) = (extractors source).standing wal

structure SideSound (extractor : Extractor) (side : Side) (logs : List Wal) : Prop where
  caught : ∀ wal ∈ logs, Caught extractor side wal
  bounded : ∀ key revision, side.extracted.get? key = some revision →
    ∃ item, side.objects.get? key = some item ∧ revision ≤ item.revision
  job : ∀ job, side.job = some job → JobSound extractor side job

def Sound (extractors : Source → Extractor) (state : State) : Prop :=
  ∀ source, SideSound (extractors source) (state.side source) state.logs

variable {extractors : Source → Extractor} {state : State} {source other : Source} {side : Side}
  {extractor : Extractor} {job : Job} {wal : Wal} {key : String} {item : Item}
  {objects : Dict String Item} {input : Input} {now : Rat}

@[simp] theorem put_self (state : State) (source : Source) (side : Side) :
    (state.put source side).side source = side := by
  simp [State.put]

theorem put_of_ne (differs : other ≠ source) (state : State) (side : Side) :
    (state.put source side).side other = state.side other := by
  simp [State.put, Function.update_of_ne differs]

theorem put_side_file (state : State) (source other : Source) (side : Side) (file : Wal) :
    ({ state.put source side with file := file } : State).side other =
      (state.put source side).side other := rfl

theorem mem_logs : wal ∈ state.logs ↔
    wal = state.file ∨ ∃ source job, (state.side source).job = some job ∧ wal = job.copy := by
  simp only [State.logs, List.mem_cons, List.mem_filterMap, Option.map_eq_some_iff]
  constructor
  · intro given
    rcases given with same | ⟨source, -, job, running, rfl⟩
    · exact Or.inl same
    · exact Or.inr ⟨source, job, running, rfl⟩
  · intro given
    rcases given with same | ⟨source, job, running, rfl⟩
    · exact Or.inl same
    · have listed : source ∈ sources := by cases source <;> decide
      exact Or.inr ⟨source, listed, job, running, rfl⟩

theorem copy_mem_logs (running : (state.side source).job = some job) : job.copy ∈ state.logs :=
  mem_logs.mpr (Or.inr ⟨source, job, running, rfl⟩)

theorem mem_logs_of_put {file : Wal}
    (member : wal ∈ ({ state.put source side with file := file } : State).logs) :
    wal = file ∨ (∃ job, side.job = some job ∧ wal = job.copy) ∨ wal ∈ state.logs := by
  rcases mem_logs.mp member with same | ⟨owner, job, running, rfl⟩
  · exact Or.inl same
  · right
    by_cases own : owner = source
    · subst own
      have running : ((state.put owner side).side owner).job = some job := running
      rw [put_self] at running
      exact Or.inl ⟨job, running, rfl⟩
    · have running : ((state.put source side).side owner).job = some job := running
      rw [put_of_ne own] at running
      exact Or.inr (copy_mem_logs running)

theorem file_mem_logs (state : State) : state.file ∈ state.logs := List.mem_cons_self

theorem SideSound.transfer {logs others : List Wal} (sound : SideSound extractor side logs)
    (covers : ∀ wal ∈ others, ∃ old ∈ logs, extractor.skips wal = extractor.skips old ∧
      extractor.standing wal = extractor.standing old) : SideSound extractor side others where
  caught := by
    intro wal member
    obtain ⟨old, inside, skips, standing⟩ := covers wal member
    intro key item held wanted state
    rw [skips, standing]
    exact sound.caught old inside key item held wanted state
  bounded := sound.bounded
  job := sound.job

theorem SideSound.modified {logs others : List Wal} {written : Item}
    (sound : SideSound extractor side logs) (within : ∀ wal ∈ others, wal ∈ logs)
    (newer : ∀ old, side.objects.get? key = some old → old.revision ≤ written.revision)
    (fresh : extractor.wants key written = true → ∀ wal ∈ logs,
      extractor.skips wal key written = false ∧
        ∀ date ∈ extractor.standing wal, extractor.passes date written.modified = true)
    (job : ∀ job, side.job = some job →
      JobSound extractor { side with objects := side.objects.set key written } job) :
    SideSound extractor { side with objects := side.objects.set key written } others where
  caught := by
    intro wal member other item held wanted state
    by_cases same : other = key
    · subst same
      obtain rfl := Option.some.inj ((Dict.get?_set_self _ _ _).symm.trans held)
      exact fresh wanted wal (within wal member)
    · have old : side.objects.get? other = some item :=
        (Dict.get?_set_of_ne same _ _).symm.trans held
      exact sound.caught wal (within wal member) other item old wanted state
  bounded := by
    intro other revision found
    obtain ⟨item, held, older⟩ := sound.bounded other revision found
    by_cases same : other = key
    · subst same
      exact ⟨written, Dict.get?_set_self _ _ _, older.trans (newer item held)⟩
    · exact ⟨item, (Dict.get?_set_of_ne same _ _).trans held, older⟩
  job := job

theorem SideSound.saved {logs others : List Wal} {revision : Nat} {current : Item} {next : Job}
    (sound : SideSound extractor side logs) (held : side.objects.get? key = some current)
    (bounded : revision ≤ current.revision)
    (exact_ : extractor.wants key current = true → revision = current.revision)
    (covers : ∀ wal ∈ others, ∃ old ∈ logs,
      (∀ other, other ≠ key → ∀ given,
        extractor.skips wal other given = extractor.skips old other given) ∧
      extractor.standing wal = extractor.standing old)
    (job : JobSound extractor { side with extracted := side.extracted.set key revision } next) :
    SideSound extractor
      { side with extracted := side.extracted.set key revision, job := some next } others where
  caught := by
    intro wal member other item found wanted state
    have state := pending_eq_true.mp state
    by_cases same : other = key
    · subst same
      obtain rfl := Option.some.inj (held.symm.trans found)
      exact absurd (Dict.get?_set_self _ _ _) (exact_ wanted ▸ state)
    · obtain ⟨old, inside, skips, standing⟩ := covers wal member
      rw [skips other same, standing]
      refine sound.caught old inside other item found wanted (pending_eq_true.mpr fun done => ?_)
      exact state ((Dict.get?_set_of_ne same _ _).trans done)
  bounded := by
    intro other read found
    by_cases same : other = key
    · subst same
      obtain rfl := Option.some.inj ((Dict.get?_set_self _ _ _).symm.trans found)
      exact ⟨current, held, bounded⟩
    · exact sound.bounded other read ((Dict.get?_set_of_ne same _ _).symm.trans found)
  job := by
    intro running same
    obtain rfl := Option.some.inj same
    exact job.withJob _

theorem sound_initial : Sound extractors {} := by
  intro source
  constructor
  case caught =>
    intro wal member key item held
    cases held
  case bounded =>
    intro key revision found
    cases found
  case job =>
    intro job running
    cases running

theorem Sound.put (sound : Sound extractors state)
    (copies : ∀ job, side.job = some job → job.copy ∈ state.logs)
    (own : (∀ wal ∈ (state.put source side).logs, wal ∈ state.logs) →
      SideSound (extractors source) side (state.put source side).logs) :
    Sound extractors (state.put source side) := by
  have within : ∀ wal ∈ (state.put source side).logs, wal ∈ state.logs := by
    intro wal member
    have member : wal ∈ ({ state.put source side with file := state.file } : State).logs := member
    rcases mem_logs_of_put member with rfl | ⟨job, running, rfl⟩ | old
    · exact file_mem_logs state
    · exact copies job running
    · exact old
  intro other
  by_cases same : other = source
  · subst same
    rw [put_self]
    exact own within
  · rw [put_of_ne same]
    exact (sound other).transfer fun wal member => ⟨wal, within wal member, rfl, rfl⟩

theorem Sound.modify {space : String} {modified : Rat} {written : Item}
    (sound : Sound extractors state)
    (made : written = modifiedItem (state.side source).objects key space modified)
    (inTime : WrittenInTime extractors state source key written)
    (keeps : KeepsListing extractors state source key written) :
    Sound extractors (state.put source { state.side source with
      objects := (state.side source).objects.set key written }) := by
  have own := sound source
  have newer : ∀ old, (state.side source).objects.get? key = some old →
      old.revision ≤ written.revision := by
    intro old held
    rw [made, modifiedItem, held, Option.map_some, Option.getD_some]
    exact Nat.le_succ _
  apply sound.put
  · exact fun job running => copy_mem_logs running
  · intro within
    apply own.modified within newer
    · exact fun wanted => (inTime wanted).1
    · intro job running
      apply (own.job job running).modified newer
      · exact fun listed wanted => (inTime wanted).2 listed job running
      · intro other given held pending due
        have member := (Dict.mem_entries_iff _ other given).mpr held
        exact keeps job running (other, given) member pending due

theorem Sound.start (sound : Sound extractors state)
    (inTime : StartsInTime extractors state source) :
    Sound extractors (state.put source { state.side source with
      job := some ((extractors source).begin (state.side source).objects state.file) }) := by
  have own := sound source
  have begun : JobSound (extractors source) (state.side source)
      ((extractors source).begin (state.side source).objects state.file) := by
    apply JobSound.begun (own.caught _ (file_mem_logs state))
    intro standing date dated key item held wanted pending
    have member := (Dict.mem_entries_iff _ key item).mpr held
    exact inTime standing date dated (key, item) member wanted pending
  apply sound.put
  · intro job running
    obtain rfl := Option.some.inj running
    exact file_mem_logs state
  · intro within
    constructor
    case caught => exact fun wal member => own.caught wal (within wal member)
    case bounded => exact own.bounded
    case job =>
      intro job running
      obtain rfl := Option.some.inj running
      exact begun.withJob _

theorem Sound.raise (sound : Sound extractors state) :
    Sound extractors (state.put source { state.side source with job := none }) := by
  have own := sound source
  apply sound.put
  · intro job running
    cases running
  · intro within
    constructor
    case caught => exact fun wal member => own.caught wal (within wal member)
    case bounded => exact own.bounded
    case job =>
      intro job running
      cases running

theorem Sound.go {next : Job} (sound : Sound extractors state)
    (running : (state.side source).job = some job)
    (turns : Turns (extractors source) (state.side source).objects now job (.going next)) :
    Sound extractors (state.put source { state.side source with job := some next }) := by
  have own := sound source
  obtain ⟨goes, copy⟩ := (own.job job running).going
    (own.caught _ (copy_mem_logs running)) turns
  apply sound.put
  · intro other same
    obtain rfl := Option.some.inj same
    rw [copy]
    exact copy_mem_logs running
  · intro within
    constructor
    case caught => exact fun wal member => own.caught wal (within wal member)
    case bounded => exact own.bounded
    case job =>
      intro other same
      obtain rfl := Option.some.inj same
      exact goes.withJob _

theorem Sound.save (separate : Separate extractors) {next : Job} {revision : Nat}
    (sound : Sound extractors state) (running : (state.side source).job = some job)
    (turns : Turns (extractors source) (state.side source).objects now job
      (.saved next key revision)) :
    Sound extractors { state.put source { state.side source with
        extracted := (state.side source).extracted.set key revision
        job := some next } with
      file := next.copy } := by
  cases turns with
  | @saved key item rest shape stops done made =>
      have old := copy_mem_logs running
      have copied : (if stops then Extractor.cutOff done else done).copy =
          (extractors source).records job.copy key item now := by
        subst made
        split <;> rfl
      have logged : ∀ wal ∈ ({ state.put source { state.side source with
            extracted := (state.side source).extracted.set key
              ((extractors source).revisionRead (state.side source).objects key item)
            job := some (if stops then Extractor.cutOff done else done) } with
          file := (if stops then Extractor.cutOff done else done).copy } : State).logs,
          wal = (extractors source).records job.copy key item now ∨ wal ∈ state.logs := by
        intro wal member
        rcases mem_logs_of_put member with rfl | ⟨next, same, rfl⟩ | old
        · exact Or.inl copied
        · obtain rfl := Option.some.inj same
          exact Or.inl copied
        · exact Or.inr old
      intro other
      by_cases same : other = source
      · subst same
        have goes := ((sound other).job job running).saved shape
          ((extractors other).records job.copy key item now) (job.total + 1)
          (separate.skips_ne other job.copy key item now)
        rw [← made] at goes
        obtain ⟨current, held, bounded, -, -, exact_⟩ := ((sound other).job job running).read shape
        have stopped := goes.cutIf stops
        rw [put_side_file, put_self]
        apply (sound other).saved held bounded exact_ _ stopped
        intro wal member
        rcases logged wal member with rfl | inside
        · exact ⟨job.copy, old, separate.skips_ne other job.copy key item now,
            separate.standing_records other other job.copy key item now⟩
        · exact ⟨wal, inside, fun _ _ _ => rfl, rfl⟩
      · rw [put_side_file, put_of_ne same]
        apply (sound other).transfer
        intro wal member
        rcases logged wal member with rfl | inside
        · exact ⟨job.copy, old, separate.skips_other other source same job.copy key item now,
            separate.standing_records other source job.copy key item now⟩
        · exact ⟨wal, inside, rfl, rfl⟩

theorem SideSound.nothing_pending {logs : List Wal} (sound : SideSound extractor side logs)
    (running : side.job = some job) (ended : job.start = none) (empty : job.queue = [])
    (last : job.spaces.tail = []) (complete : job.complete = true)
    (read : ∀ entry ∈ side.objects.entries, extractor.wants entry.1 entry.2 = true →
      job.began.get? entry.1 ≠ some entry.2 → side.pending entry.1 entry.2 = false)
    (held : side.objects.get? key = some item) (wanted : extractor.wants key item = true) :
    side.pending key item = false := by
  by_cases began : job.began.get? key = some item
  · obtain ⟨revision, found, newer⟩ :=
      (sound.job job running).ended ended empty last complete began wanted
    obtain ⟨current, same, older⟩ := sound.bounded key revision found
    obtain rfl := Option.some.inj (same.symm.trans held)
    rw [pending_eq_false, found, Nat.le_antisymm older newer]
  · exact read (key, item) ((Dict.mem_entries_iff _ key item).mpr held) wanted began

theorem Sound.finish (separate : Separate extractors) (sound : Sound extractors state)
    (running : (state.side source).job = some job) (ended : job.start = none)
    (empty : job.queue = []) (last : job.spaces.tail = [])
    (inTime : (extractors source).standing (state.file.updateLastRun source now) ≠
        (extractors source).standing state.file →
      job.complete = true ∧ ∀ entry ∈ (state.side source).objects.entries,
        (extractors source).wants entry.1 entry.2 = true →
        job.began.get? entry.1 ≠ some entry.2 →
        (state.side source).pending entry.1 entry.2 = false) :
    Sound extractors { state.put source { state.side source with job := none } with
      file := state.file.updateLastRun source now } := by
  have logged : ∀ wal ∈ ({ state.put source { state.side source with job := none } with
      file := state.file.updateLastRun source now } : State).logs,
      wal = state.file.updateLastRun source now ∨ wal ∈ state.logs := by
    intro wal member
    rcases mem_logs_of_put member with same | ⟨next, none, -⟩ | old
    · exact Or.inl same
    · cases none
    · exact Or.inr old
  have skips : ∀ other, (extractors other).skips (state.file.updateLastRun source now) =
      (extractors other).skips state.file :=
    fun other => separate.skips_updateLastRun other source state.file now
  intro other
  by_cases same : other = source
  · subst same
    rw [put_side_file, put_self]
    constructor
    case bounded => exact (sound other).bounded
    case job =>
      intro next none
      cases none
    case caught =>
      intro wal member key item held wanted pending
      rcases logged wal member with rfl | inside
      · by_cases moves : (extractors other).standing (state.file.updateLastRun other now) =
            (extractors other).standing state.file
        · rw [skips, moves]
          exact (sound other).caught _ (file_mem_logs state) key item held wanted pending
        · obtain ⟨complete, read⟩ := inTime moves
          have settled := (sound other).nothing_pending running ended empty last complete read held
            wanted
          exact absurd (pending_eq_false.mp settled) (pending_eq_true.mp pending)
      · exact (sound other).caught wal inside key item held wanted pending
  · rw [put_side_file, put_of_ne same]
    apply (sound other).transfer
    intro wal member
    rcases logged wal member with rfl | inside
    · exact ⟨state.file, file_mem_logs state, skips other,
        separate.standing_updateLastRun other source same state.file now⟩
    · exact ⟨wal, inside, rfl, rfl⟩

theorem Sound.step (separate : Separate extractors) {action : Action} {next : State}
    (sound : Sound extractors state) (stepped : step extractors state action = some next)
    (inTime : InTime extractors ⟨state, action, next⟩) : Sound extractors next := by
  cases action with
  | modify source key space modified =>
      obtain rfl := Option.some.inj stepped
      exact sound.modify rfl inTime.1 inTime.2
  | start source =>
      cases running : (state.side source).job with
      | some job => simp [Incremental.step, running] at stepped
      | none =>
          simp only [Incremental.step, running, Option.some.injEq] at stepped
          subst stepped
          exact sound.start inTime
  | turn source input now =>
      cases running : (state.side source).job with
      | none => simp [Incremental.step, running] at stepped
      | some job =>
          have turns := turn_turns (extractors source) (state.side source).objects input now job
          simp only [Incremental.step, running] at stepped
          cases result : (extractors source).turn (state.side source).objects input now job with
          | going next =>
              rw [result] at stepped turns
              obtain rfl := Option.some.inj stepped
              exact sound.go running turns
          | saved next key revision =>
              rw [result] at stepped turns
              obtain rfl := Option.some.inj stepped
              exact sound.save separate running turns
          | raised =>
              rw [result] at stepped
              obtain rfl := Option.some.inj stepped
              exact sound.raise
          | finished =>
              rw [result] at stepped turns
              obtain rfl := Option.some.inj stepped
              cases turns with
              | finished ended empty last =>
                  exact sound.finish separate running ended empty last
                    (inTime job running result)

theorem sound_of_run (separate : Separate extractors) {events : List (Event State Action)}
    (run : Run (step extractors) {} events state)
    (inTime : ∀ event ∈ events, InTime extractors event) : Sound extractors state :=
  Run.invariant (InTime extractors) (Sound extractors) sound_initial
    (fun _ _ _ sound stepped allowed => sound.step separate stepped allowed) run inTime

theorem reflected_of_sound {event : Event State Action} (sound : Sound extractors event.before)
    (stepped : step extractors event.before event.action = some event.after) :
    Reflected extractors event := by
  intro source input now job action running result complete key item began wanted
  have turns := turn_turns (extractors source) (event.before.side source).objects input now job
  rw [result] at turns
  cases turns with
  | finished ended empty last =>
      have has := ((sound source).job job running).ended ended empty last complete began wanted
      simp only [step, action, running, result, Option.some.injEq] at stepped
      rw [← stepped, put_side_file, put_self]
      exact has

theorem nothingLost_of_inTime (separate : Separate extractors) {events : List (Event State Action)}
    (run : Run (step extractors) {} events state)
    (inTime : ∀ event ∈ events, InTime extractors event) : NothingLost extractors events := by
  intro event member
  obtain ⟨stepped, earlier, within, reached⟩ := run.event_of_mem member
  have sound := sound_of_run separate reached
    fun past inside => inTime past (within.subset inside)
  exact reflected_of_sound sound stepped

theorem separate_extractorOf (deployment : Deployment) : Separate (extractorOf deployment) where
  skips_other := by
    intro source other differs wal key item now
    cases source <;> cases other <;> first | exact absurd rfl differs | rfl
  skips_ne := by
    intro source wal key item now other differs given
    cases source with
    | confluence =>
        simp only [extractorOf, confluenceExtractor]
        rw [Dict.get?_set_of_ne differs]
    | jira => simp [extractorOf, jiraExtractor, differs]
  standing_records := by
    intro source other wal key item now
    cases source <;> cases other <;> rfl
  skips_updateLastRun := by
    intro source other wal now
    cases source <;> cases other <;> rfl
  standing_updateLastRun := by
    intro source other differs wal now
    cases source <;> cases other <;> first | exact absurd rfl differs | rfl

/-- Where objects are written, and runs start and end, in time, no run that completes without
failure has lost an update. -/
theorem nothing_lost (deployment : Deployment) {events : List (Event State Action)} {state : State}
    (run : Run (step (extractorOf deployment)) {} events state)
    (inTime : ∀ event ∈ events, InTime (extractorOf deployment) event) :
    NothingLost (extractorOf deployment) events :=
  nothingLost_of_inTime (separate_extractorOf deployment) run inTime

def devJql : String := "project = DEV"

def devSince : String := "2026-01-01T00:00:03+00:00"

/-- What the server of one project answers to the JQL, and to its conjunction with a certain
time. -/
def devSelects (jql : String) : Option (String → Item → Bool) :=
  if jql = devJql then some fun _ _ => true
  else if jql = conjoined devJql devSince then
    some fun _ (item : Item) => decide (3 ≤ item.modified)
  else none

theorem devSelects_some {jql : String} {all : String → Item → Bool}
    (selected : devSelects jql = some all) :
    (jql = devJql ∧ all = fun _ _ => true) ∨ jql = conjoined devJql devSince := by
  unfold devSelects at selected
  split at selected
  · rename_i base
    exact Or.inl ⟨base, (Option.some.inj selected).symm⟩
  · split at selected
    · exact Or.inr ‹_›
    · cases selected

theorem devSelects_base : devSelects (baseJql devJql) = some fun _ _ => true := by
  have base : baseJql devJql = devJql := by decide +kernel
  rw [devSelects, if_pos base]

theorem devSelects_dated : devSelects (conjoined devJql devSince) =
    some fun _ (item : Item) => decide (3 ≤ item.modified) := by
  have other : conjoined devJql devSince ≠ devJql := by decide +kernel
  rw [devSelects, if_neg other, if_pos rfl]

theorem devSelects_undated : devSelects (conjoined devJql "") = none := by
  have other : conjoined devJql "" ≠ devJql ∧ conjoined devJql "" ≠ conjoined devJql devSince := by
    decide +kernel
  rw [devSelects, if_neg other.1, if_neg other.2]

theorem devSelects_twice : ∀ last ∈ [devSince, ""],
    devSelects (conjoined (conjoined devJql devSince) last) = none := by
  have other : ∀ last ∈ [devSince, ""], conjoined (conjoined devJql devSince) last ≠ devJql ∧
      conjoined (conjoined devJql devSince) last ≠ conjoined devJql devSince := by decide +kernel
  intro last member
  rw [devSelects, if_neg (other last member).1, if_neg (other last member).2]

def devIsoformat (time : Rat) : String := if time = 3 then devSince else ""

theorem devIsoformat_mem (time : Rat) : devIsoformat time ∈ [devSince, ""] := by
  unfold devIsoformat
  split <;> simp

def devServers : Servers where
  isoformat := devIsoformat
  pageHash := fun number _ => if number = 1 then "first" else "second"
  selects := devSelects
  selects_conjoined := by
    intro jql all time clause selected found key item
    rcases devSelects_some selected with ⟨rfl, rfl⟩ | rfl
    · by_cases known : time = 3
      · subst known
        rw [devIsoformat, if_pos rfl, devSelects_dated] at found
        rw [← Option.some.inj found, Bool.true_and]
      · rw [devIsoformat, if_neg known, devSelects_undated] at found
        cases found
    · rw [devSelects_twice _ (devIsoformat_mem time)] at found
      cases found
  selects_updated := by
    intro jql all time clause blank selected
    have worded : stripText devJql ≠ "" ∧ stripText (conjoined devJql devSince) ≠ "" := by
      decide +kernel
    rcases devSelects_some selected with ⟨rfl, -⟩ | rfl
    · exact absurd blank worded.1
    · exact absurd blank worded.2
  order := fun _ found => found
  order_perm := fun _ found => List.Perm.refl found

def devDeployment : Deployment where
  config := { jql := devJql }
  servers := devServers
  selected := fun _ _ => true
  accepted := devSelects_base

def runThrough (source : Source) (saved ended : Rat) : List Action :=
  [.start source, .turn source .fine saved, .turn source .fine saved, .turn source .fine ended]

/-- An issue and a page are extracted, then the page is written again and another issue made, and
both are extracted. -/
def growing : List Action :=
  [.modify .confluence "1" "DEV" 1, .modify .jira "DEV-1" "" 1] ++ runThrough .jira 2 3 ++
    runThrough .confluence 4 5 ++ [.modify .confluence "1" "DEV" 6, .modify .jira "DEV-2" "" 6] ++
    runThrough .jira 7 8 ++ runThrough .confluence 9 10

def rewritten : List Action :=
  [.modify .jira "DEV-1" "" 1] ++ runThrough .jira 2 3 ++ [.modify .jira "DEV-1" "" 5] ++
    runThrough .jira 6 7

def eventsOf (actions : List Action) : List (Event State Action) :=
  (record (step (extractorOf devDeployment)) {} actions).getD []

theorem nothing_lost_growing : NothingLost (extractorOf devDeployment) (eventsOf growing) :=
  nothing_lost devDeployment (run_of_isSome (by decide +kernel)) (by decide +kernel)

example : (((final {} (eventsOf growing)).side .confluence).extracted.get? "1",
    ((final {} (eventsOf growing)).side .jira).extracted.get? "DEV-2") = (some 2, some 1) := by
  decide +kernel

/-- The turn that ends the second run, and the issue that it has skipped. -/
theorem rewritten_issue_lost :
    ∃ deployment events state, Run (step (extractorOf deployment)) {} events state ∧
      ¬ NothingLost (extractorOf deployment) events := by
  refine ⟨devDeployment, eventsOf rewritten, _, run_of_isSome (by decide +kernel), ?_⟩
  intro nothing
  have last : ∃ event ∈ eventsOf rewritten, event.action = .turn .jira .fine 7 ∧
      ∃ job ∈ (event.before.side .jira).job,
        (jiraExtractor devDeployment).turn (event.before.side .jira).objects .fine 7 job =
          .finished ∧
        job.complete = true ∧ ∃ item ∈ job.began.get? "DEV-1", item.revision = 2 ∧
          (event.after.side .jira).extracted.get? "DEV-1" = some 1 := by decide +kernel
  obtain ⟨event, member, action, job, running, ended, complete, item, began, second, stale⟩ := last
  obtain ⟨revision, found, newer⟩ :=
    nothing event member .jira .fine 7 job action running ended complete "DEV-1" item began rfl
  rw [stale] at found
  obtain rfl := Option.some.inj found
  omega

end RagSystem.Etl.Incremental
