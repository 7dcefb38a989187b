import RagSystem.Core.StaleDetector
import RagSystem.Transition.Run

/-! `proxy/app/core/reindex_scheduler.py`: the tasks that the rounds of the scheduler and forced
reindexing create for stale documents. -/

namespace RagSystem.Core

open Transition

inductive TaskStatus
  | pending
  | running
  | completed
  | failed
  deriving DecidableEq, Repr

/-- A row of `etl_tasks`. The ids are numbered as the rows are inserted. -/
structure EtlTask where
  id : Nat
  kbId : String
  sourceType : String
  sourceId : String
  status : TaskStatus := .pending
  deriving DecidableEq, Repr

def EtlTask.unfinished (task : EtlTask) : Bool := task.status = .pending ∨ task.status = .running

structure KbEntry where
  id : String
  collectionName : String
  deriving DecidableEq, Repr

inductive Creation
  | done
  | notUpdated
  | notCreated
  deriving DecidableEq, Repr

/-- What happens outside during a round: whether the bases can be listed and their collections read,
and how the database takes the task of a point. -/
structure Answers where
  listed : Bool := true
  reachable : String → Bool := fun _ => true
  creation : (kbId pointId : String) → Creation := fun _ _ => .done

/-- `_reindex_status["per_kb"][kb_id]` -/
structure KbReport where
  staleCount : Nat
  tasks : Nat
  deriving DecidableEq, Repr

structure ReindexStatus where
  totalStaleFound : Nat := 0
  tasksTriggered : Nat := 0
  perKb : Dict String KbReport := ∅

/-- The task table, the knowledge bases and their collections, what the scheduler reports, and the
`tasks_created` that the last forced reindexing returned. -/
structure ReindexState where
  tasks : List EtlTask := []
  kbs : List KbEntry := []
  points : String → List KbPoint := fun _ => []
  detection : Detection
  threshold : ℚ := 80
  status : ReindexStatus := {}
  tasksCreated : Option Nat := none

/-- `create_task` -/
def createTask (kbId sourceType sourceId : String) (tasks : List EtlTask) : List EtlTask :=
  tasks ++ [{ id := tasks.length, kbId, sourceType, sourceId }]

/-- `update_task` with a status -/
def updateTask (taskId : Nat) (status : TaskStatus) (tasks : List EtlTask) : List EtlTask :=
  tasks.map (fun task => if task.id = taskId then { task with status := status } else task)

/-- `_trigger_reindex_for_document` -/
def triggerReindexForDocument (creation : Creation) (kbId : String) (doc : StaleDocument)
    (tasks : List EtlTask) : Bool × List EtlTask :=
  match creation with
  | .notCreated => (false, tasks)
  | .notUpdated => (false, createTask kbId doc.sourceType doc.sourceId tasks)
  | .done =>
      (true, updateTask tasks.length .running (createTask kbId doc.sourceType doc.sourceId tasks))

def triggerAll (answers : Answers) (kbId : String) :
    List StaleDocument → List EtlTask → Nat × List EtlTask
  | [], tasks => (0, tasks)
  | doc :: rest, tasks =>
      let triggered := triggerReindexForDocument (answers.creation kbId doc.id) kbId doc tasks
      let others := triggerAll answers kbId rest triggered.2
      ((if triggered.1 then 1 else 0) + others.1, others.2)

/-- `detect_stale_documents` on the collection of a base. -/
def ReindexState.detect (state : ReindexState) (answers : Answers) (kb : KbEntry) :
    Option (List StaleDocument) :=
  detectStaleDocuments state.detection state.threshold kb.id (answers.reachable kb.id)
    (state.points kb.collectionName)

/-- The loop of a round over the bases. An error ends the round, and what it counted is not
reported. -/
def checkKbs (answers : Answers) (totalStale totalTriggered : Nat) :
    List KbEntry → ReindexState → ReindexState
  | [], state => { state with
      status := { state.status with
        totalStaleFound := totalStale, tasksTriggered := totalTriggered } }
  | kb :: rest, state =>
      match state.detect answers kb with
      | none => state
      | some staleDocs =>
          checkKbs answers (totalStale + staleDocs.length) (totalTriggered + staleDocs.length) rest
            { state with
              tasks := (triggerAll answers kb.id staleDocs state.tasks).2
              status := { state.status with
                perKb := state.status.perKb.set kb.id ⟨staleDocs.length, staleDocs.length⟩ } }

/-- A round of `_reindex_check_loop`. -/
def reindexCheck (answers : Answers) (state : ReindexState) : ReindexState :=
  if answers.listed then checkKbs answers 0 0 state.kbs state else state

/-- `force_reindex_stale`, which returns no `tasks_created` when the base is unknown or when a
document cannot be scored. -/
def forceReindexStale (answers : Answers) (kbId : String) (state : ReindexState) : ReindexState :=
  match state.kbs.find? (fun kb => kb.id = kbId) with
  | none => { state with tasksCreated := none }
  | some kb =>
      match state.detect answers kb with
      | none => { state with tasksCreated := none }
      | some staleDocs =>
          let (created, tasks) := triggerAll answers kbId staleDocs state.tasks
          { state with
            tasks := tasks
            tasksCreated := some created
            status := { state.status with
              perKb := state.status.perKb.set kbId ⟨staleDocs.length, created⟩ } }

/-- The rounds and forced reindexings, what the ETL makes of a task, and whatever becomes of the
clock, the knowledge bases and the points in them. -/
inductive ReindexStep
  | check (answers : Answers)
  | force (kbId : String) (answers : Answers)
  | finish (taskId : Nat) (status : TaskStatus)
  | world (now : ℚ) (kbs : List KbEntry) (points : String → List KbPoint)

def ReindexStep.perform (state : ReindexState) : ReindexStep → Option ReindexState
  | check answers => some (reindexCheck answers state)
  | force kbId answers => some (forceReindexStale answers kbId state)
  | finish taskId status => some { state with tasks := updateTask taskId status state.tasks }
  | world now kbs points =>
      some { state with detection := { state.detection with now := now }, kbs, points }

/-! ### One task for each stale document -/

def openTasks (tasks : List EtlTask) (kbId sourceType sourceId : String) : Nat :=
  tasks.countP (fun task => task.unfinished ∧ task.kbId = kbId ∧ task.sourceType = sourceType ∧
    task.sourceId = sourceId)

def KbPayload.isOf (payload : KbPayload) (sourceType sourceId : String) : Prop :=
  payload.sourceType.getD "unknown" = sourceType ∧ payload.sourceId.getD "" = sourceId

instance (payload : KbPayload) (sourceType sourceId : String) :
    Decidable (payload.isOf sourceType sourceId) := inferInstanceAs (Decidable (_ ∧ _))

/-- Some chunk of the document, wherever it stands in the collection, is stale. -/
def HasStaleChunk (state : ReindexState) (kb : KbEntry) (sourceType sourceId : String) : Prop :=
  ∃ point ∈ state.points kb.collectionName, point.payload.kbId = some kb.id ∧
    point.payload.isOf sourceType sourceId ∧
    isStaleChunk state.detection state.threshold point = true

def OneTask (before after : ReindexState) (kb : KbEntry) : Prop :=
  ∀ sourceType sourceId, HasStaleChunk before kb sourceType sourceId →
    openTasks after.tasks kb.id sourceType sourceId = 1

/-- After a round or a forced reindexing every stale document of the bases it is about has one
unfinished task, and the reported number is that of the tasks created. -/
def Reindexed (before after : ReindexState) : ReindexStep → Prop
  | .check _ => (∀ kb ∈ before.kbs, OneTask before after kb) ∧
      after.tasks.length = before.tasks.length + after.status.tasksTriggered
  | .force kbId _ => ∀ kb, before.kbs.find? (fun kb => kb.id = kbId) = some kb →
      OneTask before after kb ∧ ∀ created, after.tasksCreated = some created →
        after.tasks.length = before.tasks.length + created
  | .finish _ _ => True
  | .world _ _ _ => True

/-! ### When there is one -/

def ReindexState.scanned (state : ReindexState) (answers : Answers) (kb : KbEntry) :
    List KbPoint :=
  if answers.reachable kb.id then scroll kb.id 500 (state.points kb.collectionName) else []

def ReindexState.staleScanned (state : ReindexState) (answers : Answers) (kb : KbEntry) :
    List KbPoint :=
  (state.scanned answers kb).filter (isStaleChunk state.detection state.threshold)

/-- The bases that the round comes through: an unreadable time of a scanned chunk ends it. -/
def ReindexState.checked (state : ReindexState) (answers : Answers) : List KbEntry :=
  if answers.listed then
    state.kbs.takeWhile (fun kb => Readable state.detection (state.scanned answers kb))
  else []

def ReindexState.triggered (state : ReindexState) (answers : Answers) (kbs : List KbEntry) :
    List (String × KbPoint) :=
  kbs.flatMap (fun kb => (state.staleScanned answers kb).map (fun point => (kb.id, point)))

def Answers.takes (answers : Answers) (chunk : String × KbPoint) : Bool :=
  answers.creation chunk.1 chunk.2.id ≠ .notCreated

def tasksFor (answers : Answers) (chunks : List (String × KbPoint))
    (kbId sourceType sourceId : String) : Nat :=
  chunks.countP (fun chunk => answers.takes chunk ∧ chunk.1 = kbId ∧
    chunk.2.payload.isOf sourceType sourceId)

/-- Every document with a stale chunk has one unfinished task before, and no stale chunk of it is
scanned, or none, and one of its stale chunks is; chunks whose task the database does not take
apart. And the database takes all tasks, or else the number reported before happens to be right. -/
def OneChunkEach (state : ReindexState) : ReindexStep → Prop
  | .check answers =>
      let chunks := state.triggered answers (state.checked answers)
      (∀ kb ∈ state.kbs, ∀ sourceType sourceId, HasStaleChunk state kb sourceType sourceId →
        openTasks state.tasks kb.id sourceType sourceId +
          tasksFor answers chunks kb.id sourceType sourceId = 1) ∧
      (if answers.listed ∧ state.checked answers = state.kbs then
        ∀ chunk ∈ chunks, answers.takes chunk
      else chunks.countP answers.takes = state.status.tasksTriggered)
  | .force kbId answers => ∀ kb, state.kbs.find? (fun kb => kb.id = kbId) = some kb →
      let readable := Readable state.detection (state.scanned answers kb)
      let chunks := if readable then state.triggered answers [kb] else []
      (∀ sourceType sourceId, HasStaleChunk state kb sourceType sourceId →
        openTasks state.tasks kb.id sourceType sourceId +
          tasksFor answers chunks kb.id sourceType sourceId = 1) ∧
      (∀ chunk ∈ chunks, answers.creation chunk.1 chunk.2.id ≠ .notUpdated)
  | .finish _ _ => True
  | .world _ _ _ => True

/-! ### Counting the tasks -/

def Numbered (tasks : List EtlTask) : Prop := ∀ task ∈ tasks, task.id < tasks.length

theorem numbered_updateTask {tasks : List EtlTask} (numbered : Numbered tasks) (taskId : Nat)
    (status : TaskStatus) : Numbered (updateTask taskId status tasks) := by
  intro task member
  obtain ⟨original, known, rfl⟩ := List.mem_map.mp member
  rw [updateTask, List.length_map]
  split <;> exact numbered original known

theorem numbered_append {tasks : List EtlTask} (numbered : Numbered tasks) {task : EtlTask}
    (next : task.id = tasks.length) : Numbered (tasks ++ [task]) := by
  intro other member
  rw [List.length_append, List.length_singleton]
  rcases List.mem_append.mp member with known | new
  · exact Nat.lt_succ_of_lt (numbered other known)
  · rw [List.mem_singleton.mp new, next]
    exact Nat.lt_succ_self _

theorem updateTask_createTask {tasks : List EtlTask} (numbered : Numbered tasks)
    (kbId sourceType sourceId : String) :
    updateTask tasks.length .running (createTask kbId sourceType sourceId tasks) =
      tasks ++ [{ id := tasks.length, kbId, sourceType, sourceId, status := .running }] := by
  have kept : updateTask tasks.length .running tasks = tasks := by
    rw [updateTask, List.map_congr_left (g := id), List.map_id]
    intro task known
    rw [if_neg (Nat.ne_of_lt (numbered task known))]
    rfl
  unfold updateTask createTask at *
  rw [List.map_append, kept]
  simp

theorem trigger_appends {creation : Creation} (takes : creation ≠ .notCreated) (kbId : String)
    (doc : StaleDocument) {tasks : List EtlTask} (numbered : Numbered tasks) :
    ∃ task : EtlTask, (triggerReindexForDocument creation kbId doc tasks).2 = tasks ++ [task] ∧
      task.unfinished = true ∧ task.id = tasks.length ∧ task.kbId = kbId ∧
      task.sourceType = doc.sourceType ∧ task.sourceId = doc.sourceId := by
  cases creation with
  | notCreated => exact absurd rfl takes
  | notUpdated => exact ⟨_, rfl, rfl, rfl, rfl, rfl, rfl⟩
  | done => exact ⟨_, updateTask_createTask numbered _ _ _, rfl, rfl, rfl, rfl, rfl⟩

theorem openTasks_append_one (tasks : List EtlTask) {task : EtlTask}
    (isOpen : task.unfinished = true) (kbId sourceType sourceId : String) :
    openTasks (tasks ++ [task]) kbId sourceType sourceId =
      openTasks tasks kbId sourceType sourceId +
        if task.kbId = kbId ∧ task.sourceType = sourceType ∧ task.sourceId = sourceId then 1
        else 0 := by
  rw [openTasks, List.countP_append, List.countP_singleton]
  simp [openTasks, isOpen]

/-- What the triggering of the documents adds to the tasks, and what it counts. -/
structure Triggered (answers : Answers) (kbId : String) (docs : List StaleDocument)
    (tasks : List EtlTask) (result : Nat × List EtlTask) : Prop where
  numbered : Numbered result.2
  length : result.2.length =
    tasks.length + docs.countP (fun doc => answers.creation kbId doc.id ≠ .notCreated)
  count : result.1 = docs.countP (fun doc => answers.creation kbId doc.id = .done)
  openTasks : ∀ base sourceType sourceId, Core.openTasks result.2 base sourceType sourceId =
    Core.openTasks tasks base sourceType sourceId +
      docs.countP (fun doc => answers.creation kbId doc.id ≠ .notCreated ∧ kbId = base ∧
        doc.sourceType = sourceType ∧ doc.sourceId = sourceId)

theorem triggerAll_triggered (answers : Answers) (kbId : String) (docs : List StaleDocument)
    {tasks : List EtlTask} (numbered : Numbered tasks) :
    Triggered answers kbId docs tasks (triggerAll answers kbId docs tasks) := by
  induction docs generalizing tasks with
  | nil => exact ⟨numbered, rfl, rfl, fun _ _ _ => rfl⟩
  | cons doc rest ih =>
      rw [triggerAll]
      by_cases takes : answers.creation kbId doc.id = .notCreated
      · obtain ⟨numbers, length, count, counted⟩ := ih numbered
        have skipped : triggerReindexForDocument (answers.creation kbId doc.id) kbId doc tasks =
            (false, tasks) := by rw [takes]; rfl
        rw [skipped]
        refine ⟨numbers, ?_, ?_, ?_⟩
        · simpa [takes] using length
        · simpa [takes] using count
        · intro base sourceType sourceId
          simpa [takes] using counted base sourceType sourceId
      · obtain ⟨task, appended, isOpen, next, ofBase, ofType, ofId⟩ :=
          trigger_appends takes kbId doc numbered
        have success : (triggerReindexForDocument (answers.creation kbId doc.id) kbId doc tasks).1 =
            decide (answers.creation kbId doc.id = .done) := by
          cases created : answers.creation kbId doc.id <;> rfl
        obtain ⟨numbers, length, count, counted⟩ := ih (numbered_append numbered next)
        rw [appended, success]
        refine ⟨numbers, ?_, ?_, ?_⟩
        · rw [length, List.countP_cons_of_pos (by simpa using takes), List.length_append,
            List.length_singleton]
          omega
        · rw [List.countP_cons, count]
          simp only [decide_eq_true_eq]
          omega
        · intro base sourceType sourceId
          rw [counted, openTasks_append_one tasks isOpen, List.countP_cons, ofBase, ofType, ofId]
          simp only [ne_eq, takes, not_false_eq_true, true_and, decide_eq_true_eq]
          omega

/-! ### A round -/

theorem detect_cases (state : ReindexState) (answers : Answers) (kb : KbEntry) :
    (Readable state.detection (state.scanned answers kb) ∧
      ∃ docs, state.detect answers kb = some docs ∧
        docs.Perm ((state.staleScanned answers kb).map (fun point =>
          staleDocument state.detection point
            ((getStalenessScore state.detection point.payload).getD 0)))) ∨
    (¬ Readable state.detection (state.scanned answers kb) ∧
      state.detect answers kb = none) := by
  unfold ReindexState.detect ReindexState.staleScanned ReindexState.scanned
  cases reached : answers.reachable kb.id with
  | true => exact detectStaleDocuments_cases _ _ _ _
  | false => exact .inl ⟨by simp [Readable], [], rfl, by simp⟩

theorem countP_staleDocument {detection : Detection} {docs : List StaleDocument}
    {points : List KbPoint}
    (found : docs.Perm (points.map (fun point => staleDocument detection point
      ((getStalenessScore detection point.payload).getD 0))))
    (counts : StaleDocument → Bool) (chosen : KbPoint → Bool)
    (same : ∀ point score, counts (staleDocument detection point score) = chosen point) :
    docs.countP counts = points.countP chosen := by
  rw [found.countP_eq, List.countP_map]
  exact List.countP_congr (fun point _ => by simp [same])

/-- What a round that triggers the chunks makes of the tasks. -/
structure Grown (answers : Answers) (chunks : List (String × KbPoint))
    (before after : List EtlTask) : Prop where
  numbered : Numbered after
  length : after.length = before.length + chunks.countP answers.takes
  openTasks : ∀ kbId sourceType sourceId, Core.openTasks after kbId sourceType sourceId =
    Core.openTasks before kbId sourceType sourceId +
      tasksFor answers chunks kbId sourceType sourceId

theorem Grown.refl (answers : Answers) {tasks : List EtlTask} (numbered : Numbered tasks) :
    Grown answers [] tasks tasks :=
  ⟨numbered, rfl, fun _ _ _ => rfl⟩

theorem Grown.trans {answers : Answers} {first second : List (String × KbPoint)}
    {before middle after : List EtlTask} (start : Grown answers first before middle)
    (rest : Grown answers second middle after) : Grown answers (first ++ second) before after := by
  constructor
  · exact rest.numbered
  · rw [rest.length, start.length, List.countP_append]
    omega
  · intro kbId sourceType sourceId
    rw [rest.openTasks, start.openTasks, tasksFor, tasksFor, tasksFor, List.countP_append]
    omega

theorem triggered_singleton (state : ReindexState) (answers : Answers) (kb : KbEntry) :
    state.triggered answers [kb] =
      (state.staleScanned answers kb).map (fun point => (kb.id, point)) := by
  simp [ReindexState.triggered]

theorem triggered_cons (state : ReindexState) (answers : Answers) (kb : KbEntry)
    (kbs : List KbEntry) :
    state.triggered answers (kb :: kbs) =
      state.triggered answers [kb] ++ state.triggered answers kbs := by
  simp [ReindexState.triggered]

theorem triggerAll_grown {state : ReindexState} {answers : Answers} {kb : KbEntry}
    {docs : List StaleDocument} {tasks : List EtlTask} (numbered : Numbered tasks)
    (found : docs.Perm ((state.staleScanned answers kb).map (fun point =>
      staleDocument state.detection point
        ((getStalenessScore state.detection point.payload).getD 0)))) :
    Grown answers (state.triggered answers [kb]) tasks (triggerAll answers kb.id docs tasks).2 ∧
      (triggerAll answers kb.id docs tasks).1 = (state.triggered answers [kb]).countP
        (fun chunk => answers.creation chunk.1 chunk.2.id = .done) := by
  obtain ⟨numbers, length, count, counted⟩ :=
    triggerAll_triggered answers kb.id docs numbered
  rw [triggered_singleton]
  constructor
  · constructor
    · exact numbers
    · rw [length, List.countP_map]
      congr 1
      exact countP_staleDocument found _ _ (fun _ _ => rfl)
    · intro kbId sourceType sourceId
      rw [counted, tasksFor, List.countP_map]
      congr 1
      apply countP_staleDocument found
      intro point score
      simp [Answers.takes, KbPayload.isOf, staleDocument]
  · rw [count, List.countP_map]
    exact countP_staleDocument found _ _ (fun _ _ => rfl)

theorem checkKbs_grown (answers : Answers) (totalStale totalTriggered : Nat) (kbs : List KbEntry)
    (state : ReindexState) (numbered : Numbered state.tasks) :
    let through := kbs.takeWhile (fun kb => Readable state.detection (state.scanned answers kb))
    let after := checkKbs answers totalStale totalTriggered kbs state
    Grown answers (state.triggered answers through) state.tasks after.tasks ∧
      after.status.tasksTriggered = if through = kbs then
        totalTriggered + (state.triggered answers kbs).length
      else state.status.tasksTriggered := by
  induction kbs generalizing state totalStale totalTriggered with
  | nil => exact ⟨Grown.refl answers numbered, rfl⟩
  | cons kb rest ih =>
      rcases detect_cases state answers kb with
        ⟨readable, docs, detected, found⟩ | ⟨unreadable, failed⟩
      · obtain ⟨grown, -⟩ := triggerAll_grown numbered found
        have one : docs.length = (state.triggered answers [kb]).length := by
          rw [found.length_eq, triggered_singleton, List.length_map, List.length_map]
        have through : (kb :: rest).takeWhile
              (fun kb => Readable state.detection (state.scanned answers kb)) =
            kb :: rest.takeWhile
              (fun kb => Readable state.detection (state.scanned answers kb)) :=
          List.takeWhile_cons_of_pos (decide_eq_true readable)
        simp only [checkKbs, detected, through, List.cons.injEq, true_and]
        obtain ⟨others, reported⟩ := ih (totalStale + docs.length) (totalTriggered + docs.length)
          { state with
            tasks := (triggerAll answers kb.id docs state.tasks).2
            status := { state.status with
              perKb := state.status.perKb.set kb.id ⟨docs.length, docs.length⟩ } }
          grown.numbered
        constructor
        · rw [triggered_cons]
          exact grown.trans others
        · rw [triggered_cons, List.length_append, ← one, ← Nat.add_assoc]
          exact reported
      · have through : (kb :: rest).takeWhile
            (fun kb => Readable state.detection (state.scanned answers kb)) = [] :=
          List.takeWhile_cons_of_neg (by simpa using unreadable)
        simp only [checkKbs, failed, through]
        exact ⟨Grown.refl answers numbered, by simp⟩

theorem reindexCheck_grown (answers : Answers) {state : ReindexState}
    (numbered : Numbered state.tasks) :
    Grown answers (state.triggered answers (state.checked answers)) state.tasks
        (reindexCheck answers state).tasks ∧
      (reindexCheck answers state).status.tasksTriggered =
        if answers.listed ∧ state.checked answers = state.kbs then
          (state.triggered answers (state.checked answers)).length
        else state.status.tasksTriggered := by
  unfold reindexCheck ReindexState.checked
  cases listed : answers.listed with
  | false => exact ⟨Grown.refl answers numbered, by simp⟩
  | true =>
      obtain ⟨grown, reported⟩ := checkKbs_grown answers 0 0 state.kbs state numbered
      refine ⟨grown, ?_⟩
      rw [if_pos rfl, if_pos rfl, reported]
      by_cases whole : state.kbs.takeWhile
          (fun kb => Readable state.detection (state.scanned answers kb)) = state.kbs
      · rw [if_pos whole, if_pos ⟨rfl, whole⟩, whole, Nat.zero_add]
      · rw [if_neg whole, if_neg (fun both => whole both.2)]

theorem countP_takes (answers : Answers) (chunks : List (String × KbPoint)) :
    chunks.countP answers.takes =
      chunks.countP (fun chunk => answers.creation chunk.1 chunk.2.id = .done) +
        chunks.countP (fun chunk => answers.creation chunk.1 chunk.2.id = .notUpdated) := by
  induction chunks with
  | nil => rfl
  | cons chunk rest ih =>
      rw [List.countP_cons, List.countP_cons, List.countP_cons, ih, Answers.takes]
      cases answers.creation chunk.1 chunk.2.id <;> simp <;> omega

theorem reindexed_check_iff (answers : Answers) {state : ReindexState}
    (numbered : Numbered state.tasks) :
    Reindexed state (reindexCheck answers state) (.check answers) ↔
      OneChunkEach state (.check answers) := by
  obtain ⟨grown, reported⟩ := reindexCheck_grown answers numbered
  simp only [Reindexed, OneChunkEach, OneTask, grown.openTasks]
  apply and_congr_right
  intro _
  rw [grown.length, reported, Nat.add_left_cancel_iff]
  by_cases whole : answers.listed ∧ state.checked answers = state.kbs
  · rw [if_pos whole, if_pos whole, List.countP_eq_length]
  · rw [if_neg whole, if_neg whole]

theorem reindexed_force_iff (kbId : String) (answers : Answers) {state : ReindexState}
    (numbered : Numbered state.tasks) :
    Reindexed state (forceReindexStale answers kbId state) (.force kbId answers) ↔
      OneChunkEach state (.force kbId answers) := by
  simp only [Reindexed, OneChunkEach, OneTask]
  apply forall_congr'
  intro kb
  apply imp_congr_right
  intro known
  obtain rfl : kb.id = kbId := by simpa using List.find?_some known
  rcases detect_cases state answers kb with
    ⟨readable, docs, detected, found⟩ | ⟨unreadable, failed⟩
  · obtain ⟨grown, count⟩ := triggerAll_grown numbered found
    simp only [forceReindexStale, known, detected, if_pos readable, grown.openTasks, grown.length,
      Option.some.injEq, forall_eq', Nat.add_left_cancel_iff]
    apply and_congr_right
    intro _
    rw [count, countP_takes, Nat.add_eq_left, List.countP_eq_zero]
    simp
  · simp [forceReindexStale, known, failed, if_neg unreadable, tasksFor]

theorem ReindexStep.perform_numbered {state next : ReindexState} {action : ReindexStep}
    (numbered : Numbered state.tasks) (stepped : action.perform state = some next) :
    Numbered next.tasks := by
  cases action with
  | check answers =>
      obtain rfl := Option.some.inj stepped
      exact (reindexCheck_grown answers numbered).1.numbered
  | force kbId answers =>
      obtain rfl := Option.some.inj stepped
      unfold forceReindexStale
      cases known : state.kbs.find? (fun kb => kb.id = kbId) with
      | none => exact numbered
      | some kb =>
          cases detected : state.detect answers kb with
          | none => simpa only [detected] using numbered
          | some docs =>
              simpa only [detected] using (triggerAll_triggered answers kbId docs numbered).numbered
  | finish taskId status =>
      obtain rfl := Option.some.inj stepped
      exact numbered_updateTask numbered taskId status
  | world now kbs points =>
      obtain rfl := Option.some.inj stepped
      exact numbered

theorem reindexed_iff {state next : ReindexState} {action : ReindexStep}
    (numbered : Numbered state.tasks) (stepped : action.perform state = some next) :
    Reindexed state next action ↔ OneChunkEach state action := by
  cases action with
  | check answers =>
      obtain rfl := Option.some.inj stepped
      exact reindexed_check_iff answers numbered
  | force kbId answers =>
      obtain rfl := Option.some.inj stepped
      exact reindexed_force_iff kbId answers numbered
  | finish taskId status => exact Iff.rfl
  | world now kbs points => exact Iff.rfl

/-- In a run from an empty task table every round and every forced reindexing leaves each stale
document with one unfinished task exactly if each of these documents had one before and none of its
chunks was scanned as stale, or had none and one was. -/
theorem one_task_each_iff {start state : ReindexState}
    {events : List (Event ReindexState ReindexStep)} (empty : start.tasks = [])
    (run : Run (fun state action => ReindexStep.perform state action) start events state) :
    (∀ event ∈ events, Reindexed event.before event.after event.action) ↔
      ∀ event ∈ events, OneChunkEach event.before event.action := by
  apply run.forall_event_iff (fun state => Numbered state.tasks)
    (fun event => Reindexed event.before event.after event.action)
    (fun event => OneChunkEach event.before event.action)
  · rw [empty]
    intro task member
    cases member
  · intro state action next numbered stepped
    exact reindexed_iff numbered stepped
  · intro state action next numbered stepped _
    exact action.perform_numbered numbered stepped

def stalePage (id : String) : KbPoint :=
  { id := id
    payload :=
      { kbId := some "kb", sourceType := some "confluence", sourceId := some "page"
        lastUpdated := some (.seconds 1) } }

def stalePages (ids : List String) : ReindexState :=
  { kbs := [⟨"kb", "pages"⟩], points := fun _ => ids.map stalePage,
    detection := { now := 8640001, float := fun _ => none } }

theorem one_task_each_page :
    (reindexCheck {} (stalePages ["c1"])).tasks.length = 1 ∧
      ∀ event ∈ [(⟨stalePages ["c1"], .check {}, reindexCheck {} (stalePages ["c1"])⟩ :
        Event ReindexState ReindexStep)], Reindexed event.before event.after event.action := by
  have run : Run (fun state action => ReindexStep.perform state action) (stalePages ["c1"])
      [⟨stalePages ["c1"], .check {}, reindexCheck {} (stalePages ["c1"])⟩] _ :=
    Run.cons rfl Run.nil
  refine ⟨by decide +kernel, (one_task_each_iff rfl run).mpr ?_⟩
  intro event member
  obtain rfl := List.mem_singleton.mp member
  constructor
  · intro kb known sourceType sourceId stale
    obtain ⟨point, among, -, ⟨rfl, rfl⟩, -⟩ := stale
    obtain rfl := List.mem_singleton.mp known
    obtain rfl := List.mem_singleton.mp among
    decide +kernel
  · decide +kernel

/-- A page with two stale chunks gets two tasks in one round. -/
theorem two_tasks_in_a_round :
    ∃ events state, Run (fun state action => ReindexStep.perform state action)
      (stalePages ["c1", "c2"]) events state ∧
      ¬ ∀ event ∈ events, Reindexed event.before event.after event.action := by
  refine ⟨_, _, Run.nil.snoc (.check {}) rfl, ?_⟩
  intro reindexed
  have round := (reindexed _ (List.mem_singleton_self _)).1 ⟨"kb", "pages"⟩
    List.mem_cons_self "confluence" "page" ⟨stalePage "c1", List.mem_cons_self, rfl, by decide,
      by decide +kernel⟩
  have two : openTasks (reindexCheck {} (stalePages ["c1", "c2"])).tasks "kb" "confluence" "page" =
      2 := by decide +kernel
  exact absurd (two.symm.trans round) (by decide)

end RagSystem.Core
