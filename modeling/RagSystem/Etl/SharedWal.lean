import RagSystem.Etl.CollectDocuments
import RagSystem.Etl.WalConcurrency
import RagSystem.Transition.LastWrite

/-! One file for the extractors and the manager of the write-ahead log
(`etl/extractors/base_extractor.py`, `etl/indexer/wal_manager.py`). An extractor loads the file
once and saves its copy of it; the manager reads the file again for every update. Both write the
whole document, and only the manager takes the lock. -/

namespace RagSystem.Etl.SharedWal

open Transition Wal

abbrev WalFile := Dict String Json

/-- `PIPELINE_CONFLUENCE`, `PIPELINE_JIRA` and `PIPELINE_GITLAB`. -/
def pipelineOf : SourceName → String
  | .confluence => "confluence_extractor"
  | .jira => "jira_extractor"
  | .gitlab => "gitlab_extractor"

section Extractors

/-- The default of the extractor's own `_load_wal`. -/
def walDefault : SourceName → WalFile
  | .confluence => Dict.ofList [("last_run", .null), ("pages_hash", .obj [])]
  | .jira =>
      Dict.ofList [("last_run", .null), ("last_issue_id", .null), ("processed_issues", .arr [])]
  | .gitlab => Dict.ofList [("last_run", .null), ("projects", .obj [])]

def loadWal (source : SourceName) (readFails : Bool) : Option WalFile → WalFile
  | some data => if readFails then walDefault source else data
  | none => walDefault source

/-- What `run` does to the copy before the first object. -/
def startRun (source : SourceName) (copy : WalFile) : WalFile :=
  match source, copy.get? "processed_issues" with
  | .jira, none => copy.set "processed_issues" (.arr [])
  | _, _ => copy

/-- What an extractor comes to, as far as the log is concerned. -/
inductive SourceRecord
  | page (pageId newHash : String)
  | issue (key : String)
  | project (projectId : String) (lastCommit : Option (String × String))
  deriving DecidableEq, Repr

def SourceRecord.source : SourceRecord → SourceName
  | .page _ _ => .confluence
  | .issue _ => .jira
  | .project _ _ => .gitlab

/-- The run ends with an exception, goes on without saving, or sets these keys of its copy and saves
it. -/
inductive Handled
  | raised
  | passed
  | saved (bindings : WalFile)

section Handling

variable (now : String) (copy : WalFile)

/-- `self.wal_data.setdefault("pages_hash", {})[page_id] = new_hash`, then the time. -/
def recordPage (pageId newHash : String) (pages : List (String × Json)) : Handled :=
  .saved (Dict.ofList [
    ("pages_hash", .obj ((Dict.ofList pages).set pageId (.str newHash)).entries),
    ("last_run", .str now)])

def handlePage (pageId newHash : String) : Handled :=
  match copy.get? "pages_hash" with
  | none => recordPage now pageId newHash []
  | some (.obj pages) =>
      match (Dict.ofList pages).get? pageId with
      | some (.str oldHash) =>
          if oldHash = newHash then .passed else recordPage now pageId newHash pages
      | _ => recordPage now pageId newHash pages
  | some .null => .passed
  | some _ => .raised

def isStr (text : String) : Json → Bool
  | .str other => other = text
  | _ => false

def handleIssue (key : String) : Handled :=
  match copy.get? "processed_issues" with
  | some (.arr processed) =>
      if processed.any (isStr key) then .passed
      else
        .saved (Dict.ofList [
          ("processed_issues", .arr (processed ++ [.str key])),
          ("last_run", .str now)])
  | some (.obj _) => .passed
  | some (.str _) => .passed
  | none => .passed
  | some _ => .raised

def projectWal (projects : List (String × Json)) (projectId : String) :
    Option (List (String × Json)) :=
  match (Dict.ofList projects).get? projectId with
  | none => some []
  | some (.obj entry) => some entry
  | some _ => none

/-- `_update_wal_commit`. -/
def updateWalCommit (projectId sha date : String) : Handled :=
  let projects : Option (List (String × Json)) :=
    match copy.get? "projects" with
    | none => some []
    | some (.obj projects) => some projects
    | some _ => none
  match projects with
  | none => .raised
  | some projects =>
      match projectWal projects projectId with
      | none => .raised
      | some entry =>
          let updated := (Dict.ofList entry).setAll
            [("last_commit_sha", .str sha), ("last_commit_date", .str date)]
          .saved (Dict.ofList [
            ("projects",
              .obj ((Dict.ofList projects).set projectId (.obj updated.entries)).entries),
            ("last_run", .str now)])

def handleObject (fails : Bool) (object : SourceRecord) : Handled :=
  match object with
  | .page pageId newHash =>
      match handlePage now copy pageId newHash with
      | .saved bindings => if fails then .passed else .saved bindings
      | handled => handled
  | .issue key =>
      match handleIssue now copy key with
      | .saved bindings => if fails then .passed else .saved bindings
      | handled => handled
  | .project projectId lastCommit =>
      if fails then .raised
      else
        match lastCommit with
        | some (sha, date) => updateWalCommit now copy projectId sha date
        | none => .passed

end Handling

end Extractors

section Manager

/-- `data.get(pipeline, {})` where it is an object; other values have no `get`. -/
def sectionOf? (data : WalFile) (pipeline : String) : Option Checkpoint :=
  match data.get? pipeline with
  | none => some ∅
  | some (.obj entries) => some (Dict.ofList entries)
  | some _ => none

def readWal (readFails : Bool) (file : Option WalFile) : WalFile :=
  if readFails then ∅ else file.getD ∅

/-- The argument of `set_checkpoint`, from what the hash state looks up. -/
def updatesOf (formats : Formats) (update : Wal.Update) (data : WalFile) : Option Checkpoint :=
  match update with
  | .hashState pipeline _ _ =>
      (sectionOf? data pipeline).bind fun checkpoint =>
        update.updates formats (Dict.ofList [(pipeline, checkpoint)])
  | _ => update.updates formats ∅

/-- The `update` of `set_checkpoint`: the section with the new keys; `none` raises. -/
def setCheckpoint (data : WalFile) (pipeline : String) (updates : Checkpoint) : Option WalFile :=
  (sectionOf? data pipeline).map fun checkpoint =>
    Dict.ofList [(pipeline, .obj (checkpoint.setAll updates.entries).entries)]

end Manager

inductive ExtractorPhase
  | created
  | running (copy : WalFile)
  | finished
  | raised

inductive UpdatePhase
  | started
  | prepared (updates : Checkpoint)
  | entered (updates : Checkpoint) (lock : Option Nat)
  | loaded (updates : Checkpoint) (lock : Option Nat) (data : WalFile)
  | written (lock : Option Nat)
  | finished
  | raised

inductive Task
  | extractor (source : SourceName) (phase : ExtractorPhase)
  | manager (update : Wal.Update) (now : Rat) (phase : UpdatePhase)

def Task.copy? : Task → Option WalFile
  | .extractor _ (.running copy) => some copy
  | .manager _ _ (.loaded _ _ data) => some data
  | _ => none

def Task.over : Task → Bool
  | .extractor _ .finished => true
  | .extractor _ .raised => true
  | .manager _ _ .finished => true
  | .manager _ _ .raised => true
  | _ => false

def Task.past : Task → Bool
  | .manager _ _ (.written _) => true
  | task => task.over

inductive Operation
  | extract (source : SourceName)
  | update (own : Wal.Update) (now : Rat)

def Operation.task : Operation → Task
  | .extract source => .extractor source .created
  | .update own now => .manager own now .started

/-- What a turn meets. An extractor without another object is at its end, or told to shut down. -/
structure Input where
  readFails : Bool := false
  stale : Bool := false
  object : Option SourceRecord := none
  fails : Bool := false
  now : Rat := 0

abbrev SharedLog := Log (Option WalFile)

/-- A copy of the document, and the keys of it that a pipeline sets before it writes all of it. -/
structure Write where
  pipeline : String
  copy : WalFile
  bindings : WalFile

def Write.document (write : Write) : WalFile := write.copy.setAll write.bindings.entries

section Turns

variable (formats : Formats) (locking : Bool)

def extractorTurn (input : Input) (source : SourceName) (log : SharedLog) :
    ExtractorPhase → Option (SharedLog × ExtractorPhase)
  | .created => some (log, .running (startRun source (loadWal source input.readFails log.store)))
  | .running copy =>
      match input.object with
      | none => some (log, .finished)
      | some object =>
          if object.source = source then
            match handleObject (formats.isoformat input.now) copy input.fails object with
            | .raised => some (log, .raised)
            | .passed => some (log, .running copy)
            | .saved bindings =>
                let saved := copy.setAll bindings.entries
                some ({ log with store := some saved }, .running saved)
          else none
  | .finished => none
  | .raised => none

def managerTurn (input : Input) (update : Wal.Update) (now : Rat) (log : SharedLog) :
    UpdatePhase → Option (SharedLog × UpdatePhase)
  | .started =>
      match updatesOf formats update (readWal input.readFails log.store) with
      | none => some (log, .raised)
      | some updates => some (log, .prepared updates)
  | .prepared updates =>
      if locking then
        if log.held ∧ ¬ input.stale then none
        else
          let file := if input.stale then log.lockFile + 1 else log.lockFile
          some ({ log with held := true, lockFile := file }, .entered updates (some file))
      else some (log, .entered updates none)
  | .entered updates lock => some (log, .loaded updates lock (readWal input.readFails log.store))
  | .loaded updates lock data =>
      match setCheckpoint data update.pipeline (stamp formats now updates) with
      | none => some (log.release lock, .raised)
      | some bindings =>
          some ({ log with store := some (data.setAll bindings.entries) }, .written lock)
  | .written lock => some (log.release lock, .finished)
  | .finished => none
  | .raised => none

def Task.turn (input : Input) (task : Task) (log : SharedLog) : Option (SharedLog × Task) :=
  match task with
  | .extractor source phase =>
      (extractorTurn formats input source log phase).map fun result =>
        (result.1, .extractor source result.2)
  | .manager update now phase =>
      (managerTurn formats locking input update now log phase).map fun result =>
        (result.1, .manager update now result.2)

def sharedStep : Pool SharedLog Task → Move Operation Input → Option (Pool SharedLog Task) :=
  interleave Operation.task (Task.turn formats locking)

def Task.write? (input : Input) : Task → Option Write
  | .extractor source (.running copy) =>
      (input.object.filter fun object => object.source = source).bind fun object =>
        match handleObject (formats.isoformat input.now) copy input.fails object with
        | .saved bindings => some ⟨pipelineOf source, copy, bindings⟩
        | _ => none
  | .manager update now (.loaded updates _ data) =>
      (setCheckpoint data update.pipeline (stamp formats now updates)).map fun bindings =>
        ⟨update.pipeline, data, bindings⟩
  | _ => none

end Turns

/-! A file that holds nothing but sections is the manager's own document, and updated as one. -/

section Documents

variable {formats : Formats}

def ofDocument (data : Wal.Document) : WalFile :=
  ⟨data.entries.map (fun entry => (entry.1, .obj entry.2.entries)), by
    rw [List.map_map]
    exact data.nodup⟩

theorem get?_ofDocument (data : Wal.Document) (name : String) :
    (ofDocument data).get? name =
      (data.get? name).map (fun checkpoint => .obj checkpoint.entries) := by
  simp [Dict.get?, ofDocument, List.find?_map, Function.comp_def]

theorem sectionOf?_ofDocument (data : Wal.Document) (pipeline : String) :
    sectionOf? (ofDocument data) pipeline = some (sectionOf data pipeline) := by
  unfold sectionOf? sectionOf
  rw [get?_ofDocument]
  cases data.get? pipeline with
  | none => rfl
  | some checkpoint => exact congrArg some (Dict.ofList_entries checkpoint)

theorem updatesOf_ofDocument (update : Wal.Update) (data : Wal.Document) :
    updatesOf formats update (ofDocument data) = update.updates formats data := by
  cases update with
  | hashState pipeline docId chunkHash =>
      have seen : getCheckpoint (Dict.ofList [(pipeline, sectionOf data pipeline)]) pipeline
          (some "hash_map") = getCheckpoint data pipeline (some "hash_map") := by
        simp [getCheckpoint, sectionOf, Dict.get?_ofList_singleton]
      simp only [updatesOf, sectionOf?_ofDocument, Option.bind_some, Wal.Update.updates, seen]
  | _ => rfl

theorem setCheckpoint_ofDocument (data : Wal.Document) (pipeline : String) (updates : Checkpoint) :
    ∃ bindings, setCheckpoint (ofDocument data) pipeline updates = some bindings ∧
      ∀ name, ((ofDocument data).setAll bindings.entries).get? name =
        (ofDocument (merge pipeline updates data)).get? name := by
  refine ⟨_, by rw [setCheckpoint, sectionOf?_ofDocument]; rfl, ?_⟩
  intro name
  rw [Dict.get?_setAll_entries, get?_ofDocument, get?_ofDocument, get?_merge,
    Dict.get?_ofList_singleton]
  by_cases own : name = pipeline
  · simp [own]
  · simp [own]

end Documents

/-! The section of a pipeline is what the manager keeps under its name, and for an extractor the
keys of its copy as well. -/

def extractorKeys : SourceName → List String
  | .confluence => ["pages_hash", "last_run"]
  | .jira => ["processed_issues", "last_run"]
  | .gitlab => ["projects", "last_run"]

def InSection (pipeline key : String) : Prop :=
  key = pipeline ∨ ∃ source, pipelineOf source = pipeline ∧ key ∈ extractorKeys source

def notedLastRun : Option Json → Option String
  | some (.obj entries) =>
      match (Dict.ofList entries).get? "last_run" with
      | some (.str lastRun) => some lastRun
      | _ => none
  | _ => none

abbrev SharedEvent := Event (Pool SharedLog Task) (Move Operation Input)

def valueAt (file : Option WalFile) (key : String) : Option Json := file.bind (·.get? key)

section Sections

variable (formats : Formats)

def writeOf (event : SharedEvent) : Option Write :=
  match event.action with
  | .spawn _ => none
  | .advance index input => (event.before.tasks[index]?).bind (Task.write? formats input)

def ownValue (pipeline key : String) (event : SharedEvent) : Option (Option Json) :=
  ((writeOf formats event).filter fun write => write.pipeline = pipeline).bind fun write =>
    (write.bindings.get? key).map some

/-- The section of the pipeline is the one that its own last update wrote. -/
def OwnSection (start : Pool SharedLog Task) (events : List SharedEvent)
    (last : Pool SharedLog Task) (pipeline : String) : Prop :=
  ∀ key, InSection pipeline key →
    valueAt last.shared.store key =
      latest (ownValue formats pipeline key) (valueAt start.shared.store key) events

/-- The write leaves the section of the pipeline to the pipeline. -/
structure Write.Spares (write : Write) (file : Option WalFile) (pipeline : String) : Prop where
  /-- The copy that is written back is not stale. -/
  copy : ∀ key, InSection pipeline key → write.bindings.get? key = none →
    write.copy.get? key = valueAt file key
  /-- No other pipeline sets a key of the section, unless to what it is. -/
  others : write.pipeline ≠ pipeline → ∀ key value, InSection pipeline key →
    write.bindings.get? key = some value → valueAt file key = some value

def Spares (pipeline : String) (event : SharedEvent) : Prop :=
  ∀ write, writeOf formats event = some write →
    write.Spares event.before.shared.store pipeline

end Sections

section Framed

variable {formats : Formats} {locking : Bool}

theorem get?_document (write : Write) (key : String) :
    write.document.get? key = (write.bindings.get? key).or (write.copy.get? key) :=
  Dict.get?_setAll_entries write.copy write.bindings key

theorem release_store (log : SharedLog) (lock : Option Nat) :
    (log.release lock).store = log.store :=
  Log.release_store log lock

theorem store_of_turn {input : Input} {task later : Task} {log after : SharedLog}
    (turned : task.turn formats locking input log = some (after, later)) :
    after.store = ((task.write? formats input).map Write.document).or log.store := by
  cases task with
  | extractor source phase =>
      obtain ⟨⟨next, ended⟩, moved, same⟩ := Option.map_eq_some_iff.mp turned
      obtain ⟨rfl, -⟩ := Prod.mk.inj same
      cases phase with
      | created =>
          obtain ⟨rfl, -⟩ := Prod.mk.inj (Option.some.inj moved)
          rfl
      | running copy =>
          simp only [extractorTurn] at moved
          split at moved
          · rename_i none
            obtain ⟨rfl, -⟩ := Prod.mk.inj (Option.some.inj moved)
            simp [Task.write?, none]
          · rename_i object some
            split at moved
            · rename_i own
              have kept : input.object.filter (fun object => object.source = source) =
                  Option.some object := by simp [some, own]
              simp only [Task.write?, kept, Option.bind_some]
              split at moved <;> rename_i handled <;>
                obtain ⟨rfl, -⟩ := Prod.mk.inj (Option.some.inj moved) <;>
                simp [handled, Write.document]
            · cases moved
      | finished => cases moved
      | raised => cases moved
  | manager update now phase =>
      obtain ⟨⟨next, ended⟩, moved, same⟩ := Option.map_eq_some_iff.mp turned
      obtain ⟨rfl, -⟩ := Prod.mk.inj same
      cases phase with
      | started =>
          simp only [managerTurn] at moved
          split at moved <;> obtain ⟨rfl, -⟩ := Prod.mk.inj (Option.some.inj moved) <;> rfl
      | prepared updates =>
          simp only [managerTurn] at moved
          split at moved
          · split at moved
            · cases moved
            · obtain ⟨rfl, -⟩ := Prod.mk.inj (Option.some.inj moved)
              rfl
          · obtain ⟨rfl, -⟩ := Prod.mk.inj (Option.some.inj moved)
            rfl
      | entered updates lock =>
          obtain ⟨rfl, -⟩ := Prod.mk.inj (Option.some.inj moved)
          rfl
      | loaded updates lock data =>
          simp only [managerTurn] at moved
          split at moved <;> rename_i made <;>
            obtain ⟨rfl, -⟩ := Prod.mk.inj (Option.some.inj moved) <;>
            simp [Task.write?, made, Write.document, release_store]
      | written lock =>
          obtain ⟨rfl, -⟩ := Prod.mk.inj (Option.some.inj moved)
          exact release_store log lock
      | finished => cases moved
      | raised => cases moved

theorem store_of_step {pool next : Pool SharedLog Task} {move : Move Operation Input}
    (stepped : sharedStep formats locking pool move = some next) :
    next.shared.store =
      ((writeOf formats ⟨pool, move, next⟩).map Write.document).or pool.shared.store := by
  cases move with
  | spawn operation =>
      rw [interleave_spawn stepped]
      rfl
  | advance index input =>
      obtain ⟨task, shared, later, found, turned, rfl⟩ := interleave_advance stepped
      simp only [writeOf, found, Option.bind_some]
      exact store_of_turn turned

theorem spares_iff {event : SharedEvent} {pipeline : String}
    (stepped : sharedStep formats locking event.before event.action = some event.after) :
    Spares formats pipeline event ↔ ∀ key, InSection pipeline key →
      valueAt event.after.shared.store key =
        (ownValue formats pipeline key event).getD (valueAt event.before.shared.store key) := by
  have store := store_of_step stepped
  cases wrote : writeOf formats event with
  | none =>
      have same : event.after.shared.store = event.before.shared.store := by
        simpa [wrote] using store
      simp [Spares, ownValue, wrote, same]
  | some write =>
      have after : ∀ key, valueAt event.after.shared.store key =
          (write.bindings.get? key).or (write.copy.get? key) := by
        intro key
        have written : event.after.shared.store = some write.document := by
          simpa [wrote] using store
        rw [written, ← get?_document]
        rfl
      have own : ∀ key, ownValue formats pipeline key event =
          if write.pipeline = pipeline then (write.bindings.get? key).map some else none := by
        intro key
        by_cases same : write.pipeline = pipeline
        · simp [ownValue, wrote, same, Option.filter]
        · simp [ownValue, wrote, same, Option.filter]
      simp only [Spares, wrote, Option.some.injEq, forall_eq', after, own]
      constructor
      · intro spares key inside
        cases bound : write.bindings.get? key with
        | none => simpa using spares.copy key inside bound
        | some value =>
            by_cases same : write.pipeline = pipeline
            · simp [same]
            · simp [same, spares.others same key value inside bound]
      · intro left
        constructor
        · intro key inside unbound
          simpa [unbound] using left key inside
        · intro other key value inside bound
          simpa [other, bound, eq_comm] using left key inside

/-- In every state of a run the section of a pipeline is the one that its own last update wrote,
exactly if every write of the run leaves that section to it: no copy is written back that is stale
there, and no other pipeline sets one of its keys. -/
theorem own_section_iff {start last : Pool SharedLog Task} {events : List SharedEvent}
    (run : Run (sharedStep formats locking) start events last) (pipeline : String) :
    (∀ earlier reached, earlier <+: events →
      Run (sharedStep formats locking) start earlier reached →
      OwnSection formats start earlier reached pipeline) ↔
    ∀ event ∈ events, Spares formats pipeline event := by
  have keys := fun key =>
    run.latest_iff (fun pool => valueAt pool.shared.store key) (ownValue formats pipeline key)
  constructor
  · intro framed event member
    rw [spares_iff (run.event_of_mem member).1]
    intro key inside
    refine (keys key).mp ?_ event member
    intro earlier reached within ran
    exact framed earlier reached within ran key inside
  · intro spare earlier reached within ran key inside
    refine (keys key).mpr ?_ earlier reached within ran
    intro event member
    exact (spares_iff (run.event_of_mem member).1).mp (spare event member) key inside

/-- Two updates of the indexing, the second waiting for the lock of the first. -/
theorem own_section_of_indexing :
    let formats : Formats := ⟨fun _ => "", fun _ => none, fun _ => "wednesday", fun _ => none⟩
    let start : Pool SharedLog Task :=
      ⟨{ store := some (Dict.ofList [("indexing", .obj [("last_run", .str "monday")])]) }, []⟩
    let moves : List (Move Operation Input) := [
      .spawn (.update (.lastRun "indexing" (some "tuesday") 0) 0),
      .spawn (.update (.offset "indexing" 50) 0),
      .advance 0 {}, .advance 1 {}, .advance 0 {}, .advance 0 {}, .advance 0 {}, .advance 0 {},
      .advance 1 {}, .advance 1 {}, .advance 1 {}, .advance 1 {}]
    let events := (record (sharedStep formats true) start moves).getD []
    OwnSection formats start events (final start events) "indexing" := by
  intro formats start moves events
  have run : Run (sharedStep formats true) start events (final start events) :=
    run_of_isSome (by decide +kernel)
  have owns : events.all (fun event => (writeOf formats event).all fun write =>
      write.pipeline = "indexing" ∧ (write.bindings.get? "indexing").isSome) = true := by
    decide +kernel
  refine (own_section_iff run "indexing").mpr ?_ events _ (List.prefix_refl _) run
  intro event member write wrote
  have own := List.all_eq_true.mp owns event member
  simp only [wrote, Option.all_some, decide_eq_true_eq] at own
  constructor
  · intro key inside unbound
    rcases inside with rfl | ⟨source, named, -⟩
    · simp [unbound] at own
    · cases source <;> simp [pipelineOf] at named
  · intro other
    exact absurd own.1 other

def Ended (pool : Pool SharedLog Task) : Prop := ∀ task ∈ pool.tasks, task.over = true

/-- A page is saved from a copy that was loaded before the last run of the indexing was noted. -/
theorem page_restores_indexing :
    ¬ ∀ (formats : Formats) (locking : Bool) (start last : Pool SharedLog Task)
      (events : List SharedEvent),
        Run (sharedStep formats locking) start events last → Ended last →
        ∀ pipeline, OwnSection formats start events last pipeline := by
  intro framed
  let formats : Formats := ⟨fun _ => "", fun _ => none, fun _ => "wednesday", fun _ => none⟩
  let start : Pool SharedLog Task :=
    ⟨{ store := some (Dict.ofList [("indexing", .obj [("last_run", .str "monday")])]) }, []⟩
  let moves : List (Move Operation Input) := [
    .spawn (.extract .confluence), .advance 0 {},
    .spawn (.update (.lastRun "indexing" (some "tuesday") 0) 0),
    .advance 1 {}, .advance 1 {}, .advance 1 {}, .advance 1 {}, .advance 1 {},
    .advance 0 { object := some (.page "7" "hash") }, .advance 0 {}]
  let events := (record (sharedStep formats true) start moves).getD []
  have ended : (final start events).tasks.all Task.over = true := by decide +kernel
  have own := framed formats true start (final start events) events
    (run_of_isSome (by decide +kernel)) (fun task => List.all_eq_true.mp ended task) "indexing"
    "indexing" (Or.inl rfl)
  have differ : notedLastRun (valueAt (final start events).shared.store "indexing") ≠
      notedLastRun (latest (ownValue formats "indexing" "indexing")
        (valueAt start.shared.store "indexing") events) := by
    decide +kernel
  exact differ (congrArg notedLastRun own)

end Framed

/-! The copy of a task that nobody writes behind is not stale. -/

section Alone

variable {formats : Formats} {locking : Bool} {pool last : Pool SharedLog Task} {index : Nat}
  {events : List SharedEvent}

/-- The task holds the document that is in the file, or will not write any more. -/
def Current (pool : Pool SharedLog Task) (index : Nat) : Prop :=
  ∃ task, pool.tasks[index]? = some task ∧
    (task.past = true ∨ ∃ data, task.copy? = some data ∧ pool.shared.store = some data)

theorem copy_of_write? {task : Task} {input : Input} {write : Write}
    (writes : task.write? formats input = some write) :
    task.copy? = some write.copy ∧ task.past = false := by
  cases task with
  | extractor source phase =>
      cases phase with
      | running copy =>
          obtain ⟨object, -, handled⟩ := Option.bind_eq_some_iff.mp writes
          split at handled
          · obtain rfl := Option.some.inj handled
            exact ⟨rfl, rfl⟩
          · cases handled
      | _ => cases writes
  | manager update now phase =>
      cases phase with
      | loaded updates lock data =>
          obtain ⟨bindings, -, rfl⟩ := Option.map_eq_some_iff.mp writes
          exact ⟨rfl, rfl⟩
      | _ => cases writes

theorem current_of_turn {input : Input} {task later : Task} {log after : SharedLog}
    (turned : task.turn formats locking input log = some (after, later))
    (current : task.past = true ∨ ∃ data, task.copy? = some data ∧ log.store = some data) :
    later.past = true ∨ ∃ data, later.copy? = some data ∧ after.store = some data := by
  cases task with
  | extractor source phase =>
      obtain ⟨⟨next, ended⟩, moved, same⟩ := Option.map_eq_some_iff.mp turned
      obtain ⟨rfl, rfl⟩ := Prod.mk.inj same
      cases phase with
      | created => simp [Task.past, Task.over, Task.copy?] at current
      | running copy =>
          have stands : log.store = some copy := by
            simpa [Task.past, Task.over, Task.copy?] using current
          simp only [extractorTurn] at moved
          split at moved
          · obtain ⟨rfl, rfl⟩ := Prod.mk.inj (Option.some.inj moved)
            exact Or.inl rfl
          · split at moved
            · split at moved
              · obtain ⟨rfl, rfl⟩ := Prod.mk.inj (Option.some.inj moved)
                exact Or.inl rfl
              · obtain ⟨rfl, rfl⟩ := Prod.mk.inj (Option.some.inj moved)
                exact Or.inr ⟨copy, rfl, stands⟩
              · obtain ⟨rfl, rfl⟩ := Prod.mk.inj (Option.some.inj moved)
                exact Or.inr ⟨_, rfl, rfl⟩
            · cases moved
      | finished => cases moved
      | raised => cases moved
  | manager update now phase =>
      obtain ⟨⟨next, ended⟩, moved, same⟩ := Option.map_eq_some_iff.mp turned
      obtain ⟨rfl, rfl⟩ := Prod.mk.inj same
      cases phase with
      | started => simp [Task.past, Task.over, Task.copy?] at current
      | prepared updates => simp [Task.past, Task.over, Task.copy?] at current
      | entered updates lock => simp [Task.past, Task.over, Task.copy?] at current
      | loaded updates lock data =>
          simp only [managerTurn] at moved
          split at moved <;> obtain ⟨rfl, rfl⟩ := Prod.mk.inj (Option.some.inj moved)
          · exact Or.inl rfl
          · exact Or.inl rfl
      | written lock =>
          obtain ⟨rfl, rfl⟩ := Prod.mk.inj (Option.some.inj moved)
          exact Or.inl rfl
      | finished => cases moved
      | raised => cases moved

theorem current_of_alone (run : Run (sharedStep formats locking) pool events last)
    (current : Current pool index)
    (alone : ∀ event ∈ events, writeOf formats event ≠ none →
      ∃ input, event.action = .advance index input) : Current last index := by
  refine Run.invariant
    (fun event => writeOf formats event ≠ none → ∃ input, event.action = .advance index input)
    (fun pool => Current pool index) current ?_ run alone
  intro pool move next known stepped own
  obtain ⟨task, found, state⟩ := known
  cases move with
  | spawn operation =>
      rw [interleave_spawn stepped]
      have bound := (List.getElem?_eq_some_iff.mp found).1
      exact ⟨task, by rw [List.getElem?_append_left bound, found], state⟩
  | advance other input =>
      have store := store_of_step stepped
      obtain ⟨mover, shared, later, foundMover, turned, rfl⟩ := interleave_advance stepped
      by_cases same : other = index
      · subst same
        obtain rfl := Option.some.inj (foundMover.symm.trans found)
        have bound := (List.getElem?_eq_some_iff.mp found).1
        exact ⟨later, by simp [bound], current_of_turn turned state⟩
      · have silent : writeOf formats
            ⟨pool, .advance other input, ⟨shared, pool.tasks.set other later⟩⟩ = none := by
          by_contra wrote
          obtain ⟨given, moved⟩ := own wrote
          cases moved
          exact same rfl
        have unchanged : shared.store = pool.shared.store := by simpa [silent] using store
        refine ⟨task, by simp [List.getElem?_set_ne same, found], ?_⟩
        simpa [unchanged] using state

theorem fresh_of_alone (run : Run (sharedStep formats locking) pool events last)
    (current : Current pool index)
    (alone : ∀ event ∈ events, writeOf formats event ≠ none →
      ∃ input, event.action = .advance index input)
    {input : Input} {next : Pool SharedLog Task} {write : Write}
    (writes : writeOf formats ⟨last, .advance index input, next⟩ = some write) (key : String) :
    write.copy.get? key = valueAt last.shared.store key := by
  obtain ⟨task, found, state⟩ := current_of_alone run current alone
  simp only [writeOf, found, Option.bind_some] at writes
  obtain ⟨copy, active⟩ := copy_of_write? writes
  rcases state with ended | ⟨data, held, store⟩
  · rw [active] at ended
    cases ended
  · rw [copy] at held
    rw [store, ← Option.some.inj held]
    rfl

/-- Pages are saved while an update only waits. -/
theorem fresh_of_alone_pages :
    let formats : Formats := ⟨fun _ => "", fun _ => none, fun _ => "wednesday", fun _ => none⟩
    let file : WalFile := Dict.ofList [("indexing", .obj [("last_run", .str "monday")])]
    let pool : Pool SharedLog Task :=
      ⟨{ store := some file }, [.extractor .confluence (.running file)]⟩
    let events := (record (sharedStep formats true) pool [
      .spawn (.update (.offset "indexing" 50) 0),
      .advance 0 { object := some (.page "7" "hash") }]).getD []
    ∃ write, writeOf formats ⟨final pool events,
        .advance 0 { object := some (.page "8" "hash") }, final pool events⟩ = some write ∧
      write.copy.get? "indexing" = valueAt (final pool events).shared.store "indexing" := by
  intro formats file pool events
  have run : Run (sharedStep formats true) pool events (final pool events) :=
    run_of_isSome (by decide +kernel)
  have alone : events.all (fun event => (writeOf formats event).isNone ||
      match event.action with | .advance 0 _ => true | _ => false) = true := by decide +kernel
  obtain ⟨write, wrote⟩ : ∃ write, writeOf formats ⟨final pool events,
      .advance 0 { object := some (.page "8" "hash") }, final pool events⟩ = some write :=
    Option.isSome_iff_exists.mp (by decide +kernel)
  refine ⟨write, wrote, fresh_of_alone run ⟨_, rfl, Or.inr ⟨file, rfl, rfl⟩⟩ ?_ wrote "indexing"⟩
  intro event member writes
  have own := List.all_eq_true.mp alone event member
  rw [Option.isNone_eq_false_iff.mpr (Option.isSome_iff_ne_none.mpr writes), Bool.false_or] at own
  split at own
  · rename_i input moved
    exact ⟨input, moved⟩
  · cases own

end Alone

end RagSystem.Etl.SharedWal
