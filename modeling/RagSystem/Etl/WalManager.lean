import RagSystem.Data.Json

/-! The write-ahead log of the ETL pipelines (`etl/indexer/wal_manager.py`). -/

namespace RagSystem.Etl

abbrev Checkpoint := Dict String Json

namespace Wal

abbrev Document := Dict String Checkpoint

/-- `str` and `int` of a value, and the ISO format of times in seconds; `none` raises, for a date
also where it cannot be subtracted from the clock. -/
structure Formats where
  str : Json → String
  int : Json → Option Int
  isoformat : Rat → String
  fromisoformat : String → Option Rat

/-- What the manager asks of a backend, and the lookups that reading and writing have to respect.
The input of a reading is whatever the store is free to choose. -/
structure Backend (σ : Type) (ω : Type) where
  read : ω → σ → Document
  write : Document → σ → σ
  view : σ → String → Option Checkpoint
  read_spec : ∀ input state name, (read input state).get? name = view state name
  /-- Nothing is promised for a document that drops a section. -/
  write_spec : ∀ data state, (∀ name, (view state name).isSome = true →
      (data.get? name).isSome = true) → ∀ name, view (write data state) name = data.get? name

def fileBackend : Backend Document Unit where
  read _ document := document
  write data _ := data
  view document := document.get?
  read_spec _ _ _ := rfl
  write_spec _ _ _ _ := rfl

inductive Update
  | setCheckpoint (pipeline : String) (updates : Checkpoint)
  /-- Without a time the run is dated by the clock, read as `asked`. -/
  | lastRun (pipeline : String) (lastRun : Option String) (asked : Rat)
  | offset (pipeline : String) (offset : Int)
  | lastId (pipeline lastId : String)
  | hashState (pipeline docId chunkHash : String)
  deriving Repr

inductive Operation
  | update (own : Update)
  | resetPipeline (pipeline : String) (keepLastRun : Bool)
  | resetAll
  | vacuum (maxAgeDays : Int)
  deriving Repr

/-- `data.get(pipeline, {})`. -/
def sectionOf (data : Document) (pipeline : String) : Checkpoint := (data.get? pipeline).getD ∅

/-- `None` is the null value. -/
def getCheckpoint (data : Document) (pipeline : String) (key : Option String) : Json :=
  match key with
  | none => .obj (sectionOf data pipeline).entries
  | some key =>
      if key = "" then .obj (sectionOf data pipeline).entries
      else ((sectionOf data pipeline).get? key).getD .null

/-- `(hash_map or {})[doc_id] = chunk_hash`; `none` is a `TypeError`. -/
def setHash (hashMap : Json) (docId chunkHash : String) : Option Json :=
  if hashMap.truthy then
    match hashMap with
    | .obj entries => some (.obj ((Dict.ofList entries).set docId (.str chunkHash)).entries)
    | _ => none
  else some (.obj [(docId, .str chunkHash)])

section Changes

variable (formats : Formats) (now : Rat)

def Update.pipeline : Update → String
  | .setCheckpoint pipeline _ => pipeline
  | .lastRun pipeline _ _ => pipeline
  | .offset pipeline _ => pipeline
  | .lastId pipeline _ => pipeline
  | .hashState pipeline _ _ => pipeline

/-- The argument of `set_checkpoint`. Only the hash state looks at the log to make it. -/
def Update.updates (seen : Document) : Update → Option Checkpoint
  | .setCheckpoint _ updates => some updates
  | .lastRun _ date asked =>
      some (Dict.ofList [("last_run", .str (date.getD (formats.isoformat asked)))])
  | .offset _ startAt => some (Dict.ofList [("offset", .int startAt)])
  | .lastId _ id => some (Dict.ofList [("last_id", .str id)])
  | .hashState pipeline docId chunkHash =>
      (setHash (getCheckpoint seen pipeline (some "hash_map")) docId chunkHash).map (fun hashMap =>
        Dict.ofList [("hash_map", hashMap)])

def stamp (updates : Checkpoint) : Checkpoint :=
  updates.set "_updated_at" (.str (formats.isoformat now))

/-- The `update` of `set_checkpoint`. -/
def merge (pipeline : String) (updates : Checkpoint) (data : Document) : Document :=
  data.set pipeline ((sectionOf data pipeline).setAll updates.entries)

def resetPipeline (pipeline : String) (keepLastRun : Bool) (data : Document) : Document :=
  if keepLastRun then
    let lastRun := ((sectionOf data pipeline).get? "last_run").filter Json.truthy
    data.set pipeline (Dict.ofList (lastRun.toList.map (fun value => ("last_run", value))))
  else data.erase pipeline

def vacuumed (maxAgeDays : Int) (checkpoint : Checkpoint) : Checkpoint :=
  match checkpoint.get? "_updated_at" with
  | some (.str updatedAt) =>
      if updatedAt = "" then checkpoint
      else
        match formats.fromisoformat updatedAt with
        | some updated =>
            if maxAgeDays < ((now - updated) / 86400).floor then
              (checkpoint.erase "hash_map").erase "processed_ids"
            else checkpoint
        | none => checkpoint
  | _ => checkpoint

/-- The function that is handed to `_update_wal`; `none` is an exception before that. -/
def Operation.change (seen : Document) : Operation → Option (Document → Document)
  | .update own =>
      (own.updates formats seen).map (fun updates =>
        merge own.pipeline (stamp formats now updates))
  | .resetPipeline pipeline keepLastRun => some (Wal.resetPipeline pipeline keepLastRun)
  | .resetAll => some (fun _ => ∅)
  | .vacuum maxAgeDays => some (Dict.mapValues (vacuumed formats now maxAgeDays))

/-- An operation, the clock it reads and what its two readings of the backend are given. -/
structure Call (ω : Type) where
  operation : Operation
  now : Rat
  first : ω
  second : ω

def perform {σ ω : Type} (backend : Backend σ ω) (call : Call ω) (state : σ) : σ :=
  match call.operation.change formats call.now (backend.read call.first state) with
  | none => state
  | some change => backend.write (change (backend.read call.second state)) state

end Changes

inductive Query
  | checkpoint (pipeline : String) (key : Option String)
  | lastRun (pipeline : String)
  | offset (pipeline : String)
  | lastId (pipeline : String)
  | hashState (pipeline docId : String)
  | allPipelines
  deriving Repr

inductive Answer
  | value (value : Json)
  | text (text : Option String)
  | number (number : Int)
  | names (names : List String)
  | raised
  deriving Repr

section Queries

variable (formats : Formats)

/-- `str(result) if result is not None else None`. -/
def textOf (value : Json) : Option String :=
  if value.isNull then none else some (formats.str value)

/-- `(hash_map or {}).get(doc_id)`; `none` is an `AttributeError`. -/
def hashIn (hashMap : Json) (docId : String) : Option Json :=
  if hashMap.truthy then
    match hashMap with
    | .obj entries => some (((Dict.ofList entries).get? docId).getD .null)
    | _ => none
  else some .null

def answer (data : Document) : Query → Answer
  | .checkpoint pipeline key => .value (getCheckpoint data pipeline key)
  | .lastRun pipeline => .text (textOf formats (getCheckpoint data pipeline (some "last_run")))
  | .offset pipeline =>
      let result := getCheckpoint data pipeline (some "offset")
      if result.truthy then
        match formats.int result with
        | some offset => .number offset
        | none => .raised
      else .number 0
  | .lastId pipeline => .text (textOf formats (getCheckpoint data pipeline (some "last_id")))
  | .hashState pipeline docId =>
      match hashIn (getCheckpoint data pipeline (some "hash_map")) docId with
      | some hash => .text (textOf formats hash)
      | none => .raised
  | .allPipelines => .names data.keys

end Queries

/-! Changes and queries depend on the lookups of the document alone. -/

section Lookups

variable {formats : Formats} {now : Rat} {first second : Document}

theorem sectionOf_congr (same : ∀ name, first.get? name = second.get? name) (pipeline : String) :
    sectionOf first pipeline = sectionOf second pipeline := by
  unfold sectionOf
  rw [same]

theorem getCheckpoint_congr (same : ∀ name, first.get? name = second.get? name)
    (pipeline : String) (key : Option String) :
    getCheckpoint first pipeline key = getCheckpoint second pipeline key := by
  unfold getCheckpoint
  rw [sectionOf_congr same]

theorem get?_merge (pipeline : String) (updates : Checkpoint) (data : Document) (name : String) :
    (merge pipeline updates data).get? name =
      if name = pipeline then some ((sectionOf data pipeline).setAll updates.entries)
      else data.get? name :=
  Dict.get?_set data pipeline name _

theorem change_congr {seen other : Document} (agree : ∀ name, seen.get? name = other.get? name)
    (operation : Operation) :
    operation.change formats now seen = operation.change formats now other := by
  cases operation with
  | update own =>
      cases own with
      | hashState pipeline docId chunkHash =>
          simp only [Operation.change, Update.updates]
          rw [getCheckpoint_congr agree]
      | _ => rfl
  | _ => rfl

theorem changed_congr {seen : Document} {operation : Operation} {change : Document → Document}
    (changes : operation.change formats now seen = some change)
    (same : ∀ name, first.get? name = second.get? name) (name : String) :
    (change first).get? name = (change second).get? name := by
  cases operation with
  | update own =>
      obtain ⟨updates, -, rfl⟩ := Option.map_eq_some_iff.mp changes
      rw [get?_merge, get?_merge, same, sectionOf_congr same]
  | resetPipeline pipeline keepLastRun =>
      obtain rfl := Option.some.inj changes
      unfold Wal.resetPipeline
      cases keepLastRun with
      | true => simp [Dict.get?_set, sectionOf_congr same, same]
      | false => simp [Dict.get?_erase, same]
  | resetAll =>
      obtain rfl := Option.some.inj changes
      rfl
  | vacuum maxAgeDays =>
      obtain rfl := Option.some.inj changes
      rw [Dict.get?_mapValues, Dict.get?_mapValues, same]

end Lookups

end Wal

end RagSystem.Etl
