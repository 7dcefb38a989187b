import RagSystem.Etl.LakeFrame
import RagSystem.Transition.LastWrite

/-! `rollback_document` of `etl/indexer/live_vector_lake.py`: the history in cold storage and what
is replayed from it. -/

namespace RagSystem.Etl

open Transition

variable {Vector : Type}

/-- `with_suffix`: what follows the last dot of the file name gives way, unless that dot begins
the name. -/
def withSuffix (path suffix : String) : String :=
  let reversed := path.toList.reverse
  let name := reversed.takeWhile (· ≠ '/')
  let folder := reversed.dropWhile (· ≠ '/')
  let stem := (name.dropWhile (· ≠ '.')).drop 1
  String.ofList ((if stem = [] then name else stem) ++ folder).reverse ++ suffix

def historyFile (docId : String) : String := withSuffix (docId ++ "_history") ".parquet"

inductive ColdOperation
  | upsert
  | delete
  deriving DecidableEq, Repr

/-- A record of `_append_to_cold_storage`. The order of the ISO timestamps is that of the times. -/
structure ColdRow where
  docId : String
  timestamp : Nat
  operation : ColdOperation
  chunkHash : String
  text : String := ""
  title : String := ""
  sourceType : String := ""
  sourceId : String := ""
  version : String := ""
  docTitle : String := ""
  keywords : List String := []
  entities : List String := []
  summary : String := ""
  deriving DecidableEq, Repr

def upsertRow (docId : String) (now : Nat) (chunk : Chunk) : ColdRow :=
  { docId, timestamp := now, operation := .upsert, chunkHash := chunk.hash, text := chunk.text,
    title := chunk.title, sourceType := chunk.sourceType, sourceId := chunk.sourceId,
    version := chunk.version, docTitle := chunk.docTitle, keywords := chunk.keywords,
    entities := chunk.entities, summary := chunk.summary }

def deleteRow (docId : String) (now : Nat) (hash : String) : ColdRow :=
  { docId, timestamp := now, operation := .delete, chunkHash := hash }

/-- The chunk a row is read back as; the fields that are not archived take their defaults. -/
def ColdRow.chunk (row : ColdRow) : Chunk :=
  { text := row.text, hash := row.chunkHash, title := row.title, summary := row.summary,
    keywords := row.keywords, entities := row.entities, sourceType := row.sourceType,
    sourceId := row.sourceId, version := row.version, docTitle := row.docTitle }

structure Archive (Vector : Type) where
  lake : Lake Vector := {}
  cold : Dict String (List ColdRow) := ∅
  deriving DecidableEq, Repr

def history (cold : Dict String (List ColdRow)) (file : String) : List ColdRow :=
  (cold.get? file).getD []

def appendToColdStorage (cold : Dict String (List ColdRow)) (docId : String)
    (rows : List ColdRow) : Dict String (List ColdRow) :=
  if rows = [] then cold
  else cold.set (historyFile docId) (history cold (historyFile docId) ++ rows)

/-- What a call of `sync_document` archives: the added chunks, then the deleted hashes. -/
def syncRows (lake : Lake Vector) (call : Sync) (now : Nat) : List ColdRow :=
  match lake.versions.wal with
  | .torn => []
  | .intact wal =>
      match updateDocumentChunks lake.versions wal call.docId call.chunks call.force with
      | none => []
      | some update =>
          update.added.map (upsertRow call.docId now) ++
            update.deleted.map (deleteRow call.docId now)

variable (indexer : QdrantHybridIndexer Vector)

def archivedSync (archive : Archive Vector) (call : Sync) (now : Nat) : Option (Archive Vector) :=
  (syncStep indexer archive.lake call).map fun lake =>
    { lake, cold := appendToColdStorage archive.cold call.docId (syncRows archive.lake call now) }

def operateAt (archive : Archive Vector) (step : Operation × Nat) : Option (Archive Vector) :=
  match step.1 with
  | .sync call => archivedSync indexer archive call step.2
  | .deleteChunks _ hashes =>
      some { archive with lake :=
        { archive.lake with points := deleteChunks indexer hashes archive.lake.points } }
  | .liveUpsert _ chunk =>
      some { archive with lake :=
        { archive.lake with points := liveUpsert indexer chunk archive.lake.points } }
  | .liveDelete _ hash =>
      some { archive with lake :=
        { archive.lake with points := liveDelete indexer hash archive.lake.points } }
  | .deleteBySourceId docId =>
      let points := archive.lake.points
      some { archive with lake := { archive.lake with
        points := deleteBySourceId indexer docId points.entries.length points } }

/-- `reset`; without a document id it is a reset of all documents. -/
def reset (store : ChunkVersionStore) (docId : String) : ChunkVersionStore :=
  if docId = "" then {}
  else
    { hot := store.hot.erase docId
      wal := match store.wal with
        | .intact wal => .intact (wal.erase docId)
        | .torn => .torn }

/-- `get_document_history`, up to a time. -/
def snapshotRows (rows : List ColdRow) (toTimestamp : Nat) : List ColdRow :=
  (rows.drop (rows.length - 100)).filter (fun row => row.timestamp ≤ toTimestamp)

def chunksSnapshot (snapshot : List ColdRow) : List Chunk :=
  snapshot.foldl (fun chunks row =>
    if row.operation = .upsert ∧ ∀ chunk ∈ chunks, chunk.hash ≠ row.chunkHash
    then chunks ++ [row.chunk] else chunks) []

def rollbackDocument (archive : Archive Vector) (docId : String) (toTimestamp now : Nat) :
    Option (Archive Vector) :=
  let snapshot := snapshotRows (history archive.cold (historyFile docId)) toTimestamp
  if snapshot = [] then some archive
  else archivedSync indexer { archive with
        lake := { archive.lake with versions := reset archive.lake.versions docId } }
    { docId, chunks := chunksSnapshot snapshot, force := true } now

def pointsAt (events : List (Event (Archive Vector) (Operation × Nat))) (time : Nat) :
    Collection Vector :=
  latest (fun event : Event (Archive Vector) (Operation × Nat) =>
    if event.action.2 ≤ time then some event.after.lake.points else none) ∅ events

/-- After the rollback the points of the document are those of the time, and the points of all
other documents what they were before. -/
def RollsBack (events : List (Event (Archive Vector) (Operation × Nat))) (archive : Archive Vector)
    (docId : String) (toTimestamp now : Nat) : Prop :=
  ∃ next, rollbackDocument indexer archive docId toTimestamp now = some next ∧
    pointsOf next.lake.points docId = pointsOf (pointsAt events toTimestamp) docId ∧
    ∀ other, other ≠ docId → pointsOf next.lake.points other = pointsOf archive.lake.points other

def archived (events : List (Event (Archive Vector) (Operation × Nat))) (file : String) :
    List ColdRow :=
  events.flatMap fun event => match event.action.1 with
    | .sync call => if historyFile call.docId = file
        then syncRows event.before.lake call event.action.2 else []
    | _ => []

def replayed (rows : List ColdRow) (toTimestamp : Nat) : Collection Vector :=
  Dict.ofList ((chunksSnapshot (snapshotRows rows toTimestamp)).filterMap (chunkToPoint indexer))

/-- Replaying points restores the past of a document in the present collection. -/
structure Restorable (past present replay : Collection Vector) (docId : String) : Prop where
  /-- A replayed point of the document was stored then. -/
  live : ∀ id stored, replay.get? id = some stored → stored.payload.sourceId = docId →
    past.get? id = some stored
  /-- A replayed point of another document is stored now, where none of the document was. -/
  foreign : ∀ id stored, replay.get? id = some stored → stored.payload.sourceId ≠ docId →
    present.get? id = some stored ∧ pointsOf past docId id = none
  /-- No replayed point of the document replaces a point of another. -/
  apart : ∀ id stored current, replay.get? id = some stored → stored.payload.sourceId = docId →
    present.get? id = some current → current.payload.sourceId = docId
  /-- Elsewhere the document has now the points it had then. -/
  untouched : ∀ id, replay.get? id = none → pointsOf present docId id = pointsOf past docId id

variable {indexer} {past present replay : Collection Vector} {docId : String}

theorem pointsOf_eq_none {points : Collection Vector} {id : String} {stored : Stored Vector}
    (found : points.get? id = some stored) (other : stored.payload.sourceId ≠ docId) :
    pointsOf points docId id = none := by
  simp [pointsOf, found, other]

theorem pointsOf_congr {points others : Collection Vector} {id : String}
    (same : points.get? id = others.get? id) :
    pointsOf points docId id = pointsOf others docId id := by
  simp only [pointsOf, same]

section Restored

variable {bindings : List (Point Vector)} {id : String} {stored : Stored Vector}

theorem get?_of_sent (present : Collection Vector)
    (sent : (Dict.ofList bindings).get? id = some stored) :
    (present.setAll bindings).get? id = some stored := by
  rw [Dict.get?_setAll_ofList, sent, Option.some_or]

theorem get?_of_unsent (present : Collection Vector)
    (unsent : (Dict.ofList bindings).get? id = none) :
    (present.setAll bindings).get? id = present.get? id := by
  rw [Dict.get?_setAll_ofList, unsent, Option.none_or]

theorem restorable_of_restored
    (own : pointsOf (present.setAll bindings) docId = pointsOf past docId)
    (others : ∀ other, other ≠ docId →
      pointsOf (present.setAll bindings) other = pointsOf present other) :
    Restorable past present (Dict.ofList bindings) docId where
  live := by
    intro id stored sent source
    have same := congrFun own id
    rw [pointsOf_eq_some.mpr ⟨get?_of_sent present sent, source⟩] at same
    exact (pointsOf_eq_some.mp same.symm).1
  foreign := by
    intro id stored sent source
    have kept := get?_of_sent present sent
    have same := congrFun own id
    have framed := congrFun (others _ source) id
    rw [pointsOf_eq_none kept source] at same
    rw [pointsOf_eq_some.mpr ⟨kept, rfl⟩] at framed
    exact ⟨(pointsOf_eq_some.mp framed.symm).1, same.symm⟩
  apart := by
    intro id stored current sent source held
    by_contra other
    have framed := congrFun (others _ other) id
    rw [pointsOf_eq_some.mpr ⟨held, rfl⟩] at framed
    have still := (pointsOf_eq_some.mp framed).1
    rw [get?_of_sent present sent] at still
    exact other (Option.some.inj still ▸ source)
  untouched := by
    intro id unsent
    rw [← congrFun own id]
    exact (pointsOf_congr (get?_of_unsent present unsent)).symm

theorem restored_iff : (pointsOf (present.setAll bindings) docId = pointsOf past docId ∧
      ∀ other, other ≠ docId →
        pointsOf (present.setAll bindings) other = pointsOf present other) ↔
    Restorable past present (Dict.ofList bindings) docId := by
  constructor
  · intro restored
    exact restorable_of_restored restored.1 restored.2
  · intro restorable
    constructor
    · funext id
      cases sent : (Dict.ofList bindings).get? id with
      | none =>
          rw [← restorable.untouched id sent]
          exact pointsOf_congr (get?_of_unsent present sent)
      | some stored =>
          have kept := get?_of_sent present sent
          by_cases own : stored.payload.sourceId = docId
          · rw [pointsOf_eq_some.mpr ⟨kept, own⟩,
              pointsOf_eq_some.mpr ⟨restorable.live id stored sent own, own⟩]
          · rw [pointsOf_eq_none kept own, (restorable.foreign id stored sent own).2]
    · intro other differs
      funext id
      cases sent : (Dict.ofList bindings).get? id with
      | none => exact pointsOf_congr (get?_of_unsent present sent)
      | some stored =>
          have kept := get?_of_sent present sent
          by_cases own : stored.payload.sourceId = docId
          · have moved : stored.payload.sourceId ≠ other :=
              fun same => differs (same.symm.trans own)
            rw [pointsOf_eq_none kept moved]
            cases held : present.get? id with
            | none => simp [pointsOf, held]
            | some current =>
                have source := restorable.apart id stored current sent own held
                exact (pointsOf_eq_none held fun same => differs (same.symm.trans source)).symm
          · have held := (restorable.foreign id stored sent own).1
            exact pointsOf_congr (kept.trans held.symm)

end Restored

theorem restorable_iff_entries : Restorable past present replay docId ↔
    (∀ point ∈ replay.entries,
      if point.2.payload.sourceId = docId then past.get? point.1 = some point.2 ∧
        ∀ current ∈ present.get? point.1, current.payload.sourceId = docId
      else present.get? point.1 = some point.2 ∧ pointsOf past docId point.1 = none) ∧
    ∀ id ∈ present.keys ++ past.keys, replay.get? id = none →
      pointsOf present docId id = pointsOf past docId id := by
  constructor
  · intro restorable
    constructor
    · intro point member
      have sent := (Dict.mem_entries_iff replay point.1 point.2).mp member
      split
      · rename_i own
        exact ⟨restorable.live _ _ sent own,
          fun current held => restorable.apart _ _ current sent own held⟩
      · rename_i other
        exact restorable.foreign _ _ sent other
    · exact fun id _ unsent => restorable.untouched id unsent
  · intro checked
    have sentPoint : ∀ id stored, replay.get? id = some stored → (id, stored) ∈ replay.entries :=
      fun id stored sent => (Dict.mem_entries_iff replay id stored).mpr sent
    constructor
    case live =>
      intro id stored sent own
      have point := checked.1 _ (sentPoint id stored sent)
      rw [if_pos own] at point
      exact point.1
    case foreign =>
      intro id stored sent other
      have point := checked.1 _ (sentPoint id stored sent)
      rwa [if_neg other] at point
    case apart =>
      intro id stored current sent own held
      have point := checked.1 _ (sentPoint id stored sent)
      rw [if_pos own] at point
      exact point.2 current held
    case untouched =>
      intro id unsent
      by_cases known : id ∈ present.keys ++ past.keys
      · exact checked.2 id known unsent
      · rw [List.mem_append, not_or] at known
        have missing := Dict.get?_eq_none_of_not_mem known.1
        have absent := Dict.get?_eq_none_of_not_mem known.2
        exact pointsOf_congr (missing.trans absent.symm)

instance [DecidableEq Vector] : Decidable (Restorable past present replay docId) :=
  decidable_of_iff _ restorable_iff_entries.symm

theorem history_append (cold : Dict String (List ColdRow)) (docId file : String)
    (rows : List ColdRow) : history (appendToColdStorage cold docId rows) file =
      history cold file ++ if historyFile docId = file then rows else [] := by
  unfold appendToColdStorage
  split
  · rename_i empty
    simp [empty]
  · by_cases same : file = historyFile docId
    · subst same
      simp [history]
    · have differs : historyFile docId ≠ file := fun reverse => same reverse.symm
      simp [history, Dict.get?_set_of_ne same, differs]

theorem archivedSync_eq_some {archive next : Archive Vector} {call : Sync} {now : Nat}
    (stepped : archivedSync indexer archive call now = some next) :
    syncStep indexer archive.lake call = some next.lake ∧
      next.cold = appendToColdStorage archive.cold call.docId (syncRows archive.lake call now) := by
  obtain ⟨lake, synced, rfl⟩ := Option.map_eq_some_iff.mp stepped
  exact ⟨synced, rfl⟩

/-- The files hold what the run has archived, and the log can be read. -/
structure Kept (events : List (Event (Archive Vector) (Operation × Nat)))
    (archive : Archive Vector) : Prop where
  logged : ∀ file, history archive.cold file = archived events file
  loads : ∃ wal, archive.lake.versions.wal = .intact wal

theorem kept_of_run {events : List (Event (Archive Vector) (Operation × Nat))}
    {archive : Archive Vector} (run : Run (operateAt indexer) {} events archive) :
    Kept events archive := by
  induction run with
  | nil => exact ⟨fun _ => rfl, ∅, rfl⟩
  | @snoc events archive earlier action next stepped ih =>
      have extended : ∀ file, archived (events ++ [⟨archive, action, next⟩]) file =
          archived events file ++ archived [⟨archive, action, next⟩] file := by
        intro file
        exact List.flatMap_append
      obtain ⟨operation, now⟩ := action
      cases operation with
      | sync call =>
          obtain ⟨synced, cold⟩ := archivedSync_eq_some stepped
          obtain ⟨wal, update, -, -, -, versions⟩ := syncDocument_working synced
          constructor
          · intro file
            rw [cold, history_append, extended, ih.logged]
            simp [archived]
          · rw [versions]
            exact ⟨_, rfl⟩
      | deleteChunks docId hashes =>
          obtain rfl := Option.some.inj stepped
          exact ⟨fun file => by rw [extended]; simpa [archived] using ih.logged file, ih.loads⟩
      | liveUpsert docId chunk =>
          obtain rfl := Option.some.inj stepped
          exact ⟨fun file => by rw [extended]; simpa [archived] using ih.logged file, ih.loads⟩
      | liveDelete docId hash =>
          obtain rfl := Option.some.inj stepped
          exact ⟨fun file => by rw [extended]; simpa [archived] using ih.logged file, ih.loads⟩
      | deleteBySourceId docId =>
          obtain rfl := Option.some.inj stepped
          exact ⟨fun file => by rw [extended]; simpa [archived] using ih.logged file, ih.loads⟩

theorem rollbackDocument_points (indexer : QdrantHybridIndexer Vector) (archive : Archive Vector)
    (docId : String) (toTimestamp now : Nat)
    (loads : ∃ wal, archive.lake.versions.wal = .intact wal) :
    ∃ next, rollbackDocument indexer archive docId toTimestamp now = some next ∧
      next.lake.points = archive.lake.points.setAll ((chunksSnapshot (snapshotRows
        (history archive.cold (historyFile docId)) toTimestamp)).filterMap
          (chunkToPoint indexer)) := by
  unfold rollbackDocument
  dsimp only
  split
  · rename_i empty
    rw [empty]
    exact ⟨archive, rfl, rfl⟩
  · obtain ⟨wal, intact⟩ := loads
    have stored : ∃ wal, (reset archive.lake.versions docId).wal = .intact wal := by
      unfold reset
      split
      · exact ⟨∅, rfl⟩
      · rw [intact]
        exact ⟨_, rfl⟩
    obtain ⟨emptied, loaded⟩ := stored
    generalize snapshotRows (history archive.cold (historyFile docId)) toTimestamp = snapshot
    let cleared : Lake Vector :=
      { archive.lake with versions := reset archive.lake.versions docId }
    have computed : updateDocumentChunks cleared.versions emptied docId (chunksSnapshot snapshot)
        true = some ⟨chunksSnapshot snapshot, [], true⟩ := rfl
    have synced : ∃ lake, syncStep indexer cleared
        { docId, chunks := chunksSnapshot snapshot, force := true } = some lake :=
      ⟨_, Option.map_eq_some_iff.mpr
        ⟨_, syncEffects_eq_some.mpr ⟨emptied, _, loaded, computed, rfl⟩, rfl⟩⟩
    obtain ⟨lake, synced⟩ := synced
    obtain ⟨wal, update, again, recomputed, points, -⟩ := syncDocument_working synced
    obtain rfl := Option.some.inj recomputed
    refine ⟨_, Option.map_eq_some_iff.mpr ⟨lake, synced, rfl⟩, ?_⟩
    rw [points]
    rfl

def pageLost : List (Operation × Nat) :=
  [(.sync firstVersion.action, 1), (otherPage "h2" "two", 2), (.deleteChunks "page" ["h1"], 3)]

def pageRewritten : List (Operation × Nat) :=
  [(.sync firstVersion.action, 1), (.sync (secondVersion false).action, 2)]

def archiveEvents (steps : List (Operation × Nat)) :
    List (Event (Archive Unit) (Operation × Nat)) :=
  (record (operateAt plainIndexer) {} steps).getD []

end RagSystem.Etl
