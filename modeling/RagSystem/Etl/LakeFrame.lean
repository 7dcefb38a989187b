import RagSystem.Etl.LakeExactness

/-! When an operation on one document leaves the points of the others alone. -/

namespace RagSystem.Etl

open Transition

variable {Vector : Type}

/-- The points whose `source_id` is the document. -/
def pointsOf (points : Collection Vector) (docId : String) (id : String) : Option (Stored Vector) :=
  (points.get? id).filter (fun stored => stored.payload.sourceId = docId)

/-- An operation on a document; deletions name its chunks by hash, or all of its points. -/
inductive Operation
  | sync (call : Sync)
  | deleteChunks (docId : String) (hashes : List String)
  | liveUpsert (docId : String) (chunk : Chunk)
  | liveDelete (docId : String) (hash : String)
  | deleteBySourceId (docId : String)
  deriving DecidableEq, Repr

def Operation.docId : Operation → String
  | .sync call => call.docId
  | .deleteChunks docId _ => docId
  | .liveUpsert docId _ => docId
  | .liveDelete docId _ => docId
  | .deleteBySourceId docId => docId

def Operation.chunks : Operation → List Chunk
  | .sync call => call.chunks
  | .liveUpsert _ chunk => [chunk]
  | _ => []

variable (indexer : QdrantHybridIndexer Vector)

/-- A step of the lake: an operation and how it is cut short. A failed request has no effect. -/
def operate (lake : Lake Vector) (step : Operation × Interruption) : Option (Lake Vector) :=
  match step with
  | (.sync call, interruption) =>
      syncInterrupted indexer interruption lake call.docId call.chunks call.force
  | (.deleteChunks _ hashes, interruption) =>
      some { lake with points := if interruption.services.deletes
        then deleteChunks indexer hashes lake.points else lake.points }
  | (.liveUpsert _ chunk, interruption) =>
      some { lake with points := if interruption.services.upserts 0
        then liveUpsert indexer chunk lake.points else lake.points }
  | (.liveDelete _ hash, interruption) =>
      some { lake with points := if interruption.services.deletes
        then liveDelete indexer hash lake.points else lake.points }
  | (.deleteBySourceId docId, interruption) =>
      some { lake with
        points := deleteBySourceId indexer docId interruption.effects lake.points }

/-- However it is cut short, the operation leaves every point of the other documents as it is. -/
def Frames (lake : Lake Vector) (operation : Operation) : Prop :=
  ∀ interruption next, operate indexer lake (operation, interruption) = some next →
    ∀ other, other ≠ operation.docId →
      pointsOf next.points other = pointsOf lake.points other

/-- The change detection sends a chunk with the hash, or deletes the hash. -/
def Sync.Concerns (lake : Lake Vector) (call : Sync) (hash : String) : Prop :=
  ∃ wal update, lake.versions.wal = .intact wal ∧
    updateDocumentChunks lake.versions wal call.docId call.chunks call.force = some update ∧
    ((∃ chunk ∈ update.added, chunk.hash = hash ∧ hash ≠ "" ∧ chunk.text ≠ "") ∨
      hash ∈ update.deleted)

/-- The hashes an operation sends or deletes; those found by their source are its own. -/
def Operation.Concerns (lake : Lake Vector) : Operation → String → Prop
  | .sync call, hash => call.Concerns lake hash
  | .deleteChunks _ hashes, hash => hash ∈ hashes
  | .liveUpsert _ chunk, hash => chunk.hash = hash ∧ hash ≠ "" ∧ chunk.text ≠ ""
  | .liveDelete _ given, hash => given = hash ∧ hash ≠ ""
  | .deleteBySourceId _, _ => False

/-- No hash the operation is concerned with has the point id of another document's chunk. -/
def Unshared (lake : Lake Vector) (operation : Operation) : Prop :=
  ∀ id stored, lake.points.get? id = some stored → stored.payload.sourceId ≠ operation.docId →
    ∀ hash, operation.Concerns lake hash → indexer.uuid5 hash ≠ indexer.uuid5 stored.payload.chunkHash

variable {indexer} {lake next : Lake Vector} {operation : Operation}

theorem pointsOf_eq_some {points : Collection Vector} {docId id : String} {stored : Stored Vector} :
    pointsOf points docId id = some stored ↔
      points.get? id = some stored ∧ stored.payload.sourceId = docId := by
  simp [pointsOf, Option.filter_eq_some_iff]

theorem frame_iff {points : Collection Vector} {written : List (Point Vector)} {gone : List String}
    {docId : String} (own : ∀ point ∈ written, point.2.payload.sourceId = docId) :
    (∀ other, other ≠ docId →
        pointsOf ((points.setAll written).eraseAll gone) other = pointsOf points other) ↔
      ∀ id ∈ written.map Prod.fst ++ gone, ∀ stored, points.get? id = some stored →
        stored.payload.sourceId = docId := by
  constructor
  · intro frame id member stored found
    by_contra foreign
    have same := congrFun (frame _ foreign) id
    rw [pointsOf_eq_some.mpr ⟨found, rfl⟩, pointsOf_eq_some, Dict.get?_eraseAll] at same
    obtain ⟨still, -⟩ := same
    split at still
    · simp at still
    · rename_i kept
      have sent : id ∈ written.map Prod.fst := (List.mem_append.mp member).resolve_right kept
      obtain ⟨point, inside, rfl⟩ := List.mem_map.mp sent
      obtain ⟨value, valueInside, set⟩ := Dict.get?_setAll_of_mem ⟨point, inside, rfl⟩ points
      obtain rfl : value = stored := Option.some.inj (set.symm.trans still)
      exact foreign (own _ valueInside)
  · intro unshared other foreign
    funext id
    apply Option.ext
    intro stored
    rw [pointsOf_eq_some, pointsOf_eq_some, Dict.get?_eraseAll]
    by_cases involved : id ∈ written.map Prod.fst ++ gone
    · constructor
      · intro given
        rcases given with ⟨found, source⟩
        split at found
        · simp at found
        · rename_i kept
          have sent : id ∈ written.map Prod.fst := (List.mem_append.mp involved).resolve_right kept
          obtain ⟨point, inside, rfl⟩ := List.mem_map.mp sent
          obtain ⟨value, valueInside, set⟩ := Dict.get?_setAll_of_mem ⟨point, inside, rfl⟩ points
          obtain rfl : value = stored := Option.some.inj (set.symm.trans found)
          exact absurd (source.symm.trans (own _ valueInside)) foreign
      · intro given
        rcases given with ⟨found, source⟩
        exact absurd (source.symm.trans (unshared id involved stored found)) foreign
    · have kept : id ∉ gone := fun inside => involved (List.mem_append_right _ inside)
      have unsent : ∀ point ∈ written, point.1 ≠ id := by
        intro point inside given
        rcases given with rfl
        exact involved (List.mem_append_left _ (List.mem_map.mpr ⟨point, inside, rfl⟩))
      rw [if_neg kept, Dict.get?_setAll_of_not_mem unsent]

theorem Sync.handed (indexer : QdrantHybridIndexer Vector) (services : Services) {call : Sync}
    {wal : Wal} {update : Update} (loaded : lake.versions.wal = .intact wal)
    (computed : updateDocumentChunks lake.versions wal call.docId call.chunks call.force =
      some update) :
    (∀ point ∈ sentPoints (requestEffects indexer services update),
      ∃ chunk ∈ call.chunks, chunkToPoint indexer chunk = some point ∧
        call.Concerns lake chunk.hash) ∧
    ∀ id ∈ goneIds (requestEffects indexer services update),
      ∃ hash, call.Concerns lake hash ∧ indexer.uuid5 hash = id := by
  constructor
  · intro point member
    obtain ⟨chunk, added, made⟩ := mem_sentPoints member
    obtain ⟨hashed, worded⟩ := nonempty_of_chunkToPoint made
    exact ⟨chunk, mem_of_mem_added computed added, made, wal, update, loaded, computed,
      Or.inl ⟨chunk, added, rfl, hashed, worded⟩⟩
  · intro id member
    obtain ⟨hash, deleted, same⟩ := List.mem_map.mp (mem_goneIds member)
    exact ⟨hash, ⟨wal, update, loaded, computed, Or.inr deleted⟩, same⟩

theorem operate_points {interruption : Interruption}
    (stepped : operate indexer lake (operation, interruption) = some next) :
    ∃ written gone, next.points = (lake.points.setAll written).eraseAll gone ∧
      (∀ point ∈ written, ∃ chunk ∈ operation.chunks, chunkToPoint indexer chunk = some point ∧
        operation.Concerns lake chunk.hash) ∧
      ∀ id ∈ gone, (∃ hash, operation.Concerns lake hash ∧ indexer.uuid5 hash = id) ∨
        ∃ stored, lake.points.get? id = some stored ∧
          stored.payload.sourceId = operation.docId := by
  cases operation with
  | sync call =>
      obtain ⟨effects, planned, rfl⟩ := Option.map_eq_some_iff.mp stepped
      obtain ⟨wal, update, loaded, computed, rfl⟩ := syncEffects_eq_some.mp planned
      obtain ⟨sent, gone⟩ := Sync.handed indexer interruption.services loaded computed
      refine ⟨_, _, interruption_points (deletesLast_call _ _ wal _ _ update) interruption lake, ?_,
        ?_⟩
      · intro point member
        have inside := mem_sentPoints_of_take member
        rw [sentPoints_append, sentPoints_fileEffects, List.nil_append] at inside
        exact sent point inside
      · intro id member
        have inside := mem_goneIds_of_take member
        rw [goneIds_append, goneIds_fileEffects, List.nil_append] at inside
        exact Or.inl (gone id inside)
  | deleteChunks docId hashes =>
      obtain rfl := Option.some.inj stepped
      refine ⟨[], if interruption.services.deletes then pointIds indexer hashes else [], ?_, by simp,
        ?_⟩
      · split <;> rfl
      · intro id member
        left
        split at member
        · exact List.mem_map.mp member
        · simp at member
  | liveUpsert docId chunk =>
      obtain rfl := Option.some.inj stepped
      refine ⟨if interruption.services.upserts 0 then (chunkToPoint indexer chunk).toList else [],
        [], ?_, ?_, by simp⟩
      · split
        · unfold liveUpsert
          cases chunkToPoint indexer chunk <;> rfl
        · rfl
      · intro point member
        split at member
        · have made : chunkToPoint indexer chunk = some point := by simpa using member
          obtain ⟨hashed, worded⟩ := nonempty_of_chunkToPoint made
          exact ⟨chunk, List.mem_singleton_self chunk, made, rfl, hashed, worded⟩
        · simp at member
  | liveDelete docId hash =>
      obtain rfl := Option.some.inj stepped
      refine ⟨[], if interruption.services.deletes ∧ hash ≠ "" then [indexer.uuid5 hash] else [], ?_,
        by simp, ?_⟩
      · unfold liveDelete
        by_cases working : interruption.services.deletes = true <;> by_cases empty : hash = "" <;>
          simp [working, empty, Dict.setAll, Dict.eraseAll]
      · intro id member
        left
        split at member
        · rename_i sent
          obtain rfl := List.mem_singleton.mp member
          exact ⟨hash, ⟨rfl, sent.2⟩, rfl⟩
        · simp at member
  | deleteBySourceId docId =>
      obtain rfl := Option.some.inj stepped
      refine ⟨[], if docId = "" then []
        else (sourceIds lake.points docId).take (interruption.effects * indexer.batchSize), ?_,
        by simp, ?_⟩
      · simp only [deleteBySourceId]
        split <;> rfl
      · intro id member
        right
        split at member
        · simp at member
        · obtain ⟨point, inside, rfl⟩ := List.mem_map.mp (List.mem_of_mem_take member)
          obtain ⟨entry, source⟩ := List.mem_filter.mp inside
          have own : point.2.payload.sourceId = docId := by simpa using source
          exact ⟨point.2, (Dict.mem_entries_iff _ _ _).mp entry, own⟩

theorem operate_whole (indexer : QdrantHybridIndexer Vector) {hash : String}
    (concerned : operation.Concerns lake hash) :
    ∃ interruption next written gone,
      operate indexer lake (operation, interruption) = some next ∧
      next.points = (lake.points.setAll written).eraseAll gone ∧
      (∀ point ∈ written, ∃ chunk ∈ operation.chunks, chunkToPoint indexer chunk = some point) ∧
      indexer.uuid5 hash ∈ written.map Prod.fst ++ gone := by
  cases operation with
  | sync call =>
      obtain ⟨wal, update, loaded, computed, member⟩ := concerned
      let effects := fileEffects wal call.docId call.chunks update ++
        requestEffects indexer .working update
      let whole : Interruption := ⟨.working, effects.length, false⟩
      have planned : syncEffects indexer whole.services lake call.docId call.chunks call.force =
          some effects := syncEffects_eq_some.mpr ⟨wal, update, loaded, computed, rfl⟩
      obtain ⟨sent, gone⟩ := requests_working indexer update
      refine ⟨whole, _, update.added.filterMap (chunkToPoint indexer),
        pointIds indexer update.deleted, by simp only [operate, syncInterrupted, planned]; rfl,
        ?_, ?_, ?_⟩
      · have last : DeletesLast effects := deletesLast_call _ _ wal _ _ update
        rw [interruption_points last whole lake, List.take_length]
        simp [effects, sent, gone]
      · intro point inside
        obtain ⟨chunk, added, made⟩ := List.mem_filterMap.mp inside
        exact ⟨chunk, mem_of_mem_added computed added, made⟩
      · rcases member with ⟨chunk, added, rfl, hashed, worded⟩ | deleted
        · obtain ⟨point, made⟩ := chunkToPoint_of_nonempty indexer hashed worded
          apply List.mem_append_left
          rw [← chunkToPoint_id made]
          exact List.mem_map_of_mem (List.mem_filterMap.mpr ⟨chunk, added, made⟩)
        · exact List.mem_append_right _ (List.mem_map_of_mem deleted)
  | deleteChunks docId hashes =>
      exact ⟨⟨.working, 0, false⟩, _, [], pointIds indexer hashes, rfl, rfl, by simp,
        List.mem_map.mpr ⟨hash, concerned, rfl⟩⟩
  | liveUpsert docId chunk =>
      obtain ⟨rfl, hashed, worded⟩ := concerned
      obtain ⟨point, made⟩ := chunkToPoint_of_nonempty indexer hashed worded
      refine ⟨⟨.working, 0, false⟩, _, [point], [], rfl, ?_, ?_, ?_⟩
      · simp only [liveUpsert, made]
        rfl
      · intro other member
        obtain rfl := List.mem_singleton.mp member
        exact ⟨chunk, List.mem_singleton_self chunk, made⟩
      · simp [chunkToPoint_id made]
  | liveDelete docId given =>
      obtain ⟨rfl, hashed⟩ := concerned
      refine ⟨⟨.working, 0, false⟩, _, [], [indexer.uuid5 given], rfl, ?_, by simp, by simp⟩
      simp only [liveDelete, if_neg hashed]
      rfl
  | deleteBySourceId docId => exact concerned.elim

theorem id_of_stored {events : List (Event (Lake Vector) (Operation × Interruption))}
    (run : Run (operate indexer) {} events lake) : ∀ id stored,
      lake.points.get? id = some stored → id = indexer.uuid5 stored.payload.chunkHash := by
  refine Run.invariant_always (fun lake => ∀ id stored, lake.points.get? id = some stored →
    id = indexer.uuid5 stored.payload.chunkHash) (by simp) ?_ run
  intro lake step next past stepped id stored found
  obtain ⟨written, gone, points, made, -⟩ := operate_points stepped
  rw [points, Dict.get?_eraseAll] at found
  split at found
  · simp at found
  · by_cases sent : ∃ point ∈ written, point.1 = id
    · obtain ⟨value, inside, set⟩ := Dict.get?_setAll_of_mem sent lake.points
      obtain rfl : value = stored := Option.some.inj (set.symm.trans found)
      obtain ⟨chunk, -, point, -⟩ := made _ inside
      rw [(chunkToPoint_payload point).2.1]
      exact chunkToPoint_id point
    · push Not at sent
      rw [Dict.get?_setAll_of_not_mem sent] at found
      exact past id stored found

def uninterrupted : Interruption := { services := .working, effects := 100 }

def otherPage (hash text : String) : Operation :=
  .sync { docId := "other", chunks := [pageChunk "other" hash text] }

theorem firstPage_run :
    Run (operate plainIndexer) {} [⟨{}, (.sync firstVersion.action, uninterrupted),
      firstVersion.after⟩] firstVersion.after := by
  have stepped : operate plainIndexer {} (.sync firstVersion.action, uninterrupted) =
      some firstVersion.after := by decide +kernel
  exact Run.cons stepped Run.nil

theorem otherPage_own (hash text : String) : ∀ chunk ∈ (otherPage hash text).chunks,
    chunk.sourceId = (otherPage hash text).docId := by
  intro chunk member
  obtain rfl := List.mem_singleton.mp member
  rfl

theorem firstPage_stored {id : String} {stored : Stored Unit}
    (found : firstVersion.after.points.get? id = some stored) : stored.payload.chunkHash = "h1" := by
  have only : firstVersion.after.points.entries.map (fun point => point.2.payload.chunkHash) =
      ["h1"] := by decide +kernel
  have member := List.mem_map_of_mem (f := fun point => point.2.payload.chunkHash)
    ((Dict.mem_entries_iff _ _ _).mpr found)
  rw [only] at member
  exact List.mem_singleton.mp member

end RagSystem.Etl
