import RagSystem.Data.Dict
import RagSystem.Etl.Chunk

/-! The indexer of `etl/indexer/qdrant_hybrid.py`: which requests it sends to the vector store. -/

namespace RagSystem.Etl

structure StoredPayload where
  text : String
  title : String
  sourceType : String
  sourceId : String
  version : String
  docTitle : String
  keywords : List String
  entities : List String
  summary : String
  position : Int
  semanticKey : String
  chunkHash : String
  createdAt : String
  updatedAt : String
  accessLevel : String
  allowedGroups : List String
  allowedUsers : List String
  deriving DecidableEq, Repr

structure Stored (Vector : Type) where
  vector : Vector
  payload : StoredPayload
  deriving DecidableEq, Repr

abbrev Point (Vector : Type) := String × Stored Vector

abbrev Collection (Vector : Type) := Dict String (Stored Vector)

/-- `uuid5` is `str(uuid.uuid5(NAMESPACE_OID, ·))`, `vectors` the embedder. -/
structure QdrantHybridIndexer (Vector : Type) where
  uuid5 : String → String
  vectors : String → Vector
  batchSize : Nat := 100
  batchSize_pos : 0 < batchSize := by decide

/-- Which calls of one `index_chunks` or delete succeed: the embedding of the chunk at an index,
the upsert of the batch that starts at an index, the repeated upsert of its points one by one. -/
structure Services where
  embeds : Nat → Bool
  upserts : Nat → Bool
  singles : Nat → Nat → Bool
  deletes : Bool

def Services.working : Services := ⟨fun _ => true, fun _ => true, fun _ _ => true, true⟩

variable {Vector : Type} (indexer : QdrantHybridIndexer Vector) (services : Services)

/-- `_chunk_to_point`; a chunk without hash or text is skipped. -/
def chunkToPoint (chunk : Chunk) : Option (Point Vector) :=
  if chunk.hash = "" then none
  else if chunk.text = "" then none
  else some (indexer.uuid5 chunk.hash,
    { vector := indexer.vectors chunk.text
      payload :=
        { text := chunk.text, title := chunk.title, sourceType := chunk.sourceType,
          sourceId := chunk.sourceId, version := chunk.version, docTitle := chunk.docTitle,
          keywords := chunk.keywords, entities := chunk.entities, summary := chunk.summary,
          position := chunk.position, semanticKey := chunk.semanticKey, chunkHash := chunk.hash,
          createdAt := chunk.createdAt, updatedAt := chunk.updatedAt,
          accessLevel := chunk.accessLevel, allowedGroups := chunk.allowedGroups,
          allowedUsers := chunk.allowedUsers } })

/-- The points of one batch; `none` is an embedding that raised. -/
def batchPoints (index : Nat) : List Chunk → Option (List (Point Vector))
  | [] => some []
  | chunk :: rest =>
      match chunkToPoint indexer chunk with
      | none => batchPoints (index + 1) rest
      | some point =>
          if services.embeds index then (batchPoints (index + 1) rest).map (point :: ·) else none

/-- The upserts that reached the store, and whether an embedding ended the call. -/
structure Indexing (Vector : Type) where
  upserts : List (List (Point Vector))
  raised : Bool
  deriving DecidableEq, Repr

/-- `total`, the number of points sent. -/
def Indexing.total (indexing : Indexing Vector) : Nat := indexing.upserts.flatten.length

/-- One request for the batch, or, after it failed, one for each point that then succeeds. -/
def upsertBatch (index : Nat) (points : List (Point Vector)) : List (List (Point Vector)) :=
  if points = [] then []
  else if services.upserts index then [points]
  else (points.zipIdx.filter (fun point => services.singles index point.2)).map
    (fun point => [point.1])

def indexBatches : Nat → Nat → List Chunk → Indexing Vector
  | 0, _, _ => ⟨[], false⟩
  | fuel + 1, index, chunks =>
      if chunks = [] then ⟨[], false⟩ else
      match batchPoints indexer services index (chunks.take indexer.batchSize) with
      | none => ⟨[], true⟩
      | some points =>
          let rest := indexBatches fuel (index + indexer.batchSize) (chunks.drop indexer.batchSize)
          ⟨upsertBatch services index points ++ rest.upserts, rest.raised⟩

def indexChunks (chunks : List Chunk) : Indexing Vector :=
  indexBatches indexer services chunks.length 0 chunks

def pointIds (chunkIds : List String) : List String := chunkIds.map indexer.uuid5

def deleteChunks (chunkIds : List String) (points : Collection Vector) : Collection Vector :=
  points.eraseAll (pointIds indexer chunkIds)

def liveUpsert (chunk : Chunk) (points : Collection Vector) : Collection Vector :=
  match chunkToPoint indexer chunk with
  | none => points
  | some point => points.setAll [point]

def liveDelete (chunkId : String) (points : Collection Vector) : Collection Vector :=
  if chunkId = "" then points else points.eraseAll [indexer.uuid5 chunkId]

def sourceIds (points : Collection Vector) (sourceId : String) : List String :=
  (points.entries.filter (fun point => point.2.payload.sourceId = sourceId)).map Prod.fst

/-- The points are deleted batch by batch; a request that fails after some batches ends the call. -/
def deleteBySourceId (sourceId : String) (batches : Nat) (points : Collection Vector) :
    Collection Vector :=
  if sourceId = "" then points
  else points.eraseAll ((sourceIds points sourceId).take (batches * indexer.batchSize))

variable {indexer services}

theorem nonempty_of_chunkToPoint {chunk : Chunk} {point : Point Vector}
    (stored : chunkToPoint indexer chunk = some point) : chunk.hash ≠ "" ∧ chunk.text ≠ "" := by
  unfold chunkToPoint at stored
  split at stored
  · simp at stored
  · split at stored
    · simp at stored
    · exact ⟨by assumption, by assumption⟩

theorem chunkToPoint_id {chunk : Chunk} {point : Point Vector}
    (stored : chunkToPoint indexer chunk = some point) : point.1 = indexer.uuid5 chunk.hash := by
  obtain ⟨hashed, worded⟩ := nonempty_of_chunkToPoint stored
  rw [chunkToPoint, if_neg hashed, if_neg worded] at stored
  rw [← Option.some.inj stored]

theorem chunkToPoint_payload {chunk : Chunk} {point : Point Vector}
    (stored : chunkToPoint indexer chunk = some point) :
    point.2.payload.text = chunk.text ∧ point.2.payload.chunkHash = chunk.hash ∧
      point.2.payload.sourceId = chunk.sourceId ∧ chunk.hash ≠ "" := by
  obtain ⟨hashed, worded⟩ := nonempty_of_chunkToPoint stored
  rw [chunkToPoint, if_neg hashed, if_neg worded] at stored
  rw [← Option.some.inj stored]
  exact ⟨rfl, rfl, rfl, hashed⟩

theorem chunkToPoint_of_nonempty (indexer : QdrantHybridIndexer Vector) {chunk : Chunk}
    (hashed : chunk.hash ≠ "") (worded : chunk.text ≠ "") :
    ∃ point, chunkToPoint indexer chunk = some point := by
  simp [chunkToPoint, hashed, worded]

theorem batchPoints_working (index : Nat) (chunks : List Chunk) :
    batchPoints indexer .working index chunks = some (chunks.filterMap (chunkToPoint indexer)) := by
  induction chunks generalizing index with
  | nil => rfl
  | cons chunk rest ih =>
      cases stored : chunkToPoint indexer chunk with
      | none => simp [batchPoints, stored, ih]
      | some point =>
          have embedded : Services.working.embeds index = true := rfl
          simp [batchPoints, stored, ih, embedded]

theorem upsertBatch_working (index : Nat) (points : List (Point Vector)) :
    (upsertBatch .working index points).flatten = points := by
  by_cases empty : points = [] <;> simp [upsertBatch, empty, Services.working]

theorem indexBatches_working (fuel index : Nat) (chunks : List Chunk)
    (enough : chunks.length ≤ fuel) :
    (indexBatches indexer .working fuel index chunks).upserts.flatten =
        chunks.filterMap (chunkToPoint indexer) ∧
      (indexBatches indexer .working fuel index chunks).raised = false := by
  induction fuel generalizing index chunks with
  | zero =>
      obtain rfl : chunks = [] := List.eq_nil_of_length_eq_zero (by omega)
      exact ⟨rfl, rfl⟩
  | succ fuel ih =>
      by_cases empty : chunks = []
      · simp [indexBatches, empty]
      · have positive := indexer.batchSize_pos
        have nonempty : 0 < chunks.length := List.length_pos_iff.mpr empty
        have shorter : (chunks.drop indexer.batchSize).length ≤ fuel := by
          rw [List.length_drop]
          omega
        obtain ⟨sent, fine⟩ := ih (index + indexer.batchSize) _ shorter
        simp only [indexBatches, if_neg empty, batchPoints_working, List.flatten_append,
          upsertBatch_working, sent, fine, and_true]
        rw [← List.filterMap_append, List.take_append_drop]

theorem indexChunks_working (indexer : QdrantHybridIndexer Vector) (chunks : List Chunk) :
    (indexChunks indexer .working chunks).upserts.flatten =
        chunks.filterMap (chunkToPoint indexer) ∧
      (indexChunks indexer .working chunks).raised = false :=
  indexBatches_working chunks.length 0 chunks (Nat.le_refl _)

theorem mem_batchPoints {index : Nat} {chunks : List Chunk} {points : List (Point Vector)}
    (computed : batchPoints indexer services index chunks = some points) {point : Point Vector}
    (member : point ∈ points) : ∃ chunk ∈ chunks, chunkToPoint indexer chunk = some point := by
  induction chunks generalizing index points with
  | nil =>
      obtain rfl : points = [] := by simpa [batchPoints] using computed.symm
      simp at member
  | cons chunk rest ih =>
      cases stored : chunkToPoint indexer chunk with
      | none =>
          simp only [batchPoints, stored] at computed
          obtain ⟨other, inside, same⟩ := ih computed member
          exact ⟨other, List.mem_cons_of_mem _ inside, same⟩
      | some head =>
          simp only [batchPoints, stored] at computed
          split at computed
          · obtain ⟨tail, tailComputed, rfl⟩ := Option.map_eq_some_iff.mp computed
            rcases List.mem_cons.mp member with rfl | later
            · exact ⟨chunk, List.mem_cons_self, stored⟩
            · obtain ⟨other, inside, same⟩ := ih tailComputed later
              exact ⟨other, List.mem_cons_of_mem _ inside, same⟩
          · simp at computed

theorem mem_upsertBatch {index : Nat} {points : List (Point Vector)} {point : Point Vector}
    (member : point ∈ (upsertBatch services index points).flatten) : point ∈ points := by
  unfold upsertBatch at member
  split at member
  · simp at member
  · split at member
    · simpa using member
    · obtain ⟨request, sent, inside⟩ := List.mem_flatten.mp member
      obtain ⟨numbered, selected, rfl⟩ := List.mem_map.mp sent
      obtain rfl := List.mem_singleton.mp inside
      exact List.fst_mem_of_mem_zipIdx (List.mem_filter.mp selected).1

theorem mem_indexChunks {chunks : List Chunk} {point : Point Vector}
    (member : point ∈ (indexChunks indexer services chunks).upserts.flatten) :
    ∃ chunk ∈ chunks, chunkToPoint indexer chunk = some point := by
  have general : ∀ fuel index (chunks : List Chunk),
      point ∈ (indexBatches indexer services fuel index chunks).upserts.flatten →
        ∃ chunk ∈ chunks, chunkToPoint indexer chunk = some point := by
    intro fuel
    induction fuel with
    | zero => simp [indexBatches]
    | succ fuel ih =>
        intro index chunks member
        simp only [indexBatches] at member
        split at member
        · simp at member
        · split at member
          · simp at member
          · rename_i points computed
            rw [List.flatten_append] at member
            rcases List.mem_append.mp member with now | later
            · obtain ⟨chunk, inside, same⟩ := mem_batchPoints computed (mem_upsertBatch now)
              exact ⟨chunk, List.mem_of_mem_take inside, same⟩
            · obtain ⟨chunk, inside, same⟩ := ih _ _ later
              exact ⟨chunk, List.mem_of_mem_drop inside, same⟩
  exact general _ _ _ member

end RagSystem.Etl
