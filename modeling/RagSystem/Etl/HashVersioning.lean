import RagSystem.Data.Dict
import RagSystem.Etl.Chunk

/-! The version store of `etl/chunker/hash_versioning.py`: one hot file per document, named by the
document id, and the WAL file. The process's copy of the WAL always equals the file it has just
written. -/

namespace RagSystem.Etl

/-- A file that a process may have died writing; torn JSON does not load. -/
inductive File (α : Type)
  | intact (content : α)
  | torn
  deriving DecidableEq, Repr

structure WalEntry where
  lastHash : String
  numChunks : Nat
  deriving DecidableEq, Repr

abbrev Wal := Dict String WalEntry

structure ChunkVersionStore where
  wal : File Wal := .intact ∅
  hot : Dict String (File (List Chunk)) := ∅
  deriving DecidableEq, Repr

def getLastHash (wal : Wal) (docId : String) : Option String :=
  (wal.get? docId).map WalEntry.lastHash

/-- `_load_hot_chunks`; `none` is the decoding error of a torn file. -/
def loadHotChunks (store : ChunkVersionStore) (docId : String) : Option (List Chunk) :=
  match store.hot.get? docId with
  | none => some []
  | some .torn => none
  | some (.intact chunks) => some chunks

def chunkMap (chunks : List Chunk) : Dict String Chunk :=
  Dict.ofList (chunks.map (fun chunk => (chunk.hash, chunk)))

def addedChunks (old new : List Chunk) : List Chunk :=
  (chunkMap new).entries.filterMap (fun entry =>
    match (chunkMap old).get? entry.1 with
    | none => some entry.2
    | some previous => if previous.text ≠ entry.2.text then some entry.2 else none)

def deletedHashes (old new : List Chunk) : List String :=
  (chunkMap old).keys.filter (fun hash => hash ∉ (chunkMap new).keys)

/-- What `update_document_chunks` returns, and whether it saves the hot file. -/
structure Update where
  added : List Chunk
  deleted : List String
  savesHot : Bool
  deriving DecidableEq, Repr

/-- All chunks count as new when forced, and when no last hash (or an empty one) is recorded. -/
def treatsAllAsNew (wal : Wal) (docId : String) (force : Bool) : Bool :=
  force || decide ((getLastHash wal docId).getD "" = "")

/-- `none` is the decoding error of a torn hot file. -/
def updateDocumentChunks (store : ChunkVersionStore) (wal : Wal) (docId : String)
    (newChunks : List Chunk) (force : Bool) : Option Update :=
  if treatsAllAsNew wal docId force then some ⟨newChunks, [], true⟩
  else
    (loadHotChunks store docId).map fun old =>
      let added := addedChunks old newChunks
      let deleted := deletedHashes old newChunks
      ⟨added, deleted, decide (added ≠ [] ∨ deleted ≠ [])⟩

def lastHash (chunks : List Chunk) : String := (chunks.getLast?.map Chunk.hash).getD ""

def updateWal (wal : Wal) (docId : String) (chunks : List Chunk) : Wal :=
  wal.set docId ⟨lastHash chunks, chunks.length⟩

theorem get?_chunkMap_some {chunks : List Chunk} {hash : String} {chunk : Chunk}
    (found : (chunkMap chunks).get? hash = some chunk) : chunk ∈ chunks ∧ chunk.hash = hash := by
  have member := Dict.mem_of_get?_ofList found
  obtain ⟨other, inside, same⟩ := List.mem_map.mp member
  obtain ⟨rfl, rfl⟩ := Prod.mk.inj same
  exact ⟨inside, rfl⟩

theorem exists_get?_chunkMap {chunks : List Chunk} {hash : String} :
    (∃ chunk, (chunkMap chunks).get? hash = some chunk) ↔ ∃ chunk ∈ chunks, chunk.hash = hash := by
  simp [chunkMap, Dict.exists_get?_ofList]

theorem mem_deletedHashes {old new : List Chunk} {hash : String} :
    hash ∈ deletedHashes old new ↔
      (∃ chunk ∈ old, chunk.hash = hash) ∧ ∀ chunk ∈ new, chunk.hash ≠ hash := by
  simp only [deletedHashes, List.mem_filter, decide_eq_true_eq, Dict.mem_keys_iff,
    exists_get?_chunkMap]
  push Not
  rfl

theorem mem_addedChunks {old new : List Chunk} {chunk : Chunk} :
    chunk ∈ addedChunks old new ↔ (chunkMap new).get? chunk.hash = some chunk ∧
      ∀ previous, (chunkMap old).get? chunk.hash = some previous → previous.text ≠ chunk.text := by
  constructor
  · intro member
    obtain ⟨⟨hash, latest⟩, inside, selected⟩ := List.mem_filterMap.mp member
    have found := (Dict.mem_entries_iff _ hash latest).mp inside
    obtain rfl := (get?_chunkMap_some found).2
    dsimp only at selected
    split at selected
    · rename_i missing
      obtain rfl := Option.some.inj selected
      exact ⟨found, by simp [missing]⟩
    · rename_i previous recorded
      split at selected
      · rename_i differs
        obtain rfl := Option.some.inj selected
        refine ⟨found, fun other otherRecorded => ?_⟩
        obtain rfl := Option.some.inj (recorded.symm.trans otherRecorded)
        exact differs
      · simp at selected
  · intro given
    rcases given with ⟨found, differs⟩
    have inside := (Dict.mem_entries_iff _ chunk.hash chunk).mpr found
    apply List.mem_filterMap.mpr
    refine ⟨_, inside, ?_⟩
    cases recorded : (chunkMap old).get? chunk.hash with
    | none => rfl
    | some previous => simp [differs previous recorded]

theorem mem_of_mem_addedChunks {old new : List Chunk} {chunk : Chunk}
    (member : chunk ∈ addedChunks old new) : chunk ∈ new :=
  (get?_chunkMap_some (mem_addedChunks.mp member).1).1

theorem mem_of_mem_added {store : ChunkVersionStore} {wal : Wal} {docId : String}
    {newChunks : List Chunk} {force : Bool} {update : Update}
    (computed : updateDocumentChunks store wal docId newChunks force = some update)
    {chunk : Chunk} (member : chunk ∈ update.added) : chunk ∈ newChunks := by
  unfold updateDocumentChunks at computed
  split at computed
  · rw [← Option.some.inj computed] at member
    exact member
  · obtain ⟨old, -, rfl⟩ := Option.map_eq_some_iff.mp computed
    exact mem_of_mem_addedChunks member

theorem addedChunks_needed {old new : List Chunk} {chunk : Chunk}
    (member : chunk ∈ addedChunks old new) :
    (∀ previous ∈ old, previous.hash ≠ chunk.hash) ∨
      ∃ previous ∈ old, previous.hash = chunk.hash ∧ previous.text ≠ chunk.text := by
  have differs := (mem_addedChunks.mp member).2
  cases recorded : (chunkMap old).get? chunk.hash with
  | none =>
      left
      intro previous present same
      obtain ⟨value, found⟩ := exists_get?_chunkMap.mpr ⟨previous, present, same⟩
      simp [recorded] at found
  | some previous =>
      obtain ⟨present, same⟩ := get?_chunkMap_some recorded
      exact Or.inr ⟨previous, present, same, differs previous recorded⟩

theorem addedChunks_or_recorded {old new : List Chunk} {chunk : Chunk} (member : chunk ∈ new) :
    (∃ added ∈ addedChunks old new, added.hash = chunk.hash) ∨
      ∃ latest ∈ new, ∃ recorded ∈ old, latest.hash = chunk.hash ∧
        recorded.hash = chunk.hash ∧ recorded.text = latest.text := by
  obtain ⟨latest, found⟩ := exists_get?_chunkMap.mpr ⟨chunk, member, rfl⟩
  obtain ⟨inside, same⟩ := get?_chunkMap_some found
  have latestFound : (chunkMap new).get? latest.hash = some latest := by rw [same, found]
  cases previous : (chunkMap old).get? latest.hash with
  | none =>
      left
      exact ⟨latest, mem_addedChunks.mpr ⟨latestFound, by simp [previous]⟩, same⟩
  | some recorded =>
      obtain ⟨kept, keptHash⟩ := get?_chunkMap_some previous
      by_cases text : recorded.text = latest.text
      · exact Or.inr ⟨latest, inside, recorded, kept, same, keptHash.trans same, text⟩
      · left
        refine ⟨latest, mem_addedChunks.mpr ⟨latestFound, fun other found => ?_⟩, same⟩
        obtain rfl := Option.some.inj (previous.symm.trans found)
        exact text

theorem addedChunks_self (chunks : List Chunk) : addedChunks chunks chunks = [] := by
  rw [List.eq_nil_iff_forall_not_mem]
  intro chunk member
  obtain ⟨found, differs⟩ := mem_addedChunks.mp member
  exact differs chunk found rfl

theorem deletedHashes_self (chunks : List Chunk) : deletedHashes chunks chunks = [] := by
  rw [deletedHashes, List.filter_eq_nil_iff]
  intro hash member
  simpa using member

theorem updateDocumentChunks_again {store recorded : ChunkVersionStore} {wal : Wal} {docId : String}
    {newChunks : List Chunk} {update : Update}
    (computed : updateDocumentChunks store wal docId newChunks false = some update)
    (hashed : ∀ chunk ∈ newChunks, chunk.hash ≠ "")
    (hot : recorded.hot = if update.savesHot then store.hot.set docId (.intact newChunks)
      else store.hot) :
    ∃ again, updateDocumentChunks recorded (updateWal wal docId newChunks) docId newChunks false =
        some again ∧ again.added = [] ∧ again.deleted = [] := by
  unfold updateDocumentChunks
  cases all : treatsAllAsNew (updateWal wal docId newChunks) docId false with
  | true =>
      -- only the empty list is recorded with the empty hash
      have empty : newChunks = [] := by
        by_contra nonempty
        have last := hashed _ (List.getLast_mem nonempty)
        simp [treatsAllAsNew, getLastHash, updateWal, lastHash,
          List.getLast?_eq_some_getLast nonempty, last] at all
      exact ⟨_, rfl, empty, rfl⟩
  | false =>
      simp only [Bool.false_eq_true, if_false]
      cases saves : update.savesHot with
      | true =>
          have loaded : loadHotChunks recorded docId = some newChunks := by
            simp [loadHotChunks, hot, saves]
          rw [loaded]
          exact ⟨_, rfl, addedChunks_self newChunks, deletedHashes_self newChunks⟩
      | false =>
          have same : loadHotChunks recorded docId = loadHotChunks store docId := by
            simp [loadHotChunks, hot, saves]
          unfold updateDocumentChunks at computed
          split at computed
          · simp [← Option.some.inj computed] at saves
          · obtain ⟨old, loaded, rfl⟩ := Option.map_eq_some_iff.mp computed
            rw [same, loaded]
            have nothing : addedChunks old newChunks = [] ∧ deletedHashes old newChunks = [] := by
              simpa [not_or] using saves
            exact ⟨_, rfl, nothing⟩

end RagSystem.Etl
