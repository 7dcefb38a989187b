import RagSystem.Etl.LakeExactness

/-! Repeating a synchronisation that was cut short. -/

namespace RagSystem.Etl

variable {Vector : Type}

/-- A hash on record for the document whose point id no chunk of the list has. -/
def Removed (indexer : QdrantHybridIndexer Vector) (lake : Lake Vector) (docId : String)
    (newChunks : List Chunk) (hash : String) : Prop :=
  (∃ old ∈ hotChunks lake docId, old.hash = hash) ∧
    ∀ chunk ∈ newChunks, indexer.uuid5 chunk.hash ≠ indexer.uuid5 hash

def Holds (indexer : QdrantHybridIndexer Vector) (lake : Lake Vector) (docId hash : String) : Prop :=
  ∃ stored, lake.points.get? (indexer.uuid5 hash) = some stored ∧ stored.payload.sourceId = docId

/-- The chunks are stored, no removed one is left, and the record claims nothing that is not
stored. -/
structure Completed (indexer : QdrantHybridIndexer Vector) (before after : Lake Vector)
    (docId : String) (newChunks : List Chunk) : Prop where
  stored : ∀ chunk ∈ newChunks, StoredFor indexer after docId chunk
  removed : ∀ hash, Removed indexer before docId newChunks hash → ¬ Holds indexer after docId hash
  recorded : ∀ old ∈ hotChunks after docId, Holds indexer after docId old.hash

variable (indexer : QdrantHybridIndexer Vector) (interruption : Interruption) (lake : Lake Vector)
  (docId : String) (newChunks : List Chunk)

/-- The call is repeated with working services after it was cut short. A call that raises before
it writes anything leaves the lake as it was. -/
def retry : Option (Lake Vector) :=
  syncDocument indexer .working
    ((syncInterrupted indexer interruption lake docId newChunks false).getD lake)
    docId newChunks false

def RetryCompletes : Prop :=
  ∃ after, retry indexer interruption lake docId newChunks = some after ∧
    Completed indexer lake after docId newChunks

/-- The call compared the chunks with a record and stopped after it had written one, or it took
them all as new and stopped after it had written the WAL. -/
def Interruption.recorded (wal : Wal) : Bool :=
  if treatsAllAsNew wal docId false then decide (1 < interruption.effects)
  else decide (0 < interruption.effects)

/-- The files load before the call, and neither the WAL is torn nor a hot file that is read again. -/
def Loads (wal : Wal) (update : Update) : Prop :=
  lake.versions.wal = .intact wal ∧
    updateDocumentChunks lake.versions wal docId newChunks false = some update ∧
    (interruption.tears = true →
      (if update.savesHot then 1 else 0) < interruption.effects ∨
        treatsAllAsNew wal docId false = true ∧ interruption.effects = 0)

/-- The requests that reach the vector store: those of the interrupted call once it has recorded
the chunks, those of a whole call before. -/
def arrived (wal : Wal) (update : Update) : List (Effect Vector) :=
  if interruption.recorded docId wal then
    (fileEffects wal docId newChunks update ++
      requestEffects indexer interruption.services update).take interruption.effects
  else requestEffects indexer .working update

structure Recoverable (wal : Wal) (update : Update) : Prop where
  loads : Loads interruption lake docId newChunks wal update
  own : ∀ chunk ∈ newChunks, chunk.hash ≠ "" ∧ chunk.text ≠ "" ∧ chunk.sourceId = docId
  distinct : ∀ first ∈ newChunks, ∀ second ∈ newChunks,
    indexer.uuid5 first.hash = indexer.uuid5 second.hash →
      chunkToPoint indexer first = chunkToPoint indexer second
  /-- Every chunk is sent or was stored, and is not deleted. -/
  sent : ∀ chunk ∈ newChunks,
    indexer.uuid5 chunk.hash ∉ goneIds (arrived indexer interruption docId newChunks wal update) ∧
      (indexer.uuid5 chunk.hash ∈
          (sentPoints (arrived indexer interruption docId newChunks wal update)).map Prod.fst ∨
        StoredFor indexer lake docId chunk)
  /-- Every removed chunk is deleted or was not there. -/
  gone : ∀ hash, Removed indexer lake docId newChunks hash →
    indexer.uuid5 hash ∈ goneIds (arrived indexer interruption docId newChunks wal update) ∨
      ¬ Holds indexer lake docId hash

variable {indexer interruption lake docId newChunks} {wal : Wal} {update : Update}

theorem arrived_made (loads : Loads interruption lake docId newChunks wal update) :
    ∀ point ∈ sentPoints (arrived indexer interruption docId newChunks wal update),
      ∃ chunk ∈ newChunks, chunkToPoint indexer chunk = some point := by
  intro point member
  have added : ∃ chunk ∈ update.added, chunkToPoint indexer chunk = some point := by
    unfold arrived at member
    split at member
    · have inside := mem_sentPoints_of_take member
      rw [sentPoints_append, sentPoints_fileEffects, List.nil_append] at inside
      exact mem_sentPoints inside
    · exact mem_sentPoints member
  obtain ⟨chunk, inside, same⟩ := added
  exact ⟨chunk, mem_of_mem_added loads.2.1 inside, same⟩

theorem fileEffects_length (wal : Wal) (docId : String) (newChunks : List Chunk) (update : Update) :
    (fileEffects wal docId newChunks update : List (Effect Vector)).length =
      (if update.savesHot then 1 else 0) + 1 := by
  unfold fileEffects
  split <;> rfl

theorem run_versions_recorded (indexer : QdrantHybridIndexer Vector) (lake : Lake Vector)
    (wal : Wal) (docId : String) (newChunks : List Chunk)
    (written : (if update.savesHot then 1 else 0) < interruption.effects) :
    (interruption.run lake (fileEffects wal docId newChunks update ++
        requestEffects indexer interruption.services update)).versions =
      { wal := .intact (updateWal wal docId newChunks)
        hot := if update.savesHot then lake.versions.hot.set docId (.intact newChunks)
          else lake.versions.hot } := by
  have whole := List.take_of_length_le (l := (fileEffects wal docId newChunks update :
    List (Effect Vector))) (i := interruption.effects) (by rw [fileEffects_length]; omega)
  have done : (lake.run ((fileEffects wal docId newChunks update ++
      requestEffects indexer interruption.services update).take interruption.effects)).versions =
      (lake.run (fileEffects wal docId newChunks update)).versions := by
    rw [List.take_append, whole, run_append]
    apply run_versions
    exact fun effect member => isRequest_of_mem (List.mem_of_mem_take member)
  rw [run_fileEffects] at done
  rw [Interruption.run]
  split
  · rename_i effect next
    split
    · rw [List.getElem?_append_right (by rw [fileEffects_length]; omega)] at next
      have request := isRequest_of_mem (List.mem_of_getElem? next)
      rw [(request _).2]
      exact done
    · exact done
  · exact done

theorem syncDocument_of_update (indexer : QdrantHybridIndexer Vector)
    (loaded : lake.versions.wal = .intact wal)
    (computed : updateDocumentChunks lake.versions wal docId newChunks false = some update) :
    ∃ after, syncDocument indexer .working lake docId newChunks false = some after ∧
      after.points = reindexed indexer lake.points update.added update.deleted := by
  have planned : syncEffects indexer .working lake docId newChunks false =
      some (fileEffects wal docId newChunks update ++ requestEffects indexer .working update) :=
    syncEffects_eq_some.mpr ⟨wal, update, loaded, computed, rfl⟩
  refine ⟨_, by rw [syncDocument, planned]; rfl, ?_⟩
  obtain ⟨sent, gone⟩ := requests_working indexer update
  rw [run_points (deletesLast_call _ _ wal _ _ update)]
  simp [sent, gone, reindexed]

theorem savesHot_of_all (computed :
      updateDocumentChunks lake.versions wal docId newChunks false = some update)
    (all : treatsAllAsNew wal docId false = true) : update = ⟨newChunks, [], true⟩ := by
  simpa [updateDocumentChunks, all] using computed.symm

theorem retry_eq (loads : Loads interruption lake docId newChunks wal update) :
    retry indexer interruption lake docId newChunks =
      syncDocument indexer .working (interruption.run lake (fileEffects wal docId newChunks update ++
        requestEffects indexer interruption.services update)) docId newChunks false := by
  have planned : syncEffects indexer interruption.services lake docId newChunks false =
      some (fileEffects wal docId newChunks update ++
        requestEffects indexer interruption.services update) :=
    syncEffects_eq_some.mpr ⟨wal, update, loads.1, loads.2.1, rfl⟩
  rw [retry, syncInterrupted, planned]
  rfl

theorem run_unwritten (services : Services) (tears : Bool) :
    ({ services := services, effects := 0, tears := tears } : Interruption).run lake
        (fileEffects wal docId newChunks update ++ requestEffects indexer services update) =
      if tears then (if update.savesHot
          then { lake with versions.hot := lake.versions.hot.set docId .torn }
          else { lake with versions.wal := .torn })
      else lake := by
  cases saves : update.savesHot <;> cases tears <;>
    simp [Interruption.run, fileEffects, saves, Lake.run, Effect.tear]

theorem run_hotWritten (services : Services) (tears : Bool) (saves : update.savesHot = true) :
    ({ services := services, effects := 1, tears := tears } : Interruption).run lake
        (fileEffects wal docId newChunks update ++ requestEffects indexer services update) =
      { lake with versions :=
        { wal := if tears then .torn else lake.versions.wal
          hot := lake.versions.hot.set docId (.intact newChunks) } } := by
  cases tears <;>
    simp [Interruption.run, fileEffects, saves, Lake.run, Effect.apply, Effect.tear]

/-- The retry, from what the interruption left, ends with the points of the requests that
arrived. -/
def Retried (indexer : QdrantHybridIndexer Vector) (interruption : Interruption)
    (lake between : Lake Vector) (docId : String) (newChunks : List Chunk) (wal : Wal)
    (update : Update) : Prop :=
  ∃ after, syncDocument indexer .working between docId newChunks false = some after ∧
    after.points = (lake.points.setAll
      (sentPoints (arrived indexer interruption docId newChunks wal update))).eraseAll
        (goneIds (arrived indexer interruption docId newChunks wal update))

theorem retried_of_recorded (loads : Loads interruption lake docId newChunks wal update)
    (hashed : ∀ chunk ∈ newChunks, chunk.hash ≠ "")
    (written : (if update.savesHot then 1 else 0) < interruption.effects) :
    Retried indexer interruption lake (interruption.run lake
      (fileEffects wal docId newChunks update ++
        requestEffects indexer interruption.services update)) docId newChunks wal update := by
  have isRecorded : interruption.recorded docId wal = true := by
    unfold Interruption.recorded
    split
    · rename_i all
      rw [savesHot_of_all loads.2.1 all] at written
      simpa using written
    · simp only [decide_eq_true_eq]
      omega
  have versions := run_versions_recorded indexer lake wal docId newChunks written
  obtain ⟨again, repeated, noAdded, noDeleted⟩ := updateDocumentChunks_again loads.2.1 hashed
    (congrArg ChunkVersionStore.hot versions)
  obtain ⟨after, synced, points⟩ := syncDocument_of_update indexer
    (congrArg ChunkVersionStore.wal versions) repeated
  refine ⟨after, synced, ?_⟩
  rw [points, noAdded, noDeleted, interruption_points (deletesLast_call _ _ wal _ _ update),
    arrived, if_pos isRecorded]
  rfl

theorem retried_of_same {between : Lake Vector} (loaded : between.versions.wal = .intact wal)
    (again : updateDocumentChunks between.versions wal docId newChunks false = some update)
    (points : between.points = lake.points)
    (unrecorded : interruption.recorded docId wal = false) :
    Retried indexer interruption lake between docId newChunks wal update := by
  obtain ⟨after, synced, same⟩ := syncDocument_of_update indexer loaded again
  obtain ⟨sent, gone⟩ := requests_working indexer update
  refine ⟨after, synced, ?_⟩
  rw [same, points, arrived, if_neg (by simp [unrecorded]), sent, gone, reindexed]

theorem retried_of_allNew (loads : Loads interruption lake docId newChunks wal update)
    (all : treatsAllAsNew wal docId false = true)
    (unwritten : ¬(if update.savesHot then 1 else 0) < interruption.effects) :
    Retried indexer interruption lake (interruption.run lake
      (fileEffects wal docId newChunks update ++
        requestEffects indexer interruption.services update)) docId newChunks wal update := by
  obtain ⟨loaded, computed, torn⟩ := loads
  obtain ⟨services, effects, tears⟩ := interruption
  obtain rfl := savesHot_of_all computed all
  have unrecorded : Interruption.recorded ⟨services, effects, tears⟩ docId wal = false := by
    simpa [Interruption.recorded, all] using unwritten
  have anew : ∀ store, updateDocumentChunks store wal docId newChunks false =
      some ⟨newChunks, [], true⟩ := by simp [updateDocumentChunks, all]
  have early : effects = 0 ∨ effects = 1 := by
    simp only [if_true] at unwritten
    omega
  rcases early with rfl | rfl
  · rw [run_unwritten]
    refine retried_of_same ?_ (anew _) ?_ unrecorded <;> cases tears <;> simp [loaded]
  · rw [run_hotWritten services tears rfl]
    have untorn : tears = false := by
      by_contra tear
      simpa using torn (eq_true_of_ne_false tear)
    refine retried_of_same ?_ (anew _) rfl unrecorded
    simp [untorn, loaded]

theorem retried_of_compared (loads : Loads interruption lake docId newChunks wal update)
    (all : treatsAllAsNew wal docId false = false)
    (unwritten : ¬(if update.savesHot then 1 else 0) < interruption.effects) :
    Retried indexer interruption lake (interruption.run lake
      (fileEffects wal docId newChunks update ++
        requestEffects indexer interruption.services update)) docId newChunks wal update := by
  obtain ⟨loaded, computed, torn⟩ := loads
  obtain ⟨services, effects, tears⟩ := interruption
  have untorn : tears = false := by
    by_contra tear
    rcases torn (eq_true_of_ne_false tear) with late | ⟨none, -⟩
    · exact unwritten late
    · simp [all] at none
  subst untorn
  cases effects with
  | zero =>
      rw [run_unwritten]
      exact retried_of_same loaded computed rfl (by simp [Interruption.recorded, all])
  | succ more =>
      -- the hot file holds the new chunks, which the retry compares with themselves
      have saves : update.savesHot = true := by
        by_contra unsaved
        simp [unsaved] at unwritten
      obtain rfl : more = 0 := by
        simp only [saves, if_true] at unwritten
        omega
      rw [run_hotWritten services false saves]
      let between : Lake Vector := { lake with versions :=
        { wal := lake.versions.wal, hot := lake.versions.hot.set docId (.intact newChunks) } }
      have again : updateDocumentChunks between.versions wal docId newChunks false =
          some ⟨[], [], false⟩ := by
        simp [between, updateDocumentChunks, all, loadHotChunks, addedChunks_self,
          deletedHashes_self]
      obtain ⟨after, synced, points⟩ := syncDocument_of_update indexer
        (show between.versions.wal = .intact wal from loaded) again
      refine ⟨after, synced, ?_⟩
      rw [points, arrived, if_pos (by simp [Interruption.recorded, all])]
      simp [between, fileEffects, saves, reindexed, pointIds, Dict.setAll, Dict.eraseAll]

theorem retry_of_loads (loads : Loads interruption lake docId newChunks wal update)
    (hashed : ∀ chunk ∈ newChunks, chunk.hash ≠ "") :
    ∃ after, retry indexer interruption lake docId newChunks = some after ∧
      after.points =
        (lake.points.setAll (sentPoints (arrived indexer interruption docId newChunks wal update))).eraseAll
          (goneIds (arrived indexer interruption docId newChunks wal update)) := by
  rw [retry_eq loads]
  by_cases written : (if update.savesHot then 1 else 0) < interruption.effects
  · exact retried_of_recorded loads hashed written
  · cases all : treatsAllAsNew wal docId false with
    | true => exact retried_of_allNew loads all written
    | false => exact retried_of_compared loads all written

theorem loads_of_retry {after : Lake Vector}
    (retried : retry indexer interruption lake docId newChunks = some after) :
    ∃ wal update, Loads interruption lake docId newChunks wal update := by
  cases planned : syncEffects indexer interruption.services lake docId newChunks false with
  | none =>
      -- the call itself raised, and so does its repetition
      rw [retry, syncInterrupted, planned, Option.map_none, Option.getD_none] at retried
      obtain ⟨effects, again, -⟩ := Option.map_eq_some_iff.mp retried
      obtain ⟨wal, update, loaded, computed, -⟩ := syncEffects_eq_some.mp again
      have whole : syncEffects indexer interruption.services lake docId newChunks false = some _ :=
        syncEffects_eq_some.mpr ⟨wal, update, loaded, computed, rfl⟩
      rw [planned] at whole
      simp at whole
  | some effects =>
      obtain ⟨wal, update, loaded, computed, rfl⟩ := syncEffects_eq_some.mp planned
      refine ⟨wal, update, loaded, computed, fun tear => ?_⟩
      by_contra stuck
      push Not at stuck
      obtain ⟨early, compared⟩ := stuck
      have shape : retry indexer interruption lake docId newChunks =
          syncDocument indexer .working (interruption.run lake (fileEffects wal docId newChunks
            update ++ requestEffects indexer interruption.services update)) docId newChunks false := by
        rw [retry, syncInterrupted, planned]
        rfl
      rw [shape] at retried
      obtain ⟨otherWal, otherUpdate, otherLoaded, otherComputed, -⟩ := syncDocument_working retried
      obtain ⟨services, count, tears⟩ := interruption
      simp only at tear early compared otherLoaded otherComputed
      subst tear
      cases saves : update.savesHot with
      | false =>
          obtain rfl : count = 0 := by simpa [saves] using early
          rw [run_unwritten] at otherLoaded
          simp [saves] at otherLoaded
      | true =>
          have few : count ≤ 1 := by simpa [saves] using early
          rcases Nat.le_one_iff_eq_zero_or_eq_one.mp few with rfl | rfl
          · rw [run_unwritten] at otherLoaded otherComputed
            simp only [saves, if_true] at otherLoaded otherComputed
            obtain rfl := File.intact.inj (loaded.symm.trans otherLoaded)
            have read : treatsAllAsNew wal docId false = false := by
              by_contra all
              exact compared (eq_true_of_ne_false all) rfl
            simp [updateDocumentChunks, read, loadHotChunks] at otherComputed
          · rw [run_hotWritten services true saves] at otherLoaded
            simp at otherLoaded

variable {after : Lake Vector} {written : List (Point Vector)} {gone : List String}

theorem stored_iff (made : ∀ point ∈ written, ∃ chunk ∈ newChunks,
      chunkToPoint indexer chunk = some point)
    (points : after.points = (lake.points.setAll written).eraseAll gone) :
    (∀ chunk ∈ newChunks, StoredFor indexer after docId chunk) ↔
      (∀ chunk ∈ newChunks, chunk.hash ≠ "" ∧ chunk.text ≠ "" ∧ chunk.sourceId = docId) ∧
      (∀ first ∈ newChunks, ∀ second ∈ newChunks,
        indexer.uuid5 first.hash = indexer.uuid5 second.hash →
          chunkToPoint indexer first = chunkToPoint indexer second) ∧
      ∀ chunk ∈ newChunks, indexer.uuid5 chunk.hash ∉ gone ∧
        (indexer.uuid5 chunk.hash ∈ written.map Prod.fst ∨
          StoredFor indexer lake docId chunk) := by
  constructor
  · intro stored
    refine ⟨?_, ?_, ?_⟩
    · intro chunk member
      obtain ⟨point, same, owner, -⟩ := stored chunk member
      obtain ⟨hashed, worded⟩ := nonempty_of_chunkToPoint same
      exact ⟨hashed, worded, (chunkToPoint_payload same).2.2.1.symm.trans owner⟩
    · intro first one second two meets
      exact (point_eq_of_stored (stored first one) (stored second two) meets).1
    · intro chunk member
      obtain ⟨point, same, owner, found⟩ := stored chunk member
      rw [points, Dict.get?_eraseAll] at found
      split at found
      · simp at found
      · rename_i kept
        rw [← chunkToPoint_id same]
        refine ⟨kept, ?_⟩
        by_cases sent : ∃ other ∈ written, other.1 = point.1
        · exact Or.inl (List.mem_map.mpr sent)
        · push Not at sent
          rw [Dict.get?_setAll_of_not_mem sent] at found
          exact Or.inr ⟨point, same, owner, found⟩
  · intro given chunk member
    rcases given with ⟨own, distinct, handed⟩
    obtain ⟨hashed, worded, source⟩ := own chunk member
    obtain ⟨point, same⟩ := chunkToPoint_of_nonempty indexer hashed worded
    obtain ⟨kept, arrived⟩ := handed chunk member
    refine ⟨point, same, (chunkToPoint_payload same).2.2.1.trans source, ?_⟩
    rw [← chunkToPoint_id same] at kept arrived
    rw [points, Dict.get?_eraseAll, if_neg kept]
    by_cases sent : ∃ other ∈ written, other.1 = point.1
    · obtain ⟨value, inside, set⟩ := Dict.get?_setAll_of_mem sent lake.points
      obtain ⟨other, otherMember, otherMade⟩ := made _ inside
      have meets : indexer.uuid5 other.hash = indexer.uuid5 chunk.hash := by
        rw [← chunkToPoint_id otherMade, ← chunkToPoint_id same]
      have twin : some (point.1, value) = some point :=
        calc
          some (point.1, value) = chunkToPoint indexer other := otherMade.symm
          _ = chunkToPoint indexer chunk := distinct other otherMember chunk member meets
          _ = some point := same
      rw [set, ← Option.some.inj twin]
    · have unsent : point.1 ∉ written.map Prod.fst := fun inside => sent (List.mem_map.mp inside)
      obtain ⟨stored, storedMade, -, found⟩ := arrived.resolve_left unsent
      obtain rfl : stored = point := Option.some.inj (storedMade.symm.trans same)
      push Not at sent
      rw [Dict.get?_setAll_of_not_mem sent, found]

theorem removed_iff {hash : String} (removed : Removed indexer lake docId newChunks hash)
    (made : ∀ point ∈ written, ∃ chunk ∈ newChunks, chunkToPoint indexer chunk = some point)
    (points : after.points = (lake.points.setAll written).eraseAll gone) :
    ¬ Holds indexer after docId hash ↔
      indexer.uuid5 hash ∈ gone ∨ ¬ Holds indexer lake docId hash := by
  have unsent : ∀ point ∈ written, point.1 ≠ indexer.uuid5 hash := by
    intro point inside
    obtain ⟨chunk, member, same⟩ := made point inside
    rw [chunkToPoint_id same]
    exact removed.2 chunk member
  unfold Holds
  rw [points, Dict.get?_eraseAll]
  by_cases deleted : indexer.uuid5 hash ∈ gone
  · simp [deleted]
  · rw [if_neg deleted, Dict.get?_setAll_of_not_mem unsent]
    simp only [deleted, false_or]

theorem hash_of_recorded
    (synced : syncDocument indexer .working lake docId newChunks false = some after) {old : Chunk}
    (member : old ∈ hotChunks after docId) : ∃ chunk ∈ newChunks, chunk.hash = old.hash := by
  obtain ⟨wal, update, loaded, computed, -, versions⟩ := syncDocument_working synced
  cases saves : update.savesHot with
  | true =>
      have record : hotChunks after docId = newChunks := by
        simp [hotChunks, loadHotChunks, versions, saves]
      exact ⟨old, record ▸ member, rfl⟩
  | false =>
      have record : hotChunks after docId = hotChunks lake docId := by
        simp [hotChunks, loadHotChunks, versions, saves]
      unfold updateDocumentChunks at computed
      split at computed
      · simp [← Option.some.inj computed] at saves
      · obtain ⟨recorded, found, rfl⟩ := Option.map_eq_some_iff.mp computed
        have nothing : addedChunks recorded newChunks = [] ∧
            deletedHashes recorded newChunks = [] := by simpa [not_or] using saves
        have present : old ∈ recorded := by
          rw [record] at member
          simpa [hotChunks, found] using member
        by_contra missing
        push Not at missing
        have dropped := mem_deletedHashes.mpr ⟨⟨old, present, rfl⟩, missing⟩
        simp [nothing.2] at dropped

def unreachable : Services := ⟨fun _ => true, fun _ => false, fun _ _ => false, false⟩

end RagSystem.Etl
