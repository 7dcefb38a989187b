import Mathlib.Tactic.ByContra
import RagSystem.Etl.HashVersioning
import RagSystem.Etl.QdrantHybrid
import RagSystem.Transition.Run

/-! `LiveVectorLake.sync_document` (`etl/indexer/live_vector_lake.py`) as the effects it has, in
order, on the version store and on the vector store. -/

namespace RagSystem.Etl

open Transition

variable {Vector : Type}

structure Lake (Vector : Type) where
  versions : ChunkVersionStore := {}
  points : Collection Vector := ∅
  deriving DecidableEq, Repr

/-- One write of the lake: a file, or a request that reached the vector store. -/
inductive Effect (Vector : Type)
  | saveHot (docId : String) (chunks : List Chunk)
  | saveWal (wal : Wal)
  | upsert (points : List (Point Vector))
  | delete (ids : List String)
  deriving DecidableEq, Repr

def Effect.apply (lake : Lake Vector) : Effect Vector → Lake Vector
  | .saveHot docId chunks =>
      { lake with versions.hot := lake.versions.hot.set docId (.intact chunks) }
  | .saveWal wal => { lake with versions.wal := .intact wal }
  | .upsert points => { lake with points := lake.points.setAll points }
  | .delete ids => { lake with points := lake.points.eraseAll ids }

def Lake.run (lake : Lake Vector) (effects : List (Effect Vector)) : Lake Vector :=
  effects.foldl Effect.apply lake

/-- A process that dies while it writes a file tears it; an unfinished request has no effect. -/
def Effect.tear (lake : Lake Vector) : Effect Vector → Lake Vector
  | .saveHot docId _ => { lake with versions.hot := lake.versions.hot.set docId .torn }
  | .saveWal _ => { lake with versions.wal := .torn }
  | .upsert _ => lake
  | .delete _ => lake

variable (indexer : QdrantHybridIndexer Vector) (services : Services)

/-- The files `update_document_chunks` writes. -/
def fileEffects (wal : Wal) (docId : String) (newChunks : List Chunk) (update : Update) :
    List (Effect Vector) :=
  (if update.savesHot then [.saveHot docId newChunks] else []) ++
    [.saveWal (updateWal wal docId newChunks)]

/-- What `index_chunks` does; it is not called without added chunks. -/
def indexing (update : Update) : Indexing Vector :=
  if update.added = [] then ⟨[], false⟩ else indexChunks indexer services update.added

/-- The request of `delete_chunks`; an embedding that raises has ended the call before. -/
def deleteEffects (update : Update) : List (Effect Vector) :=
  if (indexing indexer services update).raised ∨ update.deleted = [] ∨ services.deletes = false
  then [] else [.delete (pointIds indexer update.deleted)]

def requestEffects (update : Update) : List (Effect Vector) :=
  (indexing indexer services update).upserts.map .upsert ++ deleteEffects indexer services update

/-- `none` is a torn file that the version store cannot load. -/
def syncEffects (lake : Lake Vector) (docId : String) (newChunks : List Chunk) (force : Bool) :
    Option (List (Effect Vector)) :=
  match lake.versions.wal with
  | .torn => none
  | .intact wal =>
      (updateDocumentChunks lake.versions wal docId newChunks force).map fun update =>
        fileEffects wal docId newChunks update ++ requestEffects indexer services update

def syncDocument (lake : Lake Vector) (docId : String) (newChunks : List Chunk) (force : Bool) :
    Option (Lake Vector) :=
  (syncEffects indexer services lake docId newChunks force).map lake.run

/-- How a call is cut short: the services that fail it, and a process that dies after some effects,
perhaps while it writes a file. A call with fewer effects survives. -/
structure Interruption where
  services : Services
  effects : Nat
  tears : Bool := false

def Interruption.run (interruption : Interruption) (lake : Lake Vector)
    (effects : List (Effect Vector)) : Lake Vector :=
  let done := lake.run (effects.take interruption.effects)
  match effects[interruption.effects]? with
  | some effect => if interruption.tears then effect.tear done else done
  | none => done

/-- `none` is a call that raises before it has written anything. -/
def syncInterrupted (interruption : Interruption) (lake : Lake Vector) (docId : String)
    (newChunks : List Chunk) (force : Bool) : Option (Lake Vector) :=
  (syncEffects indexer interruption.services lake docId newChunks force).map
    (interruption.run lake)

variable {indexer services} {lake next : Lake Vector} {docId : String} {newChunks : List Chunk}
  {force : Bool}

theorem run_append (lake : Lake Vector) (first second : List (Effect Vector)) :
    lake.run (first ++ second) = (lake.run first).run second := by
  simp [Lake.run]

@[simp] def Effect.points : Effect Vector → List (Point Vector)
  | .upsert points => points
  | _ => []

@[simp] def Effect.ids : Effect Vector → List String
  | .delete ids => ids
  | _ => []

def sentPoints (effects : List (Effect Vector)) : List (Point Vector) := effects.flatMap Effect.points

def goneIds (effects : List (Effect Vector)) : List String := effects.flatMap Effect.ids

@[simp] theorem sentPoints_nil : sentPoints ([] : List (Effect Vector)) = [] := rfl

@[simp] theorem goneIds_nil : goneIds ([] : List (Effect Vector)) = [] := rfl

@[simp] theorem sentPoints_cons (effect : Effect Vector) (rest : List (Effect Vector)) :
    sentPoints (effect :: rest) = effect.points ++ sentPoints rest := List.flatMap_cons

@[simp] theorem goneIds_cons (effect : Effect Vector) (rest : List (Effect Vector)) :
    goneIds (effect :: rest) = effect.ids ++ goneIds rest := List.flatMap_cons

@[simp] theorem sentPoints_append (first second : List (Effect Vector)) :
    sentPoints (first ++ second) = sentPoints first ++ sentPoints second := List.flatMap_append

@[simp] theorem goneIds_append (first second : List (Effect Vector)) :
    goneIds (first ++ second) = goneIds first ++ goneIds second := List.flatMap_append

@[simp] theorem sentPoints_upserts (upserts : List (List (Point Vector))) :
    sentPoints (upserts.map .upsert) = upserts.flatten := by
  induction upserts with
  | nil => rfl
  | cons points rest ih => simp [ih]

@[simp] theorem goneIds_upserts (upserts : List (List (Point Vector))) :
    goneIds (upserts.map .upsert) = [] := by
  induction upserts with
  | nil => rfl
  | cons points rest ih => simp [ih]

theorem mem_sentPoints_of_take {effects : List (Effect Vector)} {count : Nat} {point : Point Vector}
    (member : point ∈ sentPoints (effects.take count)) : point ∈ sentPoints effects := by
  obtain ⟨effect, inside, handed⟩ := List.mem_flatMap.mp member
  exact List.mem_flatMap.mpr ⟨effect, List.mem_of_mem_take inside, handed⟩

theorem mem_goneIds_of_take {effects : List (Effect Vector)} {count : Nat} {id : String}
    (member : id ∈ goneIds (effects.take count)) : id ∈ goneIds effects := by
  obtain ⟨effect, inside, handed⟩ := List.mem_flatMap.mp member
  exact List.mem_flatMap.mpr ⟨effect, List.mem_of_mem_take inside, handed⟩

def DeletesLast (effects : List (Effect Vector)) : Prop :=
  effects.Pairwise (fun first second => first.ids = [] ∨ second.points = [])

theorem run_points {effects : List (Effect Vector)} (last : DeletesLast effects)
    (lake : Lake Vector) : (lake.run effects).points =
      (lake.points.setAll (sentPoints effects)).eraseAll (goneIds effects) := by
  induction effects generalizing lake with
  | nil => rfl
  | cons effect rest ih =>
      obtain ⟨headLast, restLast⟩ := List.pairwise_cons.mp last
      have unfolded : lake.run (effect :: rest) = (effect.apply lake).run rest := rfl
      rw [unfolded, ih restLast, sentPoints_cons, goneIds_cons, Dict.setAll_append,
        Dict.eraseAll_append]
      cases effect with
      | saveHot docId chunks => rfl
      | saveWal wal => rfl
      | upsert points => rfl
      | delete ids =>
          cases ids with
          | nil => rfl
          | cons id ids =>
              have unsent : sentPoints rest = [] := by
                rw [sentPoints, List.flatMap_eq_nil_iff]
                intro other member
                exact (headLast other member).resolve_left (by simp [Effect.ids])
              rw [unsent]
              rfl

def Effect.IsRequest (effect : Effect Vector) : Prop :=
  ∀ lake : Lake Vector, (effect.apply lake).versions = lake.versions ∧ effect.tear lake = lake

theorem run_versions {effects : List (Effect Vector)} (requests : ∀ effect ∈ effects, effect.IsRequest)
    (lake : Lake Vector) : (lake.run effects).versions = lake.versions := by
  induction effects generalizing lake with
  | nil => rfl
  | cons effect rest ih =>
      have later := ih (fun other member => requests other (List.mem_cons_of_mem _ member))
      have unfolded : lake.run (effect :: rest) = (effect.apply lake).run rest := rfl
      rw [unfolded, later, (requests effect List.mem_cons_self lake).1]

theorem isRequest_of_mem {update : Update} {effect : Effect Vector}
    (member : effect ∈ requestEffects indexer services update) : effect.IsRequest := by
  rcases List.mem_append.mp member with sent | gone
  · obtain ⟨points, -, rfl⟩ := List.mem_map.mp sent
    exact fun _ => ⟨rfl, rfl⟩
  · unfold deleteEffects at gone
    split at gone
    · simp at gone
    · obtain rfl := List.mem_singleton.mp gone
      exact fun _ => ⟨rfl, rfl⟩

theorem fileEffects_silent {wal : Wal} {update : Update} {effect : Effect Vector}
    (member : effect ∈ fileEffects wal docId newChunks update) :
    effect.points = [] ∧ effect.ids = [] := by
  unfold fileEffects at member
  rcases List.mem_append.mp member with hot | saved
  · split at hot
    · obtain rfl := List.mem_singleton.mp hot
      exact ⟨rfl, rfl⟩
    · simp at hot
  · obtain rfl := List.mem_singleton.mp saved
    exact ⟨rfl, rfl⟩

@[simp] theorem sentPoints_fileEffects (wal : Wal) (docId : String) (newChunks : List Chunk)
    (update : Update) :
    sentPoints (fileEffects wal docId newChunks update : List (Effect Vector)) = [] :=
  List.flatMap_eq_nil_iff.mpr (fun _ member => (fileEffects_silent member).1)

@[simp] theorem goneIds_fileEffects (wal : Wal) (docId : String) (newChunks : List Chunk)
    (update : Update) :
    goneIds (fileEffects wal docId newChunks update : List (Effect Vector)) = [] :=
  List.flatMap_eq_nil_iff.mpr (fun _ member => (fileEffects_silent member).2)

theorem run_fileEffects (lake : Lake Vector) (wal : Wal) (docId : String) (newChunks : List Chunk)
    (update : Update) : lake.run (fileEffects wal docId newChunks update) =
      { lake with versions :=
        { wal := .intact (updateWal wal docId newChunks)
          hot := if update.savesHot then lake.versions.hot.set docId (.intact newChunks)
            else lake.versions.hot } } := by
  unfold fileEffects
  split <;> rfl

theorem mem_sentPoints {update : Update} {point : Point Vector}
    (member : point ∈ sentPoints (requestEffects indexer services update)) :
    ∃ chunk ∈ update.added, chunkToPoint indexer chunk = some point := by
  unfold requestEffects deleteEffects at member
  rw [sentPoints_append, sentPoints_upserts] at member
  rcases List.mem_append.mp member with sent | gone
  · unfold indexing at sent
    split at sent
    · simp at sent
    · exact mem_indexChunks sent
  · split at gone <;> simp at gone

theorem mem_goneIds {update : Update} {id : String}
    (member : id ∈ goneIds (requestEffects indexer services update)) :
    id ∈ pointIds indexer update.deleted := by
  unfold requestEffects deleteEffects at member
  rw [goneIds_append, goneIds_upserts, List.nil_append] at member
  split at member
  · simp at member
  · simpa using member

theorem indexing_working (indexer : QdrantHybridIndexer Vector) (update : Update) :
    (indexing indexer .working update).upserts.flatten =
        update.added.filterMap (chunkToPoint indexer) ∧
      (indexing indexer .working update).raised = false := by
  unfold indexing
  split
  · rename_i empty
    simp [empty]
  · exact indexChunks_working indexer update.added

theorem requests_working (indexer : QdrantHybridIndexer Vector) (update : Update) :
    sentPoints (requestEffects indexer .working update) =
        update.added.filterMap (chunkToPoint indexer) ∧
      goneIds (requestEffects indexer .working update) = pointIds indexer update.deleted := by
  obtain ⟨sent, fine⟩ := indexing_working indexer update
  have working : Services.working.deletes = true := rfl
  by_cases nothing : update.deleted = []
  · simp [requestEffects, deleteEffects, sent, nothing, pointIds]
  · simp [requestEffects, deleteEffects, sent, fine, nothing, working]

theorem deletesLast_requestEffects (indexer : QdrantHybridIndexer Vector) (services : Services)
    (update : Update) : DeletesLast (requestEffects indexer services update) := by
  apply List.pairwise_append.mpr
  refine ⟨?_, ?_, ?_⟩
  · rw [List.pairwise_map]
    exact List.pairwise_of_forall (fun _ _ => Or.inl rfl)
  · unfold deleteEffects
    split
    · exact List.Pairwise.nil
    · exact List.pairwise_singleton _ _
  · intro first member second _
    obtain ⟨points, -, rfl⟩ := List.mem_map.mp member
    exact Or.inl rfl

theorem deletesLast_call (indexer : QdrantHybridIndexer Vector) (services : Services) (wal : Wal)
    (docId : String) (newChunks : List Chunk) (update : Update) :
    DeletesLast (fileEffects wal docId newChunks update ++
      requestEffects indexer services update) := by
  apply List.pairwise_append.mpr
  refine ⟨?_, deletesLast_requestEffects indexer services update, ?_⟩
  · exact List.pairwise_of_forall_mem_list
      (fun first member _ _ => Or.inl (fileEffects_silent member).2)
  · exact fun first member _ _ => Or.inl (fileEffects_silent member).2

def reindexed (indexer : QdrantHybridIndexer Vector) (points : Collection Vector)
    (added : List Chunk) (deleted : List String) : Collection Vector :=
  (points.setAll (added.filterMap (chunkToPoint indexer))).eraseAll (pointIds indexer deleted)

theorem syncEffects_eq_some {effects : List (Effect Vector)} :
    syncEffects indexer services lake docId newChunks force = some effects ↔
      ∃ wal update, lake.versions.wal = .intact wal ∧
        updateDocumentChunks lake.versions wal docId newChunks force = some update ∧
        effects = fileEffects wal docId newChunks update ++
          requestEffects indexer services update := by
  unfold syncEffects
  cases stored : lake.versions.wal with
  | torn => simp
  | intact wal =>
      simp only [Option.map_eq_some_iff, File.intact.injEq]
      constructor
      · intro given
        rcases given with ⟨update, computed, shape⟩
        exact ⟨wal, update, rfl, computed, shape.symm⟩
      · intro given
        rcases given with ⟨other, update, same, computed, shape⟩
        subst same
        exact ⟨update, computed, shape.symm⟩

theorem syncDocument_working
    (synced : syncDocument indexer .working lake docId newChunks force = some next) :
    ∃ wal update, lake.versions.wal = .intact wal ∧
      updateDocumentChunks lake.versions wal docId newChunks force = some update ∧
      next.points = reindexed indexer lake.points update.added update.deleted ∧
      next.versions =
        { wal := .intact (updateWal wal docId newChunks)
          hot := if update.savesHot then lake.versions.hot.set docId (.intact newChunks)
            else lake.versions.hot } := by
  obtain ⟨effects, planned, rfl⟩ := Option.map_eq_some_iff.mp synced
  obtain ⟨wal, update, loaded, computed, rfl⟩ := syncEffects_eq_some.mp planned
  refine ⟨wal, update, loaded, computed, ?points, ?versions⟩
  case points =>
    obtain ⟨sent, gone⟩ := requests_working indexer update
    rw [run_points (deletesLast_call _ _ wal _ _ update), sentPoints_append, goneIds_append, sent, gone,
      sentPoints_fileEffects, goneIds_fileEffects]
    rfl
  case versions =>
    rw [run_append, run_versions (fun effect => isRequest_of_mem), run_fileEffects]

theorem interruption_points {effects : List (Effect Vector)} (last : DeletesLast effects)
    (interruption : Interruption) (lake : Lake Vector) :
    (interruption.run lake effects).points =
      (lake.points.setAll (sentPoints (effects.take interruption.effects))).eraseAll
        (goneIds (effects.take interruption.effects)) := by
  have torn : ∀ (effect : Effect Vector) (lake : Lake Vector),
      (effect.tear lake).points = lake.points := by
    intro effect lake
    cases effect <;> rfl
  rw [← run_points (last.sublist (List.take_sublist _ _)), Interruption.run]
  split
  · split
    · exact torn _ _
    · rfl
  · rfl

/-- How the chunks to send and the hashes to delete cover a call, over what is on record. -/
structure Planned (hot newChunks : List Chunk) (force : Bool) (update : Update) : Prop where
  added : ∀ chunk ∈ update.added, chunk ∈ newChunks
  covered : ∀ chunk ∈ newChunks, (∃ sent ∈ update.added, sent.hash = chunk.hash) ∨
    force = false ∧ ∃ latest ∈ newChunks, ∃ old ∈ hot, latest.hash = chunk.hash ∧
      old.hash = chunk.hash ∧ old.text = latest.text
  deleted : ∀ hash ∈ update.deleted, force = false ∧ (∃ old ∈ hot, old.hash = hash) ∧
    ∀ chunk ∈ newChunks, chunk.hash ≠ hash
  dropped : ∀ old ∈ hot, force = true ∨ old.hash ∈ update.deleted ∨
    ∃ chunk ∈ newChunks, chunk.hash = old.hash
  needed : force = false → ∀ sent ∈ update.added, (∀ old ∈ hot, old.hash ≠ sent.hash) ∨
    ∃ old ∈ hot, old.hash = sent.hash ∧ old.text ≠ sent.text
  unsaved : update.savesHot = false → update.added = [] ∧ update.deleted = []

theorem planned_all {hot : List Chunk} (fresh : force = true ∨ hot = []) :
    Planned hot newChunks force ⟨newChunks, [], true⟩ where
  added := fun _ member => member
  covered := fun chunk member => Or.inl ⟨chunk, member, rfl⟩
  deleted := by simp
  dropped := by
    intro old member
    rcases fresh with forced | empty
    · exact Or.inl forced
    · simp [empty] at member
  needed := by
    intro unforced sent _
    rcases fresh with forced | empty
    · simp [unforced] at forced
    · simp [empty]
  unsaved := by simp

theorem planned_diff (old newChunks : List Chunk) :
    Planned old newChunks false ⟨addedChunks old newChunks, deletedHashes old newChunks,
      decide (addedChunks old newChunks ≠ [] ∨ deletedHashes old newChunks ≠ [])⟩ where
  added := fun _ member => mem_of_mem_addedChunks member
  covered := fun chunk member => (addedChunks_or_recorded member).imp_right fun kept => ⟨rfl, kept⟩
  deleted := fun _ member => ⟨rfl, mem_deletedHashes.mp member⟩
  dropped := by
    intro chunk member
    by_cases kept : ∃ other ∈ newChunks, other.hash = chunk.hash
    · exact Or.inr (Or.inr kept)
    · push Not at kept
      exact Or.inr (Or.inl (mem_deletedHashes.mpr ⟨⟨chunk, member, rfl⟩, kept⟩))
  needed := fun _ _ member => addedChunks_needed member
  unsaved := by
    intro unchanged
    simpa [not_or] using unchanged

def hotChunks (lake : Lake Vector) (docId : String) : List Chunk :=
  (loadHotChunks lake.versions docId).getD []

theorem planned_of_update {wal : Wal} {update : Update}
    (computed : updateDocumentChunks lake.versions wal docId newChunks force = some update)
    (fresh : treatsAllAsNew wal docId force = true → force = true ∨ hotChunks lake docId = []) :
    Planned (hotChunks lake docId) newChunks force update := by
  unfold updateDocumentChunks at computed
  split at computed
  · rename_i all
    exact Option.some.inj computed ▸ planned_all (fresh all)
  · rename_i compared
    obtain ⟨old, loaded, rfl⟩ := Option.map_eq_some_iff.mp computed
    have unforced : force = false := by
      by_contra forced
      simp [treatsAllAsNew, eq_true_of_ne_false forced] at compared
    have record : hotChunks lake docId = old := by simp [hotChunks, loaded]
    rw [record, unforced]
    exact planned_diff old newChunks

variable {points : Collection Vector} {added : List Chunk} {deleted : List String}

theorem get?_reindexed_of_mem {chunk : Chunk} {point : Point Vector} (member : chunk ∈ added)
    (stored : chunkToPoint indexer chunk = some point)
    (agree : ∀ other ∈ added, indexer.uuid5 other.hash = indexer.uuid5 chunk.hash →
      chunkToPoint indexer other = chunkToPoint indexer chunk)
    (kept : point.1 ∉ pointIds indexer deleted) :
    (reindexed indexer points added deleted).get? point.1 = some point.2 := by
  rw [reindexed, Dict.get?_eraseAll, if_neg kept]
  apply Dict.get?_setAll_of_agree
  · exact List.mem_filterMap.mpr ⟨chunk, member, stored⟩
  · intro value inside
    obtain ⟨other, sent, same⟩ := List.mem_filterMap.mp inside
    have sentId := chunkToPoint_id same
    simp only [chunkToPoint_id stored] at sentId
    have ids : indexer.uuid5 other.hash = indexer.uuid5 chunk.hash := sentId.symm
    have equal : some (point.1, value) = some point :=
      calc
        some (point.1, value) = chunkToPoint indexer other := same.symm
        _ = chunkToPoint indexer chunk := agree other sent ids
        _ = some point := stored
    exact congrArg Prod.snd (Option.some.inj equal)

theorem get?_reindexed_of_not_mem {id : String}
    (unsent : ∀ chunk ∈ added, ∀ point, chunkToPoint indexer chunk = some point → point.1 ≠ id)
    (kept : id ∉ pointIds indexer deleted) :
    (reindexed indexer points added deleted).get? id = points.get? id := by
  rw [reindexed, Dict.get?_eraseAll, if_neg kept]
  apply Dict.get?_setAll_of_not_mem
  intro point inside
  obtain ⟨chunk, sent, same⟩ := List.mem_filterMap.mp inside
  exact unsent chunk sent point same

theorem get?_reindexed_cases {id : String} {stored : Stored Vector}
    (found : (reindexed indexer points added deleted).get? id = some stored) :
    id ∉ pointIds indexer deleted ∧
      ((∃ chunk ∈ added, chunkToPoint indexer chunk = some (id, stored)) ∨
        (∀ chunk ∈ added, ∀ point, chunkToPoint indexer chunk = some point → point.1 ≠ id) ∧
          points.get? id = some stored) := by
  rw [reindexed, Dict.get?_eraseAll] at found
  split at found
  · simp at found
  · rename_i kept
    refine ⟨kept, ?_⟩
    by_cases sent : ∃ binding ∈ added.filterMap (chunkToPoint indexer), binding.1 = id
    · obtain ⟨value, inside, set⟩ := Dict.get?_setAll_of_mem sent points
      obtain rfl : value = stored := Option.some.inj (set.symm.trans found)
      obtain ⟨chunk, member, same⟩ := List.mem_filterMap.mp inside
      exact Or.inl ⟨chunk, member, same⟩
    · push Not at sent
      refine Or.inr ⟨?_, ?_⟩
      · intro chunk member point same
        exact sent point (List.mem_filterMap.mpr ⟨chunk, member, same⟩)
      · rwa [Dict.get?_setAll_of_not_mem sent] at found

end RagSystem.Etl
