import RagSystem.Etl.LiveVectorLake

/-! When the points of a document are exactly the chunks of its last synchronisation. -/

namespace RagSystem.Etl

open Transition

variable {Vector : Type}

/-- A call of `sync_document`. -/
structure Sync where
  docId : String
  chunks : List Chunk
  force : Bool := false
  deriving DecidableEq, Repr

def syncStep (indexer : QdrantHybridIndexer Vector) (lake : Lake Vector) (call : Sync) :
    Option (Lake Vector) :=
  syncDocument indexer .working lake call.docId call.chunks call.force

def lastChunks (events : List (Event (Lake Vector) Sync)) : String → Option (List Chunk) :=
  events.foldl (fun last event docId =>
    if docId = event.action.docId then some event.action.chunks else last docId) (fun _ => none)

variable (indexer : QdrantHybridIndexer Vector)

def StoredFor (lake : Lake Vector) (docId : String) (chunk : Chunk) : Prop :=
  ∃ point, chunkToPoint indexer chunk = some point ∧ point.2.payload.sourceId = docId ∧
    lake.points.get? point.1 = some point.2

/-- The points of the document are the given chunks: none is missing, none is left over. -/
def ExactFor (lake : Lake Vector) (docId : String) (chunks : List Chunk) : Prop :=
  (∀ chunk ∈ chunks, StoredFor indexer lake docId chunk) ∧
    ∀ id stored, lake.points.get? id = some stored → stored.payload.sourceId = docId →
      ∃ chunk ∈ chunks, chunkToPoint indexer chunk = some (id, stored)

def Exact (lake : Lake Vector) (last : String → Option (List Chunk)) : Prop :=
  ∀ docId chunks, last docId = some chunks → ExactFor indexer lake docId chunks

/-- What a call has to respect. Two hashes meet when their point ids are equal. -/
structure Clean (lake : Lake Vector) (call : Sync) : Prop where
  /-- Every chunk has a hash, a text and the document as its source. -/
  own : ∀ chunk ∈ call.chunks,
    chunk.hash ≠ "" ∧ chunk.text ≠ "" ∧ chunk.sourceId = call.docId
  /-- Chunks that meet make the same point. -/
  distinct : ∀ first ∈ call.chunks, ∀ second ∈ call.chunks,
    indexer.uuid5 first.hash = indexer.uuid5 second.hash →
      chunkToPoint indexer first = chunkToPoint indexer second
  /-- No chunk meets a recorded chunk of another document. -/
  unshared : ∀ other, other ≠ call.docId → ∀ old ∈ hotChunks lake other, ∀ chunk ∈ call.chunks,
    indexer.uuid5 chunk.hash ≠ indexer.uuid5 old.hash
  /-- A forced call meets every recorded chunk of the document. -/
  replaced : call.force = true → ∀ old ∈ hotChunks lake call.docId, ∃ chunk ∈ call.chunks,
    indexer.uuid5 chunk.hash = indexer.uuid5 old.hash
  /-- Otherwise a chunk that meets a recorded one has its hash, and with the same text it makes
  the same point. -/
  renewed : call.force = false → ∀ chunk ∈ call.chunks, ∀ old ∈ hotChunks lake call.docId,
    indexer.uuid5 chunk.hash = indexer.uuid5 old.hash →
      chunk.hash = old.hash ∧
        (chunk.text = old.text → chunkToPoint indexer chunk = chunkToPoint indexer old)

/-- The lake mirrors the last calls: the WAL has an entry for each, the hot file makes the same
points, these are stored, and nothing else is. -/
structure Mirrors (lake : Lake Vector) (last : String → Option (List Chunk)) : Prop where
  wal : ∃ wal, lake.versions.wal = .intact wal ∧ ∀ docId,
    getLastHash wal docId = (last docId).map lastHash
  hot : ∀ docId chunks, last docId = some chunks → ∀ point,
    (∃ old ∈ hotChunks lake docId, chunkToPoint indexer old = point) ↔
      ∃ chunk ∈ chunks, chunkToPoint indexer chunk = point
  absent : ∀ docId, last docId = none → hotChunks lake docId = []
  exact : Exact indexer lake last
  owned : ∀ id stored, lake.points.get? id = some stored →
    ∃ chunks, last stored.payload.sourceId = some chunks

variable {indexer} {lake next : Lake Vector} {call : Sync} {last : String → Option (List Chunk)}

theorem lastChunks_snoc (events : List (Event (Lake Vector) Sync))
    (event : Event (Lake Vector) Sync) (docId : String) :
    lastChunks (events ++ [event]) docId =
      if docId = event.action.docId then some event.action.chunks else lastChunks events docId := by
  simp [lastChunks]

theorem mirrors_empty : Mirrors indexer ({} : Lake Vector) (fun _ => none) where
  wal := ⟨∅, rfl, fun _ => rfl⟩
  hot := by simp
  absent := fun _ _ => rfl
  exact := by
    intro docId chunks called
    simp at called
  owned := by
    intro id stored found
    exact absurd found (by simp)

theorem point_eq_of_stored {first second : Chunk} {firstDoc secondDoc : String}
    (one : StoredFor indexer lake firstDoc first) (two : StoredFor indexer lake secondDoc second)
    (meets : indexer.uuid5 first.hash = indexer.uuid5 second.hash) :
    chunkToPoint indexer first = chunkToPoint indexer second ∧ firstDoc = secondDoc := by
  obtain ⟨point, made, owner, found⟩ := one
  obtain ⟨other, otherMade, otherOwner, otherFound⟩ := two
  have ids : point.1 = other.1 := by
    rw [chunkToPoint_id made, chunkToPoint_id otherMade, meets]
  have stored : point.2 = other.2 := by
    rw [ids, otherFound] at found
    exact (Option.some.inj found).symm
  have equal : point = other := Prod.ext ids stored
  exact ⟨by rw [made, otherMade, equal], by rw [← owner, ← otherOwner, equal]⟩

theorem Mirrors.storedFor_hot (mirror : Mirrors indexer lake last) {docId : String} {old : Chunk}
    (member : old ∈ hotChunks lake docId) :
    ∃ chunks, last docId = some chunks ∧ StoredFor indexer lake docId old := by
  cases called : last docId with
  | none => simp [mirror.absent docId called] at member
  | some chunks =>
      obtain ⟨chunk, inside, same⟩ := (mirror.hot docId chunks called _).mp ⟨old, member, rfl⟩
      obtain ⟨point, made, owner, found⟩ := (mirror.exact docId chunks called).1 chunk inside
      exact ⟨chunks, rfl, point, by rw [← same, made], owner, found⟩

theorem Mirrors.fresh (mirror : Mirrors indexer lake last) {wal : Wal}
    (loaded : lake.versions.wal = .intact wal) (docId : String) (force : Bool)
    (all : treatsAllAsNew wal docId force = true) :
    force = true ∨ hotChunks lake docId = [] := by
  obtain ⟨other, otherLoaded, entries⟩ := mirror.wal
  obtain rfl : wal = other := File.intact.inj (loaded.symm.trans otherLoaded)
  cases force with
  | true => exact Or.inl rfl
  | false =>
      right
      cases called : last docId with
      | none => exact mirror.absent docId called
      | some chunks =>
          -- the empty hash is recorded only for the empty list, since stored chunks have a hash
          have empty : chunks = [] := by
            by_contra nonempty
            have final := List.getLast_mem nonempty
            obtain ⟨point, made, -, -⟩ := (mirror.exact docId chunks called).1 _ final
            have hashed := (chunkToPoint_payload made).2.2.2
            have recorded : getLastHash wal docId = some (chunks.getLast nonempty).hash := by
              rw [entries, called, Option.map_some, lastHash, List.getLast?_eq_some_getLast nonempty]
              rfl
            simp [treatsAllAsNew, recorded, hashed] at all
          rw [List.eq_nil_iff_forall_not_mem]
          intro old member
          obtain ⟨chunk, inside, -⟩ := (mirror.hot docId chunks called _).mp ⟨old, member, rfl⟩
          simp [empty] at inside

def recorded (last : String → Option (List Chunk)) (call : Sync) : String → Option (List Chunk) :=
  fun docId => if docId = call.docId then some call.chunks else last docId

theorem Mirrors.plan (mirror : Mirrors indexer lake last)
    (stepped : syncStep indexer lake call = some next) :
    ∃ wal update, lake.versions.wal = .intact wal ∧
      Planned (hotChunks lake call.docId) call.chunks call.force update ∧
      next.points = reindexed indexer lake.points update.added update.deleted ∧
      next.versions =
        { wal := .intact (updateWal wal call.docId call.chunks)
          hot := if update.savesHot then lake.versions.hot.set call.docId (.intact call.chunks)
            else lake.versions.hot } := by
  obtain ⟨wal, update, loaded, computed, points, versions⟩ := syncDocument_working stepped
  exact ⟨wal, update, loaded,
    planned_of_update computed (mirror.fresh loaded call.docId call.force), points, versions⟩

variable {update : Update}

theorem Clean.not_deleted (clean : Clean indexer lake call)
    (plan : Planned (hotChunks lake call.docId) call.chunks call.force update) {chunk : Chunk}
    (member : chunk ∈ call.chunks) :
    indexer.uuid5 chunk.hash ∉ pointIds indexer update.deleted := by
  intro inside
  obtain ⟨hash, gone, same⟩ := List.mem_map.mp inside
  obtain ⟨unforced, ⟨old, kept, rfl⟩, missing⟩ := plan.deleted hash gone
  exact missing chunk member (clean.renewed unforced chunk member old kept same.symm).1

theorem Clean.storedFor (clean : Clean indexer lake call) (mirror : Mirrors indexer lake last)
    (plan : Planned (hotChunks lake call.docId) call.chunks call.force update)
    (points : next.points = reindexed indexer lake.points update.added update.deleted)
    {chunk : Chunk} (member : chunk ∈ call.chunks) :
    StoredFor indexer next call.docId chunk := by
  obtain ⟨hashed, worded, source⟩ := clean.own chunk member
  obtain ⟨point, made⟩ := chunkToPoint_of_nonempty indexer hashed worded
  have id := chunkToPoint_id made
  have kept : point.1 ∉ pointIds indexer update.deleted := by
    rw [id]
    exact clean.not_deleted plan member
  refine ⟨point, made, (chunkToPoint_payload made).2.2.1.trans source, ?_⟩
  rw [points]
  by_cases sent : ∃ other ∈ update.added, indexer.uuid5 other.hash = indexer.uuid5 chunk.hash
  · obtain ⟨other, inside, meets⟩ := sent
    have same := clean.distinct other (plan.added other inside) chunk member meets
    apply get?_reindexed_of_mem inside (same.trans made)
    · intro third thirdInside thirdMeets
      exact clean.distinct third (plan.added third thirdInside) other (plan.added other inside)
        thirdMeets
    · exact kept
  · push Not at sent
    -- the chunk was not sent again, so its point is the one already on record
    rcases plan.covered chunk member with ⟨other, inside, equal⟩ | ⟨unforced, latest, newest, old,
      hot, latestHash, oldHash, text⟩
    · exact absurd (congrArg indexer.uuid5 equal) (sent other inside)
    · have latestPoint := clean.distinct latest newest chunk member (by rw [latestHash])
      have latestText : latest.text = chunk.text := by
        have both := latestPoint.trans made
        rw [← (chunkToPoint_payload both).1, ← (chunkToPoint_payload made).1]
      have oldPoint := (clean.renewed unforced chunk member old hot (by rw [oldHash])).2
        (latestText.symm.trans text.symm)
      obtain ⟨-, -, stored, oldMade, -, found⟩ := mirror.storedFor_hot hot
      have renewed : some stored = some point :=
        calc
          some stored = chunkToPoint indexer old := oldMade.symm
          _ = chunkToPoint indexer chunk := oldPoint.symm
          _ = some point := made
      obtain rfl := Option.some.inj renewed
      rw [get?_reindexed_of_not_mem _ kept, found]
      intro other inside otherPoint otherMade
      rw [chunkToPoint_id otherMade, id]
      exact sent other inside

theorem Clean.other_kept (clean : Clean indexer lake call) (mirror : Mirrors indexer lake last)
    (plan : Planned (hotChunks lake call.docId) call.chunks call.force update)
    (points : next.points = reindexed indexer lake.points update.added update.deleted)
    {other : String} (differs : other ≠ call.docId) {chunk : Chunk} {chunks : List Chunk}
    (called : last other = some chunks) (member : chunk ∈ chunks) :
    StoredFor indexer next other chunk := by
  have stored := (mirror.exact other chunks called).1 chunk member
  obtain ⟨old, hot, same⟩ := (mirror.hot other chunks called _).mpr ⟨chunk, member, rfl⟩
  obtain ⟨point, made, owner, found⟩ := id stored
  have ids : indexer.uuid5 old.hash = point.1 := (chunkToPoint_id (same.trans made)).symm
  have kept : point.1 ∉ pointIds indexer update.deleted := by
    intro inside
    obtain ⟨hash, gone, meets⟩ := List.mem_map.mp inside
    obtain ⟨-, ⟨own, ownHot, rfl⟩, -⟩ := plan.deleted hash gone
    obtain ⟨-, -, ownStored⟩ := mirror.storedFor_hot ownHot
    have owners := (point_eq_of_stored stored ownStored
      ((chunkToPoint_id made).symm.trans meets.symm)).2
    exact differs owners
  refine ⟨point, made, owner, ?_⟩
  rw [points, get?_reindexed_of_not_mem _ kept, found]
  intro sent inside sentPoint sentMade
  rw [chunkToPoint_id sentMade, ← ids]
  exact clean.unshared other differs old hot sent (plan.added sent inside)

theorem Clean.found (clean : Clean indexer lake call) (mirror : Mirrors indexer lake last)
    (plan : Planned (hotChunks lake call.docId) call.chunks call.force update)
    (points : next.points = reindexed indexer lake.points update.added update.deleted)
    {id : String} {stored : Stored Vector} (present : next.points.get? id = some stored) :
    ∃ chunks, recorded last call stored.payload.sourceId = some chunks ∧
      ∃ chunk ∈ chunks, chunkToPoint indexer chunk = some (id, stored) := by
  rw [points] at present
  obtain ⟨kept, sent | ⟨unsent, old⟩⟩ := get?_reindexed_cases present
  · obtain ⟨chunk, inside, made⟩ := sent
    have member := plan.added chunk inside
    have source : stored.payload.sourceId = call.docId :=
      (chunkToPoint_payload made).2.2.1.trans (clean.own chunk member).2.2
    exact ⟨call.chunks, by simp [recorded, source], chunk, member, made⟩
  · obtain ⟨chunks, called⟩ := mirror.owned id stored old
    obtain ⟨chunk, member, made⟩ := (mirror.exact _ chunks called).2 id stored old rfl
    by_cases own : stored.payload.sourceId = call.docId
    · -- a point of the document that was not touched belongs to a chunk that is still there
      rw [own] at called
      obtain ⟨record, hot, same⟩ := (mirror.hot call.docId chunks called _).mpr ⟨chunk, member, rfl⟩
      have recordId : indexer.uuid5 record.hash = id := (chunkToPoint_id (same.trans made)).symm
      have still : ∃ chunk ∈ call.chunks, indexer.uuid5 chunk.hash = id := by
        rcases plan.dropped record hot with forced | gone | ⟨other, inside, equal⟩
        · obtain ⟨other, inside, meets⟩ := clean.replaced forced record hot
          exact ⟨other, inside, meets.trans recordId⟩
        · exact absurd (List.mem_map.mpr ⟨_, gone, recordId⟩) kept
        · exact ⟨other, inside, by rw [equal, recordId]⟩
      obtain ⟨other, inside, otherId⟩ := still
      obtain ⟨point, otherMade, -, otherFound⟩ := clean.storedFor mirror plan points inside
      have first : point.1 = id := (chunkToPoint_id otherMade).trans otherId
      have second : point.2 = stored := by
        rw [first, points, present] at otherFound
        exact (Option.some.inj otherFound).symm
      exact ⟨call.chunks, by simp [recorded, own], other, inside, by
        rw [otherMade, ← first, ← second]⟩
    · exact ⟨chunks, by simp [recorded, own, called], chunk, member, made⟩

theorem hotChunks_next {wal : Wal}
    (versions : next.versions =
      { wal := .intact wal
        hot := if update.savesHot then lake.versions.hot.set call.docId (.intact call.chunks)
          else lake.versions.hot }) (docId : String) :
    hotChunks next docId =
      if docId = call.docId ∧ update.savesHot = true then call.chunks else hotChunks lake docId := by
  cases saves : update.savesHot with
  | false => simp [hotChunks, loadHotChunks, versions, saves]
  | true =>
      by_cases same : docId = call.docId
      · simp [hotChunks, loadHotChunks, versions, saves, same]
      · simp [hotChunks, loadHotChunks, versions, saves, same, Dict.get?_set]

theorem Clean.same_points (clean : Clean indexer lake call) (mirror : Mirrors indexer lake last)
    (plan : Planned (hotChunks lake call.docId) call.chunks call.force update)
    (points : next.points = reindexed indexer lake.points update.added update.deleted)
    (unsaved : update.savesHot = false) (point : Option (Point Vector)) :
    (∃ old ∈ hotChunks lake call.docId, chunkToPoint indexer old = point) ↔
      ∃ chunk ∈ call.chunks, chunkToPoint indexer chunk = point := by
  obtain ⟨nothing, none⟩ := plan.unsaved unsaved
  have unchanged : next.points = lake.points := by
    rw [points, nothing, none]
    rfl
  have meet {old chunk : Chunk} (hot : old ∈ hotChunks lake call.docId)
      (member : chunk ∈ call.chunks)
      (ids : indexer.uuid5 old.hash = indexer.uuid5 chunk.hash) :
      chunkToPoint indexer old = chunkToPoint indexer chunk := by
    obtain ⟨-, -, oldPoint, made, owner, found⟩ := mirror.storedFor_hot hot
    have still : StoredFor indexer next call.docId old :=
      ⟨oldPoint, made, owner, by rw [unchanged]; exact found⟩
    exact (point_eq_of_stored still (clean.storedFor mirror plan points member) ids).1
  constructor
  · intro given
    rcases given with ⟨old, hot, made⟩
    rcases plan.dropped old hot with forced | gone | ⟨chunk, member, equal⟩
    · obtain ⟨chunk, member, ids⟩ := clean.replaced forced old hot
      exact ⟨chunk, member, (meet hot member ids.symm).symm.trans made⟩
    · simp [none] at gone
    · exact ⟨chunk, member, (meet hot member (by rw [equal])).symm.trans made⟩
  · intro given
    rcases given with ⟨chunk, member, made⟩
    rcases plan.covered chunk member with ⟨sent, inside, -⟩ | ⟨-, -, -, old, hot, -, oldHash, -⟩
    · simp [nothing] at inside
    · exact ⟨old, hot, (meet hot member (by rw [oldHash])).trans made⟩

theorem mirrors_step (mirror : Mirrors indexer lake last) (clean : Clean indexer lake call)
    (stepped : syncStep indexer lake call = some next) :
    Mirrors indexer next (recorded last call) := by
  obtain ⟨wal, update, loaded, plan, points, versions⟩ := mirror.plan stepped
  refine ⟨⟨_, by rw [versions], ?wal⟩, ?hot, ?absent, ?exact, ?owned⟩
  case wal =>
    intro docId
    obtain ⟨other, otherLoaded, entries⟩ := mirror.wal
    obtain rfl : wal = other := File.intact.inj (loaded.symm.trans otherLoaded)
    by_cases same : docId = call.docId
    · simp [getLastHash, updateWal, recorded, same]
    · have before := entries docId
      simpa [getLastHash, updateWal, recorded, same, Dict.get?_set] using before
  case hot =>
    intro docId chunks called point
    rw [hotChunks_next versions]
    by_cases same : docId = call.docId
    · subst same
      obtain rfl : call.chunks = chunks := by simpa [recorded] using called
      cases saves : update.savesHot with
      | true => simp
      | false => simpa using clean.same_points mirror plan points saves point
    · have before : last docId = some chunks := by simpa [recorded, same] using called
      rw [if_neg (fun both => same both.1)]
      exact mirror.hot docId chunks before point
  case absent =>
    intro docId uncalled
    have differs : docId ≠ call.docId := by
      intro same
      simp [recorded, same] at uncalled
    have before : last docId = none := by simpa [recorded, differs] using uncalled
    rw [hotChunks_next versions, if_neg (fun both => differs both.1)]
    exact mirror.absent docId before
  case exact =>
    intro docId chunks called
    constructor
    · intro chunk member
      by_cases same : docId = call.docId
      · subst same
        obtain rfl : call.chunks = chunks := by simpa [recorded] using called
        exact clean.storedFor mirror plan points member
      · have before : last docId = some chunks := by simpa [recorded, same] using called
        exact clean.other_kept mirror plan points same before member
    · intro id stored found source
      obtain ⟨others, otherCalled, present⟩ := clean.found mirror plan points found
      rw [source, called] at otherCalled
      obtain rfl := Option.some.inj otherCalled
      exact present
  case owned =>
    intro id stored found
    obtain ⟨chunks, called, -⟩ := clean.found mirror plan points found
    exact ⟨chunks, called⟩

theorem clean_of_exact (mirror : Mirrors indexer lake last)
    (stepped : syncStep indexer lake call = some next)
    (exact : Exact indexer next (recorded last call)) : Clean indexer lake call := by
  obtain ⟨wal, update, loaded, plan, points, versions⟩ := mirror.plan stepped
  have own := exact call.docId call.chunks (by simp [recorded])
  have met {first second : Chunk} (one : first ∈ call.chunks) (two : second ∈ call.chunks)
      (ids : indexer.uuid5 first.hash = indexer.uuid5 second.hash) :
      chunkToPoint indexer first = chunkToPoint indexer second :=
    (point_eq_of_stored (own.1 first one) (own.1 second two) ids).1
  refine ⟨?own, fun first one second two => met one two, ?unshared, ?replaced, ?renewed⟩
  case own =>
    intro chunk member
    obtain ⟨point, made, owner, -⟩ := own.1 chunk member
    obtain ⟨-, -, source, hashed⟩ := chunkToPoint_payload made
    refine ⟨hashed, ?_, source.symm.trans owner⟩
    intro empty
    simp [chunkToPoint, empty] at made
  case unshared =>
    intro other differs old hot chunk member meets
    obtain ⟨chunks, called, stored⟩ := mirror.storedFor_hot hot
    obtain ⟨record, inside, same⟩ := (mirror.hot other chunks called _).mp ⟨old, hot, rfl⟩
    obtain ⟨point, made, -⟩ := id stored
    have still := (exact other chunks (by simp [recorded, differs, called])).1 record inside
    have ids : indexer.uuid5 chunk.hash = indexer.uuid5 record.hash := by
      rw [meets, ← chunkToPoint_id made, ← chunkToPoint_id (same.trans made)]
    exact differs (point_eq_of_stored (own.1 chunk member) still ids).2.symm
  case replaced =>
    intro forced old hot
    by_contra unmet
    push Not at unmet
    obtain ⟨chunks, called, point, made, owner, found⟩ := mirror.storedFor_hot hot
    -- a forced call deletes nothing, so the unmet point of the old chunk is left over
    have nothing : update.deleted = [] := by
      rw [List.eq_nil_iff_forall_not_mem]
      intro hash gone
      have unforced := (plan.deleted hash gone).1
      simp [forced] at unforced
    have left : next.points.get? point.1 = some point.2 := by
      rw [points, get?_reindexed_of_not_mem _ (by simp [nothing, pointIds]), found]
      intro sent inside sentPoint sentMade
      rw [chunkToPoint_id sentMade, chunkToPoint_id made]
      exact unmet sent (plan.added sent inside)
    obtain ⟨chunk, member, same⟩ := own.2 point.1 point.2 left owner
    exact unmet chunk member ((chunkToPoint_id same).symm.trans (chunkToPoint_id made))
  case renewed =>
    intro unforced chunk member old hot meets
    obtain ⟨chunks, called, oldPoint, oldMade, oldOwner, oldFound⟩ := mirror.storedFor_hot hot
    obtain ⟨point, made, owner, found⟩ := own.1 chunk member
    have kept : point.1 ∉ pointIds indexer update.deleted := by
      intro inside
      rw [points, reindexed, Dict.get?_eraseAll, if_pos inside] at found
      simp at found
    have ids : oldPoint.1 = point.1 := by
      rw [chunkToPoint_id oldMade, chunkToPoint_id made, meets]
    -- the old hash was not deleted, so a chunk of the call carries it
    have equal : chunk.hash = old.hash := by
      rcases plan.dropped old hot with forced | gone | ⟨other, inside, same⟩
      · simp [unforced] at forced
      · refine absurd (List.mem_map.mpr ⟨_, gone, ?_⟩) kept
        rw [← chunkToPoint_id oldMade, ids]
      · have twin := met inside member (by rw [same, meets])
        have twinPoint := twin.trans made
        rw [← (chunkToPoint_payload made).2.1, (chunkToPoint_payload twinPoint).2.1, same]
    refine ⟨equal, fun text => ?_⟩
    -- a chunk with this hash and text is on record, so none was sent under its point id
    have unsent : ∀ sent ∈ update.added, ∀ sentPoint,
        chunkToPoint indexer sent = some sentPoint → sentPoint.1 ≠ point.1 := by
      intro sent inside sentPoint sentMade sameId
      have twin := met (plan.added sent inside) member
        (by rw [← chunkToPoint_id sentMade, sameId, chunkToPoint_id made])
      have twinPoint := twin.trans made
      have sentHash : sent.hash = chunk.hash := by
        rw [← (chunkToPoint_payload twinPoint).2.1, (chunkToPoint_payload made).2.1]
      have sentText : sent.text = chunk.text := by
        rw [← (chunkToPoint_payload twinPoint).1, (chunkToPoint_payload made).1]
      rcases plan.needed unforced sent inside with missing | ⟨previous, present, sameHash, differs⟩
      · exact missing old hot (by rw [sentHash, equal])
      · obtain ⟨-, -, previousStored⟩ := mirror.storedFor_hot present
        obtain ⟨-, -, oldStored⟩ := mirror.storedFor_hot hot
        have both := (point_eq_of_stored previousStored oldStored
          (by rw [sameHash, sentHash, equal])).1.trans oldMade
        apply differs
        rw [sentText, text, ← (chunkToPoint_payload both).1, (chunkToPoint_payload oldMade).1]
    rw [points, get?_reindexed_of_not_mem unsent kept, ← ids, oldFound] at found
    rw [made, oldMade, Prod.ext ids.symm (Option.some.inj found).symm]

theorem recorded_lastChunks (events : List (Event (Lake Vector) Sync))
    (event : Event (Lake Vector) Sync) :
    lastChunks (events ++ [event]) = recorded (lastChunks events) event.action := by
  funext docId
  exact lastChunks_snoc events event docId

theorem mirrors_run {events : List (Event (Lake Vector) Sync)}
    (run : Run (syncStep indexer) {} events lake)
    (clean : ∀ event ∈ events, Clean indexer event.before event.action) :
    Mirrors indexer lake (lastChunks events) :=
  Run.history_induction (fun event => Clean indexer event.before event.action)
    (fun events lake => Mirrors indexer lake (lastChunks events)) mirrors_empty
    (fun events _ _ _ _ mirror stepped allowed => by
      rw [recorded_lastChunks]
      exact mirrors_step mirror allowed stepped)
    run clean

/-- After every call of the run, the points of every document are the chunks of its last call. -/
def ExactThroughout (indexer : QdrantHybridIndexer Vector)
    (events : List (Event (Lake Vector) Sync)) : Prop :=
  ∀ past event, past ++ [event] <+: events →
    Exact indexer event.after (lastChunks (past ++ [event]))

def plainIndexer : QdrantHybridIndexer Unit := { uuid5 := fun hash => hash, vectors := fun _ => () }

def pageChunk (source hash text : String) : Chunk :=
  { text := text, hash := hash, sourceId := source }

def syncEvent (lake : Lake Unit) (call : Sync) : Event (Lake Unit) Sync :=
  ⟨lake, call, (syncStep plainIndexer lake call).getD lake⟩

def firstVersion : Event (Lake Unit) Sync :=
  syncEvent {} { docId := "page", chunks := [pageChunk "page" "h1" "one"] }

def secondVersion (force : Bool) : Event (Lake Unit) Sync :=
  syncEvent firstVersion.after
    { docId := "page", chunks := [pageChunk "page" "h2" "two"], force := force }

theorem versions_run (force : Bool) :
    Run (syncStep plainIndexer) {} [firstVersion, secondVersion force] (secondVersion force).after := by
  have first : syncStep plainIndexer {} firstVersion.action = some firstVersion.after := by
    decide +kernel
  have second : ∀ force, syncStep plainIndexer firstVersion.after (secondVersion force).action =
      some (secondVersion force).after := by decide +kernel
  exact Run.cons first (Run.cons (second force) Run.nil)

theorem clean_single {docId : String} {chunk : Chunk}
    (own : chunk.hash ≠ "" ∧ chunk.text ≠ "" ∧ chunk.sourceId = docId)
    (unmet : ∀ other, ∀ old ∈ hotChunks lake other, indexer.uuid5 chunk.hash ≠ indexer.uuid5 old.hash) :
    Clean indexer lake { docId := docId, chunks := [chunk] } where
  own := by simpa using own
  distinct := by simp
  unshared := by
    intro other _ old hot sent member
    obtain rfl := List.mem_singleton.mp member
    exact unmet other old hot
  replaced := by simp
  renewed := by
    intro _ sent member old hot meets
    obtain rfl := List.mem_singleton.mp member
    exact absurd meets (unmet docId old hot)

end RagSystem.Etl
