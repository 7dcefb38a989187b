import RagSystem.Etl.EventLog
import RagSystem.Etl.StreamConsumer

/-! What an event has achieved when `process_event` answers `True`, whatever fails. -/

namespace RagSystem.Etl

variable {Vector : Type}

def batchOf (indexer : QdrantHybridIndexer Vector) (chunks : List Chunk) (batch : Nat) :
    List (Point Vector) :=
  ((chunks.drop (batch * indexer.batchSize)).take indexer.batchSize).filterMap (chunkToPoint indexer)

/-- The store takes the point at a place of a batch, with the batch or on its own. -/
def AcceptedAt (indexer : QdrantHybridIndexer Vector) (services : Services) (index : Nat)
    (chunks : List Chunk) (batch place : Nat) (point : Point Vector) : Prop :=
  (batchOf indexer chunks batch)[place]? = some point ∧
    (services.upserts (index + batch * indexer.batchSize) = true ∨
      services.singles (index + batch * indexer.batchSize) place = true)

def EmbeddingFails (indexer : QdrantHybridIndexer Vector) (services : Services) (index : Nat)
    (chunks : List Chunk) : Prop :=
  ∃ place chunk, chunks[place]? = some chunk ∧ (chunkToPoint indexer chunk).isSome = true ∧
    services.embeds (index + place) = false

section Indexing

variable {indexer : QdrantHybridIndexer Vector} {services : Services} {index : Nat}
  {chunks : List Chunk}

theorem batchPoints_some {points : List (Point Vector)}
    (computed : batchPoints indexer services index chunks = some points) :
    points = chunks.filterMap (chunkToPoint indexer) := by
  induction chunks generalizing index points with
  | nil => exact (Option.some.inj computed).symm
  | cons chunk rest ih =>
      cases made : chunkToPoint indexer chunk with
      | none =>
          simp only [batchPoints, made] at computed
          rw [List.filterMap_cons_none made]
          exact ih computed
      | some point =>
          simp only [batchPoints, made] at computed
          split at computed
          · obtain ⟨tail, tailComputed, rfl⟩ := Option.map_eq_some_iff.mp computed
            rw [List.filterMap_cons_some made, ih tailComputed]
          · cases computed

theorem embeddingFails_cons {chunk : Chunk} {rest : List Chunk} :
    EmbeddingFails indexer services index (chunk :: rest) ↔
      ((chunkToPoint indexer chunk).isSome = true ∧ services.embeds index = false) ∨
        EmbeddingFails indexer services (index + 1) rest := by
  constructor
  · intro given
    rcases given with ⟨place, other, found, made, fails⟩
    cases place with
    | zero =>
        obtain rfl : chunk = other := by simpa using found
        exact Or.inl ⟨made, fails⟩
    | succ place =>
        refine Or.inr ⟨place, other, by simpa using found, made, ?_⟩
        rw [show index + 1 + place = index + (place + 1) by omega]
        exact fails
  · intro given
    rcases given with ⟨made, fails⟩ | ⟨place, other, found, made, fails⟩
    · exact ⟨0, chunk, rfl, made, fails⟩
    · refine ⟨place + 1, other, by simpa using found, made, ?_⟩
      rw [show index + (place + 1) = index + 1 + place by omega]
      exact fails

theorem batchPoints_none_iff :
    batchPoints indexer services index chunks = none ↔ EmbeddingFails indexer services index chunks := by
  induction chunks generalizing index with
  | nil =>
      simp [batchPoints, EmbeddingFails]
  | cons chunk rest ih =>
      rw [embeddingFails_cons, ← ih]
      cases made : chunkToPoint indexer chunk with
      | none => simp [batchPoints, made]
      | some point =>
          cases embedded : services.embeds index with
          | true => simp [batchPoints, made, embedded]
          | false => simp [batchPoints, made, embedded]

theorem mem_upsertBatch_iff {points : List (Point Vector)} {point : Point Vector} :
    point ∈ (upsertBatch services index points).flatten ↔
      ∃ place, points[place]? = some point ∧
        (services.upserts index = true ∨ services.singles index place = true) := by
  unfold upsertBatch
  split
  · rename_i empty
    simp [empty]
  · split
    · rename_i whole
      simp [whole, List.mem_iff_getElem?]
    · rename_i refused
      rw [List.mem_flatten]
      constructor
      · intro given
        rcases given with ⟨request, sent, inside⟩
        obtain ⟨numbered, selected, rfl⟩ := List.mem_map.mp sent
        obtain rfl := List.mem_singleton.mp inside
        obtain ⟨listed, taken⟩ := List.mem_filter.mp selected
        exact ⟨numbered.2, List.mem_zipIdx_iff_getElem?.mp listed, Or.inr taken⟩
      · intro given
        rcases given with ⟨place, found, whole | taken⟩
        · exact absurd whole refused
        · refine ⟨[point], List.mem_map.mpr ⟨(point, place), ?_, rfl⟩, List.mem_singleton_self _⟩
          exact List.mem_filter.mpr ⟨List.mem_zipIdx_iff_getElem?.mpr found, taken⟩

theorem embeddingFails_split (size : Nat) :
    EmbeddingFails indexer services index chunks ↔
      EmbeddingFails indexer services index (chunks.take size) ∨
        EmbeddingFails indexer services (index + size) (chunks.drop size) := by
  constructor
  · intro given
    rcases given with ⟨place, chunk, found, made, fails⟩
    rcases Nat.lt_or_ge place size with early | late
    · refine Or.inl ⟨place, chunk, ?_, made, fails⟩
      rw [List.getElem?_take_of_lt early]
      exact found
    · refine Or.inr ⟨place - size, chunk, ?_, made, ?_⟩
      · rw [List.getElem?_drop, Nat.add_sub_cancel' late]
        exact found
      · rw [show index + size + (place - size) = index + place by omega]
        exact fails
  · intro given
    rcases given with ⟨place, chunk, found, made, fails⟩ | ⟨place, chunk, found, made, fails⟩
    · refine ⟨place, chunk, ?_, made, fails⟩
      rw [List.getElem?_take] at found
      split at found
      · exact found
      · cases found
    · refine ⟨size + place, chunk, ?_, made, ?_⟩
      · rw [← List.getElem?_drop]
        exact found
      · rw [← Nat.add_assoc]
        exact fails

theorem acceptedAt_zero {place : Nat} {point : Point Vector} :
    AcceptedAt indexer services index chunks 0 place point ↔
      ((chunks.take indexer.batchSize).filterMap (chunkToPoint indexer))[place]? = some point ∧
        (services.upserts index = true ∨ services.singles index place = true) := by
  simp [AcceptedAt, batchOf]

theorem acceptedAt_succ {batch place : Nat} {point : Point Vector} :
    AcceptedAt indexer services index chunks (batch + 1) place point ↔
      AcceptedAt indexer services (index + indexer.batchSize) (chunks.drop indexer.batchSize)
        batch place point := by
  have same : (batch + 1) * indexer.batchSize = indexer.batchSize + batch * indexer.batchSize := by
    rw [Nat.add_mul, Nat.one_mul, Nat.add_comm]
  unfold AcceptedAt batchOf
  rw [same, List.drop_drop, Nat.add_assoc]

theorem indexBatches_spec (fuel : Nat) (enough : chunks.length ≤ fuel) :
    ((indexBatches indexer services fuel index chunks).raised = true ↔
        EmbeddingFails indexer services index chunks) ∧
      (¬ EmbeddingFails indexer services index chunks → ∀ point,
        point ∈ (indexBatches indexer services fuel index chunks).upserts.flatten ↔
          ∃ batch place, AcceptedAt indexer services index chunks batch place point) := by
  induction fuel generalizing index chunks with
  | zero =>
      obtain rfl : chunks = [] := List.eq_nil_of_length_eq_zero (by omega)
      simp [indexBatches, EmbeddingFails, AcceptedAt, batchOf]
  | succ fuel ih =>
      by_cases empty : chunks = []
      · simp [indexBatches, empty, EmbeddingFails, AcceptedAt, batchOf]
      · have positive := indexer.batchSize_pos
        have nonempty : 0 < chunks.length := List.length_pos_iff.mpr empty
        have shorter : (chunks.drop indexer.batchSize).length ≤ fuel := by
          rw [List.length_drop]
          omega
        obtain ⟨raised, sent⟩ := @ih (index + indexer.batchSize) _ shorter
        rw [embeddingFails_split indexer.batchSize]
        simp only [indexBatches, if_neg empty]
        cases computed : batchPoints indexer services index (chunks.take indexer.batchSize) with
        | none =>
            have fails := batchPoints_none_iff.mp computed
            simp [fails]
        | some points =>
            have fine : ¬ EmbeddingFails indexer services index (chunks.take indexer.batchSize) := by
              rw [← batchPoints_none_iff, computed]
              simp
            have all := batchPoints_some computed
            refine ⟨by simp [fine, raised], fun embeds point => ?_⟩
            have later : ¬ EmbeddingFails indexer services (index + indexer.batchSize)
                (chunks.drop indexer.batchSize) := fun fails => embeds (Or.inr fails)
            rw [List.flatten_append, List.mem_append, sent later point, mem_upsertBatch_iff, all]
            constructor
            · intro given
              rcases given with ⟨place, now⟩ | ⟨batch, place, accepted⟩
              · exact ⟨0, place, acceptedAt_zero.mpr now⟩
              · exact ⟨batch + 1, place, acceptedAt_succ.mpr accepted⟩
            · intro given
              rcases given with ⟨batch, place, accepted⟩
              cases batch with
              | zero => exact Or.inl ⟨place, acceptedAt_zero.mp accepted⟩
              | succ batch => exact Or.inr ⟨batch, place, acceptedAt_succ.mp accepted⟩

theorem indexChunks_raised_iff :
    (indexChunks indexer services chunks).raised = true ↔ EmbeddingFails indexer services 0 chunks :=
  (indexBatches_spec chunks.length (Nat.le_refl _)).1

theorem mem_indexChunks_iff (embeds : ¬ EmbeddingFails indexer services 0 chunks)
    (point : Point Vector) :
    point ∈ (indexChunks indexer services chunks).upserts.flatten ↔
      ∃ batch place, AcceptedAt indexer services 0 chunks batch place point :=
  (indexBatches_spec chunks.length (Nat.le_refl _)).2 embeds point

end Indexing

section Deletion

variable {sourceId : String}

theorem nodup_sourceIds (points : Collection Vector) (sourceId : String) :
    (sourceIds points sourceId).Nodup :=
  points.nodup.sublist (List.filter_sublist.map Prod.fst)

theorem gone_iff (indexer : QdrantHybridIndexer Vector) (batches : Nat)
    (points : Collection Vector) (id : String) (named : sourceId ≠ "") :
    (∀ pointId stored, (deleteBySourceId indexer sourceId batches points).get? pointId =
        some stored → stored.payload.sourceId ≠ id) ↔
      (∀ pointId stored, points.get? pointId = some stored → stored.payload.sourceId ≠ id) ∨
        id = sourceId ∧ (sourceIds points sourceId).length ≤ batches * indexer.batchSize := by
  unfold deleteBySourceId
  rw [if_neg named]
  constructor
  · intro gone
    by_cases same : id = sourceId
    · refine Or.inr ⟨same, ?_⟩
      by_contra short
      -- The first id beyond the batches is not deleted.
      have beyond := Nat.lt_of_not_le short
      obtain ⟨stored, found, owner⟩ := mem_sourceIds.mp (List.getElem_mem beyond)
      refine gone (sourceIds points sourceId)[batches * indexer.batchSize] stored ?_
        (owner.trans same.symm)
      rw [Dict.get?_eraseAll, if_neg, found]
      intro deleted
      obtain ⟨place, early, repeated⟩ := List.getElem_of_mem deleted
      rw [List.length_take] at early
      rw [List.getElem_take] at repeated
      have equal := (nodup_sourceIds points sourceId).getElem_inj_iff.mp repeated
      omega
    · refine Or.inl fun pointId stored found owner => ?_
      refine gone pointId stored ?_ owner
      rw [Dict.get?_eraseAll, if_neg, found]
      intro deleted
      obtain ⟨other, again, hit⟩ := mem_sourceIds.mp (List.mem_of_mem_take deleted)
      rw [found] at again
      obtain rfl := Option.some.inj again
      exact same (owner.symm.trans hit)
  · intro given pointId stored found
    rcases given with none | ⟨rfl, enough⟩
    · rw [Dict.get?_eraseAll] at found
      split at found
      · cases found
      · exact none pointId stored found
    · rw [List.take_of_length_le enough, Dict.get?_eraseAll] at found
      split at found
      · cases found
      · rename_i unlisted
        exact fun owner => unlisted (mem_sourceIds.mpr ⟨stored, found, owner⟩)

end Deletion

section Delivery

variable (processor : EventProcessor Vector) (circumstances : Circumstances)

/-- Every chunk of an update was sent to the store and taken; every point of a deleted document is
gone. -/
def EffectDone (event : StreamEvent) (points : Collection Vector) : Prop :=
  if event.deletes then
    ∀ pointId stored, (processEvent processor circumstances event points).1.get? pointId =
      some stored → stored.payload.sourceId ≠ event.deletedId
  else
    match eventToDocument event with
    | some (some document) =>
        ∀ chunks, documentChunks processor circumstances document = some chunks →
          ∀ chunk ∈ chunks, ∃ point, chunkToPoint processor.indexer chunk = some point ∧
            point ∈ (indexChunks processor.indexer circumstances.services chunks).upserts.flatten
    | _ => True

/-- What fails does not matter for a deletion: nothing is deleted at all, or the document has no
points, or they are looked for under its id and all their batches come before the failure. -/
def DeletionHarmless (event : StreamEvent) (points : Collection Vector) : Prop :=
  event.payload = .notJson ∨ circumstances.ready = false ∨
    (∀ pointId stored, points.get? pointId = some stored →
      stored.payload.sourceId ≠ event.deletedId) ∨
    event.deletedId = normalizeDocumentId event.source event.docId ∧
      ∀ batches, circumstances.deletionFails = some batches →
        (sourceIds points (normalizeDocumentId event.source event.docId)).length ≤
          batches * processor.indexer.batchSize

/-- What fails does not matter for an update: an embedding fails, or the store takes no point at
all, or it takes one for each chunk. -/
def UpdateHarmless (chunks : List Chunk) : Prop :=
  EmbeddingFails processor.indexer circumstances.services 0 chunks ∨
    (∀ batch place point,
      ¬ AcceptedAt processor.indexer circumstances.services 0 chunks batch place point) ∨
    ∀ chunk ∈ chunks, ∃ point, chunkToPoint processor.indexer chunk = some point ∧
      ∃ batch place, AcceptedAt processor.indexer circumstances.services 0 chunks batch place point

def FailuresHarmless (event : StreamEvent) (points : Collection Vector) : Prop :=
  if event.deletes then DeletionHarmless processor circumstances event points
  else
    match eventToDocument event with
    | some (some document) =>
        circumstances.ready = false ∨
          ∀ chunks, documentChunks processor circumstances document = some chunks →
            UpdateHarmless processor circumstances chunks
    | _ => True

variable {processor circumstances} {event : StreamEvent} {points : Collection Vector}

theorem deleteDocument_effect_iff (deletes : event.deletes = true) :
    ((processEvent processor circumstances event points).2 = some true →
        EffectDone processor circumstances event points) ↔
      DeletionHarmless processor circumstances event points := by
  have named := deletes_source deletes
  have known : event.source ≠ "" := by
    rcases named with confluence | gitlab
    · rw [confluence]
      decide
    · rw [gitlab]
      decide
  unfold EffectDone DeletionHarmless
  rw [if_pos deletes]
  by_cases json : event.payload = .notJson
  · simp [processEvent, known, json]
  · cases ready : circumstances.ready with
    | false => simp [processEvent, known, json, deletes, deleteDocument, ready]
    | true =>
        simp only [processEvent, if_neg known, if_neg json, deletes, if_true, deleteDocument, ready]
        have gone := gone_iff processor.indexer
          (circumstances.deletionFails.getD points.entries.length) points event.deletedId
          (normalizeDocumentId_nonempty event.source event.docId)
        have lasts : (sourceIds points (normalizeDocumentId event.source event.docId)).length ≤
              circumstances.deletionFails.getD points.entries.length * processor.indexer.batchSize ↔
            ∀ batches, circumstances.deletionFails = some batches →
              (sourceIds points (normalizeDocumentId event.source event.docId)).length ≤
                batches * processor.indexer.batchSize := by
          cases circumstances.deletionFails with
          | none => simp [sourceIds_length]
          | some batches => simp
        rw [lasts] at gone
        simpa [json] using gone

theorem eventToDocument_json {document : EventDocument}
    (mapped : eventToDocument event = some (some document)) :
    event.source ≠ "" ∧ event.payload ≠ .notJson := by
  unfold eventToDocument at mapped
  split at mapped
  · cases mapped
  · split at mapped
    · cases mapped
    · rename_i supported
      constructor
      · intro unnamed
        rw [unnamed] at supported
        exact supported (by decide)
      · intro invalid
        rw [invalid] at mapped
        cases mapped

theorem indexDocument_true_iff {document : EventDocument} (ready : circumstances.ready = true)
    {chunks : List Chunk} (made : documentChunks processor circumstances document = some chunks) :
    (indexDocument processor circumstances document points).2 = some true ↔
      chunks = [] ∨ ¬ EmbeddingFails processor.indexer circumstances.services 0 chunks ∧
        ∃ batch place point,
          AcceptedAt processor.indexer circumstances.services 0 chunks batch place point := by
  have nonempty : (indexChunks processor.indexer circumstances.services chunks).total ≠ 0 ↔
      ∃ point, point ∈
        (indexChunks processor.indexer circumstances.services chunks).upserts.flatten := by
    rw [Indexing.total, ← Nat.pos_iff_ne_zero, List.length_pos_iff_exists_mem]
  unfold indexDocument
  rw [if_neg (by simp [ready]), made]
  cases chunks with
  | nil => simp
  | cons chunk rest =>
      simp only [Option.some.injEq, Bool.and_eq_true, Bool.not_eq_true', decide_eq_true_eq,
        List.cons_ne_nil, false_or]
      rw [← Bool.not_eq_true, indexChunks_raised_iff, nonempty]
      refine and_congr_right fun embeds => ?_
      constructor
      · intro given
        rcases given with ⟨point, sent⟩
        obtain ⟨batch, place, accepted⟩ := (mem_indexChunks_iff embeds point).mp sent
        exact ⟨batch, place, point, accepted⟩
      · intro given
        rcases given with ⟨batch, place, point, accepted⟩
        exact ⟨point, (mem_indexChunks_iff embeds point).mpr ⟨batch, place, accepted⟩⟩

theorem indexDocument_effect_iff (points : Collection Vector) {chunks : List Chunk}
    {document : EventDocument} (ready : circumstances.ready = true)
    (made : documentChunks processor circumstances document = some chunks) :
    ((indexDocument processor circumstances document points).2 = some true →
        ∀ chunk ∈ chunks, ∃ point, chunkToPoint processor.indexer chunk = some point ∧
          point ∈ (indexChunks processor.indexer circumstances.services chunks).upserts.flatten) ↔
      UpdateHarmless processor circumstances chunks := by
  rw [indexDocument_true_iff ready made]
  unfold UpdateHarmless
  by_cases fails : EmbeddingFails processor.indexer circumstances.services 0 chunks
  · have some_chunk : chunks ≠ [] := by
      intro given
      rcases given with rfl
      obtain ⟨place, chunk, found, -⟩ := fails
      simp at found
    simp [fails, some_chunk]
  · simp only [mem_indexChunks_iff fails, fails, not_false_iff, true_and, false_or]
    constructor
    · intro done
      by_cases taken : ∃ batch place point,
          AcceptedAt processor.indexer circumstances.services 0 chunks batch place point
      · exact Or.inr (done (Or.inr taken))
      · push Not at taken
        exact Or.inl taken
    · intro given answered
      rcases given with none | all
      · rcases answered with rfl | ⟨batch, place, point, taken⟩
        · simp
        · exact absurd taken (none batch place point)
      · exact all

theorem update_effect_iff (kept : event.deletes = false) :
    ((processEvent processor circumstances event points).2 = some true →
        EffectDone processor circumstances event points) ↔
      FailuresHarmless processor circumstances event points := by
  unfold EffectDone FailuresHarmless
  rw [if_neg (by simp [kept]), if_neg (by simp [kept])]
  cases mapped : eventToDocument event with
  | none => simp
  | some mapping =>
      cases mapping with
      | none => simp
      | some document =>
          obtain ⟨named, json⟩ := eventToDocument_json mapped
          have answer : processEvent processor circumstances event points =
              indexDocument processor circumstances document points := by
            simp [processEvent, named, json, kept, mapped]
          rw [answer]
          cases ready : circumstances.ready with
          | false => simp [indexDocument, ready]
          | true =>
              cases made : documentChunks processor circumstances document with
              | none => simp [indexDocument, ready, made]
              | some chunks =>
                  have known := indexDocument_effect_iff points ready made
                  simpa only [Option.some.injEq, forall_eq', made, Bool.true_eq_false,
                    false_or] using known

/-- An answer `True` stands for the whole effect of the event exactly when the failures are
harmless, and the consumer acknowledges only entries answered so. -/
theorem effect_before_acknowledgement (processor : EventProcessor Vector)
    (circumstances : Circumstances) (event : StreamEvent) (points : Collection Vector) :
    (((processEvent processor circumstances event points).2 = some true →
        EffectDone processor circumstances event points) ↔
      FailuresHarmless processor circumstances event points) ∧
    ∀ (handling : Handling StreamEvent) reached messages id,
      id ∈ acknowledgedIds handling reached messages →
        ∃ message, (id, message) ∈ messages ∧ handling.processEvent id message = some true := by
  constructor
  · cases deletes : event.deletes with
    | false => exact update_effect_iff deletes
    | true =>
        unfold FailuresHarmless
        rw [if_pos deletes]
        exact deleteDocument_effect_iff deletes
  · intro handling reached messages id member
    exact accepted_of_acknowledged member

end Delivery

/-- A page with one stored point, whose deletion fails at the first request. -/
theorem failed_deletion_acknowledged :
    ¬ ∀ (circumstances : Circumstances) (event : StreamEvent) (points : Collection Unit),
      (processEvent plainProcessor circumstances event points).2 = some true →
        EffectDone plainProcessor circumstances event points := by
  intro always
  let stored := (processEvent plainProcessor {} (pageUpdated "one").event ∅).1
  have done := always { deletionFails := some 0 } pageRemoved.event stored (by decide +kernel)
  unfold EffectDone at done
  rw [if_pos (by decide +kernel)] at done
  have left : (processEvent plainProcessor { deletionFails := some 0 } pageRemoved.event
      stored).1.entries.any (fun point => point.2.payload.sourceId = pageRemoved.event.deletedId) =
        true := by
    decide +kernel
  obtain ⟨⟨pointId, value⟩, member, owner⟩ := List.any_eq_true.mp left
  exact done pointId value ((Dict.mem_entries_iff _ _ _).mp member) (of_decide_eq_true owner)

end RagSystem.Etl
