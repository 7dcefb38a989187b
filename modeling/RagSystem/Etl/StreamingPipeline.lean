import Mathlib.Data.Rat.Defs
import RagSystem.Etl.AccessEndToEnd

/-! `StreamingPipeline` (`etl/scheduler/streaming_pipeline.py`): each document is chunked, embedded
and upserted before the next one is read; nothing is ever deleted. -/

namespace RagSystem.Etl

/-! ### `ChunkQualityFilter` (`etl/indexer/chunk_quality.py`) -/

/-- `scoreChunks` is the reranker. A chunk has no heading to be scored against. -/
structure ChunkQualityFilter where
  detectBoilerplate : String → Bool
  scoreChunks : String → List String → List ℚ
  threshold : ℚ := 3 / 10
  maxChunksPerDoc : Nat := 500

namespace ChunkQualityFilter

variable {α β : Type} (quality : ChunkQualityFilter) (docTitle : String)

/-- `filter`, for items of any kind that have a text. -/
def keep (text : α → String) (items : List α) : List α :=
  let kept := (items.take quality.maxChunksPerDoc).filter
    (fun item => ! quality.detectBoilerplate (text item))
  let titleScores := quality.scoreChunks docTitle (kept.map text)
  (kept.zipIdx.filter (fun item =>
    quality.threshold ≤ 6 / 10 * titleScores.getD item.2 (1 / 2))).map Prod.fst

theorem keep_map (change : α → β) (text : β → String) (items : List α) :
    (quality.keep docTitle (text ∘ change) items).map change =
      quality.keep docTitle text (items.map change) := by
  simp only [keep, ← List.map_take, List.filter_map, List.map_map, List.zipIdx_map]
  rfl

theorem keep_subset (text : α → String) (items : List α) :
    quality.keep docTitle text items ⊆ items := by
  intro item member
  rcases List.mem_map.mp member with ⟨numbered, selected, rfl⟩
  have inside := List.fst_mem_of_mem_zipIdx (List.mem_filter.mp selected).1
  exact List.mem_of_mem_take (List.mem_filter.mp inside).1

def toQualityFilter : QualityFilter where
  filter := fun docTitle chunks => quality.keep docTitle Chunk.text chunks
  kept := fun docTitle chunks => quality.keep_subset docTitle Chunk.text chunks

end ChunkQualityFilter

/-- What decides the point of a chunk. -/
def Chunk.label (chunk : Chunk) : String × String := (chunk.hash, chunk.text)

/-- The filter looks at nothing that the enrichment changes. -/
def QualityFilter.ReadsLabels (quality : QualityFilter) : Prop :=
  ∀ title first second, first.map Chunk.label = second.map Chunk.label →
    (quality.filter title first).map Chunk.label = (quality.filter title second).map Chunk.label

theorem ChunkQualityFilter.readsLabels (quality : ChunkQualityFilter) :
    quality.toQualityFilter.ReadsLabels := by
  intro title first second same
  have read (chunks : List Chunk) : (quality.toQualityFilter.filter title chunks).map Chunk.label =
      quality.keep title Prod.snd (chunks.map Chunk.label) :=
    quality.keep_map title Chunk.label Prod.snd chunks
  rw [read, read, same]

/-! ### The pipeline -/

namespace StreamingPipeline

/-- What the services do while the document at an index is streamed, by the position of a chunk:
`indexes` is the second embedding, in `_chunk_to_point`, with the upsert. -/
structure StreamServices where
  enrichments : Nat → Nat → Option Enrichment := fun _ _ => none
  embeds : Nat → Nat → Bool := fun _ _ => true
  indexes : Nat → Nat → Bool := fun _ _ => true
  chunkingError : Nat → String := fun _ => ""
  shutdown : Nat → Bool := fun _ => false

structure StreamingResult where
  source : String
  docId : String
  chunksCount : Nat := 0
  chunksIndexed : Nat := 0
  errors : List String := []
  deriving DecidableEq, Repr

structure PipelineProgress where
  totalDocs : Nat := 0
  processedDocs : Nat := 0
  totalChunks : Nat := 0
  indexedChunks : Nat := 0
  errors : Nat := 0
  deriving DecidableEq, Repr

structure Streaming (Vector : Type) where
  points : Collection Vector
  progress : PipelineProgress := {}
  results : List StreamingResult := []

section Pipeline

variable {Vector : Type} (indexer : QdrantHybridIndexer Vector) (pipeline : PipelineRun)
  (services : StreamServices) (index : Nat)

/-- The body chunks that are left after the filter, and the chunks of the page; `none` when chunking
raises. -/
def streamedChunks (source : CollectedDocument) : Option (List Chunk × List Chunk) :=
  source.toChunk.bind fun document =>
    (Etl.processDocument pipeline.chunker pipeline.libraries (some pipeline.enricher)
      document).map fun body =>
        (pipeline.filtered source.title (enrichFrom (services.enrichments index) 0 body),
          pipeline.pageChunks document)

/-- `_process_chunk` on every chunk. -/
def embedErrors (chunks : List Chunk) : List String :=
  (chunks.zipIdx.filter (fun chunk => ! services.embeds index chunk.2)).map
    (fun chunk => "Embedding returned False for chunk " ++ chunk.1.hash)

/-- `_index_chunk_sync` on a chunk that was embedded. -/
def indexChunkSync (chunk : Chunk × Nat) : Option (Point Vector) :=
  if services.indexes index chunk.2 then chunkToPoint indexer chunk.1 else none

def embedded (chunks : List Chunk) : List (Chunk × Nat) :=
  chunks.zipIdx.filter (fun chunk => services.embeds index chunk.2)

def indexErrors (chunks : List Chunk) : List String :=
  ((embedded services index chunks).filter
    (fun chunk => (indexChunkSync indexer services index chunk).isNone)).map
      (fun chunk => "Indexing failed for chunk " ++ chunk.1.hash)

def indexedPoints (chunks : List Chunk) : List (Point Vector) :=
  (embedded services index chunks).filterMap (indexChunkSync indexer services index)

/-- `process_document`. A document that cannot be chunked does not count as processed. -/
def processDocument (source : CollectedDocument) (state : Streaming Vector) : Streaming Vector :=
  match streamedChunks pipeline services index source with
  | none =>
      let failed : StreamingResult :=
        { source := source.sourceType, docId := source.id
          errors := ["Chunking failed for " ++ source.id ++ ": " ++ services.chunkingError index] }
      { state with results := state.results ++ [failed] }
  | some (body, page) =>
      let chunks := body ++ page
      let points := indexedPoints indexer services index chunks
      let errors := embedErrors services index chunks ++ indexErrors indexer services index chunks
      let progress := state.progress
      { points := state.points.setAll points
        progress :=
          { progress with
            processedDocs := progress.processedDocs + 1
            totalChunks := progress.totalChunks + body.length
            indexedChunks := progress.indexedChunks + points.length
            errors := progress.errors + if errors = [] then 0 else 1 }
        results := state.results ++
          [{ source := source.sourceType, docId := source.id, chunksCount := body.length
             chunksIndexed := points.length, errors := errors }] }

def runFrom : Nat → List CollectedDocument → Streaming Vector → Streaming Vector
  | _, [], state => state
  | index, source :: rest, state =>
      if services.shutdown index then state
      else runFrom (index + 1) rest (processDocument indexer pipeline services index source state)

/-- `run`, on a pipeline that may have run before. -/
def run (documents : List CollectedDocument) (state : Streaming Vector) : Streaming Vector :=
  runFrom indexer pipeline services 0 documents
    { state with
      progress := { state.progress with totalDocs := documents.length, processedDocs := 0 }
      results := [] }

/-- The documents that `run` comes to before a shutdown, with their places. -/
def reachedFrom : Nat → List CollectedDocument → List (CollectedDocument × Nat)
  | _, [] => []
  | index, source :: rest =>
      if services.shutdown index then [] else (source, index) :: reachedFrom (index + 1) rest

/-- The points that reach the store while a document is streamed. -/
def sentPoints (source : CollectedDocument × Nat) : List (Point Vector) :=
  match streamedChunks pipeline services source.2 source.1 with
  | none => []
  | some (body, page) => indexedPoints indexer services source.2 (body ++ page)

end Pipeline

section Accounts

variable {Vector : Type} {indexer : QdrantHybridIndexer Vector} {pipeline : PipelineRun}
  {services : StreamServices}

theorem runFrom_eq_foldl (index : Nat) (documents : List CollectedDocument)
    (state : Streaming Vector) :
    runFrom indexer pipeline services index documents state =
      (reachedFrom services index documents).foldl (fun state source =>
        processDocument indexer pipeline services source.2 source.1 state) state := by
  induction documents generalizing index state with
  | nil => rfl
  | cons source rest ih =>
      by_cases stopped : services.shutdown index = true
      · simp [runFrom, reachedFrom, stopped]
      · simp [runFrom, reachedFrom, stopped, ih]

theorem reachedFrom_initial (index : Nat) (documents : List CollectedDocument) :
    (reachedFrom services index documents).map Prod.fst <+: documents := by
  induction documents generalizing index with
  | nil => exact List.prefix_refl _
  | cons source rest ih =>
      by_cases stopped : services.shutdown index = true
      · simp [reachedFrom, stopped]
      · simpa [reachedFrom, stopped] using ih (index + 1)

theorem filterMap_isNone_length {α β : Type} (f : α → Option β) (items : List α) :
    (items.filterMap f).length + (items.filter (fun item => (f item).isNone)).length =
      items.length := by
  induction items with
  | nil => rfl
  | cons item rest ih =>
      cases found : f item <;> simp [found] <;> omega

/-- Each chunk is upserted, or has its error. -/
theorem indexedPoints_length (index : Nat) (chunks : List Chunk) :
    (indexedPoints indexer services index chunks).length +
        (embedErrors services index chunks ++ indexErrors indexer services index chunks).length =
      chunks.length := by
  have split := List.length_eq_length_filter_add (l := chunks.zipIdx)
    (fun chunk => services.embeds index chunk.2)
  have indexed := filterMap_isNone_length (indexChunkSync indexer services index)
    (embedded services index chunks)
  rw [List.length_zipIdx] at split
  simp only [List.length_append, embedErrors, indexErrors, List.length_map, indexedPoints] at *
  simp only [embedded] at *
  omega

/-- A result tells of each chunk of its document, in its number of upserts or in its errors. -/
def Tells (indexer : QdrantHybridIndexer Vector) (pipeline : PipelineRun)
    (services : StreamServices) (result : StreamingResult) (source : CollectedDocument × Nat) :
    Prop :=
  result.docId = source.1.id ∧
    result.chunksIndexed = (sentPoints indexer pipeline services source).length ∧
    match streamedChunks pipeline services source.2 source.1 with
    | none => result.chunksCount = 0 ∧ result.errors.length = 1
    | some (body, page) =>
        result.chunksCount = body.length ∧
          result.chunksIndexed + result.errors.length = body.length + page.length

/-- The progress and the collection after some documents, from what a pipeline had before. -/
structure Accounted (indexer : QdrantHybridIndexer Vector) (pipeline : PipelineRun)
    (services : StreamServices) (before : Streaming Vector)
    (reached : List (CollectedDocument × Nat)) (after : Streaming Vector) : Prop where
  results : List.Forall₂ (Tells indexer pipeline services) after.results reached
  points : after.points =
    before.points.setAll (reached.flatMap (sentPoints indexer pipeline services))
  processed : after.progress.processedDocs = (reached.filter (fun source =>
    (streamedChunks pipeline services source.2 source.1).isSome)).length
  chunks : after.progress.totalChunks =
    before.progress.totalChunks + (after.results.map StreamingResult.chunksCount).sum
  indexed : after.progress.indexedChunks = before.progress.indexedChunks +
    (reached.flatMap (sentPoints indexer pipeline services)).length
  errors : after.progress.errors + after.results.length =
    before.progress.errors + (after.results.filter (fun result => result.errors ≠ [])).length +
      after.progress.processedDocs

theorem accounted_step {before after : Streaming Vector} {reached : List (CollectedDocument × Nat)}
    (books : Accounted indexer pipeline services before reached after)
    (source : CollectedDocument × Nat) :
    Accounted indexer pipeline services before (reached ++ [source])
      (processDocument indexer pipeline services source.2 source.1 after) := by
  have told {result : StreamingResult} (tells : Tells indexer pipeline services result source) :
      List.Forall₂ (Tells indexer pipeline services) (after.results ++ [result])
        (reached ++ [source]) :=
    List.rel_append books.results (List.Forall₂.cons tells List.Forall₂.nil)
  cases chunked : streamedChunks pipeline services source.2 source.1 with
  | none =>
      have sent : sentPoints indexer pipeline services source = [] := by simp [sentPoints, chunked]
      constructor
      case results =>
        simp only [processDocument, chunked]
        exact told (by simp [Tells, sent, chunked])
      case points => simp [processDocument, chunked, sent, books.points]
      case processed => simp [processDocument, chunked, books.processed]
      case chunks => simp [processDocument, chunked, books.chunks]
      case indexed => simp [processDocument, chunked, sent, books.indexed]
      case errors =>
        have before := books.errors
        simp only [ne_eq, decide_not] at before
        simp [processDocument, chunked]
        omega
  | some chunks =>
      rcases chunks with ⟨body, page⟩
      have sent : sentPoints indexer pipeline services source =
          indexedPoints indexer services source.2 (body ++ page) := by simp [sentPoints, chunked]
      have whole : (indexedPoints indexer services source.2 (body ++ page)).length +
          (embedErrors services source.2 (body ++ page) ++
            indexErrors indexer services source.2 (body ++ page)).length =
          body.length + page.length := by
        rw [indexedPoints_length, List.length_append]
      constructor
      case results =>
        simp only [processDocument, chunked]
        exact told (by simpa [Tells, sent, chunked] using whole)
      case points =>
        simp [processDocument, chunked, sent, books.points, Dict.setAll_append]
      case processed => simp [processDocument, chunked, books.processed]
      case chunks =>
        simp [processDocument, chunked, books.chunks, Nat.add_assoc]
      case indexed => simp [processDocument, chunked, sent, books.indexed, Nat.add_assoc]
      case errors =>
        have before := books.errors
        simp only [ne_eq, decide_not] at before
        by_cases clean : embedErrors services source.2 (body ++ page) ++
            indexErrors indexer services source.2 (body ++ page) = []
        · simp [processDocument, chunked, clean]
          omega
        · simp [processDocument, chunked, clean]
          omega

theorem accounted_foldl {before after : Streaming Vector}
    {reached : List (CollectedDocument × Nat)}
    (books : Accounted indexer pipeline services before reached after)
    (more : List (CollectedDocument × Nat)) :
    Accounted indexer pipeline services before (reached ++ more)
      (more.foldl (fun state source =>
        processDocument indexer pipeline services source.2 source.1 state) after) := by
  induction more generalizing reached after with
  | nil => simpa using books
  | cons source rest ih => simpa using ih (accounted_step books source)

theorem accounted_run (documents : List CollectedDocument) (state : Streaming Vector) :
    Accounted indexer pipeline services state (reachedFrom services 0 documents)
      (run indexer pipeline services documents state) := by
  rw [run, runFrom_eq_foldl]
  have start : Accounted indexer pipeline services state []
      { state with
        progress := { state.progress with totalDocs := documents.length, processedDocs := 0 }
        results := [] } :=
    ⟨List.Forall₂.nil, rfl, rfl, rfl, rfl, rfl⟩
  exact accounted_foldl start _

end Accounts

/-! ### What a run leaves in the collection -/

section Collections

variable {Vector : Type} {indexer : QdrantHybridIndexer Vector} {pipeline : PipelineRun}
  {services last : StreamServices} {index place : Nat} {source : CollectedDocument}
  {documents : List CollectedDocument} {point : Point Vector}

theorem processDocument_sourced {chunker : SemanticChunker} {libraries : Libraries}
    {enricher : Option MetadataEnricher} {document : Document} {chunks : List Chunk}
    (processed : Etl.processDocument chunker libraries enricher document = some chunks) :
    SourcedBy (document.metadata.sourceId.getD "") chunks := by
  rcases Option.map_eq_some_iff.mp processed with ⟨prepared, unpacking, rfl⟩
  rcases Option.map_eq_some_iff.mp unpacking with ⟨base, -, rfl⟩
  apply packBySemanticKey_sourced
  apply propagateFrom_sourced
  intro chunk member
  rcases List.mem_map.mp member with ⟨original, -, rfl⟩
  exact enrichChunk_sourceId _ _ original

theorem pageChunks_sourced (pipeline : PipelineRun) (document : Document) :
    SourcedBy (document.metadata.sourceId.getD "") (pipeline.pageChunks document) := by
  intro chunk member
  rw [PipelineRun.pageChunks] at member
  split at member
  · rcases List.mem_append.mp member with heading | whole
    · rcases List.mem_map.mp heading with ⟨numbered, -, rfl⟩
      rfl
    · rw [List.mem_singleton.mp whole]
      rfl
  · cases member

theorem filtered_subset (title : String) (chunks : List Chunk) :
    pipeline.filtered title chunks ⊆ chunks := by
  rw [PipelineRun.filtered]
  cases pipeline.quality with
  | none => exact List.Subset.refl chunks
  | some quality => exact quality.kept title chunks

theorem streamedChunks_sourced {chunks : List Chunk × List Chunk}
    (chunked : streamedChunks pipeline services index source = some chunks) :
    SourcedBy source.id (chunks.1 ++ chunks.2) := by
  rcases Option.bind_eq_some_iff.mp chunked with ⟨document, mapped, rest⟩
  rcases Option.map_eq_some_iff.mp rest with ⟨body, processed, rfl⟩
  have named : document.metadata.sourceId.getD "" = source.id := by
    rcases Option.map_eq_some_iff.mp mapped with ⟨content, -, rfl⟩
    rfl
  intro chunk member
  rw [← named]
  rcases List.mem_append.mp member with inBody | inPage
  · exact enrichFrom_sourced _ 0 (processDocument_sourced processed) chunk
      (filtered_subset _ _ inBody)
  · exact pageChunks_sourced pipeline document chunk inPage

theorem chunk_of_mem_sentPoints
    (sent : point ∈ sentPoints indexer pipeline services (source, index)) :
    ∃ chunks, streamedChunks pipeline services index source = some chunks ∧
      ∃ chunk ∈ chunks.1 ++ chunks.2, chunkToPoint indexer chunk = some point := by
  rw [sentPoints] at sent
  cases chunked : streamedChunks pipeline services index source with
  | none => simp [chunked] at sent
  | some chunks =>
      simp only [chunked, indexedPoints, embedded, List.mem_filterMap, List.mem_filter] at sent
      rcases sent with ⟨numbered, selected, made⟩
      have inside := List.fst_mem_of_mem_zipIdx selected.1
      rw [indexChunkSync] at made
      split at made
      · exact ⟨chunks, rfl, numbered.1, inside, made⟩
      · cases made

theorem mem_of_mem_reachedFrom {place : CollectedDocument × Nat}
    (reached : place ∈ reachedFrom services index documents) : place.1 ∈ documents :=
  (reachedFrom_initial index documents).subset (List.mem_map_of_mem reached)

/-- A streaming run deletes nothing, and changes only the points of chunks of its documents: what an
earlier version of a document left behind stays. -/
theorem run_only_adds (indexer : QdrantHybridIndexer Vector) (pipeline : PipelineRun)
    (services : StreamServices) (documents : List CollectedDocument) (state : Streaming Vector) :
    state.points.keys ⊆ (run indexer pipeline services documents state).points.keys ∧
      ∀ id, (run indexer pipeline services documents state).points.get? id = state.points.get? id ∨
        ∃ source ∈ documents, ∃ index chunks,
          streamedChunks pipeline services index source = some chunks ∧
            ∃ chunk ∈ chunks.1 ++ chunks.2, chunk.sourceId = source.id ∧
              ∃ stored, chunkToPoint indexer chunk = some (id, stored) ∧
                (run indexer pipeline services documents state).points.get? id = some stored := by
  rw [(accounted_run documents state).points]
  constructor
  · intro id present
    rcases (Dict.mem_keys_iff _ _).mp present with ⟨value, found⟩
    apply (Dict.mem_keys_iff _ _).mpr
    rw [Dict.get?_setAll, found]
    exact Option.isSome_iff_exists.mp (by simp)
  · intro id
    by_cases written : ∃ point ∈ (reachedFrom services 0 documents).flatMap
        (sentPoints indexer pipeline services), point.1 = id
    · right
      rcases Dict.get?_setAll_of_mem written state.points with ⟨stored, sent, found⟩
      rcases List.mem_flatMap.mp sent with ⟨place, reached, inside⟩
      rcases chunk_of_mem_sentPoints inside with ⟨chunks, chunked, chunk, member, made⟩
      exact ⟨place.1, mem_of_mem_reachedFrom reached, place.2, chunks, chunked, chunk, member,
        streamedChunks_sourced chunked chunk member, stored, made, found⟩
    · left
      push Not at written
      exact Dict.get?_setAll_of_not_mem written state.points

/-! ### Repeated runs -/

def StreamServices.Works (services : StreamServices) : Prop :=
  (∀ index place, services.embeds index place = true) ∧
    (∀ index place, services.indexes index place = true) ∧
      ∀ index, services.shutdown index = false

theorem enrichFrom_label (enrichments : Nat → Option Enrichment) (index : Nat)
    (chunks : List Chunk) :
    (enrichFrom enrichments index chunks).map Chunk.label = chunks.map Chunk.label := by
  induction chunks generalizing index with
  | nil => rfl
  | cons chunk rest ih =>
      have same : ((enrichments index).elim chunk
          (fun enrichment => enrichment.apply chunk)).label = chunk.label := by
        cases enrichments index <;> rfl
      rw [enrichFrom, List.map_cons, List.map_cons, ih, same]

/-- The services have no say in the hashes and texts of the chunks of a document. -/
theorem streamedChunks_label (services last : StreamServices)
    (reads : ∀ quality ∈ pipeline.quality, quality.ReadsLabels) (index place : Nat)
    (source : CollectedDocument) :
    (streamedChunks pipeline services index source).map
        (fun chunks => (chunks.1 ++ chunks.2).map Chunk.label) =
      (streamedChunks pipeline last place source).map
        (fun chunks => (chunks.1 ++ chunks.2).map Chunk.label) := by
  rw [streamedChunks, streamedChunks]
  cases source.toChunk with
  | none => rfl
  | some document =>
      simp only [Option.bind_some, Option.map_map]
      congr 1
      funext body
      have enriched : (enrichFrom (services.enrichments index) 0 body).map Chunk.label =
          (enrichFrom (last.enrichments place) 0 body).map Chunk.label := by
        rw [enrichFrom_label, enrichFrom_label]
      have kept : (pipeline.filtered source.title
            (enrichFrom (services.enrichments index) 0 body)).map Chunk.label =
          (pipeline.filtered source.title
            (enrichFrom (last.enrichments place) 0 body)).map Chunk.label := by
        rw [PipelineRun.filtered, PipelineRun.filtered]
        cases found : pipeline.quality with
        | none => exact enriched
        | some quality => exact reads quality found source.title _ _ enriched
      simp only [Function.comp_apply, List.map_append, kept]

theorem chunkToPoint_of_label {first second : Chunk} (same : first.label = second.label)
    (made : chunkToPoint indexer first = some point) :
    ∃ other, chunkToPoint indexer second = some other ∧ other.1 = point.1 := by
  have hash : first.hash = second.hash := congrArg Prod.fst same
  have text : first.text = second.text := congrArg Prod.snd same
  have nonempty := nonempty_of_chunkToPoint made
  rw [hash, text] at nonempty
  rcases chunkToPoint_of_nonempty indexer nonempty.1 nonempty.2 with ⟨other, again⟩
  exact ⟨other, again, by rw [chunkToPoint_id again, chunkToPoint_id made, hash]⟩

theorem mem_sentPoints_of_works (works : last.Works) {chunks : List Chunk × List Chunk}
    (chunked : streamedChunks pipeline last place source = some chunks) {chunk : Chunk}
    (member : chunk ∈ chunks.1 ++ chunks.2) (made : chunkToPoint indexer chunk = some point) :
    point ∈ sentPoints indexer pipeline last (source, place) := by
  rcases List.mem_iff_getElem?.mp member with ⟨position, found⟩
  simp only [sentPoints, chunked, indexedPoints, embedded, List.mem_filterMap, List.mem_filter]
  refine ⟨(chunk, position), ⟨List.mem_zipIdx_iff_getElem?.mpr found, works.1 place position⟩, ?_⟩
  rw [indexChunkSync, if_pos (works.2.1 place position), made]

theorem reached_of_works (works : last.Works) (member : source ∈ documents) :
    ∃ place, (source, place) ∈ reachedFrom last index documents := by
  induction documents generalizing index with
  | nil => cases member
  | cons head rest ih =>
      simp only [reachedFrom, works.2.2 index]
      rcases List.mem_cons.mp member with rfl | later
      · exact ⟨index, by simp⟩
      · rcases @ih (index + 1) later with ⟨place, reached⟩
        exact ⟨place, by simp [reached]⟩

/-- Whatever a run sends, a run over the same documents in which nothing fails sends again. -/
theorem sent_again (reads : ∀ quality ∈ pipeline.quality, quality.ReadsLabels) (works : last.Works)
    {fewer : List CollectedDocument} (again : fewer ⊆ documents)
    (sent : point ∈ (reachedFrom services 0 fewer).flatMap (sentPoints indexer pipeline services)) :
    ∃ other ∈ (reachedFrom last 0 documents).flatMap (sentPoints indexer pipeline last),
      other.1 = point.1 := by
  rcases List.mem_flatMap.mp sent with ⟨⟨source, index⟩, reached, inside⟩
  rcases chunk_of_mem_sentPoints inside with ⟨chunks, chunked, chunk, member, made⟩
  have present : source ∈ documents := again (mem_of_mem_reachedFrom reached)
  rcases (reached_of_works works present : ∃ place, (source, place) ∈ reachedFrom last 0 documents)
    with ⟨place, later⟩
  have labels := streamedChunks_label services last reads index place source
  rw [chunked, Option.map_some] at labels
  rcases Option.map_eq_some_iff.mp labels.symm with ⟨others, rechunked, same⟩
  have listed : chunk.label ∈ (others.1 ++ others.2).map Chunk.label := by
    rw [same]
    exact List.mem_map_of_mem member
  rcases List.mem_map.mp listed with ⟨twin, inOthers, label⟩
  rcases chunkToPoint_of_label label.symm made with ⟨other, remade, id⟩
  exact ⟨other, List.mem_flatMap.mpr ⟨(source, place), later,
    mem_sentPoints_of_works works rechunked inOthers remade⟩, id⟩

/-- Attempts one after the other, each over its own list of documents. -/
def attempts (indexer : QdrantHybridIndexer Vector) (pipeline : PipelineRun)
    (earlier : List (StreamServices × List CollectedDocument)) (state : Streaming Vector) :
    Streaming Vector :=
  earlier.foldl (fun state attempt => run indexer pipeline attempt.1 attempt.2 state) state

theorem get?_attempts {id : String}
    (unsent : ∀ (services : StreamServices) (fewer : List CollectedDocument), fewer ⊆ documents →
      ∀ point ∈ (reachedFrom services 0 fewer).flatMap (sentPoints indexer pipeline services),
        point.1 ≠ id)
    {earlier : List (StreamServices × List CollectedDocument)}
    (again : ∀ attempt ∈ earlier, attempt.2 ⊆ documents) (state : Streaming Vector) :
    (attempts indexer pipeline earlier state).points.get? id = state.points.get? id := by
  induction earlier generalizing state with
  | nil => rfl
  | cons attempt rest ih =>
      have later := ih (fun other inside => again other (List.mem_cons_of_mem _ inside))
        (run indexer pipeline attempt.1 attempt.2 state)
      calc
        _ = (run indexer pipeline attempt.1 attempt.2 state).points.get? id := later
        _ = (state.points.setAll ((reachedFrom attempt.1 0 attempt.2).flatMap
              (sentPoints indexer pipeline attempt.1))).get? id := by
          rw [(accounted_run attempt.2 state).points]
        _ = state.points.get? id :=
          Dict.get?_setAll_of_not_mem
            (unsent attempt.1 attempt.2 (again attempt List.mem_cons_self)) state.points

end Collections

end StreamingPipeline

end RagSystem.Etl
