import RagSystem.Etl.MdKeyChunker
import RagSystem.Etl.QdrantHybrid

/-! Webhook events turned into documents and indexed (`etl/scheduler/event_processor.py`). -/

namespace RagSystem.Etl

structure Page where
  title : String := ""
  bodyStorage : Option String := none
  bodyView : Option String := none
  bodyStorageRaw : Option String := none
  versionNumber : Option String := none
  deriving DecidableEq, Repr

structure Diff where
  newPath : String := ""
  diff : String := ""
  deriving DecidableEq, Repr

structure Commit where
  message : String := ""
  diffs : List Diff := []
  deriving DecidableEq, Repr

structure ObjectAttributes where
  title : String := ""
  description : String := ""
  content : String := ""
  deriving DecidableEq, Repr

/-- What the mapping to documents reads of a payload. `malformed` is JSON of another shape, on
which it raises. -/
inductive Payload
  | notJson
  | malformed
  | read (page : Page) (projectName : Option String) (commits : List Commit)
      (objectAttributes : ObjectAttributes)
  deriving DecidableEq, Repr

structure StreamEvent where
  source : String := ""
  eventType : String := ""
  docId : String := ""
  payload : Payload := .malformed
  deriving DecidableEq, Repr

structure EventDocument where
  id : String
  sourceType : String
  title : String
  content : String
  contentType : String
  version : String := "latest"
  deriving DecidableEq, Repr

def skipEventTypes : List String := ["comment_created", "comment_updated", "comment_removed"]

def deleteEventTypes : List String := ["page_removed", "page_deleted"]

def prefixed (lead text : String) : Bool := lead.toList.isPrefixOf text.toList

def normalizeDocumentId (source docId : String) : String :=
  if prefixed (source ++ "_") docId then docId else source ++ "_" ++ docId

def confluenceId (docId : String) : String :=
  if prefixed "confluence_" docId then docId else "confluence_" ++ docId

def gitlabId (kind docId : String) : String :=
  if prefixed "gitlab_" docId then docId else kind ++ "_" ++ docId

/-- `none` is a page without content. -/
def confluenceDocument (docId : String) (page : Page) : Option EventDocument :=
  let content := orElse "" (page.bodyStorage.getD "") (orElse "" (page.bodyView.getD "")
    (page.bodyStorageRaw.getD ""))
  if ¬ worded content then none
  else some
    { id := confluenceId docId, sourceType := "confluence", title := page.title, content := content,
      contentType := "html", version := page.versionNumber.getD "latest" }

def pushContent (commits : List Commit) : String :=
  "\n".intercalate ((commits.take 100).flatMap (fun commit =>
    (if commit.message = "" then [] else [commit.message]) ++
      (commit.diffs.take 5).map (fun diff =>
        diff.newPath ++ ": " ++ String.ofList (diff.diff.toList.take 200))))

/-- `none` is an event without content, or of a type that is not indexed. -/
def gitlabDocument (eventType docId : String) (projectName : Option String) (commits : List Commit)
    (attrs : ObjectAttributes) : Option EventDocument :=
  if eventType = "push" then
    let content := pushContent commits
    if ¬ worded content then none
    else some
      { id := gitlabId "gitlab_push" docId, sourceType := "gitlab_commit",
        title := "Push to " ++ projectName.getD docId, content := content,
        contentType := "markdown" }
  else if eventType = "merge_request" ∨ eventType = "wiki_page" then
    let content := orElse "" (orElse "" attrs.description attrs.content) attrs.title
    if ¬ worded content then none
    else
      let kind := if eventType = "merge_request" then "gitlab_mr" else "gitlab_wiki"
      some
        { id := gitlabId kind docId
          sourceType := if eventType = "merge_request" then "gitlab_merge_request" else "gitlab_wiki"
          title := attrs.title, content := content, contentType := "markdown" }
  else none

/-- The outer `none` raises; the inner one is an event without indexable content. -/
def eventToDocument (event : StreamEvent) : Option (Option EventDocument) :=
  if event.eventType ∈ skipEventTypes then some none
  else if event.source ≠ "confluence" ∧ event.source ≠ "gitlab" then some none
  else
    match event.payload with
    | .notJson => none
    | .malformed => none
    | .read page projectName commits attrs =>
        if event.source = "confluence" then some (confluenceDocument event.docId page)
        else some (gitlabDocument event.eventType event.docId projectName commits attrs)

/-- What the enricher answers for a chunk; an empty value is a missing one. -/
structure Enrichment where
  keywords : List String := []
  entities : List String := []
  hydeQuestions : List String := []
  summary : String := ""
  deriving DecidableEq, Repr

/-- Whether the components can be made, the enrichment of the chunk at an index (`none` when there
is no enricher or it fails), the calls of the indexer that succeed, and after how many batches the
deletion of a document fails, if it does. -/
structure Circumstances where
  ready : Bool := true
  enrichments : Nat → Option Enrichment := fun _ => none
  services : Services := .working
  deletionFails : Option Nat := none

structure EventProcessor (Vector : Type) where
  chunker : SemanticChunker
  libraries : Libraries
  enricher : MetadataEnricher
  indexer : QdrantHybridIndexer Vector

def Enrichment.apply (enrichment : Enrichment) (chunk : Chunk) : Chunk :=
  { chunk with
    keywords := orElse [] enrichment.keywords chunk.keywords
    entities := orElse [] enrichment.entities chunk.entities
    hypotheticalQuestions := orElse [] enrichment.hydeQuestions chunk.hypotheticalQuestions
    summary := orElse "" enrichment.summary chunk.summary }

/-- `_enrich_chunks`, with the chunks numbered from `index`. -/
def enrichFrom (enrichments : Nat → Option Enrichment) (index : Nat) : List Chunk → List Chunk
  | [] => []
  | chunk :: rest =>
      ((enrichments index).elim chunk (fun enrichment => enrichment.apply chunk)) ::
        enrichFrom enrichments (index + 1) rest

section Processing

variable {Vector : Type} (processor : EventProcessor Vector) (circumstances : Circumstances)

/-- The chunks of a document, enriched; `none` when chunking fails. -/
def documentChunks (document : EventDocument) : Option (List Chunk) :=
  (processDocument processor.chunker processor.libraries (some processor.enricher)
    { content := document.content, contentType := document.contentType
      metadata :=
        { sourceType := some document.sourceType, sourceId := some document.id,
          version := some document.version, docTitle := some document.title } }).map
    (enrichFrom circumstances.enrichments 0)

/-- Whatever stops the deletion, the indexer answers with a number and the event counts as done. -/
def deleteDocument (source docId : String) (points : Collection Vector) :
    Collection Vector × Option Bool :=
  if ¬ circumstances.ready then (points, some false)
  else (deleteBySourceId processor.indexer (normalizeDocumentId source docId)
    (circumstances.deletionFails.getD points.entries.length) points, some true)

def indexDocument (document : EventDocument) (points : Collection Vector) :
    Collection Vector × Option Bool :=
  if ¬ circumstances.ready then (points, some false)
  else
    match documentChunks processor circumstances document with
    | none => (points, some false)
    | some [] => (points, some true)
    | some chunks =>
        let indexing := indexChunks processor.indexer circumstances.services chunks
        (points.setAll indexing.upserts.flatten, some (!indexing.raised && indexing.total ≠ 0))

def StreamEvent.deletes (event : StreamEvent) : Bool :=
  event.eventType ∈ deleteEventTypes ∧ (event.source = "confluence" ∨ event.source = "gitlab")

/-- The points afterwards and the answer; `none` is an exception. -/
def processEvent (event : StreamEvent) (points : Collection Vector) :
    Collection Vector × Option Bool :=
  if event.source = "" then (points, some false)
  else if event.payload = .notJson then (points, some false)
  else if event.deletes then deleteDocument processor circumstances event.source event.docId points
  else
    match eventToDocument event with
    | none => (points, none)
    | some none => (points, some true)
    | some (some document) => indexDocument processor circumstances document points

end Processing

/-! Every chunk of a document names it as its source. -/

section Sources

variable {libraries : Libraries} {id : String}

def SourcedBy (id : String) (chunks : List Chunk) : Prop := ∀ chunk ∈ chunks, chunk.sourceId = id

theorem enrichChunk_sourceId (enricher : Option MetadataEnricher) (metadata : SourceMetadata)
    (chunk : Chunk) :
    (enrichChunk enricher metadata chunk).sourceId = metadata.sourceId.getD "" := by
  cases enricher with
  | none => rfl
  | some enricher =>
      cases answer : enricher.slm <;> simp [enrichChunk, answer, applySlmEnrichment]

theorem propagateFrom_sourced (previous : ParentMetadata) {chunks : List Chunk}
    (sourced : SourcedBy id chunks) : SourcedBy id (propagateFrom libraries previous chunks) := by
  induction chunks generalizing previous with
  | nil => exact sourced
  | cons chunk rest ih =>
      intro made member
      rcases List.mem_cons.mp member with rfl | later
      · exact sourced chunk List.mem_cons_self
      · exact ih _ (fun other inside => sourced other (List.mem_cons_of_mem _ inside)) made later

theorem packBySemanticKey_sourced {chunks : List Chunk} (sourced : SourcedBy id chunks) :
    SourcedBy id (packBySemanticKey libraries chunks) := by
  intro packed member
  obtain ⟨key, single | ⟨first, second, rest, group, rfl⟩⟩ := mem_packBySemanticKey.mp member
  · have inside : packed ∈ chunks.filter (fun chunk => packingKey chunk = key) := by simp [single]
    exact sourced packed (List.mem_filter.mp inside).1
  · have inside : first ∈ chunks.filter (fun chunk => packingKey chunk = key) := by simp [group]
    exact sourced first (List.mem_filter.mp inside).1

theorem enrichFrom_sourced (enrichments : Nat → Option Enrichment) (index : Nat)
    {chunks : List Chunk} (sourced : SourcedBy id chunks) :
    SourcedBy id (enrichFrom enrichments index chunks) := by
  induction chunks generalizing index with
  | nil => exact sourced
  | cons chunk rest ih =>
      intro made member
      rcases List.mem_cons.mp member with rfl | later
      · cases enrichments index <;> exact sourced chunk List.mem_cons_self
      · exact ih _ (fun other inside => sourced other (List.mem_cons_of_mem _ inside)) made later

theorem documentChunks_sourced {Vector : Type} {processor : EventProcessor Vector}
    {circumstances : Circumstances} {document : EventDocument} {chunks : List Chunk}
    (made : documentChunks processor circumstances document = some chunks) :
    SourcedBy document.id chunks := by
  obtain ⟨processed, whole, rfl⟩ := Option.map_eq_some_iff.mp made
  apply enrichFrom_sourced
  obtain ⟨prepared, unpacking, rfl⟩ := Option.map_eq_some_iff.mp whole
  apply packBySemanticKey_sourced
  obtain ⟨base, -, rfl⟩ := Option.map_eq_some_iff.mp unpacking
  apply propagateFrom_sourced
  intro chunk member
  obtain ⟨original, -, rfl⟩ := List.mem_map.mp member
  exact enrichChunk_sourceId _ _ original

end Sources

end RagSystem.Etl
