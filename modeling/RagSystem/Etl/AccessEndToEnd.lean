import RagSystem.Etl.AclExtractor
import RagSystem.Etl.LakeExactness

/-! The access list of a source object on its way through the batch, streaming and event pipelines
(`run_etl.py`, `streaming_pipeline.py`, `event_processor.py`) to the filter of the proxy. -/

namespace RagSystem.Etl

open AccessControl (Fields View flat nested visible roleAllowedLevels)

namespace SourceItem

def acl : SourceItem → DocumentAcl
  | .page source => extractConfluenceAcl source
  | .issue source => extractJiraAcl source
  | .project data => extractGitlabAcl data.project []

/-- The user, or a group of the user, is named by the object itself. -/
def Names (user : UserContext) : SourceItem → Prop
  | .page source => user.username ∈ source.subjects "user" ∨
      ∃ group ∈ user.groups, group ∈ source.subjects "group"
  | .issue _ => False
  | .project data => ∃ member ∈ data.project.members,
      if member.isGroup then member.groupName ∈ user.groups else member.userName = user.username

def OpenTo (user : UserContext) : SourceItem → Prop
  | .page source => source.OpenTo user
  | .issue source => source.OpenTo user
  | .project data => data.project.OpenTo user

theorem admits_iff {item : SourceItem} {user : UserContext} :
    item.acl.Admits user ↔ item.OpenTo user := by
  cases item with
  | page source => exact confluence_admits_iff
  | issue source => exact jira_admits_iff
  | project data => exact gitlab_admits_iff

end SourceItem

/-! ### The documents of the streaming pipeline -/

def streamedIssueContent (data : IssueFile) : Option String :=
  data.comments.foldl (fun content comment =>
    if comment.body = "" then content
    else some (content.getD "" ++ commentText comment)) data.description

def streamedIssueDocument (data : IssueFile) : CollectedDocument :=
  { id := "jira_" ++ data.key
    sourceType := "jira"
    title := data.summary
    content := streamedIssueContent data
    contentType := "html"
    metadata := .issue data.key data.status data.priority data.assignee data.reporter
      data.projectKey data.issueType data.labels data.components data.created data.updated }

def streamedRequestDocument (info : ProjectInfo) (request : MergeRequestFile) : CollectedDocument :=
  { id := "gitlab_mr_" ++ toString request.iid
    sourceType := "gitlab_merge_request"
    title := request.title
    content := some (request.title ++ "\n" ++ request.description.getD "" ++
      String.join (request.discussions.flatten.map (fun note =>
        "\n" ++ note.author ++ ": " ++ note.body)))
    contentType := "markdown"
    metadata := .mergeRequest request.iid request.state request.author info.projectId
      info.fullPath info.visibility }

/-- `_extract_confluence_docs`, `_extract_jira_docs` and `_extract_gitlab_docs` on a directory. -/
def streamedDocuments : SourceName → ObjectDir → List CollectedDocument
  | .confluence, dir => dir.page.toList.map (pageDocument dir)
  | .jira, dir => dir.issue.toList.map streamedIssueDocument
  | .gitlab, dir =>
      let info := projectInfo dir
      ((dir.commits.getD []).take 100).map (commitDocument info) ++
        (dir.mergeRequests.getD []).map (streamedRequestDocument info) ++
        (dir.files.getD Dict.empty).entries.map (fileDocument info)

/-! ### The chunks that are indexed -/

structure QualityFilter where
  filter : String → List Chunk → List Chunk
  kept : ∀ title chunks, filter title chunks ⊆ chunks

/-- The components and libraries of a pipeline, and what the enrichment answers by the position of
a chunk. -/
structure PipelineRun where
  chunker : SemanticChunker
  libraries : Libraries
  enricher : MetadataEnricher
  quality : Option QualityFilter := none
  enrichments : Nat → Option Enrichment := fun _ => none

section Pipelines

variable (run : PipelineRun) (document : Document)

def PipelineRun.filtered (title : String) (chunks : List Chunk) : List Chunk :=
  run.quality.elim chunks (fun quality => quality.filter title chunks)

def PipelineRun.pageChunks : List Chunk :=
  if document.isConfluencePage then
    let mdText := (run.libraries.markdownify.map (· document.content)).getD document.content
    createHeadingChunks run.chunker run.libraries document.content document.metadata ++
      [createDocumentChunk run.chunker run.libraries mdText document.metadata]
  else []

/-- `run_enrichment` overwrites the keywords, entities and questions of every chunk. -/
def Enrichment.overwrite (enrichment : Enrichment) (chunk : Chunk) : Chunk :=
  { chunk with
    keywords := enrichment.keywords
    entities := enrichment.entities
    hypotheticalQuestions := enrichment.hydeQuestions
    summary := orElse "" enrichment.summary chunk.summary }

def runEnrichment (enrichments : Nat → Option Enrichment) (chunks : List Chunk) : List Chunk :=
  chunks.zipIdx.map fun chunk =>
    (enrichments chunk.2).elim chunk.1 (fun enrichment => enrichment.overwrite chunk.1)

/-- `run_chunking` and `run_enrichment`, for one document. -/
def PipelineRun.batchChunks : List Chunk :=
  match processDocument run.chunker run.libraries (some run.enricher) document with
  | none => []
  | some body =>
      runEnrichment run.enrichments
        (run.filtered (document.metadata.docTitle.getD "") body ++ run.pageChunks document)

/-- `StreamingPipeline.process_document` enriches the body chunks before it filters them. -/
def PipelineRun.streamingChunks : List Chunk :=
  match processDocument run.chunker run.libraries (some run.enricher) document with
  | none => []
  | some body =>
      run.filtered (document.metadata.docTitle.getD "") (enrichFrom run.enrichments 0 body) ++
        run.pageChunks document

def EventDocument.toChunk (document : EventDocument) : Document :=
  { content := document.content, contentType := document.contentType
    metadata :=
      { sourceType := some document.sourceType, sourceId := some document.id,
        version := some document.version, docTitle := some document.title } }

def PipelineRun.eventChunks : List Chunk :=
  match processDocument run.chunker run.libraries (some run.enricher) document with
  | none => []
  | some body => enrichFrom run.enrichments 0 body

end Pipelines

/-- A webhook event about the object: about a page with its id, about anything in a project. -/
def StreamEvent.isAbout (event : StreamEvent) : SourceItem → Prop
  | .page page => event.source = "confluence" ∧ event.docId = page.content.id
  | .issue _ => False
  | .project _ => event.source = "gitlab"

/-- The chunks that one of the pipelines indexes for an object. -/
inductive Indexes (run : PipelineRun) (item : SourceItem) (chunk : Chunk) : Prop
  | batch (documents : List CollectedDocument)
      (collected : dirDocuments item.sourceName item.saved = some documents)
      (source : CollectedDocument) (member : source ∈ documents)
      (document : Document) (content : source.toChunk = some document)
      (inside : chunk ∈ run.batchChunks document)
  | streaming (source : CollectedDocument)
      (member : source ∈ streamedDocuments item.sourceName item.saved)
      (document : Document) (content : source.toChunk = some document)
      (inside : chunk ∈ run.streamingChunks document)
  | event (event : StreamEvent) (about : event.isAbout item)
      (document : EventDocument) (mapped : eventToDocument event = some (some document))
      (inside : chunk ∈ run.eventChunks document.toChunk)

def StoredPayload.fields (payload : StoredPayload) : Fields :=
  { accessLevel := some payload.accessLevel
    allowedGroups := some payload.allowedGroups
    allowedUsers := some payload.allowedUsers
    version := some payload.version }

/-- A kept chunk belongs to an object whose access list admits the user, and what names the user is
kept. -/
structure EndToEnd (item : SourceItem) (user : UserContext) (retrieved : View) : Prop where
  admitted : visible user retrieved = true → item.acl.Admits user
  named : item.Names user → visible user retrieved = true

section Defaults

variable {run : PipelineRun} {document : Document} {chunk : Chunk}

theorem processDocument_default {chunker : SemanticChunker} {libraries : Libraries}
    {enricher : Option MetadataEnricher} {chunks : List Chunk}
    (unlisted : document.metadata.acl = Acl.default)
    (processed : processDocument chunker libraries enricher document = some chunks) :
    Carry Acl.default chunks := by
  obtain ⟨unpackedChunks, prepared, rfl⟩ := Option.map_eq_some_iff.mp processed
  have carried := unpacked_carry prepared
  rw [unlisted] at carried
  exact (packBySemanticKey_carry libraries carried).mpr (Or.inl rfl)

theorem enrichFrom_carry {acl : Acl} (enrichments : Nat → Option Enrichment) (index : Nat)
    {chunks : List Chunk} (carried : Carry acl chunks) :
    Carry acl (enrichFrom enrichments index chunks) := by
  induction chunks generalizing index with
  | nil => exact carry_nil
  | cons chunk rest ih =>
      obtain ⟨head, tail⟩ := carry_cons.mp carried
      apply carry_cons.mpr
      refine ⟨?_, ih (index + 1) tail⟩
      cases enrichments index with
      | none => exact head
      | some enrichment => exact head

theorem runEnrichment_carry {acl : Acl} (enrichments : Nat → Option Enrichment)
    {chunks : List Chunk} (carried : Carry acl chunks) :
    Carry acl (runEnrichment enrichments chunks) := by
  intro chunk member
  obtain ⟨⟨original, index⟩, inside, rfl⟩ := List.mem_map.mp member
  have held := carried original (List.fst_mem_of_mem_zipIdx inside)
  cases found : enrichments index with
  | none => simpa [found] using held
  | some enrichment => simpa [found, Chunk.acl, Enrichment.overwrite] using held

theorem filtered_carry {acl : Acl} (title : String) {chunks : List Chunk}
    (carried : Carry acl chunks) : Carry acl (run.filtered title chunks) := by
  intro chunk member
  unfold PipelineRun.filtered at member
  cases quality : run.quality with
  | none => exact carried chunk (by simpa [quality] using member)
  | some quality' =>
      rw [quality] at member
      exact carried chunk (quality'.kept title chunks member)

theorem pageChunks_carry : Carry Acl.default (run.pageChunks document) := by
  unfold PipelineRun.pageChunks
  split
  · exact carry_append.mpr ⟨createHeadingChunks_carry _, carry_cons.mpr ⟨rfl, carry_nil⟩⟩
  · exact carry_nil

theorem Indexes.acl {item : SourceItem} (indexed : Indexes run item chunk) :
    chunk.acl = Acl.default := by
  cases indexed with
  | batch documents collected source member document content inside =>
      have unlisted : document.metadata.acl = Acl.default := by
        obtain ⟨text, -, rfl⟩ := Option.map_eq_some_iff.mp content
        rfl
      unfold PipelineRun.batchChunks at inside
      split at inside
      · cases inside
      · rename_i body processed
        have carried := processDocument_default unlisted processed
        exact runEnrichment_carry _
          (carry_append.mpr ⟨filtered_carry _ carried, pageChunks_carry⟩) chunk inside
  | streaming source member document content inside =>
      have unlisted : document.metadata.acl = Acl.default := by
        obtain ⟨text, -, rfl⟩ := Option.map_eq_some_iff.mp content
        rfl
      unfold PipelineRun.streamingChunks at inside
      split at inside
      · cases inside
      · rename_i body processed
        have carried := processDocument_default unlisted processed
        exact carry_append.mpr ⟨filtered_carry _ (enrichFrom_carry _ 0 carried), pageChunks_carry⟩
          chunk inside
  | event event about document mapped inside =>
      unfold PipelineRun.eventChunks at inside
      split at inside
      · cases inside
      · rename_i body processed
        exact enrichFrom_carry _ 0 (processDocument_default rfl processed) chunk inside

end Defaults

section Visible

variable {Vector : Type} {indexer : QdrantHybridIndexer Vector} {run : PipelineRun}
  {item : SourceItem} {chunk : Chunk} {point : Point Vector} {retrieved : View}

theorem chunkToPoint_fields (stored : chunkToPoint indexer chunk = some point) :
    point.2.payload.fields =
      { accessLevel := some chunk.acl.accessLevel, allowedGroups := some chunk.acl.allowedGroups
        allowedUsers := some chunk.acl.allowedUsers, version := some chunk.version } := by
  unfold chunkToPoint at stored
  split at stored
  · cases stored
  · split at stored
    · cases stored
    · obtain rfl := Option.some.inj stored
      rfl

theorem Indexes.visible (indexed : Indexes run item chunk)
    (stored : chunkToPoint indexer chunk = some point)
    (shape : retrieved = flat point.2.payload.fields ∨ retrieved = nested point.2.payload.fields)
    (user : UserContext) : visible user retrieved = true := by
  have fields := chunkToPoint_fields stored
  rw [indexed.acl] at fields
  have level : retrieved.level = "public" := by
    rcases shape with rfl | rfl
    · simp [flat, View.level, fields, Acl.default]
    · simp [nested, View.level, fields, Acl.default]
  have everyone := AccessControl.public_mem_roleAllowedLevels user
  simp [AccessControl.visible, AccessControl.keepsChunk, level, everyone]

/-- For a chunk that any of the pipelines indexed, the access list of its object decides whether the
user gets it exactly when the object is open to the user. -/
theorem end_to_end_acl_iff (run : PipelineRun) (item : SourceItem) (chunk : Chunk)
    (indexed : Indexes run item chunk) (stored : chunkToPoint indexer chunk = some point)
    (shape : retrieved = flat point.2.payload.fields ∨ retrieved = nested point.2.payload.fields)
    (user : UserContext) :
    EndToEnd item user retrieved ↔ item.OpenTo user := by
  have kept := indexed.visible stored shape user
  rw [← SourceItem.admits_iff]
  constructor
  · intro sound
    exact sound.admitted kept
  · intro admitted
    exact ⟨fun _ => admitted, fun _ => kept⟩

end Visible

/-! A page whose reading is restricted to a group, and a run in which every text is one block. -/

def salariesPage : ConfluencePage :=
  { content := { id := "7", title := "Salaries", bodyViewHtml := "a table", spaceKey := "HR" }
    restrictions := [[{ identifier := "payroll", subjectType := "group" }]] }

def plainRun : PipelineRun :=
  { chunker := { contextualEnrichment := false, estimateTokens := String.length }
    libraries :=
      { sha256 := fun text => text, markdown := some (fun text => text), markdownify := none
        beautifulSoup := some (fun html => [Element.block html]) }
    enricher :=
      { entities := fun _ => [], keywords := fun _ => [], summary := fun text => text
        hypotheticalQuestions := fun _ => [] } }

def salariesDocument : Document :=
  { content := "a table", contentType := "html"
    metadata :=
      { sourceType := some "confluence", sourceId := some "confluence_7", version := some "1"
        docTitle := some "Salaries" } }

def salariesChunk : Chunk :=
  createDocumentChunk plainRun.chunker plainRun.libraries "a table" salariesDocument.metadata

theorem salaries_indexed : Indexes plainRun (.page salariesPage) salariesChunk := by
  refine .batch _ rfl (pageDocument (savePageData salariesPage) (extractPage salariesPage))
    (List.mem_singleton.mpr rfl) salariesDocument (by decide +kernel) ?_
  decide +kernel

def salariesPoint : Point Unit := (chunkToPoint plainIndexer salariesChunk).get (by decide +kernel)

theorem salaries_stored : chunkToPoint plainIndexer salariesChunk = some salariesPoint :=
  (Option.some_get _).symm

/-- The payroll group may read the page. -/
theorem end_to_end_acl_of_payroll :
    let user : UserContext :=
      { userId := "1", username := "ann", roles := ["viewer"], groups := ["payroll"] }
    EndToEnd (.page salariesPage) user (flat salariesPoint.2.payload.fields) ↔
      (SourceItem.page salariesPage).OpenTo user :=
  end_to_end_acl_iff plainRun _ salariesChunk salaries_indexed salaries_stored (Or.inl rfl) _

/-- Anyone gets the page. -/
theorem restricted_page_is_public :
    ∃ (run : PipelineRun) (item : SourceItem) (chunk : Chunk) (point : Point Unit)
      (outsider : UserContext),
      outsider.isAdmin = false ∧ Indexes run item chunk ∧
        chunkToPoint plainIndexer chunk = some point ∧
        ¬ EndToEnd item outsider (flat point.2.payload.fields) := by
  let outsider : UserContext := { userId := "2", username := "bob", roles := ["external"] }
  refine ⟨plainRun, .page salariesPage, salariesChunk, salariesPoint, outsider, by decide,
    salaries_indexed, salaries_stored, ?_⟩
  intro sound
  have kept := salaries_indexed.visible salaries_stored (Or.inl rfl) outsider
  have admitted := sound.admitted kept
  exact absurd admitted (by decide +kernel)

end RagSystem.Etl
