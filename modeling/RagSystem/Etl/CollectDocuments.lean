import Mathlib.Data.List.Perm.Basic
import RagSystem.Data.Builtins
import RagSystem.Data.Json
import RagSystem.Etl.EventProcessor

/-! The files the extractors leave behind and the documents that a batch run collects from them
(`etl/scheduler/run_etl.py`). -/

namespace RagSystem.Etl

/-- `DocumentACL`, as it is stored under the `acl` key. -/
structure DocumentAcl where
  accessLevel : String := "public"
  allowedGroups : List String := []
  allowedUsers : List String := []
  sourcePermissions : Dict String Json := Dict.empty

/-- `page.json`. -/
structure PageFile where
  id : String
  title : String := ""
  bodyViewHtml : String := ""
  bodyStorageRaw : String := ""
  version : Int := 1
  spaceName : String := ""
  spaceKey : String := ""
  author : String := ""
  contributors : List String := []
  labels : Json := .arr []
  restrictions : Json := .obj []
  createdAt : String := ""
  updatedAt : String := ""
  acl : DocumentAcl := {}

structure IssueComment where
  author : String := ""
  body : String := ""
  deriving DecidableEq, Repr

/-- `issue.json`; a description may be null. -/
structure IssueFile where
  key : String
  summary : String := ""
  description : Option String := some ""
  comments : List IssueComment := []
  status : String := ""
  priority : String := ""
  assignee : Option String := none
  reporter : Option String := none
  projectKey : String := ""
  issueType : String := ""
  labels : List String := []
  components : Json := .arr []
  created : String := ""
  updated : String := ""
  acl : DocumentAcl := {}

/-- `project.json`; a missing key is `none`. -/
structure ProjectFile where
  id : Option Nat := none
  fullPath : Option String := none
  visibility : Option String := none
  acl : DocumentAcl := {}

structure CommitFile where
  id : String
  message : String := ""
  diff : List Diff := []
  title : Option String := none
  authorName : String := ""
  createdAt : String := ""
  deriving DecidableEq, Repr

structure MergeRequestNote where
  author : String
  body : String
  deriving DecidableEq, Repr

/-- An entry of `merge_requests.json`; a description may be null. -/
structure MergeRequestFile where
  id : Nat
  iid : Nat
  title : String := ""
  description : Option String := some ""
  discussions : List (List MergeRequestNote) := []
  state : String := ""
  author : String := ""
  deriving DecidableEq, Repr

/-- A directory below the output of an extractor; the text files under `files` by their stems. -/
structure ObjectDir where
  name : String
  page : Option PageFile := none
  issue : Option IssueFile := none
  project : Option ProjectFile := none
  commits : Option (List CommitFile) := none
  mergeRequests : Option (List MergeRequestFile) := none
  files : Option (Dict String String) := none

/-- The metadata of a document, by the branch that writes it. -/
inductive DocumentMetadata
  | page (version spaceName spaceKey pageId author : String) (contributors : List String)
      (labels restrictions : Json) (createdAt updatedAt url : String)
  | issue (key status priority : String) (assignee reporter : Option String)
      (projectKey issueType : String) (labels : List String) (components : Json)
      (created updated : String)
  | commit (sha author date : String) (projectId : Json) (fullPath visibility : String)
  | mergeRequest (iid : Nat) (state author : String) (projectId : Json)
      (fullPath visibility : String)
  | file (path : String) (projectId : Json) (fullPath visibility : String)

/-- `metadata.get("version", "latest")`. -/
def DocumentMetadata.version : DocumentMetadata → String
  | .page version .. => version
  | _ => "latest"

/-- A collected document; a content of `none` is the null description of an issue. -/
structure CollectedDocument where
  id : String
  sourceType : String
  title : String
  content : Option String
  contentType : String
  metadata : DocumentMetadata

def pageDocument (dir : ObjectDir) (data : PageFile) : CollectedDocument :=
  { id := "confluence_" ++ data.id
    sourceType := "confluence"
    title := data.title
    content := some (orElse "" data.bodyViewHtml data.bodyStorageRaw)
    contentType := "html"
    metadata := .page (toString data.version) data.spaceName data.spaceKey data.id data.author
      data.contributors data.labels data.restrictions data.createdAt data.updatedAt dir.name }

def commentText (comment : IssueComment) : String :=
  if comment.body = "" then ""
  else "\n\nComment by " ++ (orElse "" comment.author "Unknown") ++ ": " ++ comment.body

/-- `none` raises: text cannot be added to a null description. -/
def issueContent (data : IssueFile) : Option (Option String) :=
  match data.description with
  | some description => some (some (description ++ String.join (data.comments.map commentText)))
  | none => if data.comments.all (fun comment => comment.body = "") then some none else none

def issueDocument (data : IssueFile) : Option CollectedDocument :=
  (issueContent data).map fun content =>
    { id := "jira_" ++ data.key
      sourceType := "jira"
      title := data.summary
      content := content
      contentType := "html"
      metadata := .issue data.key data.status data.priority data.assignee data.reporter
        data.projectKey data.issueType data.labels data.components data.created data.updated }

structure ProjectInfo where
  projectId : Json
  fullPath : String
  visibility : String

def projectInfo (dir : ObjectDir) : ProjectInfo :=
  let data := dir.project.getD {}
  { projectId := (data.id.map (fun id => Json.int id)).getD (.str dir.name)
    fullPath := data.fullPath.getD ""
    visibility := data.visibility.getD "" }

def commitDocument (info : ProjectInfo) (commit : CommitFile) : CollectedDocument :=
  { id := "gitlab_commit_" ++ commit.id
    sourceType := "gitlab_commit"
    title := commit.title.getD (clip 8 commit.id)
    content := some (commit.message ++ String.join ((commit.diff.take 5).map (fun diff =>
      "\n" ++ diff.newPath ++ ": " ++ clip 200 diff.diff)))
    contentType := "markdown"
    metadata := .commit commit.id commit.authorName commit.createdAt info.projectId info.fullPath
      info.visibility }

/-- `none` raises: a null description cannot be added to the title. -/
def mergeRequestDocument (info : ProjectInfo) (request : MergeRequestFile) :
    Option CollectedDocument :=
  request.description.map fun description =>
    { id := "gitlab_mr_" ++ toString request.iid
      sourceType := "gitlab_merge_request"
      title := request.title
      content := some (request.title ++ "\n" ++ description ++
        String.join (request.discussions.flatten.map (fun note =>
          "\n" ++ note.author ++ ": " ++ note.body)))
      contentType := "markdown"
      metadata := .mergeRequest request.iid request.state request.author info.projectId
        info.fullPath info.visibility }

def fileDocument (info : ProjectInfo) (file : String × String) : CollectedDocument :=
  { id := "gitlab_file_" ++ file.1
    sourceType := "gitlab_code"
    title := file.1
    content := some file.2
    contentType := "plaintext"
    metadata := .file file.1 info.projectId info.fullPath info.visibility }

/-- The documents of a project directory; `none` raises. -/
def projectDocuments (dir : ObjectDir) : Option (List CollectedDocument) :=
  let info := projectInfo dir
  ((dir.mergeRequests.getD []).mapM (mergeRequestDocument info)).map fun requests =>
    ((dir.commits.getD []).take 100).map (commitDocument info) ++ requests ++
      ((dir.files.getD Dict.empty).entries.map (fileDocument info))

inductive SourceName
  | confluence
  | jira
  | gitlab
  deriving DecidableEq, Repr

def sourceNames : List SourceName := [.confluence, .jira, .gitlab]

/-- What the branch of a source name reads in one directory; `none` raises. -/
def dirDocuments : SourceName → ObjectDir → Option (List CollectedDocument)
  | .confluence, dir => some (dir.page.toList.map (pageDocument dir))
  | .jira, dir => dir.issue.toList.mapM issueDocument
  | .gitlab, dir => projectDocuments dir

def sourceDocuments (name : SourceName) (dirs : List ObjectDir) :
    Option (List CollectedDocument) :=
  (dirs.mapM (dirDocuments name)).map List.flatten

section Collecting

variable {Path : Type} (disk : Path → Option (List ObjectDir))

def readUnder (name : SourceName) (dir : Path) : Option (List CollectedDocument) :=
  (disk dir).elim (some []) (sourceDocuments name)

def collectPairs : List (Path × SourceName) → Option (List CollectedDocument)
  | [] => some []
  | (dir, name) :: rest =>
      (readUnder disk name dir).bind fun documents =>
        (collectPairs rest).map (documents ++ ·)

/-- `none` is an exception. -/
def collectAllDocuments (extractDirs : List Path) : Option (List CollectedDocument) :=
  collectPairs disk (extractDirs.zip sourceNames)

end Collecting

/-- What `run_chunking` hands to the chunker; nothing is chunked without content. -/
def CollectedDocument.toChunk (document : CollectedDocument) : Option Document :=
  document.content.map fun content =>
    { content := content
      contentType := document.contentType
      metadata :=
        { sourceType := some document.sourceType
          sourceId := some document.id
          version := some document.metadata.version
          docTitle := some document.title } }

theorem map_of_mapM {α β γ : Type} {f : α → Option β} {items : List α} {results : List β}
    (mapped : items.mapM f = some results) {g : β → γ} {h : α → γ}
    (agree : ∀ item result, f item = some result → g result = h item) :
    results.map g = items.map h := by
  induction items generalizing results with
  | nil =>
      obtain rfl : results = [] := by simpa using mapped
      rfl
  | cons item rest ih =>
      rw [List.mapM_cons] at mapped
      obtain ⟨head, here, mapped⟩ := Option.bind_eq_some_iff.mp mapped
      obtain ⟨tail, there, mapped⟩ := Option.bind_eq_some_iff.mp mapped
      obtain rfl : head :: tail = results := by simpa using mapped
      rw [List.map_cons, List.map_cons, agree item head here, ih there]

theorem mem_of_mapM {α β : Type} {f : α → Option β} {items : List α} {results : List β}
    (mapped : items.mapM f = some results) {result : β} :
    result ∈ results ↔ ∃ item ∈ items, f item = some result := by
  have same : results.map some = items.map f := map_of_mapM mapped fun _ _ found => found.symm
  rw [← List.mem_map, ← same]
  simp

end RagSystem.Etl
