import Mathlib.Data.Set.Function
import RagSystem.Etl.AclExtractor

/-! The ids that the batch path (`collect_all_documents`) and the webhook path (`webhook_server.py`,
`event_processor.py`) give to the objects of the sources. -/

namespace RagSystem.Etl

/-- An object of a source; what lies in a project is told apart by it. -/
inductive SourceObject
  | page (id : String)
  | issue (key : String)
  | commit (project : Nat) (sha : String)
  | mergeRequest (project id iid : Nat)
  | file (project : Nat) (path : String)
  deriving DecidableEq, Repr

def SourceObject.batchId : SourceObject → String
  | .page id => "confluence_" ++ id
  | .issue key => "jira_" ++ key
  | .commit _ sha => "gitlab_commit_" ++ sha
  | .mergeRequest _ _ iid => "gitlab_mr_" ++ toString iid
  | .file _ path => "gitlab_file_" ++ safeName path

def SourceItem.objects : SourceItem → List SourceObject
  | .page source => [.page source.content.id]
  | .issue source => [.issue source.content.key]
  | .project data =>
      ((data.commits.take 100).map fun commit => .commit data.project.id commit.id) ++
        (data.mergeRequests.map fun request =>
          .mergeRequest data.project.id request.id request.iid) ++
        (data.filesData.map fun file => .file data.project.id file.1)

/-- What the webhook server reads of a request; the dicts under `page` and `object_attributes` by
their ids, and a missing key is `none`. -/
structure Webhook where
  source : String
  event : Option String := none
  eventType : Option String := none
  objectKind : Option String := none
  eventName : Option String := none
  page : Option (Option String) := none
  objectAttributes : Option (Option String) := none
  payload : Payload
  deriving DecidableEq, Repr

def Webhook.kind (webhook : Webhook) : String :=
  if webhook.source = "confluence" then
    webhook.event.getD (webhook.eventType.getD "unknown")
  else webhook.objectKind.getD (webhook.eventName.getD "unknown")

def Webhook.docId (webhook : Webhook) : String :=
  (webhook.page.getD (webhook.objectAttributes.getD none)).getD
    (webhook.objectKind.getD "unknown")

/-- What `_process_event` puts on the stream. -/
def Webhook.toEvent (webhook : Webhook) : StreamEvent :=
  { source := webhook.source, eventType := webhook.kind, docId := webhook.docId
    payload := webhook.payload }

def StreamEvent.processedId (event : StreamEvent) : Option String :=
  if event.deletes then some (normalizeDocumentId event.source event.docId)
  else (eventToDocument event).join.map EventDocument.id

/-- Requests about pages name the page, those about merge requests their attributes, and a push has
the commits in it; there are none about issues or single files. -/
def Webhook.Announces (webhook : Webhook) : SourceObject → Prop
  | .page id => webhook.source = "confluence" ∧ webhook.page = some (some id)
  | .issue _ => False
  | .commit _ _ =>
      webhook.source = "gitlab" ∧ webhook.objectKind = some "push" ∧ webhook.page = none ∧
        webhook.objectAttributes = none
  | .mergeRequest _ id _ =>
      webhook.source = "gitlab" ∧ webhook.objectKind = some "merge_request" ∧
        webhook.page = none ∧ webhook.objectAttributes = some (some (toString id))
  | .file _ _ => False

/-- Different objects have different ids, and the event path gives an object the id of the batch
path. -/
structure Identified (objects : Set SourceObject) : Prop where
  apart : Set.InjOn SourceObject.batchId objects
  agrees : ∀ object ∈ objects, ∀ webhook : Webhook, webhook.Announces object →
    ∀ id, webhook.toEvent.processedId = some id → id = object.batchId

/-- There are no commits, no page has an id with the prefix of its source, merge requests have one
number, and no two share it; and no two files share the name they are saved under. -/
structure Identifiable (objects : Set SourceObject) : Prop where
  pages : ∀ id, SourceObject.page id ∈ objects → prefixed "confluence_" id = false
  commits : ∀ project sha, SourceObject.commit project sha ∉ objects
  requests : ∀ project id iid, SourceObject.mergeRequest project id iid ∈ objects → id = iid
  requestsApart : ∀ first second number, SourceObject.mergeRequest first number number ∈ objects →
    SourceObject.mergeRequest second number number ∈ objects → first = second
  filesApart : ∀ first second path other, SourceObject.file first path ∈ objects →
    SourceObject.file second other ∈ objects → safeName path = safeName other →
      first = second ∧ path = other

section Batch

theorem mem_ofList_entries {κ β : Type} [DecidableEq κ] (bindings : List (κ × β)) (key : κ) :
    key ∈ (Dict.ofList bindings).entries.map Prod.fst ↔ key ∈ bindings.map Prod.fst := by
  have keys := Dict.mem_keys_iff (Dict.ofList bindings) key
  rw [Dict.keys, Dict.exists_get?_ofList] at keys
  rw [keys]
  simp

theorem getD_ite_nil {α : Type} (items : List α) [Decidable (items = [])] :
    (if items = [] then none else some items).getD [] = items := by
  by_cases empty : items = []
  · simp [empty]
  · simp [empty]

end Batch

section Apart

/-- Two objects of one kind with the same key: what their ids are made of. -/
def SameKey : SourceObject → SourceObject → Prop
  | .page id, .page other => id = other
  | .issue key, .issue other => key = other
  | .commit _ sha, .commit _ other => sha = other
  | .mergeRequest _ _ iid, .mergeRequest _ _ other => iid = other
  | .file _ path, .file _ other => safeName path = safeName other
  | _, _ => False

theorem append_left_injective (lead : String) {first second : String}
    (same : lead ++ first = lead ++ second) : first = second := by
  have lists := congrArg String.toList same
  rw [String.toList_append, String.toList_append] at lists
  exact String.toList_injective (List.append_cancel_left lists)

theorem toString_injective {first second : Nat} (same : toString first = toString second) :
    first = second := by
  have lists := congrArg String.toList same
  rw [Nat.toString_eq_repr, Nat.toString_eq_repr, Nat.toList_repr, Nat.toList_repr] at lists
  rw [← Nat.ofDigitChars_ten_toDigits (n := first), lists, Nat.ofDigitChars_ten_toDigits]

def SourceObject.lead : SourceObject → String
  | .page _ => "confluence_"
  | .issue _ => "jira_"
  | .commit _ _ => "gitlab_commit_"
  | .mergeRequest _ _ _ => "gitlab_mr_"
  | .file _ _ => "gitlab_file_"

theorem toList_prefix_append (lead text : String) : lead.toList <+: (lead ++ text).toList := by
  rw [String.toList_append]
  exact List.prefix_append _ _

theorem lead_prefix_batchId (object : SourceObject) :
    object.lead.toList <+: object.batchId.toList := by
  cases object <;> exact toList_prefix_append _ _

theorem lead_apart : ∀ lead ∈ ["confluence_", "jira_", "gitlab_commit_", "gitlab_mr_",
    "gitlab_file_"], ∀ other ∈ ["confluence_", "jira_", "gitlab_commit_", "gitlab_mr_",
    "gitlab_file_"], lead.toList <+: other.toList → lead = other := by
  decide +kernel

theorem lead_eq_of_batchId {first second : SourceObject} (same : first.batchId = second.batchId) :
    first.lead = second.lead := by
  have listed : ∀ object : SourceObject, object.lead ∈
      ["confluence_", "jira_", "gitlab_commit_", "gitlab_mr_", "gitlab_file_"] := by
    intro object
    cases object <;> simp [SourceObject.lead]
  have within := lead_prefix_batchId second
  rw [← same] at within
  rcases List.prefix_or_prefix_of_prefix (lead_prefix_batchId first) within with inside | inside
  · exact lead_apart _ (listed first) _ (listed second) inside
  · exact (lead_apart _ (listed second) _ (listed first) inside).symm

theorem batchId_eq_iff (first second : SourceObject) :
    first.batchId = second.batchId ↔ SameKey first second := by
  constructor
  · intro same
    cases first <;> cases second
    case page.page => exact append_left_injective _ same
    case issue.issue => exact append_left_injective _ same
    case commit.commit => exact append_left_injective _ same
    case mergeRequest.mergeRequest => exact toString_injective (append_left_injective _ same)
    case file.file => exact append_left_injective _ same
    all_goals
      have leads := lead_eq_of_batchId same
      simp [SourceObject.lead] at leads
  · intro same
    cases first <;> cases second
    case page.page => exact congrArg ("confluence_" ++ ·) same
    case issue.issue => exact congrArg ("jira_" ++ ·) same
    case commit.commit => exact congrArg ("gitlab_commit_" ++ ·) same
    case mergeRequest.mergeRequest => exact congrArg ("gitlab_mr_" ++ toString ·) same
    case file.file => exact congrArg ("gitlab_file_" ++ ·) same
    all_goals exact same.elim

end Apart

section Event

theorem number_not_prefixed (number : Nat) : prefixed "gitlab_" (toString number) = false := by
  rw [Bool.eq_false_iff]
  intro leads
  rw [prefixed, List.isPrefixOf_iff_prefix, Nat.toString_eq_repr, Nat.toList_repr] at leads
  have inside : 'g' ∈ Nat.toDigits 10 number := leads.subset (by decide)
  exact absurd (Nat.isDigit_of_mem_toDigits (by omega) (by omega) inside) (by decide)

variable {webhook : Webhook} {id got : String}

theorem normalize_confluence (docId : String) :
    normalizeDocumentId "confluence" docId = confluenceId docId := rfl

theorem page_processedId (announced : webhook.Announces (.page id))
    (found : webhook.toEvent.processedId = some got) : got = confluenceId id := by
  obtain ⟨source, page⟩ := announced
  have docId : webhook.docId = id := by simp [Webhook.docId, page]
  unfold StreamEvent.processedId at found
  split at found
  · have deleted : normalizeDocumentId webhook.source webhook.docId = got := Option.some.inj found
    rw [source, docId, normalize_confluence] at deleted
    exact deleted.symm
  · obtain ⟨document, mapped, rfl⟩ := Option.map_eq_some_iff.mp found
    have kept := Option.join_eq_some_iff.mp mapped
    have fields : webhook.toEvent.source = "confluence" ∧ webhook.toEvent.docId = id :=
      ⟨source, docId⟩
    unfold eventToDocument at kept
    rw [fields.1, fields.2] at kept
    split at kept
    · simp at kept
    · split at kept
      · simp at kept
      · split at kept
        · cases kept
        · cases kept
        · rename_i pageFields projectName commits attrs read
          simp only [if_true, Option.some.injEq] at kept
          unfold confluenceDocument at kept
          dsimp only at kept
          split at kept
          · cases kept
          · obtain rfl := Option.some.inj kept
            rfl

theorem gitlab_processedId (source : webhook.source = "gitlab") {kind lead : String}
    (kinds : (kind = "push" ∧ lead = "gitlab_push") ∨
      (kind = "merge_request" ∧ lead = "gitlab_mr"))
    (announced : webhook.objectKind = some kind)
    (found : webhook.toEvent.processedId = some got) : got = gitlabId lead webhook.docId := by
  have ofKind : webhook.kind = kind := by simp [Webhook.kind, source, announced]
  have stays : webhook.toEvent.deletes = false := by
    rcases kinds with ⟨rfl, -⟩ | ⟨rfl, -⟩ <;>
      simp [StreamEvent.deletes, Webhook.toEvent, ofKind, deleteEventTypes]
  unfold StreamEvent.processedId at found
  rw [stays] at found
  obtain ⟨document, mapped, rfl⟩ := Option.map_eq_some_iff.mp found
  have kept := Option.join_eq_some_iff.mp mapped
  have fields : webhook.toEvent.source = "gitlab" ∧ webhook.toEvent.eventType = kind ∧
      webhook.toEvent.docId = webhook.docId := ⟨source, ofKind, rfl⟩
  unfold eventToDocument at kept
  rw [fields.1, fields.2.1, fields.2.2] at kept
  split at kept
  · simp at kept
  · split at kept
    · simp at kept
    · split at kept
      · cases kept
      · cases kept
      · rename_i pageFields projectName commits attrs read
        have other : ¬ "gitlab" = "confluence" := by decide
        rw [if_neg other, Option.some.injEq] at kept
        rcases kinds with ⟨rfl, rfl⟩ | ⟨rfl, rfl⟩
        · simp only [gitlabDocument, if_true] at kept
          split at kept
          · cases kept
          · obtain rfl := Option.some.inj kept
            rfl
        · simp only [gitlabDocument, String.reduceEq, if_false, true_or, if_true] at kept
          split at kept
          · cases kept
          · obtain rfl := Option.some.inj kept
            rfl

def pageWebhook (id : String) : Webhook :=
  { source := "confluence", event := some "page_updated", page := some (some id)
    payload := .read { bodyStorage := some "text" } none [] {} }

def mergeRequestWebhook (id : Nat) : Webhook :=
  { source := "gitlab", objectKind := some "merge_request"
    objectAttributes := some (some (toString id))
    payload := .read {} none [] { title := "title" } }

def pushWebhook : Webhook :=
  { source := "gitlab", objectKind := some "push"
    payload := .read {} none [{ message := "fix" }] {} }

theorem pageWebhook_id (id : String) :
    (pageWebhook id).toEvent.processedId = some (confluenceId id) := rfl

theorem mergeRequestWebhook_id (id : Nat) :
    (mergeRequestWebhook id).toEvent.processedId = some (gitlabId "gitlab_mr" (toString id)) := rfl

theorem pushWebhook_id : pushWebhook.toEvent.processedId = some "gitlab_push_push" := by
  decide +kernel

theorem gitlabId_number (id : Nat) :
    gitlabId "gitlab_mr" (toString id) = "gitlab_mr_" ++ toString id := by
  rw [gitlabId, number_not_prefixed]
  rfl

theorem confluenceId_eq_iff (id : String) :
    confluenceId id = "confluence_" ++ id ↔ prefixed "confluence_" id = false := by
  unfold confluenceId
  split
  · rename_i leads
    refine iff_of_false ?_ (by simp [leads])
    intro same
    have lengths := congrArg String.length same
    rw [String.length_append] at lengths
    have longer : "confluence_".length = 11 := by decide
    omega
  · rename_i apart
    exact iff_of_true rfl (Bool.eq_false_iff.mpr apart)

/-- The ids of a set of objects are distinct, and those of the event path the same, exactly when the
set is identifiable. -/
theorem document_identity_iff (objects : Set SourceObject) :
    Identified objects ↔ Identifiable objects := by
  constructor
  · intro identified
    have requests : ∀ project id iid, SourceObject.mergeRequest project id iid ∈ objects →
        id = iid := by
      intro project id iid member
      have agreed := identified.agrees _ member (mergeRequestWebhook id) ⟨rfl, rfl, rfl, rfl⟩ _
        (mergeRequestWebhook_id id)
      rw [gitlabId_number] at agreed
      exact toString_injective (append_left_injective _ agreed)
    constructor
    · intro id member
      have agreed := identified.agrees _ member (pageWebhook id) ⟨rfl, rfl⟩ _ (pageWebhook_id id)
      exact (confluenceId_eq_iff id).mp agreed
    · intro project sha member
      have agreed : _ = "gitlab_commit_" ++ sha :=
        identified.agrees _ member pushWebhook ⟨rfl, rfl, rfl, rfl⟩ _ pushWebhook_id
      have lists := congrArg String.toList agreed
      simp at lists
    · exact requests
    · intro first second number inFirst inSecond
      have same := identified.apart inFirst inSecond rfl
      injection same
    · intro first second path other inFirst inSecond flattened
      have collides : (SourceObject.file first path).batchId =
          (SourceObject.file second other).batchId := (batchId_eq_iff _ _).mpr flattened
      have same := identified.apart inFirst inSecond collides
      injection same with project paths
      exact ⟨project, paths⟩
  · intro identifiable
    constructor
    · intro first inFirst second inSecond same
      have key := (batchId_eq_iff first second).mp same
      cases first <;> cases second
      case page.page => exact congrArg SourceObject.page key
      case issue.issue => exact congrArg SourceObject.issue key
      case commit.commit => exact absurd inFirst (identifiable.commits _ _)
      case mergeRequest.mergeRequest project id iid other otherId otherIid =>
        obtain rfl : iid = otherIid := key
        obtain rfl := identifiable.requests _ _ _ inFirst
        obtain rfl := identifiable.requests _ _ _ inSecond
        rw [identifiable.requestsApart _ _ _ inFirst inSecond]
      case file.file project path other otherPath =>
        obtain ⟨rfl, rfl⟩ := identifiable.filesApart _ _ _ _ inFirst inSecond key
        rfl
      all_goals exact key.elim
    · intro object member webhook announced id found
      cases object with
      | page own =>
          rw [page_processedId announced found]
          exact (confluenceId_eq_iff own).mpr (identifiable.pages own member)
      | issue key => exact announced.elim
      | commit project sha => exact absurd member (identifiable.commits _ _)
      | mergeRequest project own iid =>
          obtain rfl := identifiable.requests _ _ _ member
          obtain ⟨source, kind, page, attributes⟩ := announced
          have docId : webhook.docId = toString own := by simp [Webhook.docId, page, attributes]
          rw [gitlab_processedId source (Or.inr ⟨rfl, rfl⟩) kind found, docId, gitlabId_number]
          rfl
      | file project path => exact announced.elim

/-- The first merge requests of two projects have one id, and the webhook about one of them names it
by its number in the database. -/
theorem merge_requests_share_an_id :
    ¬ Identified {SourceObject.mergeRequest 10 501 1, SourceObject.mergeRequest 20 502 1} ∧
      (mergeRequestWebhook 501).Announces (.mergeRequest 10 501 1) ∧
        (mergeRequestWebhook 501).toEvent.processedId = some "gitlab_mr_501" ∧
          (SourceObject.mergeRequest 10 501 1).batchId = "gitlab_mr_1" := by
  refine ⟨?_, ⟨rfl, rfl, rfl, rfl⟩, by decide +kernel, by decide +kernel⟩
  intro identified
  have same := identified.apart (Set.mem_insert _ _) (Set.mem_insert_of_mem _ rfl) rfl
  exact absurd same (by decide)

end Event

end RagSystem.Etl
