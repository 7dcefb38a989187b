import RagSystem.Etl.EventProcessor
import RagSystem.Etl.LakeExactness

/-! When the points of a document are exactly the chunks of its last event. -/

namespace RagSystem.Etl

open Transition

variable {Vector : Type}

/-- The document that an event updates; `none` for events of other kinds. -/
def StreamEvent.documentId (event : StreamEvent) : Option String :=
  if event.eventType ∈ skipEventTypes ∨ event.deletes then none
  else if event.source = "confluence" then some (confluenceId event.docId)
  else if event.source = "gitlab" then
    if event.eventType = "push" then some (gitlabId "gitlab_push" event.docId)
    else if event.eventType = "merge_request" then some (gitlabId "gitlab_mr" event.docId)
    else if event.eventType = "wiki_page" then some (gitlabId "gitlab_wiki" event.docId)
    else none
  else none

def StreamEvent.deletedId (event : StreamEvent) : String :=
  if event.source = "confluence" then confluenceId event.docId
  else gitlabId "gitlab_wiki" event.docId

structure Arrival where
  event : StreamEvent
  enrichments : Nat → Option Enrichment := fun _ => none

def Arrival.circumstances (arrival : Arrival) : Circumstances := { enrichments := arrival.enrichments }

/-- The points, and for each document the chunks of its last event. -/
structure Index (Vector : Type) where
  points : Collection Vector := ∅
  last : Dict String (List Chunk) := ∅

/-- What an event is about: a document and its chunks, or a deleted document and the id by which
its points are looked for. -/
inductive Outcome
  | nothing
  | updates (id : String) (chunks : List Chunk)
  | deletes (id named : String)
  deriving DecidableEq, Repr

section Steps

variable (processor : EventProcessor Vector)

def Arrival.outcome (arrival : Arrival) : Outcome :=
  let event := arrival.event
  if event.deletes then
    if event.payload = .notJson then .nothing
    else .deletes event.deletedId (normalizeDocumentId event.source event.docId)
  else
    match event.documentId, eventToDocument event with
    | some id, some none => .updates id []
    | some id, some (some document) =>
        match documentChunks processor arrival.circumstances document with
        | some chunks => .updates id chunks
        | none => .nothing
    | _, _ => .nothing

def Outcome.record (last : Dict String (List Chunk)) : Outcome → Dict String (List Chunk)
  | .nothing => last
  | .updates id chunks => last.set id chunks
  | .deletes id _ => last.set id []

def logStep (index : Index Vector) (arrival : Arrival) : Option (Index Vector) :=
  some
    { points := (processEvent processor arrival.circumstances arrival.event index.points).1
      last := (arrival.outcome processor).record index.last }

/-- The points of every document are the chunks of its last event. -/
def Index.Exact (index : Index Vector) : Prop :=
  Etl.Exact processor.indexer { points := index.points } index.last.get?

/-- What an update has to respect. Two hashes meet when their point ids are equal. -/
structure CleanUpdate (indexer : QdrantHybridIndexer Vector) (points : Collection Vector)
    (id : String) (chunks : List Chunk) : Prop where
  /-- Every chunk makes a point. -/
  own : ∀ chunk ∈ chunks, chunk.hash ≠ "" ∧ chunk.text ≠ ""
  /-- Chunks that meet make the same point. -/
  distinct : ∀ first ∈ chunks, ∀ second ∈ chunks,
    indexer.uuid5 first.hash = indexer.uuid5 second.hash →
      chunkToPoint indexer first = chunkToPoint indexer second
  /-- No chunk meets a point of another document. -/
  unshared : ∀ chunk ∈ chunks, ∀ stored,
    points.get? (indexer.uuid5 chunk.hash) = some stored → stored.payload.sourceId = id
  /-- A chunk meets every point of the document. -/
  replaced : ∀ pointId stored, points.get? pointId = some stored → stored.payload.sourceId = id →
    ∃ chunk ∈ chunks, indexer.uuid5 chunk.hash = pointId

/-- A page is deleted under the id of its points, or neither id has any. -/
def CleanDeletion (points : Collection Vector) (id named : String) : Prop :=
  id = named ∨ ∀ pointId stored, points.get? pointId = some stored →
    stored.payload.sourceId ≠ id ∧ stored.payload.sourceId ≠ named

def Arrival.Clean (index : Index Vector) (arrival : Arrival) : Prop :=
  match arrival.outcome processor with
  | .nothing => True
  | .updates id chunks => CleanUpdate processor.indexer index.points id chunks
  | .deletes id named => CleanDeletion index.points id named

end Steps

section Processing

variable {processor : EventProcessor Vector} {points : Collection Vector}

def Outcome.apply (indexer : QdrantHybridIndexer Vector) (points : Collection Vector) :
    Outcome → Collection Vector
  | .nothing => points
  | .updates _ chunks => points.setAll (chunks.filterMap (chunkToPoint indexer))
  | .deletes _ named => deleteBySourceId indexer named points.entries.length points

theorem eventToDocument_id {event : StreamEvent} {document : EventDocument}
    (kept : event.deletes = false) (mapped : eventToDocument event = some (some document)) :
    event.documentId = some document.id := by
  unfold eventToDocument at mapped
  split at mapped
  · simp at mapped
  · rename_i indexed
    split at mapped
    · simp at mapped
    · rename_i supported
      split at mapped
      · cases mapped
      · cases mapped
      · unfold StreamEvent.documentId
        rw [if_neg (by simp [indexed, kept])]
        split at mapped
        · rename_i confluence
          rw [if_pos confluence]
          simp only [confluenceDocument, Option.some.injEq] at mapped
          split at mapped
          · cases mapped
          · obtain rfl := Option.some.inj mapped
            rfl
        · rename_i other
          have gitlab : event.source = "gitlab" := by
            by_contra neither
            exact supported ⟨other, neither⟩
          rw [if_neg other, if_pos gitlab]
          simp only [gitlabDocument, Option.some.injEq] at mapped
          split at mapped
          · rename_i push
            rw [if_pos push]
            split at mapped
            · cases mapped
            · obtain rfl := Option.some.inj mapped
              rfl
          · rename_i notPush
            rw [if_neg notPush]
            split at mapped
            · split at mapped
              · cases mapped
              · rename_i kinds _
                obtain rfl := Option.some.inj mapped
                rcases kinds with request | wiki
                · simp [request]
                · simp [wiki]
            · cases mapped

theorem documentId_none_of_source {event : StreamEvent}
    (other : event.source ≠ "confluence" ∧ event.source ≠ "gitlab") : event.documentId = none := by
  unfold StreamEvent.documentId
  rw [if_neg other.1, if_neg other.2]
  split <;> rfl

theorem deletes_source {event : StreamEvent} (deletes : event.deletes = true) :
    event.source = "confluence" ∨ event.source = "gitlab" := by
  unfold StreamEvent.deletes at deletes
  exact (of_decide_eq_true deletes).2

theorem documentId_none_of_notJson {event : StreamEvent} (invalid : event.payload = .notJson) :
    event.documentId = none ∨ eventToDocument event = none := by
  by_cases skipped : event.eventType ∈ skipEventTypes
  · left
    unfold StreamEvent.documentId
    rw [if_pos (Or.inl skipped)]
  · by_cases other : event.source ≠ "confluence" ∧ event.source ≠ "gitlab"
    · exact Or.inl (documentId_none_of_source other)
    · right
      unfold eventToDocument
      rw [if_neg skipped, if_neg other, invalid]

theorem indexDocument_outcome (arrival : Arrival) (document : EventDocument) :
    (indexDocument processor arrival.circumstances document points).1 =
      Outcome.apply processor.indexer points
        (match documentChunks processor arrival.circumstances document with
        | some chunks => .updates document.id chunks
        | none => .nothing) := by
  unfold indexDocument
  rw [if_neg (by simp [Arrival.circumstances])]
  cases made : documentChunks processor arrival.circumstances document with
  | none => rfl
  | some chunks =>
      cases chunks with
      | nil => rfl
      | cons chunk rest =>
          have working : arrival.circumstances.services = .working := rfl
          simp only [Outcome.apply]
          rw [working, (indexChunks_working processor.indexer (chunk :: rest)).1]

theorem processEvent_outcome (arrival : Arrival) :
    (processEvent processor arrival.circumstances arrival.event points).1 =
      (arrival.outcome processor).apply processor.indexer points := by
  unfold processEvent
  split
  · rename_i unnamed
    have other : arrival.event.source ≠ "confluence" ∧ arrival.event.source ≠ "gitlab" := by
      rw [unnamed]
      decide
    have kept : arrival.event.deletes = false := by
      cases deletes : arrival.event.deletes with
      | false => rfl
      | true => exact absurd (deletes_source deletes) (by simp [other])
    simp [Arrival.outcome, kept, documentId_none_of_source other, Outcome.apply]
  · split
    · rename_i invalid
      cases deletes : arrival.event.deletes with
      | true => simp [Arrival.outcome, deletes, invalid, Outcome.apply]
      | false =>
          rcases documentId_none_of_notJson invalid with none | none
          · simp [Arrival.outcome, deletes, none, Outcome.apply]
          · simp [Arrival.outcome, deletes, none, Outcome.apply]
    · rename_i json
      split
      · rename_i deletes
        simp [Arrival.outcome, deletes, json, Outcome.apply, deleteDocument, Arrival.circumstances]
      · rename_i kept
        have stays : arrival.event.deletes = false := by simpa using kept
        split
        · rename_i raised
          simp [Arrival.outcome, stays, raised, Outcome.apply]
        · rename_i blank
          cases named : arrival.event.documentId with
          | none => simp [Arrival.outcome, stays, named, Outcome.apply]
          | some id => simp [Arrival.outcome, stays, named, blank, Outcome.apply, Dict.setAll]
        · rename_i document mapped
          have named := eventToDocument_id stays mapped
          simp only [Arrival.outcome, stays, Bool.false_eq_true, if_false, named, mapped]
          exact indexDocument_outcome arrival document

theorem normalizeDocumentId_nonempty (source docId : String) :
    normalizeDocumentId source docId ≠ "" := by
  unfold normalizeDocumentId
  intro empty
  split at empty
  · rename_i under
    simp [prefixed, empty] at under
  · simp at empty

theorem mem_sourceIds {sourceId pointId : String} :
    pointId ∈ sourceIds points sourceId ↔
      ∃ stored, points.get? pointId = some stored ∧ stored.payload.sourceId = sourceId := by
  unfold sourceIds
  rw [List.mem_map]
  constructor
  · intro given
    rcases given with ⟨⟨_, stored⟩, member, rfl⟩
    obtain ⟨inside, same⟩ := List.mem_filter.mp member
    exact ⟨stored, (Dict.mem_entries_iff _ _ _).mp inside, by simpa using same⟩
  · intro given
    rcases given with ⟨stored, found, same⟩
    exact ⟨(pointId, stored), List.mem_filter.mpr
      ⟨(Dict.mem_entries_iff _ _ _).mpr found, by simpa using same⟩, rfl⟩

theorem sourceIds_length (indexer : QdrantHybridIndexer Vector) (points : Collection Vector)
    (sourceId : String) :
    (sourceIds points sourceId).length ≤ points.entries.length * indexer.batchSize := by
  have matching : (sourceIds points sourceId).length ≤ points.entries.length := by
    unfold sourceIds
    rw [List.length_map]
    exact List.length_filter_le _ _
  exact Nat.le_trans matching (Nat.le_mul_of_pos_right _ indexer.batchSize_pos)

theorem get?_deleteBySourceId {indexer : QdrantHybridIndexer Vector} {sourceId : String}
    (named : sourceId ≠ "") (points : Collection Vector) (pointId : String) :
    (deleteBySourceId indexer sourceId points.entries.length points).get? pointId =
      (points.get? pointId).filter (fun stored => decide (stored.payload.sourceId ≠ sourceId)) := by
  unfold deleteBySourceId
  rw [if_neg named, List.take_of_length_le (sourceIds_length indexer points sourceId),
    Dict.get?_eraseAll]
  have listed : pointId ∈ sourceIds points sourceId ↔
      ∃ stored, points.get? pointId = some stored ∧ stored.payload.sourceId = sourceId :=
    mem_sourceIds
  cases found : points.get? pointId with
  | none => simp
  | some stored =>
      rw [found] at listed
      by_cases same : stored.payload.sourceId = sourceId
      · rw [if_pos (listed.mpr ⟨stored, rfl, same⟩), Option.filter_some, if_neg (by simpa using same)]
      · have absent : pointId ∉ sourceIds points sourceId := by
          rw [listed]
          intro given
          rcases given with ⟨other, equal, hit⟩
          obtain rfl := Option.some.inj equal
          exact same hit
        rw [if_neg absent, Option.filter_some, if_pos (by simpa using same)]

end Processing

/-! Exactness after an event, by its outcome. -/

section Outcomes

variable {processor : EventProcessor Vector} {index : Index Vector} {arrival : Arrival}

def Index.Owned (index : Index Vector) : Prop :=
  ∀ pointId stored, index.points.get? pointId = some stored →
    ∃ chunks, index.last.get? stored.payload.sourceId = some chunks

theorem outcome_sourced {id : String} {chunks : List Chunk}
    (updates : arrival.outcome processor = .updates id chunks) : SourcedBy id chunks := by
  unfold Arrival.outcome at updates
  dsimp only at updates
  split at updates
  · split at updates <;> cases updates
  · rename_i kept
    split at updates
    · obtain ⟨rfl, rfl⟩ := Outcome.updates.inj updates
      intro chunk member
      cases member
    · rename_i named mapped
      split at updates
      · rename_i made
        obtain ⟨rfl, rfl⟩ := Outcome.updates.inj updates
        have same := eventToDocument_id (by simpa using kept) mapped
        rw [named] at same
        rw [Option.some.inj same]
        exact documentChunks_sourced made
      · cases updates
    · cases updates

variable {indexer : QdrantHybridIndexer Vector} {points : Collection Vector}
  {last : Dict String (List Chunk)} {id : String} {chunks : List Chunk}

theorem get?_setAll_cases {pointId : String} {stored : Stored Vector}
    (found : (points.setAll (chunks.filterMap (chunkToPoint indexer))).get? pointId = some stored) :
    (∃ chunk ∈ chunks, chunkToPoint indexer chunk = some (pointId, stored)) ∨
      ((∀ point ∈ chunks.filterMap (chunkToPoint indexer), point.1 ≠ pointId) ∧
        points.get? pointId = some stored) := by
  by_cases sent : ∃ point ∈ chunks.filterMap (chunkToPoint indexer), point.1 = pointId
  · obtain ⟨value, inside, held⟩ := Dict.get?_setAll_of_mem sent points
    rw [held] at found
    obtain rfl := Option.some.inj found
    exact Or.inl (List.mem_filterMap.mp inside)
  · push Not at sent
    rw [Dict.get?_setAll_of_not_mem sent] at found
    exact Or.inr ⟨sent, found⟩

theorem storedFor_kept {docId : String} {chunk : Chunk}
    (stored : StoredFor indexer { points := points } docId chunk)
    (unmet : ∀ other ∈ chunks, indexer.uuid5 other.hash ≠ indexer.uuid5 chunk.hash) :
    StoredFor indexer { points := points.setAll (chunks.filterMap (chunkToPoint indexer)) }
      docId chunk := by
  obtain ⟨point, made, owner, found⟩ := stored
  refine ⟨point, made, owner, ?_⟩
  refine (Dict.get?_setAll_of_not_mem ?_ points).trans found
  intro other sent same
  obtain ⟨second, inside, madeToo⟩ := List.mem_filterMap.mp sent
  rw [chunkToPoint_id madeToo, chunkToPoint_id made] at same
  exact unmet second inside same

theorem CleanUpdate.storedFor (clean : CleanUpdate indexer points id chunks)
    (sourced : SourcedBy id chunks) {chunk : Chunk} (inside : chunk ∈ chunks) :
    StoredFor indexer { points := points.setAll (chunks.filterMap (chunkToPoint indexer)) }
      id chunk := by
  obtain ⟨point, made⟩ := chunkToPoint_of_nonempty indexer (clean.own chunk inside).1
    (clean.own chunk inside).2
  refine ⟨point, made, (chunkToPoint_payload made).2.2.1.trans (sourced chunk inside), ?_⟩
  refine Dict.get?_setAll_of_agree (List.mem_filterMap.mpr ⟨chunk, inside, made⟩) ?_ points
  intro other sent
  obtain ⟨second, insideToo, madeToo⟩ := List.mem_filterMap.mp sent
  have meets : indexer.uuid5 second.hash = indexer.uuid5 chunk.hash := by
    rw [← chunkToPoint_id made, ← chunkToPoint_id madeToo]
  have equal := clean.distinct second insideToo chunk inside meets
  rw [madeToo, made] at equal
  exact congrArg Prod.snd (Option.some.inj equal)

theorem CleanUpdate.exact_after (clean : CleanUpdate indexer points id chunks)
    (before : Exact indexer { points := points } last.get?) (sourced : SourcedBy id chunks) :
    Exact indexer { points := points.setAll (chunks.filterMap (chunkToPoint indexer)) }
      (last.set id chunks).get? := by
  intro docId own called
  rw [Dict.get?_set] at called
  split at called
  · rename_i same
    subst same
    obtain rfl := Option.some.inj called
    refine ⟨fun chunk inside => clean.storedFor sourced inside, ?_⟩
    intro pointId stored found owner
    rcases get?_setAll_cases found with sent | ⟨unsent, old⟩
    · exact sent
    · obtain ⟨chunk, inside, met⟩ := clean.replaced pointId stored old owner
      obtain ⟨point, made⟩ := chunkToPoint_of_nonempty indexer (clean.own chunk inside).1
        (clean.own chunk inside).2
      have clash := unsent point (List.mem_filterMap.mpr ⟨chunk, inside, made⟩)
      exact absurd ((chunkToPoint_id made).trans met) clash
  · rename_i differs
    obtain ⟨held, complete⟩ := before docId own called
    constructor
    · intro chunk inside
      refine storedFor_kept (held chunk inside) ?_
      intro other member meets
      obtain ⟨point, made, owner, found⟩ := held chunk inside
      rw [chunkToPoint_id made, ← meets] at found
      exact differs (owner.symm.trans (clean.unshared other member point.2 found))
    · intro pointId stored found owner
      rcases get?_setAll_cases found with ⟨chunk, inside, made⟩ | ⟨-, old⟩
      · have source := (chunkToPoint_payload made).2.2.1.trans (sourced chunk inside)
        exact absurd (owner.symm.trans source) differs
      · exact complete pointId stored old owner

theorem cleanUpdate_of_exact
    (before : Exact indexer { points := points } last.get?)
    (owned : ∀ pointId stored, points.get? pointId = some stored →
      ∃ chunks, last.get? stored.payload.sourceId = some chunks)
    (after : Exact indexer { points := points.setAll (chunks.filterMap (chunkToPoint indexer)) }
      (last.set id chunks).get?) :
    CleanUpdate indexer points id chunks := by
  obtain ⟨held, complete⟩ := after id chunks (Dict.get?_set_self last id chunks)
  constructor
  · intro chunk inside
    obtain ⟨point, made, -⟩ := held chunk inside
    exact nonempty_of_chunkToPoint made
  · intro first inside second insideToo meets
    exact (point_eq_of_stored (held first inside) (held second insideToo) meets).1
  · intro chunk inside stored found
    by_contra other
    obtain ⟨own, called⟩ := owned _ stored found
    obtain ⟨old, member, made⟩ := (before _ own called).2 _ stored found rfl
    have still := (after stored.payload.sourceId own (by
      rw [Dict.get?_set_of_ne other]
      exact called)).1 old member
    have meets : indexer.uuid5 old.hash = indexer.uuid5 chunk.hash := (chunkToPoint_id made).symm
    exact other (point_eq_of_stored still (held chunk inside) meets).2
  · intro pointId stored found owner
    by_contra unmet
    push Not at unmet
    have kept : (points.setAll (chunks.filterMap (chunkToPoint indexer))).get? pointId =
        some stored := by
      refine (Dict.get?_setAll_of_not_mem ?_ points).trans found
      intro point sent same
      obtain ⟨chunk, inside, made⟩ := List.mem_filterMap.mp sent
      exact unmet chunk inside ((chunkToPoint_id made).symm.trans same)
    obtain ⟨chunk, inside, made⟩ := complete pointId stored kept owner
    exact unmet chunk inside (chunkToPoint_id made).symm

theorem exact_deletion_iff {named : String} (nonempty : named ≠ "")
    (before : Exact indexer { points := points } last.get?)
    (owned : ∀ pointId stored, points.get? pointId = some stored →
      ∃ chunks, last.get? stored.payload.sourceId = some chunks) :
    Exact indexer { points := deleteBySourceId indexer named points.entries.length points }
        (last.set id []).get? ↔ CleanDeletion points id named := by
  have left : ∀ pointId stored,
      (deleteBySourceId indexer named points.entries.length points).get? pointId = some stored ↔
        points.get? pointId = some stored ∧ stored.payload.sourceId ≠ named := by
    intro pointId stored
    rw [get?_deleteBySourceId nonempty]
    simp [Option.filter_eq_some_iff]
  constructor
  · intro after
    by_cases same : id = named
    · exact Or.inl same
    · right
      intro pointId stored found
      constructor
      · intro owner
        have still := (left pointId stored).mpr ⟨found, fun other => same (owner.symm.trans other)⟩
        obtain ⟨chunk, impossible, -⟩ :=
          (after id [] (Dict.get?_set_self last id [])).2 pointId stored still owner
        cases impossible
      · intro owner
        obtain ⟨own, called⟩ := owned pointId stored found
        obtain ⟨chunk, inside, made⟩ := (before _ own called).2 pointId stored found rfl
        have other : stored.payload.sourceId ≠ id := fun equal => same (equal.symm.trans owner)
        have calledAfter : (last.set id []).get? stored.payload.sourceId = some own := by
          rw [Dict.get?_set_of_ne other]
          exact called
        obtain ⟨point, madeToo, -, held⟩ := (after _ own calledAfter).1 chunk inside
        obtain rfl := Option.some.inj (made.symm.trans madeToo)
        exact ((left pointId stored).mp held).2 owner
  · intro clean docId own called
    rw [Dict.get?_set] at called
    split at called
    · rename_i same
      subst same
      obtain rfl := Option.some.inj called
      refine ⟨by simp, ?_⟩
      intro pointId stored found owner
      obtain ⟨there, other⟩ := (left pointId stored).mp found
      rcases clean with same | none
      · exact absurd (owner.trans same) other
      · exact absurd owner (none pointId stored there).1
    · rename_i differs
      obtain ⟨held, complete⟩ := before docId own called
      constructor
      · intro chunk inside
        obtain ⟨point, made, owner, found⟩ := held chunk inside
        refine ⟨point, made, owner, (left point.1 point.2).mpr ⟨found, ?_⟩⟩
        intro hit
        rcases clean with same | none
        · exact differs (owner.symm.trans (hit.trans same.symm))
        · exact (none point.1 point.2 found).2 hit
      · intro pointId stored found owner
        exact complete pointId stored ((left pointId stored).mp found).1 owner

theorem outcome_named {named : String} (deletes : arrival.outcome processor = .deletes id named) :
    named ≠ "" := by
  unfold Arrival.outcome at deletes
  dsimp only at deletes
  split at deletes
  · split at deletes
    · cases deletes
    · obtain ⟨-, rfl⟩ := Outcome.deletes.inj deletes
      exact normalizeDocumentId_nonempty _ _
  · split at deletes
    · cases deletes
    · split at deletes <;> cases deletes
    · cases deletes

structure Index.Mirrors (processor : EventProcessor Vector) (index : Index Vector) : Prop where
  exact : index.Exact processor
  owned : index.Owned

theorem owned_step {next : Index Vector} (owned : index.Owned)
    (stepped : logStep processor index arrival = some next) : next.Owned := by
  obtain rfl := Option.some.inj stepped
  intro pointId stored found
  dsimp only at found ⊢
  rw [processEvent_outcome] at found
  cases outcome : arrival.outcome processor with
  | nothing =>
      rw [outcome] at found
      exact owned pointId stored found
  | updates id chunks =>
      rw [outcome] at found
      simp only [Outcome.record, Dict.get?_set]
      split
      · exact ⟨chunks, rfl⟩
      · rename_i other
        rcases get?_setAll_cases found with ⟨chunk, inside, made⟩ | ⟨-, old⟩
        · have source := (chunkToPoint_payload made).2.2.1.trans
            (outcome_sourced outcome chunk inside)
          exact absurd source other
        · exact owned pointId stored old
  | deletes id named =>
      rw [outcome] at found
      simp only [Outcome.record, Dict.get?_set]
      split
      · exact ⟨[], rfl⟩
      · simp only [Outcome.apply, get?_deleteBySourceId (outcome_named outcome),
          Option.filter_eq_some_iff] at found
        exact owned pointId stored found.1

theorem mirrors_step_iff {next : Index Vector} (mirrors : index.Mirrors processor)
    (stepped : logStep processor index arrival = some next) :
    next.Mirrors processor ↔ arrival.Clean processor index := by
  have owned := owned_step mirrors.owned stepped
  have exactly : next.Exact processor ↔ arrival.Clean processor index := by
    obtain rfl := Option.some.inj stepped
    unfold Index.Exact Arrival.Clean
    dsimp only
    rw [processEvent_outcome]
    cases outcome : arrival.outcome processor with
    | nothing => exact ⟨fun _ => trivial, fun _ => mirrors.exact⟩
    | updates id chunks =>
        exact ⟨cleanUpdate_of_exact mirrors.exact mirrors.owned,
          fun clean => clean.exact_after mirrors.exact (outcome_sourced outcome)⟩
    | deletes id named =>
        exact exact_deletion_iff (outcome_named outcome) mirrors.exact mirrors.owned
  exact ⟨fun after => exactly.mp after.exact, fun clean => ⟨exactly.mpr clean, owned⟩⟩

/-- The points of all documents are exact throughout a run from nothing exactly if every event of
it is clean. -/
theorem log_exact_iff_clean (processor : EventProcessor Vector) {last : Index Vector}
    {events : List (Event (Index Vector) Arrival)}
    (run : Run (logStep processor) {} events last) :
    (∀ event ∈ events, event.after.Exact processor) ↔
      ∀ event ∈ events, event.action.Clean processor event.before := by
  have start : ({} : Index Vector).Mirrors processor := by
    constructor
    · intro docId chunks called
      cases called
    · intro pointId stored found
      cases found
  have mirrored := run.forall_after_iff (Index.Mirrors processor)
    (fun event => event.action.Clean processor event.before) start
    (fun _ _ _ mirrors stepped => mirrors_step_iff mirrors stepped)
  have owned : ∀ event ∈ events, event.after.Owned := by
    intro event member
    obtain ⟨stepped, before⟩ := run.invariant_before_always (fun index => index.Owned) start.owned
      (fun _ _ _ known stepped => owned_step known stepped) member
    exact owned_step before stepped
  rw [← mirrored]
  constructor
  · intro exact_ event member
    exact ⟨exact_ event member, owned event member⟩
  · intro all event member
    exact (all event member).exact

end Outcomes

def plainProcessor : EventProcessor Unit where
  chunker := { estimateTokens := String.length }
  libraries :=
    { sha256 := fun text => text, markdown := some (fun text => text)
      markdownify := some (fun html => html), beautifulSoup := some (fun _ => []) }
  enricher :=
    { entities := fun _ => [], keywords := fun _ => [], summary := fun _ => ""
      hypotheticalQuestions := fun _ => [] }
  indexer := plainIndexer

def pageUpdated (content : String) : Arrival where
  event := ⟨"confluence", "page_updated", "1", .read { bodyStorage := some content } none [] {}⟩

def pageRemoved : Arrival where
  event := ⟨"confluence", "page_removed", "1", .malformed⟩

def logEvents (arrivals : List Arrival) : List (Event (Index Unit) Arrival) :=
  (record (logStep plainProcessor) {} arrivals).getD []

theorem logEvents_run (arrivals : List Arrival)
    (recorded : (record (logStep plainProcessor) {} arrivals).isSome = true) :
    Run (logStep plainProcessor) {} (logEvents arrivals) (final {} (logEvents arrivals)) :=
  run_of_isSome recorded

theorem clean_first {processor : EventProcessor Vector} {arrival : Arrival} {id : String}
    {chunk : Chunk} (updates : arrival.outcome processor = .updates id [chunk])
    (own : chunk.hash ≠ "" ∧ chunk.text ≠ "") : arrival.Clean processor {} := by
  unfold Arrival.Clean
  rw [updates]
  constructor
  · simpa using own
  · simp
  · intro _ _ stored found
    cases found
  · intro _ stored found
    cases found

/-- A page that is written once and removed. -/
theorem log_exact_write_and_remove :
    ∃ last events, Run (logStep plainProcessor) {} events last ∧ events.length = 2 ∧
      ∀ event ∈ events, event.after.Exact plainProcessor := by
  have run := logEvents_run [pageUpdated "one", pageRemoved] (by decide +kernel)
  refine ⟨_, _, run, rfl, (log_exact_iff_clean plainProcessor run).mpr ?_⟩
  intro event member
  rcases List.mem_cons.mp member with rfl | later
  · have shape : ∃ chunk, (pageUpdated "one").outcome plainProcessor =
        .updates "confluence_1" [chunk] ∧ chunk.hash ≠ "" ∧ chunk.text ≠ "" :=
      ⟨_, rfl, by decide +kernel, by decide +kernel⟩
    obtain ⟨chunk, updates, own⟩ := shape
    exact clean_first updates own
  · obtain rfl := List.mem_singleton.mp later
    exact Or.inl (by decide +kernel)

/-- After the second version the chunk of the first is still a point of the page. -/
theorem log_keeps_stale_chunk :
    ¬ ∀ last events, Run (logStep plainProcessor) {} events last →
      ∀ event ∈ events, event.after.Exact plainProcessor := by
  intro exactly
  have after := exactly _ _ (logEvents_run [pageUpdated "one", pageUpdated "two"]
    (by decide +kernel))
  have shape : ∃ first second, logEvents [pageUpdated "one", pageUpdated "two"] = [first, second] ∧
      ∃ chunks, second.after.last.get? "confluence_1" = some chunks ∧
        second.after.points.entries.any (fun point =>
          point.2.payload.sourceId = "confluence_1" &&
            chunks.all (fun chunk => chunkToPoint plainIndexer chunk ≠ some point)) = true :=
    ⟨_, _, rfl, _, rfl, by decide +kernel⟩
  obtain ⟨first, second, events, chunks, called, stale⟩ := shape
  obtain ⟨⟨pointId, stored⟩, member, left⟩ := List.any_eq_true.mp stale
  simp only [Bool.and_eq_true, decide_eq_true_eq, List.all_eq_true] at left
  have found := (Dict.mem_entries_iff _ _ _).mp member
  obtain ⟨chunk, inside, made⟩ := (after second (by rw [events]; simp) "confluence_1" chunks
    called).2 pointId stored found left.1
  exact left.2 chunk inside made

end RagSystem.Etl
