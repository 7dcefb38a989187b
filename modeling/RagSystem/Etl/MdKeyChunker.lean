import Mathlib.Data.List.Nodup
import RagSystem.Data.Grouping
import RagSystem.Etl.SemanticChunker

/-! `MDKeyChunker` (`etl/chunker/semantic_chunker.py`): what happens to the access values of a
document between the base chunker and the chunks that `run_chunking` collects. -/

namespace RagSystem.Etl

/-- The answer of the small language model; an empty value is a missing one. -/
structure SlmData where
  summary : String := ""
  keywords : List String := []
  hypotheticalQuestions : List String := []
  deriving DecidableEq, Repr

/-- What is extracted from a chunk's text, and the semantic key the enrichment gives the chunk. -/
structure MetadataEnricher where
  entities : String → List String
  keywords : String → List String
  summary : String → String
  hypotheticalQuestions : String → List String
  slm : Option (String → SlmData) := none
  semanticKey : Chunk → String := fun _ => ""

/-- An empty value takes the default, as `a or b` does. -/
def orElse {α : Type} [DecidableEq α] (empty value fallback : α) : α :=
  if value = empty then fallback else value

def applySlmEnrichment (data : SlmData) (chunk : Chunk) : Chunk :=
  { chunk with
    summary := orElse "" data.summary chunk.summary
    keywords := orElse [] data.keywords chunk.keywords
    hypotheticalQuestions := orElse [] data.hypotheticalQuestions chunk.hypotheticalQuestions }

def enrichChunk (enricher : Option MetadataEnricher) (metadata : SourceMetadata) (chunk : Chunk) :
    Chunk :=
  let cascaded :=
    { chunk with
      sourceType := metadata.sourceType.getD ""
      sourceId := metadata.sourceId.getD ""
      version := metadata.version.getD ""
      docTitle := metadata.docTitle.getD ""
      accessLevel := metadata.accessLevel.getD chunk.accessLevel
      allowedGroups := orElse [] (metadata.allowedGroups.getD []) chunk.allowedGroups
      allowedUsers := orElse [] (metadata.allowedUsers.getD []) chunk.allowedUsers }
  match enricher with
  | none => cascaded
  | some enricher =>
      let enriched :=
        { cascaded with
          entities := enricher.entities chunk.text
          keywords := enricher.keywords chunk.text
          summary := enricher.summary chunk.text
          hypotheticalQuestions := enricher.hypotheticalQuestions chunk.text
          semanticKey := enricher.semanticKey cascaded }
      match enricher.slm with
      | none => enriched
      | some answer => applySlmEnrichment (answer chunk.text) enriched

/-- `_apply_rolling_key_propagation`: a chunk without a key inherits from the last one with a key. -/
def propagateFrom (libraries : Libraries) (previous : ParentMetadata) : List Chunk → List Chunk
  | [] => []
  | chunk :: rest =>
      let parent := if chunk.semanticKey = "" then previous else chunk.parentMetadata
      let next := if chunk.semanticKey = "" then previous
        else .inherited chunk.title chunk.keywords chunk.entities
      let metaPrefix := "Context: " ++ chunk.docTitle ++
        (if parent.title = "" then "" else " > " ++ parent.title)
      let text := "[" ++ metaPrefix ++ "]\n" ++ chunk.text
      { chunk with
        originalText := chunk.text
        enriched := true
        parentMetadata := parent
        text := text
        hash := libraries.sha256 text } :: propagateFrom libraries next rest

def packingKey (chunk : Chunk) : String := orElse "" chunk.semanticKey ("_unique_" ++ chunk.hash)

def groupByKey (chunks : List Chunk) : Dict String (List Chunk) :=
  chunks.foldl (fun groups chunk =>
    groups.set (packingKey chunk) ((groups.get? (packingKey chunk)).getD [] ++ [chunk])) ∅

/-- One chunk for a group of several. The source collects entities and keywords in sets, whose order
is not specified; here it is the one of first occurrence. -/
def packGroup (libraries : Libraries) (key : String) (first : Chunk) (group : List Chunk) : Chunk :=
  let text := "\n\n---\n\n".intercalate (group.map Chunk.text)
  { text := text
    hash := libraries.sha256 text
    title := first.title
    summary := first.summary
    keywords := (group.flatMap Chunk.keywords).eraseDups
    entities := (group.flatMap Chunk.entities).eraseDups
    hypotheticalQuestions := (group.flatMap Chunk.hypotheticalQuestions).take 5
    semanticKey := key
    sourceType := first.sourceType
    sourceId := first.sourceId
    version := first.version
    docTitle := first.docTitle
    parentMetadata := first.parentMetadata
    position := first.position }

def packBySemanticKey (libraries : Libraries) (chunks : List Chunk) : List Chunk :=
  (groupByKey chunks).entries.filterMap fun entry =>
    match entry.2 with
    | [] => none
    | [single] => some single
    | first :: second :: rest =>
        some (packGroup libraries entry.1 first (first :: second :: rest))

structure Document where
  content : String
  contentType : String
  metadata : SourceMetadata
  deriving DecidableEq, Repr

def Document.carrying (document : Document) (acl : Acl) : Document :=
  { document with metadata := document.metadata.carrying acl }

variable (chunker : SemanticChunker) (libraries : Libraries) (enricher : Option MetadataEnricher)
  (document : Document)

def doChunking : Option (List Chunk) :=
  let content := prependContext document.content document.metadata
  if document.contentType = "markdown" then
    chunkMarkdown chunker libraries content document.metadata
  else chunkHtml chunker libraries content document.metadata

def unpacked : Option (List Chunk) :=
  (doChunking chunker libraries document).map fun chunks =>
    propagateFrom libraries .empty (chunks.map (enrichChunk enricher document.metadata))

def processDocument : Option (List Chunk) :=
  (unpacked chunker libraries enricher document).map (packBySemanticKey libraries)

/-- The pages that `run_chunking` also indexes by heading and as a whole. -/
def Document.isConfluencePage : Bool :=
  document.metadata.sourceType = some "confluence" ∧ document.contentType = "html"

/-- The chunks that `run_chunking` collects for a document; one that raises has none. -/
def emitted : List Chunk :=
  match processDocument chunker libraries enricher document with
  | none => []
  | some body =>
      if document.isConfluencePage then
        let mdText := (libraries.markdownify.map (· document.content)).getD document.content
        body ++ createHeadingChunks chunker libraries document.content document.metadata ++
          [createDocumentChunk chunker libraries mdText document.metadata]
      else body

variable {chunker libraries enricher document} {metadata : SourceMetadata} {acl : Acl}

theorem orElse_same {α : Type} [DecidableEq α] (empty value : α) :
    orElse empty value value = value := by
  simp [orElse]

theorem enrichChunk_acl {chunk : Chunk} (carried : chunk.acl = metadata.acl) :
    (enrichChunk enricher metadata chunk).acl = metadata.acl := by
  have level : metadata.accessLevel.getD chunk.accessLevel = metadata.acl.accessLevel := by
    have own := congrArg Acl.accessLevel carried
    cases given : metadata.accessLevel with
    | none => simpa [SourceMetadata.acl, Chunk.acl, given] using own
    | some level => simp [SourceMetadata.acl, given]
  have groups : orElse [] (metadata.allowedGroups.getD []) chunk.allowedGroups =
      metadata.acl.allowedGroups := by
    have own : chunk.allowedGroups = metadata.allowedGroups.getD [] :=
      congrArg Acl.allowedGroups carried
    rw [own, orElse_same]
    rfl
  have users : orElse [] (metadata.allowedUsers.getD []) chunk.allowedUsers =
      metadata.acl.allowedUsers := by
    have own : chunk.allowedUsers = metadata.allowedUsers.getD [] :=
      congrArg Acl.allowedUsers carried
    rw [own, orElse_same]
    rfl
  cases enricher with
  | none => simp [enrichChunk, Chunk.acl, level, groups, users]
  | some enricher =>
      cases answer : enricher.slm with
      | none => simp [enrichChunk, Chunk.acl, level, groups, users, answer]
      | some data =>
          simp [enrichChunk, Chunk.acl, level, groups, users, answer, applySlmEnrichment]

theorem propagateFrom_carry (previous : ParentMetadata) (chunks : List Chunk)
    (carried : Carry acl chunks) : Carry acl (propagateFrom libraries previous chunks) := by
  induction chunks generalizing previous with
  | nil => exact carry_nil
  | cons chunk rest ih =>
      obtain ⟨head, tail⟩ := carry_cons.mp carried
      exact carry_cons.mpr ⟨head, ih _ tail⟩

theorem unpacked_carry {chunks : List Chunk}
    (prepared : unpacked chunker libraries enricher document = some chunks) :
    Carry document.metadata.acl chunks := by
  obtain ⟨base, chunked, rfl⟩ := Option.map_eq_some_iff.mp prepared
  apply propagateFrom_carry
  have carried : Carry document.metadata.acl base := by
    unfold doChunking at chunked
    split at chunked
    · exact chunkMarkdown_carry chunked
    · exact chunkHtml_carry chunked
  intro chunk member
  obtain ⟨original, inside, rfl⟩ := List.mem_map.mp member
  exact enrichChunk_acl (carried original inside)

theorem get?_groupByKey (chunks : List Chunk) (key : String) :
    (groupByKey chunks).get? key =
      if key ∈ chunks.map packingKey then some (chunks.filter (fun chunk => packingKey chunk = key))
      else none := by
  have grouped : groupByKey chunks = groupBy packingKey chunks := rfl
  rw [grouped, get?_groupBy, groupOf]

theorem mem_packBySemanticKey {chunks : List Chunk} {packed : Chunk} :
    packed ∈ packBySemanticKey libraries chunks ↔
      ∃ key, chunks.filter (fun chunk => packingKey chunk = key) = [packed] ∨
        ∃ first second rest,
          chunks.filter (fun chunk => packingKey chunk = key) = first :: second :: rest ∧
            packGroup libraries key first (first :: second :: rest) = packed := by
  have present {key : String} {first : Chunk} {rest : List Chunk}
      (group : chunks.filter (fun chunk => packingKey chunk = key) = first :: rest) :
      (key, first :: rest) ∈ (groupByKey chunks).entries := by
    have member : first ∈ chunks.filter (fun chunk => packingKey chunk = key) := by
      rw [group]
      exact List.mem_cons_self
    obtain ⟨inside, same⟩ := List.mem_filter.mp member
    rw [Dict.mem_entries_iff, get?_groupByKey, if_pos, group]
    exact List.mem_map.mpr ⟨first, inside, by simpa using same⟩
  constructor
  · intro member
    obtain ⟨⟨key, group⟩, inside, selected⟩ := List.mem_filterMap.mp member
    have found := (Dict.mem_entries_iff _ key group).mp inside
    rw [get?_groupByKey] at found
    split at found
    · have filtered := Option.some.inj found
      refine ⟨key, ?_⟩
      cases group with
      | nil => simp at selected
      | cons first rest =>
          cases rest with
          | nil =>
              obtain rfl : first = packed := by simpa using selected
              exact Or.inl filtered
          | cons second rest =>
              exact Or.inr ⟨first, second, rest, filtered, by simpa using selected⟩
    · simp at found
  · intro given
    rcases given with ⟨key, shape⟩
    rcases shape with single | ⟨first, second, rest, group, rfl⟩
    · exact List.mem_filterMap.mpr ⟨_, present single, rfl⟩
    · exact List.mem_filterMap.mpr ⟨_, present group, rfl⟩

def DistinctKeys (chunks : List Chunk) : Prop := (chunks.map packingKey).Nodup

theorem distinctKeys_iff {chunks : List Chunk} :
    DistinctKeys chunks ↔
      ∀ key, (chunks.filter (fun chunk => packingKey chunk = key)).length ≤ 1 := by
  have counted (key : String) : (chunks.map packingKey).count key =
      (chunks.filter (fun chunk => packingKey chunk = key)).length := by
    rw [List.count_eq_length_filter, List.filter_map, List.length_map]
    congr 1
  simp [DistinctKeys, List.nodup_iff_count_le_one, counted]

theorem packBySemanticKey_carry (libraries : Libraries) {chunks : List Chunk}
    (carried : Carry acl chunks) :
    Carry acl (packBySemanticKey libraries chunks) ↔ acl = Acl.default ∨ DistinctKeys chunks := by
  constructor
  · intro packed
    by_contra neither
    push Not at neither
    obtain ⟨other, repeated⟩ := neither
    rw [distinctKeys_iff] at repeated
    push Not at repeated
    obtain ⟨key, several⟩ := repeated
    obtain ⟨first, second, rest, group⟩ : ∃ first second rest,
        chunks.filter (fun chunk => packingKey chunk = key) = first :: second :: rest := by
      match shape : chunks.filter (fun chunk => packingKey chunk = key) with
      | [] => simp [shape] at several
      | [_] => simp [shape] at several
      | first :: second :: rest => exact ⟨first, second, rest, rfl⟩
    have made : packGroup libraries key first (first :: second :: rest) ∈
        packBySemanticKey libraries chunks :=
      mem_packBySemanticKey.mpr ⟨key, Or.inr ⟨first, second, rest, group, rfl⟩⟩
    exact other (packed _ made).symm
  · intro condition chunk member
    obtain ⟨key, single | ⟨first, second, rest, group, rfl⟩⟩ := mem_packBySemanticKey.mp member
    · have inside : chunk ∈ chunks.filter (fun chunk => packingKey chunk = key) := by simp [single]
      exact carried chunk (List.mem_filter.mp inside).1
    · rcases condition with rfl | distinct
      · rfl
      · have few := distinctKeys_iff.mp distinct key
        simp [group] at few

theorem emitted_carry :
    Carry document.metadata.acl (emitted chunker libraries enricher document) ↔
      document.metadata.acl = Acl.default ∨
        ∀ chunks, unpacked chunker libraries enricher document = some chunks →
          document.isConfluencePage = false ∧ DistinctKeys chunks := by
  cases prepared : unpacked chunker libraries enricher document with
  | none => simp [emitted, processDocument, prepared, carry_nil]
  | some chunks =>
      have packing := packBySemanticKey_carry libraries (unpacked_carry prepared)
      simp only [emitted, processDocument, prepared, Option.map_some]
      cases page : document.isConfluencePage with
      | false => simpa using packing
      | true =>
          simp only [if_true, carry_append, packing]
          constructor
          · intro both
            exact Or.inl (carry_cons.mp both.2).1.symm
          · intro condition
            have plain : document.metadata.acl = Acl.default := by simpa using condition
            rw [plain]
            exact ⟨⟨Or.inl rfl, createHeadingChunks_carry _⟩, carry_cons.mpr ⟨rfl, carry_nil⟩⟩

/-- All chunks of a document carry its access values exactly when these are the defaults, or when
the document is not a Confluence page and none of its chunks are packed together. -/
theorem emitted_carry_iff (chunker : SemanticChunker) (libraries : Libraries)
    (enricher : Option MetadataEnricher) (document : Document) (acl : Acl) :
    Carry acl (emitted chunker libraries enricher (document.carrying acl)) ↔
      acl = Acl.default ∨
        ∀ chunks, unpacked chunker libraries enricher (document.carrying acl) = some chunks →
          document.isConfluencePage = false ∧ DistinctKeys chunks :=
  emitted_carry

/-- A confidential page: its document chunk is public. -/
theorem document_chunk_is_public :
    ¬ ∀ (chunker : SemanticChunker) (libraries : Libraries) (enricher : Option MetadataEnricher)
      (document : Document) (acl : Acl),
      Carry acl (emitted chunker libraries enricher (document.carrying acl)) := by
  intro carried
  let chunker : SemanticChunker := { estimateTokens := String.length }
  let libraries : Libraries :=
    { sha256 := fun text => text, markdown := some (fun text => text)
      markdownify := some (fun html => html), beautifulSoup := some (fun _ => []) }
  let page : Document :=
    { content := "salaries", contentType := "html"
      metadata := { sourceType := some "confluence", sourceId := some "confluence_1" } }
  let staff : Acl := ⟨"confidential", ["hr"], []⟩
  have whole := carried chunker libraries none page staff
  have levels : (emitted chunker libraries none (page.carrying staff)).map Chunk.accessLevel =
      ["confidential", "public"] := by decide +kernel
  have member : "public" ∈ (emitted chunker libraries none (page.carrying staff)).map
      Chunk.accessLevel := by simp [levels]
  obtain ⟨chunk, inside, level⟩ := List.mem_map.mp member
  have same := congrArg Acl.accessLevel (whole chunk inside)
  have differs : staff.accessLevel ≠ "public" := by decide
  exact differs (same.symm.trans level)

end RagSystem.Etl
