import RagSystem.Etl.Chunk
import RagSystem.Etl.MarkdownText

/-! `SemanticChunker` and `ContextualEnricher` (`etl/chunker/semantic_chunker.py`), and which access
values their chunks carry. -/

namespace RagSystem.Etl

open MarkdownText

/-- The dictionary handed down from the document; a missing key is `none`. -/
structure SourceMetadata where
  sourceType : Option String := none
  sourceId : Option String := none
  version : Option String := none
  docTitle : Option String := none
  sectionTitle : Option String := none
  accessLevel : Option String := none
  allowedGroups : Option (List String) := none
  allowedUsers : Option (List String) := none
  deriving DecidableEq, Repr

structure Acl where
  accessLevel : String
  allowedGroups : List String
  allowedUsers : List String
  deriving DecidableEq, Repr

def Acl.default : Acl := ⟨"public", [], []⟩

def Chunk.acl (chunk : Chunk) : Acl := ⟨chunk.accessLevel, chunk.allowedGroups, chunk.allowedUsers⟩

def SourceMetadata.carrying (metadata : SourceMetadata) (acl : Acl) : SourceMetadata :=
  { metadata with
    accessLevel := some acl.accessLevel
    allowedGroups := some acl.allowedGroups
    allowedUsers := some acl.allowedUsers }

def SourceMetadata.acl (metadata : SourceMetadata) : Acl :=
  ⟨metadata.accessLevel.getD "public", metadata.allowedGroups.getD [],
    metadata.allowedUsers.getD []⟩

/-- An `h1`, `h2` or `h3` element: its text, level and the anchor found for it. -/
structure Heading where
  text : String
  level : Nat
  anchorId : String
  deriving DecidableEq, Repr

/-- An element of the page, in the order of `soup.find_all`. -/
inductive Element
  | heading (heading : Heading)
  | block (text : String)
  deriving DecidableEq, Repr

/-- The libraries the chunker is built on; each may be missing. -/
structure Libraries where
  sha256 : String → String
  markdown : Option (String → String)
  markdownify : Option (String → String)
  beautifulSoup : Option (String → List Element)

/-- `estimateTokens` stands for the floating point estimate of `_estimate_tokens`. -/
structure SemanticChunker where
  maxTokens : Int := 1500
  overlapTokens : Int := 200
  minChunkTokens : Int := 100
  contextualEnrichment : Bool := true
  estimateTokens : String → Nat

variable (chunker : SemanticChunker) (libraries : Libraries)

/-- `_prepend_context`; only non-empty parts are named. -/
def prependContext (chunkText : String) (metadata : SourceMetadata) : String :=
  let part (label : String) (value : Option String) : List String :=
    if value.getD "" = "" then [] else [label ++ value.getD ""]
  let parts := part "Document: " metadata.docTitle ++ part "Section: " metadata.sectionTitle ++
    part "Source: " metadata.sourceType
  if parts = [] then chunkText else " | ".intercalate parts ++ "\n\n" ++ chunkText

def createChunk (text : String) (position : Nat) (metadata : SourceMetadata) (heading : String) :
    Chunk :=
  { text := text
    hash := libraries.sha256 text
    title := heading
    sourceType := metadata.sourceType.getD ""
    sourceId := metadata.sourceId.getD ""
    version := metadata.version.getD ""
    docTitle := metadata.docTitle.getD ""
    position := position
    tokensApprox := chunker.estimateTokens text
    accessLevel := metadata.accessLevel.getD "public"
    allowedGroups := metadata.allowedGroups.getD []
    allowedUsers := metadata.allowedUsers.getD [] }

/-- The overlap starts with the second chunk, and each chunk is cut from what precedes it then. -/
def overlapFrom (previous : String) : List Chunk → List Chunk
  | [] => []
  | chunk :: rest =>
      let count := (chunker.overlapTokens * 4).toNat
      let snippet := String.ofList (previous.toList.drop (previous.length - count))
      let text := if previous = "" then chunk.text
        else "[previous context: ..." ++ snippet ++ "]\n\n" ++ chunk.text
      let overlapped := if previous = "" then chunk
        else { chunk with
          text := text, hash := libraries.sha256 text, tokensApprox := chunker.estimateTokens text }
      overlapped :: overlapFrom text rest

def applyOverlap (chunks : List Chunk) : List Chunk :=
  if chunker.overlapTokens ≤ 0 ∨ chunks.length ≤ 1 then chunks
  else overlapFrom chunker libraries "" chunks

/-- `_merge_short_chunks`, with the chunk that later ones may still be merged into. -/
def mergeInto (buffer : Chunk) : List Chunk → List Chunk
  | [] => [buffer]
  | chunk :: rest =>
      if buffer.tokensApprox + chunk.tokensApprox ≤ chunker.maxTokens ∧
          (buffer.tokensApprox < chunker.minChunkTokens ∨
            chunk.tokensApprox < chunker.minChunkTokens) then
        let text := buffer.text ++ "\n\n" ++ chunk.text
        mergeInto
          { buffer with
            text := text
            tokensApprox := chunker.estimateTokens text
            hash := libraries.sha256 text
            keywords := buffer.keywords ++ chunk.keywords
            entities := buffer.entities ++ chunk.entities
            hypotheticalQuestions := buffer.hypotheticalQuestions ++ chunk.hypotheticalQuestions }
          rest
      else buffer :: mergeInto chunk rest

def mergeShortChunks : List Chunk → List Chunk
  | [] => []
  | chunk :: rest => mergeInto chunker libraries chunk rest

/-! ### Contextual enrichment -/

/-- `_find_section_for_chunk`; the section of a match reaches back to its hashes. -/
def findSectionForChunk (chunkText fullText : Text) : String :=
  match find chunkText fullText with
  | none => ""
  | some position =>
      match (headingMatches fullText).reverse.find? (fun found => found.start ≤ position) with
      | none => ""
      | some found => String.ofList found.heading

/-- The sentences that fit into what is left of the context, and the characters then used. -/
def takeSentences (limit : Nat) : Nat → List Text → List Text × Nat
  | used, [] => ([], used)
  | used, sentence :: rest =>
      if limit < used + sentence.length then ([], used)
      else if strip sentence = [] then takeSentences limit used rest
      else
        let (taken, final) := takeSentences limit (used + sentence.length) rest
        (strip sentence :: taken, final)

def extractSurroundingContext (chunkText fullText : Text) : String :=
  match find chunkText fullText with
  | none => ""
  | some position =>
      let stop := position + chunkText.length
      let before := strip (slice fullText (position - 300) position)
      let after := strip (slice fullText stop (stop + 300))
      let (nearest, used) := takeSentences 400 0 (splitSentences before).reverse
      let (following, _) := takeSentences 400 used (splitSentences after)
      " ".intercalate ((nearest.reverse ++ following).map String.ofList)

def buildContext (chunk : Chunk) (docTitle fullText : String) : String :=
  let chunkText := (if chunk.originalText = "" then chunk.text else chunk.originalText).toList
  let heading := findSectionForChunk chunkText fullText.toList
  let surrounding := extractSurroundingContext chunkText fullText.toList
  let part (label value : String) : List String := if value = "" then [] else [label ++ value]
  "\n".intercalate (part "Document: " docTitle ++ part "Section: " heading ++
    part "Context: " surrounding)

def enrichContext (docTitle fullText : String) (chunk : Chunk) : Chunk :=
  if chunk.originalText ≠ "" then chunk
  else
    let enriched := { chunk with originalText := chunk.text, enriched := true }
    let context := buildContext enriched docTitle fullText
    let text := context ++ "\n\n" ++ chunk.text
    if context = "" then enriched
    else { enriched with
      text := text, hash := libraries.sha256 text, tokensApprox := max 1 (text.length / 4) }

/-- `enrich_chunks`, as called when enrichment is on and the metadata is not empty. -/
def enrichChunks (chunks : List Chunk) (fullText : String) (metadata : SourceMetadata) : List Chunk :=
  if chunker.contextualEnrichment ∧ metadata ≠ {} then
    chunks.map (enrichContext libraries (metadata.docTitle.getD "") fullText)
  else chunks

/-! ### Chunking -/

structure Progress where
  chunks : List Chunk := []
  current : String := ""
  deriving DecidableEq, Repr

def Progress.flush (progress : Progress) (metadata : SourceMetadata) (heading : String) : Progress :=
  { progress with chunks := progress.chunks ++
      [createChunk chunker libraries progress.current progress.chunks.length metadata heading] }

def worded (text : String) : Bool := strip text.toList ≠ []

def markdownParagraph (metadata : SourceMetadata) (heading headingPrefix : String)
    (progress : Progress) (paragraph : String) : Progress :=
  if worded paragraph = false then progress
  else
    let candidate := if progress.current = "" then paragraph
      else progress.current ++ "\n\n" ++ paragraph
    if chunker.maxTokens < chunker.estimateTokens candidate ∧ progress.current ≠ "" then
      let flushed := if worded progress.current
        then progress.flush chunker libraries metadata heading else progress
      { flushed with current := headingPrefix ++ paragraph }
    else { progress with current := candidate }

def markdownSection (metadata : SourceMetadata) (chunks : List Chunk) (part : Section) :
    List Chunk :=
  let heading := String.ofList part.heading
  let headingPrefix := if heading = "root" then ""
    else String.ofList (List.replicate (max part.level 1) '#') ++ " " ++ heading ++ "\n"
  let progress := ((splitByParagraphs part.content).map String.ofList).foldl
    (markdownParagraph chunker libraries metadata heading headingPrefix) ⟨chunks, headingPrefix⟩
  if worded progress.current then (progress.flush chunker libraries metadata heading).chunks
  else progress.chunks

def chunkMarkdownWithOverlap (mdText : String) (metadata : SourceMetadata) : List Chunk :=
  let chunks := (splitMarkdownByHeadings mdText.toList).foldl
    (markdownSection chunker libraries metadata) []
  enrichChunks chunker libraries
    (mergeShortChunks chunker libraries (applyOverlap chunker libraries chunks)) mdText metadata

/-- `_split_by_headings` without a converter: the blocks under each heading, if there are any. -/
def elementSections (heading : String) (content : List String) : List Element → List (String × String)
  | [] => if content = [] then [] else [(heading, "\n".intercalate content)]
  | .heading next :: rest =>
      (if content = [] then [] else [(heading, "\n".intercalate content)]) ++
        elementSections next.text [] rest
  | .block text :: rest => elementSections heading (content ++ [text]) rest

/-- Unlike its sibling for Markdown, it starts a chunk with the heading line whatever the heading
is, and puts no blank line after that line. -/
def htmlParagraph (metadata : SourceMetadata) (heading : String) (progress : Progress)
    (paragraph : String) : Progress :=
  if worded paragraph = false then progress
  else if chunker.maxTokens < chunker.estimateTokens (progress.current ++ paragraph) ∧
      progress.current ≠ "" then
    { progress.flush chunker libraries metadata heading with
      current := "## " ++ heading ++ "\n" ++ paragraph }
  else if progress.current = "" then { progress with current := paragraph }
  else { progress with current := progress.current ++ "\n\n" ++ paragraph }

def htmlSection (metadata : SourceMetadata) (chunks : List Chunk) (part : String × String) :
    List Chunk :=
  let start := if part.1 = "root" then "" else "## " ++ part.1 ++ "\n"
  let progress := ((splitByParagraphs part.2.toList).map String.ofList).foldl
    (htmlParagraph chunker libraries metadata part.1) ⟨chunks, start⟩
  if progress.current = "" then progress.chunks
  else (progress.flush chunker libraries metadata part.1).chunks

/-- `none` is the error for a missing library. -/
def chunkHtml (html : String) (metadata : SourceMetadata) : Option (List Chunk) :=
  match libraries.markdownify with
  | some convert => some (chunkMarkdownWithOverlap chunker libraries (convert html) metadata)
  | none =>
      libraries.beautifulSoup.map fun elements =>
        let chunks := (elementSections "root" [] (elements html)).foldl
          (htmlSection chunker libraries metadata) []
        enrichChunks chunker libraries
          (mergeShortChunks chunker libraries (applyOverlap chunker libraries chunks)) html metadata

def chunkMarkdown (mdText : String) (metadata : SourceMetadata) : Option (List Chunk) :=
  libraries.markdown.bind fun convert => chunkHtml chunker libraries (convert mdText) metadata

/-! ### Heading and document chunks -/

def extractHeadings (html : String) : List Heading :=
  match libraries.beautifulSoup with
  | none => []
  | some elements =>
      (elements html).filterMap fun
        | .heading heading => if heading.text = "" then none else some heading
        | .block _ => none

inductive HeadingNode
  | node (heading : Heading) (children : List HeadingNode)

def HeadingNode.heading : HeadingNode → Heading
  | .node heading _ => heading

def HeadingNode.children : HeadingNode → List HeadingNode
  | .node _ children => children

-- The stack of the source holds the last node and its ancestors; the next heading goes under the
-- deepest of them with a smaller level.
mutual

def HeadingNode.insert (heading : Heading) : HeadingNode → HeadingNode
  | .node own children => .node own (insertHeading heading children)

def insertHeading (heading : Heading) : List HeadingNode → List HeadingNode
  | [] => [.node heading []]
  | [last] =>
      if last.heading.level < heading.level then [last.insert heading]
      else [last, .node heading []]
  | first :: second :: rest => first :: insertHeading heading (second :: rest)

end

def buildHeadingTree (headings : List Heading) : List HeadingNode :=
  headings.foldl (fun tree heading => insertHeading heading tree) []

-- Depth first, like the source.
mutual

def HeadingNode.find (text : String) (level : Nat) : HeadingNode → Option HeadingNode
  | .node own children =>
      if own.text = text ∧ own.level = level then some (.node own children)
      else findNodeInTree text level children

def findNodeInTree (text : String) (level : Nat) : List HeadingNode → Option HeadingNode
  | [] => none
  | first :: rest => (first.find text level).orElse (fun _ => findNodeInTree text level rest)

end

def headingChunk (metadata : SourceMetadata) (tree : List HeadingNode) (position : Nat)
    (heading : Heading) : Chunk :=
  let pageId := metadata.sourceId.getD ""
  let pageTitle := metadata.docTitle.getD ""
  let childHeadings := (((findNodeInTree heading.text heading.level tree).map
    HeadingNode.children).getD []).map (fun child => child.heading.text)
  let title := String.ofList (List.replicate heading.level '#') ++ " " ++ heading.text
  let text := "\n".intercalate ((if pageTitle = "" then [] else ["Document: " ++ pageTitle]) ++
    [title] ++
    (if childHeadings = [] then [] else ["Sections: " ++ ", ".intercalate childHeadings]))
  { text := text
    hash := libraries.sha256 text
    title := heading.text
    sourceType := "heading"
    sourceId := pageId
    docTitle := pageTitle
    position := position
    tokensApprox := chunker.estimateTokens text
    keywords := heading.text :: childHeadings
    parentMetadata := .heading heading.text heading.level heading.anchorId pageId pageTitle
      childHeadings
    originalText := heading.text }

def createHeadingChunks (html : String) (metadata : SourceMetadata) : List Chunk :=
  let headings := extractHeadings libraries html
  let tree := buildHeadingTree headings
  headings.zipIdx.map (fun numbered =>
    headingChunk chunker libraries metadata tree numbered.2 numbered.1)

def createDocumentChunk (markdownText : String) (metadata : SourceMetadata) : Chunk :=
  let pageTitle := metadata.docTitle.getD "Untitled"
  let pageId := metadata.sourceId.getD ""
  let firstLine := String.ofList (markdownText.toList.takeWhile (· ≠ '\n'))
  let cleanText := strip (withoutHeadingMarks markdownText.toList)
  let preview := String.ofList (cleanText.take 500) ++ (if 500 < cleanText.length then "..." else "")
  let summaryText := "# " ++ pageTitle ++ "\n\n" ++ preview
  { text := summaryText
    hash := libraries.sha256 summaryText
    title := pageTitle
    summary := preview
    sourceType := "document"
    sourceId := pageId
    docTitle := pageTitle
    tokensApprox := chunker.estimateTokens summaryText
    keywords := [pageTitle]
    parentMetadata := .document pageId pageTitle firstLine }

/-! ### Access values -/

variable {chunker libraries} {metadata : SourceMetadata} {acl : Acl}

def Carry (acl : Acl) (chunks : List Chunk) : Prop := ∀ chunk ∈ chunks, chunk.acl = acl

theorem carry_nil : Carry acl [] := by
  intro chunk member
  cases member

theorem carry_cons {chunk : Chunk} {chunks : List Chunk} :
    Carry acl (chunk :: chunks) ↔ chunk.acl = acl ∧ Carry acl chunks := by
  simp [Carry]

theorem carry_append {first second : List Chunk} :
    Carry acl (first ++ second) ↔ Carry acl first ∧ Carry acl second := by
  simp only [Carry, List.mem_append, or_imp, forall_and]

theorem createChunk_acl (text : String) (position : Nat) (heading : String) :
    (createChunk chunker libraries text position metadata heading).acl = metadata.acl := rfl

theorem overlapFrom_carry (previous : String) (chunks : List Chunk) (carried : Carry acl chunks) :
    Carry acl (overlapFrom chunker libraries previous chunks) := by
  induction chunks generalizing previous with
  | nil => exact carry_nil
  | cons chunk rest ih =>
      obtain ⟨head, tail⟩ := carry_cons.mp carried
      apply carry_cons.mpr
      refine ⟨?_, ih _ tail⟩
      split
      · exact head
      · exact head

theorem applyOverlap_carry {chunks : List Chunk} (carried : Carry acl chunks) :
    Carry acl (applyOverlap chunker libraries chunks) := by
  unfold applyOverlap
  split
  · exact carried
  · exact overlapFrom_carry "" chunks carried

theorem mergeInto_carry (buffer : Chunk) (chunks : List Chunk) (held : buffer.acl = acl)
    (carried : Carry acl chunks) : Carry acl (mergeInto chunker libraries buffer chunks) := by
  induction chunks generalizing buffer with
  | nil => exact carry_cons.mpr ⟨held, carry_nil⟩
  | cons chunk rest ih =>
      obtain ⟨head, tail⟩ := carry_cons.mp carried
      unfold mergeInto
      split
      · exact ih _ held tail
      · exact carry_cons.mpr ⟨held, ih chunk head tail⟩

theorem mergeShortChunks_carry {chunks : List Chunk} (carried : Carry acl chunks) :
    Carry acl (mergeShortChunks chunker libraries chunks) := by
  cases chunks with
  | nil => exact carry_nil
  | cons chunk rest =>
      obtain ⟨head, tail⟩ := carry_cons.mp carried
      exact mergeInto_carry chunk rest head tail

theorem enrichContext_acl (docTitle fullText : String) (chunk : Chunk) :
    (enrichContext libraries docTitle fullText chunk).acl = chunk.acl := by
  unfold enrichContext
  split
  · rfl
  · dsimp only
    split <;> rfl

theorem enrichChunks_carry {chunks : List Chunk} (fullText : String) (carried : Carry acl chunks) :
    Carry acl (enrichChunks chunker libraries chunks fullText metadata) := by
  unfold enrichChunks
  split
  · intro chunk member
    obtain ⟨original, inside, rfl⟩ := List.mem_map.mp member
    rw [enrichContext_acl]
    exact carried original inside
  · exact carried

theorem flush_carry {progress : Progress} {heading : String} (carried : Carry metadata.acl progress.chunks) :
    Carry metadata.acl (progress.flush chunker libraries metadata heading).chunks :=
  carry_append.mpr ⟨carried, carry_cons.mpr ⟨createChunk_acl _ _ _, carry_nil⟩⟩

theorem markdownParagraph_carry {heading headingPrefix : String} {progress : Progress}
    {paragraph : String} (carried : Carry metadata.acl progress.chunks) :
    Carry metadata.acl (markdownParagraph chunker libraries metadata heading headingPrefix
      progress paragraph).chunks := by
  have flushed : Carry metadata.acl (if worded progress.current
      then progress.flush chunker libraries metadata heading else progress).chunks := by
    split
    · exact flush_carry carried
    · exact carried
  unfold markdownParagraph
  dsimp only
  generalize (if progress.current = "" then paragraph
    else progress.current ++ "\n\n" ++ paragraph) = candidate
  by_cases full : chunker.maxTokens < chunker.estimateTokens candidate ∧ progress.current ≠ ""
  · rw [if_pos full]
    split
    · exact carried
    · exact flushed
  · rw [if_neg full]
    split <;> exact carried

theorem htmlParagraph_carry {heading : String} {progress : Progress} {paragraph : String}
    (carried : Carry metadata.acl progress.chunks) :
    Carry metadata.acl (htmlParagraph chunker libraries metadata heading progress
      paragraph).chunks := by
  unfold htmlParagraph
  split
  · exact carried
  · split
    · exact flush_carry carried
    · split <;> exact carried

theorem markdownSection_carry {chunks : List Chunk} (part : Section) (carried : Carry metadata.acl chunks) :
    Carry metadata.acl (markdownSection chunker libraries metadata chunks part) := by
  unfold markdownSection
  dsimp only
  generalize (if String.ofList part.heading = "root" then "" else _) = headingPrefix
  have loop : Carry metadata.acl (((splitByParagraphs part.content).map String.ofList).foldl
      (markdownParagraph chunker libraries metadata (String.ofList part.heading)
        headingPrefix) ⟨chunks, headingPrefix⟩).chunks := by
    apply List.foldlRecOn (motive := fun progress : Progress => Carry metadata.acl progress.chunks)
    · exact carried
    · exact fun progress held paragraph _ => markdownParagraph_carry held
  split
  · exact flush_carry loop
  · exact loop

theorem htmlSection_carry {chunks : List Chunk} (part : String × String)
    (carried : Carry metadata.acl chunks) :
    Carry metadata.acl (htmlSection chunker libraries metadata chunks part) := by
  unfold htmlSection
  dsimp only
  generalize (if part.1 = "root" then "" else _) = start
  have loop : Carry metadata.acl (((splitByParagraphs part.2.toList).map String.ofList).foldl
      (htmlParagraph chunker libraries metadata part.1) ⟨chunks, start⟩).chunks := by
    apply List.foldlRecOn (motive := fun progress : Progress => Carry metadata.acl progress.chunks)
    · exact carried
    · exact fun progress held paragraph _ => htmlParagraph_carry held
  split
  · exact loop
  · exact flush_carry loop

theorem chunkMarkdownWithOverlap_carry (mdText : String) :
    Carry metadata.acl (chunkMarkdownWithOverlap chunker libraries mdText metadata) := by
  apply enrichChunks_carry
  apply mergeShortChunks_carry
  apply applyOverlap_carry
  apply List.foldlRecOn (motive := Carry metadata.acl)
  · exact carry_nil
  · exact fun chunks held part _ => markdownSection_carry part held

theorem chunkHtml_carry {html : String} {chunks : List Chunk}
    (chunked : chunkHtml chunker libraries html metadata = some chunks) :
    Carry metadata.acl chunks := by
  unfold chunkHtml at chunked
  split at chunked
  · rw [← Option.some.inj chunked]
    exact chunkMarkdownWithOverlap_carry _
  · obtain ⟨elements, -, rfl⟩ := Option.map_eq_some_iff.mp chunked
    apply enrichChunks_carry
    apply mergeShortChunks_carry
    apply applyOverlap_carry
    apply List.foldlRecOn (motive := Carry metadata.acl)
    · exact carry_nil
    · exact fun chunks held part _ => htmlSection_carry part held

theorem chunkMarkdown_carry {mdText : String} {chunks : List Chunk}
    (chunked : chunkMarkdown chunker libraries mdText metadata = some chunks) :
    Carry metadata.acl chunks := by
  obtain ⟨convert, -, converted⟩ := Option.bind_eq_some_iff.mp chunked
  exact chunkHtml_carry converted

theorem createHeadingChunks_carry (html : String) :
    Carry Acl.default (createHeadingChunks chunker libraries html metadata) := by
  intro chunk member
  obtain ⟨numbered, -, rfl⟩ := List.mem_map.mp member
  rfl

end RagSystem.Etl
