import Mathlib.Data.List.Forall2
import RagSystem.Etl.SemanticChunker

/-! `chunk_markdown_with_overlap` (`etl/chunker/semantic_chunker.py`) once more, with each chunk's
text as the pieces it was put together from. -/

namespace RagSystem.Etl

open MarkdownText

/-- A part of a chunk's text: a paragraph of the document, or text that the chunker adds. -/
inductive Piece
  | own (paragraph : String)
  | added (text : String)
  deriving DecidableEq, Repr

def Piece.text : Piece → String
  | own paragraph => paragraph
  | added text => text

def Piece.paragraph : Piece → Option String
  | own paragraph => some paragraph
  | added _ => none

def spelled : List Piece → String
  | [] => ""
  | piece :: rest => piece.text ++ spelled rest

def owned (pieces : List Piece) : List String := pieces.filterMap Piece.paragraph

variable (chunker : SemanticChunker)

structure TracedProgress where
  chunks : List (List Piece) := []
  current : List Piece := []
  deriving DecidableEq, Repr

def extended (current : List Piece) (paragraph : String) : List Piece :=
  if spelled current = "" then [.own paragraph] else current ++ [.added "\n\n", .own paragraph]

/-- `markdownParagraph`, for a paragraph that is not blank. -/
def traceParagraph (headingPrefix : String) (progress : TracedProgress) (paragraph : String) :
    TracedProgress :=
  let candidate := extended progress.current paragraph
  if chunker.maxTokens < chunker.estimateTokens (spelled candidate) ∧
      spelled progress.current ≠ "" then
    { chunks := if worded (spelled progress.current) then progress.chunks ++ [progress.current]
        else progress.chunks
      current := [.added headingPrefix, .own paragraph] }
  else { progress with current := candidate }

def headingPrefix (part : Section) : String :=
  if String.ofList part.heading = "root" then ""
  else String.ofList (List.replicate (max part.level 1) '#') ++ " " ++
    String.ofList part.heading ++ "\n"

def sectionParagraphs (part : Section) : List String :=
  (splitByParagraphs part.content).map String.ofList

def traceSection (chunks : List (List Piece)) (part : Section) : List (List Piece) :=
  let progress := (sectionParagraphs part).foldl (traceParagraph chunker (headingPrefix part))
    ⟨chunks, [.added (headingPrefix part)]⟩
  if worded (spelled progress.current) then progress.chunks ++ [progress.current]
  else progress.chunks

def traceOverlapFrom (previous : List Piece) : List (List Piece) → List (List Piece)
  | [] => []
  | pieces :: rest =>
      let count := (chunker.overlapTokens * 4).toNat
      let text := spelled previous
      let snippet := String.ofList (text.toList.drop (text.length - count))
      let overlapped := if text = "" then pieces
        else .added ("[previous context: ..." ++ snippet ++ "]\n\n") :: pieces
      overlapped :: traceOverlapFrom overlapped rest

def traceOverlap (trace : List (List Piece)) : List (List Piece) :=
  if chunker.overlapTokens ≤ 0 ∨ trace.length ≤ 1 then trace
  else traceOverlapFrom chunker [] trace

def traceMergeInto (buffer : List Piece) : List (List Piece) → List (List Piece)
  | [] => [buffer]
  | pieces :: rest =>
      let held := chunker.estimateTokens (spelled buffer)
      let next := chunker.estimateTokens (spelled pieces)
      if held + next ≤ chunker.maxTokens ∧
          (held < chunker.minChunkTokens ∨ next < chunker.minChunkTokens) then
        traceMergeInto (buffer ++ .added "\n\n" :: pieces) rest
      else buffer :: traceMergeInto pieces rest

def traceMerge : List (List Piece) → List (List Piece)
  | [] => []
  | pieces :: rest => traceMergeInto chunker pieces rest

def traceContext (docTitle fullText : String) (pieces : List Piece) : List Piece :=
  let context := buildContext { text := spelled pieces, hash := "" } docTitle fullText
  if context = "" then pieces else .added (context ++ "\n\n") :: pieces

def traceEnrich (trace : List (List Piece)) (fullText : String) (metadata : SourceMetadata) :
    List (List Piece) :=
  if chunker.contextualEnrichment ∧ metadata ≠ {} then
    trace.map (traceContext (metadata.docTitle.getD "") fullText)
  else trace

/-- The pieces of the chunks of `chunkMarkdownWithOverlap`. -/
def traceChunks (mdText : String) (metadata : SourceMetadata) : List (List Piece) :=
  traceEnrich chunker
    (traceMerge chunker (traceOverlap chunker
      ((splitMarkdownByHeadings mdText.toList).foldl (traceSection chunker) []))) mdText metadata

/-! ### The pieces spell the chunks -/

theorem spelled_append (first second : List Piece) :
    spelled (first ++ second) = spelled first ++ spelled second := by
  induction first with
  | nil => simp [spelled]
  | cons piece rest ih => rw [List.cons_append, spelled, ih, spelled, String.append_assoc]

structure Traced (chunk : Chunk) (pieces : List Piece) : Prop where
  text : chunk.text = spelled pieces
  estimate : chunk.tokensApprox = chunker.estimateTokens chunk.text
  plain : chunk.originalText = ""

def Traces (chunks : List Chunk) (trace : List (List Piece)) : Prop :=
  List.Forall₂ (Traced chunker) chunks trace

variable {chunker} {libraries : Libraries} {metadata : SourceMetadata} {chunks : List Chunk}
  {trace : List (List Piece)}

theorem Traces.append_singleton (traces : Traces chunker chunks trace) {chunk : Chunk}
    {pieces : List Piece} (traced : Traced chunker chunk pieces) :
    Traces chunker (chunks ++ [chunk]) (trace ++ [pieces]) :=
  List.rel_append traces (.cons traced .nil)

theorem traced_createChunk (pieces : List Piece) (position : Nat) (heading : String) :
    Traced chunker
      (createChunk chunker libraries (spelled pieces) position metadata heading) pieces :=
  ⟨rfl, rfl, rfl⟩

variable (chunker) in
structure Follows (progress : Progress) (traced : TracedProgress) : Prop where
  chunks : Traces chunker progress.chunks traced.chunks
  current : progress.current = spelled traced.current

variable {progress : Progress} {traced : TracedProgress}

theorem Follows.flush (follows : Follows chunker progress traced) (heading : String) :
    Traces chunker (progress.flush chunker libraries metadata heading).chunks
      (traced.chunks ++ [traced.current]) := by
  apply follows.chunks.append_singleton
  rw [follows.current]
  exact traced_createChunk _ _ _

theorem Follows.paragraph (follows : Follows chunker progress traced)
    (heading headingPrefix : String) {paragraph : String} (words : worded paragraph = true) :
    Follows chunker
      (markdownParagraph chunker libraries metadata heading headingPrefix progress paragraph)
      (traceParagraph chunker headingPrefix traced paragraph) := by
  have candidate : (if progress.current = "" then paragraph
        else progress.current ++ "\n\n" ++ paragraph) =
      spelled (extended traced.current paragraph) := by
    rw [follows.current, extended]
    split
    · simp [spelled, Piece.text]
    · simp [spelled_append, spelled, Piece.text, String.append_assoc]
  unfold markdownParagraph traceParagraph
  rw [if_neg (by simp [words])]
  dsimp only
  rw [candidate, follows.current]
  generalize extended traced.current paragraph = next
  by_cases full : chunker.maxTokens < chunker.estimateTokens (spelled next) ∧
      spelled traced.current ≠ ""
  · rw [if_pos full, if_pos full]
    constructor
    · dsimp only
      split
      · exact follows.flush heading
      · exact follows.chunks
    · simp [spelled, Piece.text]
  · rw [if_neg full, if_neg full]
    exact ⟨follows.chunks, rfl⟩

theorem Follows.paragraphs (follows : Follows chunker progress traced)
    (heading headingPrefix : String) {paragraphs : List String}
    (words : ∀ paragraph ∈ paragraphs, worded paragraph = true) :
    Follows chunker
      (paragraphs.foldl (markdownParagraph chunker libraries metadata heading headingPrefix)
        progress)
      (paragraphs.foldl (traceParagraph chunker headingPrefix) traced) := by
  induction paragraphs generalizing progress traced with
  | nil => exact follows
  | cons paragraph rest ih =>
      obtain ⟨first, others⟩ := List.forall_mem_cons.mp words
      exact ih (follows.paragraph heading headingPrefix first) others

theorem worded_iff {text : String} : worded text = true ↔ solid text.toList ≠ [] := by
  simp [worded, strip_eq_nil_iff]

theorem blank_iff {text : String} : worded text = false ↔ solid text.toList = [] := by
  rw [← Bool.not_eq_true, worded_iff, not_not]

theorem worded_of_mem_sectionParagraphs {part : Section} {paragraph : String}
    (member : paragraph ∈ sectionParagraphs part) : worded paragraph = true := by
  obtain ⟨text, known, rfl⟩ := List.mem_map.mp member
  rw [worded_iff, String.toList_ofList]
  exact solid_of_mem_splitByParagraphs known

theorem markdownSection_eq (part : Section) :
    markdownSection chunker libraries metadata chunks part =
      let progress := (sectionParagraphs part).foldl (markdownParagraph chunker libraries metadata
        (String.ofList part.heading) (headingPrefix part)) ⟨chunks, headingPrefix part⟩
      if worded progress.current then
        (progress.flush chunker libraries metadata (String.ofList part.heading)).chunks
      else progress.chunks := rfl

theorem traces_section (traces : Traces chunker chunks trace) (part : Section) :
    Traces chunker (markdownSection chunker libraries metadata chunks part)
      (traceSection chunker trace part) := by
  have follows : Follows chunker ⟨chunks, headingPrefix part⟩
      ⟨trace, [.added (headingPrefix part)]⟩ := by
    refine ⟨traces, ?_⟩
    simp [spelled, Piece.text]
  have loop : Follows chunker
      ((sectionParagraphs part).foldl (markdownParagraph chunker libraries metadata
        (String.ofList part.heading) (headingPrefix part)) ⟨chunks, headingPrefix part⟩)
      ((sectionParagraphs part).foldl (traceParagraph chunker (headingPrefix part))
        ⟨trace, [.added (headingPrefix part)]⟩) :=
    follows.paragraphs _ _ (fun _ => worded_of_mem_sectionParagraphs)
  rw [markdownSection_eq, traceSection]
  dsimp only
  rw [← loop.current]
  split
  · exact loop.flush _
  · exact loop.chunks

theorem traces_overlapFrom {previous : String} {before : List Piece}
    (same : previous = spelled before) (traces : Traces chunker chunks trace) :
    Traces chunker (overlapFrom chunker libraries previous chunks)
      (traceOverlapFrom chunker before trace) := by
  induction traces generalizing previous before with
  | nil => exact .nil
  | @cons chunk pieces chunks trace traced _ ih =>
      rw [overlapFrom, traceOverlapFrom, ← same]
      by_cases first : previous = ""
      · rw [if_pos first, if_pos first, if_pos first]
        exact .cons traced (ih traced.text)
      · rw [if_neg first, if_neg first, if_neg first]
        have text : "[previous context: ..." ++ String.ofList (previous.toList.drop
              (previous.length - (chunker.overlapTokens * 4).toNat)) ++ "]\n\n" ++ chunk.text =
            spelled (.added ("[previous context: ..." ++ String.ofList (previous.toList.drop
              (previous.length - (chunker.overlapTokens * 4).toNat)) ++ "]\n\n") :: pieces) := by
          rw [spelled, ← traced.text]
          rfl
        exact .cons ⟨text, rfl, traced.plain⟩ (ih text)

theorem traces_overlap (traces : Traces chunker chunks trace) :
    Traces chunker (applyOverlap chunker libraries chunks) (traceOverlap chunker trace) := by
  unfold applyOverlap traceOverlap
  rw [traces.length_eq]
  split
  · exact traces
  · exact traces_overlapFrom rfl traces

theorem traces_mergeInto {buffer : Chunk} {held : List Piece} (traced : Traced chunker buffer held)
    (traces : Traces chunker chunks trace) :
    Traces chunker (mergeInto chunker libraries buffer chunks)
      (traceMergeInto chunker held trace) := by
  induction traces generalizing buffer held with
  | nil => exact .cons traced .nil
  | @cons chunk pieces chunks trace next _ ih =>
      rw [mergeInto, traceMergeInto, traced.estimate, next.estimate, traced.text, next.text]
      dsimp only
      split
      · apply ih
        have text : spelled held ++ "\n\n" ++ spelled pieces =
            spelled (held ++ .added "\n\n" :: pieces) := by
          rw [spelled_append, spelled, String.append_assoc]
          rfl
        exact ⟨text, rfl, traced.plain⟩
      · exact .cons traced (ih next)

theorem traces_merge (traces : Traces chunker chunks trace) :
    Traces chunker (mergeShortChunks chunker libraries chunks) (traceMerge chunker trace) := by
  cases traces with
  | nil => exact .nil
  | cons first others => exact traces_mergeInto first others

theorem text_enrichContext {docTitle fullText : String} {chunk : Chunk} {pieces : List Piece}
    (traced : Traced chunker chunk pieces) :
    (enrichContext libraries docTitle fullText chunk).text =
      spelled (traceContext docTitle fullText pieces) := by
  have context : buildContext { chunk with originalText := chunk.text, enriched := true }
        docTitle fullText =
      buildContext { text := spelled pieces, hash := "" } docTitle fullText := by
    rw [← traced.text]
    simp [buildContext]
  unfold enrichContext traceContext
  rw [if_neg (by simp [traced.plain])]
  dsimp only
  rw [context]
  split
  · exact traced.text
  · rw [spelled, ← traced.text]
    rfl

theorem Traces.spelled (traces : Traces chunker chunks trace) :
    trace.map Etl.spelled = chunks.map Chunk.text := by
  induction traces with
  | nil => rfl
  | cons traced _ ih => rw [List.map_cons, List.map_cons, ih, traced.text]

theorem Traces.spelled_enriched (traces : Traces chunker chunks trace) (fullText : String) :
    (traceEnrich chunker trace fullText metadata).map Etl.spelled =
      (enrichChunks chunker libraries chunks fullText metadata).map Chunk.text := by
  unfold traceEnrich enrichChunks
  split
  · induction traces with
    | nil => rfl
    | cons traced _ ih =>
        rw [List.map_cons, List.map_cons, List.map_cons, List.map_cons, ih,
          text_enrichContext traced]
  · exact traces.spelled

theorem spelled_traceChunks (mdText : String) :
    (traceChunks chunker mdText metadata).map spelled =
      (chunkMarkdownWithOverlap chunker libraries mdText metadata).map Chunk.text := by
  have sections (parts : List Section) {chunks : List Chunk} {trace : List (List Piece)}
      (traces : Traces chunker chunks trace) :
      Traces chunker (parts.foldl (markdownSection chunker libraries metadata) chunks)
        (parts.foldl (traceSection chunker) trace) := by
    induction parts generalizing chunks trace with
    | nil => exact traces
    | cons part rest ih =>
        rw [List.foldl_cons, List.foldl_cons]
        exact ih (traces_section traces part)
  have made := sections (splitMarkdownByHeadings mdText.toList) .nil
  rw [traceChunks, chunkMarkdownWithOverlap]
  exact (traces_merge (traces_overlap made)).spelled_enriched mdText

/-! ### The paragraphs of the pieces -/

theorem owned_append (first second : List Piece) :
    owned (first ++ second) = owned first ++ owned second :=
  List.filterMap_append

theorem owned_added (text : String) (rest : List Piece) :
    owned (.added text :: rest) = owned rest := rfl

def ownedAll (trace : List (List Piece)) : List String := trace.flatMap owned

theorem ownedAll_append (first second : List (List Piece)) :
    ownedAll (first ++ second) = ownedAll first ++ ownedAll second :=
  List.flatMap_append

theorem ownedAll_cons (pieces : List Piece) (rest : List (List Piece)) :
    ownedAll (pieces :: rest) = owned pieces ++ ownedAll rest :=
  List.flatMap_cons

theorem ownedAll_singleton (pieces : List Piece) : ownedAll [pieces] = owned pieces := by
  simp [ownedAll]

theorem owned_eq_nil_of_blank {pieces : List Piece}
    (words : ∀ paragraph ∈ owned pieces, worded paragraph = true)
    (blank : worded (spelled pieces) = false) : owned pieces = [] := by
  induction pieces with
  | nil => rfl
  | cons piece rest ih =>
      rw [spelled, blank_iff, String.toList_append, solid_append, List.append_eq_nil_iff] at blank
      cases piece with
      | own paragraph =>
          have inked := worded_iff.mp (words paragraph (by simp [owned, Piece.paragraph]))
          exact absurd blank.1 inked
      | added text => exact ih words (blank_iff.mpr blank.2)

def TracedProgress.taken (traced : TracedProgress) : List String :=
  ownedAll traced.chunks ++ owned traced.current

theorem owned_extended {current : List Piece} (paragraph : String)
    (words : ∀ earlier ∈ owned current, worded earlier = true) :
    owned (extended current paragraph) = owned current ++ [paragraph] := by
  have own : owned [Piece.own paragraph] = [paragraph] := rfl
  unfold extended
  split
  · next empty => rw [owned_eq_nil_of_blank words (by rw [empty]; rfl), own, List.nil_append]
  · rw [owned_append, owned_added, own]

theorem taken_traceParagraph {headingPrefix paragraph : String}
    (words : ∀ earlier ∈ owned traced.current, worded earlier = true) :
    (traceParagraph chunker headingPrefix traced paragraph).taken =
      traced.taken ++ [paragraph] := by
  have next := owned_extended paragraph words
  unfold traceParagraph
  generalize extended traced.current paragraph = candidate at next
  dsimp only
  split
  · have own : owned [.added headingPrefix, .own paragraph] = [paragraph] := rfl
    rw [TracedProgress.taken, TracedProgress.taken, own]
    split
    · rw [ownedAll_append, ownedAll_singleton]
    · next blank => rw [owned_eq_nil_of_blank words (by simpa using blank), List.append_nil]
  · rw [TracedProgress.taken, TracedProgress.taken, next, List.append_assoc]

theorem worded_traceParagraph {headingPrefix paragraph : String} (word : worded paragraph = true)
    (words : ∀ earlier ∈ owned traced.current, worded earlier = true) :
    ∀ earlier ∈ owned (traceParagraph chunker headingPrefix traced paragraph).current,
      worded earlier = true := by
  unfold traceParagraph
  dsimp only
  split
  · simpa [owned, Piece.paragraph] using word
  · rw [owned_extended paragraph words, List.forall_mem_append]
    exact ⟨words, by simpa using word⟩

theorem taken_foldl {headingPrefix : String} {paragraphs : List String}
    (words : ∀ paragraph ∈ paragraphs, worded paragraph = true)
    (before : ∀ earlier ∈ owned traced.current, worded earlier = true) :
    (paragraphs.foldl (traceParagraph chunker headingPrefix) traced).taken =
      traced.taken ++ paragraphs ∧
    ∀ earlier ∈ owned (paragraphs.foldl (traceParagraph chunker headingPrefix) traced).current,
      worded earlier = true := by
  induction paragraphs generalizing traced with
  | nil => exact ⟨(List.append_nil _).symm, before⟩
  | cons paragraph rest ih =>
      obtain ⟨first, others⟩ := List.forall_mem_cons.mp words
      obtain ⟨taken, kept⟩ := ih others (worded_traceParagraph first before)
      rw [taken_traceParagraph before, List.append_assoc] at taken
      exact ⟨taken, kept⟩

theorem ownedAll_traceSection (part : Section) :
    ownedAll (traceSection chunker trace part) = ownedAll trace ++ sectionParagraphs part := by
  have start : (⟨trace, [.added (headingPrefix part)]⟩ : TracedProgress).taken = ownedAll trace :=
    List.append_nil _
  obtain ⟨taken, words⟩ :
      ((sectionParagraphs part).foldl (traceParagraph chunker (headingPrefix part))
        ⟨trace, [.added (headingPrefix part)]⟩).taken =
        ownedAll trace ++ sectionParagraphs part ∧ _ :=
    start ▸ taken_foldl (fun _ => worded_of_mem_sectionParagraphs)
      (by simp [owned, Piece.paragraph])
  rw [traceSection, ← taken]
  generalize (sectionParagraphs part).foldl (traceParagraph chunker (headingPrefix part))
    ⟨trace, [.added (headingPrefix part)]⟩ = progress at *
  rw [TracedProgress.taken]
  split
  · rw [ownedAll_append, ownedAll_singleton]
  · next blank => rw [owned_eq_nil_of_blank words (by simpa using blank), List.append_nil]

theorem ownedAll_overlapFrom (previous : List Piece) :
    ownedAll (traceOverlapFrom chunker previous trace) = ownedAll trace := by
  induction trace generalizing previous with
  | nil => rfl
  | cons pieces rest ih =>
      rw [traceOverlapFrom, ownedAll_cons, ownedAll_cons, ih]
      split <;> rfl

theorem ownedAll_overlap : ownedAll (traceOverlap chunker trace) = ownedAll trace := by
  unfold traceOverlap
  split
  · rfl
  · exact ownedAll_overlapFrom []

theorem ownedAll_mergeInto (buffer : List Piece) :
    ownedAll (traceMergeInto chunker buffer trace) = owned buffer ++ ownedAll trace := by
  induction trace generalizing buffer with
  | nil => rfl
  | cons pieces rest ih =>
      rw [traceMergeInto]
      split
      · rw [ih, owned_append, owned_added, ownedAll_cons, List.append_assoc]
      · rw [ownedAll_cons, ih, ownedAll_cons]

theorem ownedAll_merge : ownedAll (traceMerge chunker trace) = ownedAll trace := by
  cases trace with
  | nil => rfl
  | cons pieces rest => rw [traceMerge, ownedAll_mergeInto, ownedAll_cons]

theorem ownedAll_enrich (fullText : String) :
    ownedAll (traceEnrich chunker trace fullText metadata) = ownedAll trace := by
  have context (pieces : List Piece) :
      owned (traceContext (metadata.docTitle.getD "") fullText pieces) = owned pieces := by
    unfold traceContext
    dsimp only
    split <;> rfl
  unfold traceEnrich
  split
  · rw [ownedAll, List.flatMap_map, List.flatMap_congr (fun pieces _ => context pieces), ownedAll]
  · rfl

theorem ownedAll_traceChunks (mdText : String) :
    ownedAll (traceChunks chunker mdText metadata) =
      (splitMarkdownByHeadings mdText.toList).flatMap sectionParagraphs := by
  have sections (parts : List Section) (trace : List (List Piece)) :
      ownedAll (parts.foldl (traceSection chunker) trace) =
        ownedAll trace ++ parts.flatMap sectionParagraphs := by
    induction parts generalizing trace with
    | nil => exact (List.append_nil _).symm
    | cons part rest ih =>
        rw [List.foldl_cons, ih, ownedAll_traceSection, List.flatMap_cons, List.append_assoc]
  rw [traceChunks, ownedAll_enrich, ownedAll_merge, ownedAll_overlap, sections]
  rfl

end RagSystem.Etl
