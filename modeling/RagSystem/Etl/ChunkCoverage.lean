import RagSystem.Etl.ChunkTrace

/-! Whether the paragraphs of a Markdown text reach the chunks of `chunk_markdown_with_overlap`
(`etl/chunker/semantic_chunker.py`). -/

namespace RagSystem.Etl

open MarkdownText

/-- What the heading lines leave of a text from a position on: a stretch before each of them, and
one after the last. -/
def stretchesFrom (text : Text) (position : Nat) : List HeadingMatch → List Text
  | [] => [strip (text.drop position)]
  | found :: later =>
      strip (slice text position found.start) :: stretchesFrom text found.stop later

def stretches (text : Text) : List Text := stretchesFrom text 0 (headingMatches text)

def paragraphsOf (text : Text) : List String :=
  (stretches text).flatMap (fun stretch => (splitByParagraphs stretch).map String.ofList)

/-- The paragraphs occur in the text, one after the other. -/
def Within : List String → List Char → Prop
  | [], _ => True
  | paragraph :: rest, text =>
      ∃ before after, text = before ++ paragraph.toList ++ after ∧ Within rest after

/-- Each paragraph occurs in a text, and they do so in their order. -/
def OccurInOrder (paragraphs texts : List String) : Prop :=
  ∃ groups : List (List String), groups.flatten = paragraphs ∧
    List.Forall₂ (fun group text => Within group text.toList) groups texts

/-- The paragraphs of the text occur in the chunks in their order, and not by chance: the chunks are
put together from all of them, each once, and from what the chunker adds. -/
structure LosesNothing (chunker : SemanticChunker) (libraries : Libraries)
    (metadata : SourceMetadata) (mdText : String) : Prop where
  occur : OccurInOrder (paragraphsOf mdText.toList)
    ((chunkMarkdownWithOverlap chunker libraries mdText metadata).map Chunk.text)
  spelled : (traceChunks chunker mdText metadata).map Etl.spelled =
    (chunkMarkdownWithOverlap chunker libraries mdText metadata).map Chunk.text
  own : ownedAll (traceChunks chunker mdText metadata) = paragraphsOf mdText.toList

/-- Before the first heading, where there is one, there are only blanks. -/
def BlankBeforeHeading (text : Text) : Prop :=
  ∀ first, (headingMatches text).head? = some first →
    ∀ char ∈ text.take first.start, isSpace char = true

/-! ### Paragraphs and occurrences -/

theorem Within.extend {paragraphs : List String} {text : Text} (within : Within paragraphs text)
    (more : Text) : Within paragraphs (more ++ text) := by
  cases paragraphs with
  | nil => trivial
  | cons paragraph rest =>
      obtain ⟨before, after, parts, later⟩ := within
      refine ⟨more ++ before, after, ?_, later⟩
      rw [parts, List.append_assoc, List.append_assoc, List.append_assoc]

theorem Within.infix {paragraphs : List String} {text : Text} (within : Within paragraphs text)
    {paragraph : String} (member : paragraph ∈ paragraphs) : paragraph.toList <:+: text := by
  induction paragraphs generalizing text with
  | nil => cases member
  | cons first rest ih =>
      obtain ⟨before, after, rfl, later⟩ := within
      rcases List.mem_cons.mp member with rfl | other
      · exact List.infix_append _ _ _
      · exact (ih later other).trans (List.suffix_append _ _).isInfix

theorem OccurInOrder.exists_infix {paragraphs texts : List String}
    (occur : OccurInOrder paragraphs texts) {paragraph : String}
    (member : paragraph ∈ paragraphs) : ∃ text ∈ texts, paragraph.toList <:+: text.toList := by
  obtain ⟨groups, rfl, each⟩ := occur
  obtain ⟨group, known, inside⟩ := List.mem_flatten.mp member
  induction each with
  | nil => cases known
  | @cons first text groups texts within _ ih =>
      rcases List.mem_cons.mp known with rfl | other
      · exact ⟨text, List.mem_cons_self, within.infix inside⟩
      · obtain ⟨found, later, occurs⟩ :=
          ih (List.mem_flatten.mpr ⟨group, other, inside⟩) other
        exact ⟨found, List.mem_cons_of_mem _ later, occurs⟩

theorem within_spelled (pieces : List Piece) : Within (owned pieces) (spelled pieces).toList := by
  induction pieces with
  | nil => trivial
  | cons piece rest ih =>
      rw [spelled, String.toList_append]
      cases piece with
      | own paragraph => exact ⟨[], _, rfl, ih⟩
      | added text => exact ih.extend _

theorem occurInOrder_trace (trace : List (List Piece)) :
    OccurInOrder (ownedAll trace) (trace.map spelled) := by
  refine ⟨trace.map owned, List.flatMap_def.symm, ?_⟩
  rw [List.forall₂_map_left_iff, List.forall₂_map_right_iff, List.forall₂_same]
  exact fun pieces _ => within_spelled pieces

theorem solid_paragraphsOf (text : Text) :
    (paragraphsOf text).flatMap (fun paragraph => solid paragraph.toList) =
      (stretches text).flatMap solid := by
  rw [paragraphsOf, List.flatMap_assoc]
  apply List.flatMap_congr
  intro stretch _
  rw [List.flatMap_map]
  simp only [String.toList_ofList]
  exact solid_splitByParagraphs stretch

theorem stretchesFrom_cons (text : Text) (position : Nat) (found : HeadingMatch)
    (later : List HeadingMatch) :
    stretchesFrom text position (found :: later) = strip (slice text position found.start) ::
      (sectionsFrom text (found :: later)).map Section.content := by
  induction later generalizing position found with
  | nil => simp [stretchesFrom, sectionsFrom, slice]
  | cons next rest ih => rw [stretchesFrom, ih, sectionsFrom, List.map_cons]; rfl

def preambleParagraphs (text : Text) : List String :=
  (headingMatches text).head?.elim [] (fun first =>
    (splitByParagraphs (strip (text.take first.start))).map String.ofList)

theorem paragraphsOf_eq (text : Text) :
    paragraphsOf text =
      preambleParagraphs text ++ (splitMarkdownByHeadings text).flatMap sectionParagraphs := by
  unfold paragraphsOf stretches preambleParagraphs splitMarkdownByHeadings
  cases found : headingMatches text with
  | nil => simp [stretchesFrom, sectionParagraphs]
  | cons first later =>
      rw [stretchesFrom_cons, List.flatMap_cons, List.flatMap_map]
      rfl

theorem blankBeforeHeading_iff (text : Text) :
    BlankBeforeHeading text ↔ preambleParagraphs text = [] := by
  unfold BlankBeforeHeading preambleParagraphs
  cases (headingMatches text).head? with
  | none => simp
  | some first =>
      simp only [Option.some.injEq, forall_eq', Option.elim_some]
      rw [List.map_eq_nil_iff, splitByParagraphs_eq_nil_iff, solid_strip, solid_eq_nil_iff]

/-! ### The headings and the stretches make up the text -/

/-- The matches stand one after the other from the position on. -/
def Ordered (position : Nat) : List HeadingMatch → Prop
  | [] => True
  | found :: later => position ≤ found.start ∧ found.start ≤ found.stop ∧ Ordered found.stop later

theorem Ordered.mono {matched : List HeadingMatch} {position later : Nat}
    (ordered : Ordered later matched) (earlier : position ≤ later) : Ordered position matched := by
  cases matched with
  | nil => trivial
  | cons found rest => exact ⟨earlier.trans ordered.1, ordered.2⟩

theorem ordered_headingMatchesFrom (fuel position : Nat) (lineStart : Bool) (text : Text) :
    Ordered position (headingMatchesFrom fuel position lineStart text) := by
  induction fuel generalizing position lineStart text with
  | zero => trivial
  | succ fuel ih =>
      cases text with
      | nil => trivial
      | cons char rest =>
          rw [headingMatchesFrom]
          split
          · exact ⟨Nat.le_refl _, Nat.le_add_right _ _, ih _ _ _⟩
          · exact (ih _ _ _).mono (Nat.le_add_right _ _)

theorem slice_append_drop {text : Text} {start stop : Nat} (le : start ≤ stop) :
    slice text start stop ++ text.drop stop = text.drop start := by
  have rest : (text.drop start).drop (stop - start) = text.drop stop := by
    rw [List.drop_drop, Nat.add_sub_cancel' le]
  rw [slice, List.drop_take, ← rest, List.take_append_drop]

def reassembled (text : Text) : List HeadingMatch → List Text → Text
  | found :: later, stretch :: rest =>
      stretch ++ slice text found.start found.stop ++ reassembled text later rest
  | _, rest => rest.flatten

theorem solid_reassembled {text : Text} {position : Nat} {matched : List HeadingMatch}
    (ordered : Ordered position matched) :
    solid (reassembled text matched (stretchesFrom text position matched)) =
      solid (text.drop position) := by
  induction matched generalizing position with
  | nil => simp [stretchesFrom, reassembled, solid_strip]
  | cons found later ih =>
      obtain ⟨before, line, others⟩ := ordered
      rw [stretchesFrom, reassembled, solid_append, solid_append, solid_strip, ih others,
        ← solid_append, ← solid_append, List.append_assoc, slice_append_drop line,
        slice_append_drop before]

/-- The paragraphs of a text all reach its chunks exactly if there are none before its first
heading, whatever the sizes, the overlap and the metadata. -/
theorem loses_nothing_iff (chunker : SemanticChunker) (libraries : Libraries)
    (metadata : SourceMetadata) (mdText : String) :
    LosesNothing chunker libraries metadata mdText ↔ BlankBeforeHeading mdText.toList := by
  have own : ownedAll (traceChunks chunker mdText metadata) =
      (splitMarkdownByHeadings mdText.toList).flatMap sectionParagraphs :=
    ownedAll_traceChunks mdText
  have spells : (traceChunks chunker mdText metadata).map spelled =
      (chunkMarkdownWithOverlap chunker libraries mdText metadata).map Chunk.text :=
    spelled_traceChunks mdText
  have parts := paragraphsOf_eq mdText.toList
  rw [blankBeforeHeading_iff]
  constructor
  · intro nothing
    have whole := nothing.own
    rw [own, parts] at whole
    exact List.self_eq_append_left.mp whole
  · intro blank
    rw [blank, List.nil_append] at parts
    refine ⟨?_, spells, own.trans parts.symm⟩
    rw [parts, ← own, ← spells]
    exact occurInOrder_trace _

/-- The text before the first heading is in no chunk. -/
theorem preamble_lost :
    ¬ OccurInOrder (paragraphsOf "intro\n# One\nbody".toList)
      ((chunkMarkdownWithOverlap { estimateTokens := fun _ => 1 } ⟨id, none, none, none⟩
        "intro\n# One\nbody" {}).map Chunk.text) := by
  intro occur
  have first : "intro" ∈ paragraphsOf "intro\n# One\nbody".toList := by decide +kernel
  obtain ⟨text, emitted, occurs⟩ := occur.exists_infix first
  revert text
  decide +kernel

end RagSystem.Etl
