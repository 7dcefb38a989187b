import Mathlib.Algebra.Order.Archimedean.Basic
import Mathlib.Algebra.Order.Floor.Semifield
import RagSystem.Etl.MarkdownText

/-! `AdaptiveChunker` (`etl/chunker/semantic_chunker.py`): the elements it finds in a text, and the
chunks it makes of them. -/

namespace RagSystem.Etl

open MarkdownText

/-- `text.split("\n")` -/
def splitLines (text : Text) : List Text := text.splitOn '\n'

def joinLines (lines : List Text) : Text := ['\n'].intercalate lines

inductive ElementKind
  | header (level : Nat)
  | code
  | table
  | paragraph
  deriving DecidableEq, Repr

def ElementKind.isHeader : ElementKind → Bool
  | header _ => true
  | _ => false

structure StructureElement where
  kind : ElementKind
  text : Text
  start : Nat
  stop : Nat
  deriving DecidableEq, Repr

/-- How many of the hashes at the start of a line `^#{1,6}` takes, if blanks follow them. -/
def headerLevel (line : Text) : Option Nat :=
  let level := (line.takeWhile (· = '#')).length
  if 1 ≤ level ∧ level ≤ 6 ∧ (line.drop level).head?.any isSpace then some level else none

def isFence (line : Text) : Bool := "```".toList.isPrefixOf (strip line)

def codeLines (rest : List Text) : List Text :=
  rest.takeWhile (fun line => !isFence line) ++ (rest.dropWhile (fun line => !isFence line)).take 1

def startsTable (line : Text) (rest : List Text) : Bool :=
  '|' ∈ line ∧ rest.head?.any (fun next => (find "---".toList next).isSome)

def blockAt (line : Text) (rest : List Text) : Option (ElementKind × List Text) :=
  match headerLevel line with
  | some level => some (.header level, [line])
  | none =>
      if isFence line then some (.code, line :: codeLines rest)
      else if startsTable line rest then
        some (.table, line :: rest.takeWhile (fun next => '|' ∈ next))
      else if strip line ≠ [] then some (.paragraph, [line])
      else none

/-- The loop over the lines, which skips those of a block. Each turn moves the position on by the
line that it starts with. -/
def detectFrom : (skip position : Nat) → List Text → List StructureElement
  | _, _, [] => []
  | skip + 1, position, _ :: rest => detectFrom skip position rest
  | 0, position, line :: rest =>
      match blockAt line rest with
      | none => detectFrom 0 (position + line.length + 1) rest
      | some (kind, block) =>
          ⟨kind, joinLines block, position, position + (joinLines block).length + 1⟩ ::
            detectFrom (block.length - 1) (position + line.length + 1) rest

/-- `_detect_structure` -/
def detectStructure (text : Text) : List StructureElement := detectFrom 0 0 (splitLines text)

structure AdaptiveChunker where
  minChunkSize : Int := 200
  maxChunkSize : Int := 2000
  targetChunkSize : Int := 800
  overlapRatio : ℚ := 15 / 100
  deriving DecidableEq, Repr

namespace AdaptiveChunker

variable (chunker : AdaptiveChunker)

/-- `if len(current_chunk["text"]) >= self.min_chunk_size: merged.append(current_chunk)` -/
def keep (current : StructureElement) : List StructureElement :=
  if chunker.minChunkSize ≤ current.text.length then [current] else []

def mergeFrom (current : StructureElement) : List StructureElement → List StructureElement
  | [] => [current]
  | elem :: rest =>
      if elem.kind.isHeader then chunker.keep current ++ mergeFrom elem rest
      else if elem.kind = .code ∨ current.kind = .code then
        chunker.keep current ++ mergeFrom elem rest
      else if current.text.length + elem.text.length ≤ chunker.targetChunkSize then
        mergeFrom { current with
          text := current.text ++ '\n' :: elem.text, stop := elem.stop } rest
      else chunker.keep current ++ mergeFrom elem rest

def mergeSmallElements : List StructureElement → List StructureElement
  | [] => []
  | first :: rest => chunker.mergeFrom first rest

def pieceOf (elem : StructureElement) (current : Text) : List StructureElement :=
  if current = [] then []
  else [{ elem with text := strip current, stop := elem.start + current.length }]

def splitFrom (elem : StructureElement) (current : Text) : List Text → List StructureElement
  | [] => pieceOf elem current
  | sentence :: rest =>
      if chunker.targetChunkSize < current.length + sentence.length then
        pieceOf elem current ++ splitFrom elem sentence rest
      else splitFrom elem (if current = [] then sentence else current ++ ' ' :: sentence) rest

def splitLargeChunks (elements : List StructureElement) : List StructureElement :=
  elements.flatMap (fun elem =>
    if elem.text.length ≤ chunker.maxChunkSize then [elem]
    else chunker.splitFrom elem [] (splitSentences elem.text))

/-- `text[-overlap_chars:]`, which is the whole text for no characters. -/
def overlapText (previous : Text) : Text :=
  let overlapChars := ⌊previous.length * chunker.overlapRatio⌋₊
  if overlapChars = 0 then previous else previous.drop (previous.length - overlapChars)

def overlapFrom (previous : Text) : List StructureElement → List StructureElement
  | [] => []
  | chunk :: rest =>
      let text := "[previous context: ...".toList ++ chunker.overlapText previous ++
        "]\n\n".toList ++ chunk.text
      { chunk with text := text } :: overlapFrom text rest

def applyOverlap (chunks : List StructureElement) : List StructureElement :=
  if chunker.overlapRatio ≤ 0 then chunks
  else
    match chunks with
    | [] => []
    | first :: rest => first :: chunker.overlapFrom first.text rest

/-- `chunk` -/
def chunk (text : Text) : List StructureElement :=
  let merged := chunker.mergeSmallElements (detectStructure text)
  chunker.applyOverlap (chunker.splitLargeChunks merged)

end AdaptiveChunker

/-! ### The elements and the lines -/

/-- The elements, in their order, are made of the lines; those between them are blank. -/
inductive Covers : List StructureElement → List Text → Prop
  | nil : Covers [] []
  | blank {elements : List StructureElement} {line : Text} {lines : List Text}
      (blank : strip line = []) (later : Covers elements lines) : Covers elements (line :: lines)
  | element {element : StructureElement} {elements : List StructureElement}
      {block lines : List Text} (text : element.text = joinLines block) (some : block ≠ [])
      (later : Covers elements lines) : Covers (element :: elements) (block ++ lines)

theorem blockAt_none {line : Text} {rest : List Text} (none : blockAt line rest = none) :
    strip line = [] := by
  unfold blockAt at none
  cases level : headerLevel line with
  | some level => simp [level] at none
  | none =>
      by_contra inked
      simp only [level] at none
      split_ifs at none

theorem blockAt_some {line : Text} {rest block : List Text} {kind : ElementKind}
    (found : blockAt line rest = some (kind, block)) :
    ∃ more, block = line :: more ∧ more <+: rest := by
  unfold blockAt at found
  cases level : headerLevel line with
  | some level =>
      simp only [level, Option.some.injEq, Prod.mk.injEq] at found
      exact ⟨[], found.2.symm, List.nil_prefix⟩
  | none =>
      simp only [level] at found
      split_ifs at found
      · obtain ⟨-, rfl⟩ := Prod.mk.inj (Option.some.inj found)
        refine ⟨_, rfl, ?_⟩
        calc
          codeLines rest <+: rest.takeWhile (fun line => !isFence line) ++
              rest.dropWhile (fun line => !isFence line) :=
            (List.prefix_append_right_inj _).mpr (List.take_prefix _ _)
          _ = rest := List.takeWhile_append_dropWhile
      · obtain ⟨-, rfl⟩ := Prod.mk.inj (Option.some.inj found)
        exact ⟨_, rfl, List.takeWhile_prefix _⟩
      · obtain ⟨-, rfl⟩ := Prod.mk.inj (Option.some.inj found)
        exact ⟨[], rfl, List.nil_prefix⟩

theorem detectFrom_skip (skip position : Nat) (lines : List Text) :
    detectFrom skip position lines = detectFrom 0 position (lines.drop skip) := by
  induction lines generalizing skip with
  | nil => cases skip <;> rfl
  | cons line rest ih =>
      cases skip with
      | zero => rfl
      | succ skip => rw [detectFrom, ih, List.drop_succ_cons]

theorem detectFrom_induction (motive : Nat → List Text → List StructureElement → Prop)
    (nil : ∀ position, motive position [] [])
    (blank : ∀ position line rest elements, strip line = [] →
      motive (position + line.length + 1) rest elements → motive position (line :: rest) elements)
    (block : ∀ position kind line more rest elements,
      motive (position + line.length + 1) rest elements →
      motive position (line :: more ++ rest) (⟨kind, joinLines (line :: more), position,
        position + (joinLines (line :: more)).length + 1⟩ :: elements))
    (lines : List Text) (position : Nat) : motive position lines (detectFrom 0 position lines) := by
  induction size : lines.length using Nat.strong_induction_on generalizing lines position with
  | _ size ih =>
      cases lines with
      | nil => exact nil position
      | cons line rest =>
          rw [List.length_cons] at size
          rw [detectFrom]
          cases found : blockAt line rest with
          | none => exact blank _ _ _ _ (blockAt_none found) (ih rest.length (by omega) _ _ rfl)
          | some start =>
              obtain ⟨kind, lines⟩ := start
              obtain ⟨more, rfl, later, rfl⟩ := blockAt_some found
              have skipped : (more ++ later).drop ((line :: more).length - 1) = later := by simp
              dsimp only
              rw [detectFrom_skip, skipped]
              rw [List.length_append] at size
              exact block _ _ _ _ _ _ (ih later.length (by omega) _ _ rfl)

theorem covers_detectStructure (text : Text) : Covers (detectStructure text) (splitLines text) := by
  apply detectFrom_induction (fun _ lines elements => Covers elements lines)
  · exact fun _ => .nil
  · exact fun _ _ _ _ blank later => .blank blank later
  · exact fun _ _ _ _ _ _ later => .element rfl (List.cons_ne_nil _ _) later

/-! ### The recorded offsets -/

/-- The recorded slice is the text of the element with the line break after it, which only the end
of the document lacks. -/
structure Delimits (text : Text) (element : StructureElement) : Prop where
  stop : element.stop = element.start + element.text.length + 1
  slice : slice text element.start element.stop = element.text ++ ['\n'] ∨
    MarkdownText.slice text element.start element.stop = element.text ∧
      text.length < element.stop

theorem joinLines_cons (line : Text) {rest : List Text} (more : rest ≠ []) :
    joinLines (line :: rest) = line ++ '\n' :: joinLines rest := by
  cases rest with
  | nil => contradiction
  | cons next rest => simp [joinLines, List.intercalate_cons_cons]

theorem joinLines_append (line : Text) (more : List Text) {rest : List Text} (some : rest ≠ []) :
    joinLines (line :: more ++ rest) = joinLines (line :: more) ++ '\n' :: joinLines rest := by
  induction more generalizing line with
  | nil =>
      rw [List.singleton_append, joinLines_cons line some]
      simp [joinLines]
  | cons next more ih =>
      rw [List.cons_append, List.cons_append, joinLines_cons line (by simp),
        joinLines_cons line (by simp), ← List.cons_append, ih, List.append_assoc, List.cons_append]

theorem delimits_of_drop {text : Text} {position : Nat} {kind : ElementKind} {line : Text}
    {more rest : List Text} (here : text.drop position = joinLines (line :: more ++ rest)) :
    Delimits text ⟨kind, joinLines (line :: more), position,
      position + (joinLines (line :: more)).length + 1⟩ := by
  have sliced (count : Nat) : slice text position (position + count + 1) =
      (text.drop position).take (count + 1) := by
    rw [slice, List.drop_take, Nat.add_assoc, Nat.add_sub_cancel_left]
  refine ⟨rfl, ?_⟩
  dsimp only
  rw [sliced, here]
  by_cases last : rest = []
  · right
    subst last
    have length := congrArg List.length here
    rw [List.append_nil, List.length_drop] at length
    rw [List.append_nil, List.take_of_length_le (Nat.le_succ _)]
    exact ⟨rfl, by omega⟩
  · left
    rw [joinLines_append line more last, List.take_append, List.take_of_length_le (Nat.le_succ _),
      Nat.add_sub_cancel_left, List.take_succ_cons, List.take_zero]

theorem drop_line {text : Text} {position : Nat} {line rest : Text}
    (here : text.drop position = line ++ '\n' :: rest) :
    text.drop (position + line.length + 1) = rest := by
  rw [Nat.add_assoc, ← List.drop_drop, here, ← List.drop_drop, List.drop_left, List.drop_one,
    List.tail_cons]

/-- The offsets are right up to the first element of several lines. -/
def Located (text : Text) (elements : List StructureElement) : Prop :=
  ∀ before element after, elements = before ++ element :: after →
    (∀ earlier ∈ before, '\n' ∉ earlier.text) → Delimits text element

theorem located_detectStructure (text : Text) : Located text (detectStructure text) := by
  have loop := detectFrom_induction (fun position lines elements =>
    (lines ≠ [] → text.drop position = joinLines lines) → Located text elements)
  refine loop ?_ ?_ ?_ (splitLines text) 0 (fun _ => (List.intercalate_splitOn '\n').symm)
  · intro position here before element after none
    simp at none
  · intro position line rest elements blank ih here
    apply ih
    intro more
    have whole := here (List.cons_ne_nil _ _)
    rw [joinLines_cons line more] at whole
    exact drop_line whole
  · intro position kind line more rest elements ih here before element after split single
    have whole := here (by simp)
    cases before with
    | nil =>
        obtain ⟨rfl, rfl⟩ := List.cons.inj split
        exact delimits_of_drop whole
    | cons first before =>
        obtain ⟨rfl, others⟩ := List.cons.inj split
        obtain ⟨line', later⟩ := List.forall_mem_cons.mp single
        -- an element before another one has a single line here
        have one : more = [] := by
          by_contra several
          simp [joinLines_cons line several] at line'
        subst one
        refine ih ?_ before element after others later
        intro some
        rw [List.singleton_append, joinLines_cons line some] at whole
        exact drop_line whole

/-! ### The elements and the chunks -/

namespace AdaptiveChunker

variable (chunker : AdaptiveChunker)

def groups (elements : List StructureElement) : List StructureElement :=
  { chunker with minChunkSize := 0 }.mergeSmallElements elements

variable {chunker}

theorem keep_all (current : StructureElement) :
    { chunker with minChunkSize := 0 }.keep current = [current] :=
  if_pos (Int.natCast_nonneg _)

theorem mergeFrom_eq (current : StructureElement) (elements : List StructureElement) :
    ∃ earlier last, { chunker with minChunkSize := 0 }.mergeFrom current elements =
        earlier ++ [last] ∧
      chunker.mergeFrom current elements =
        earlier.filter (fun group => chunker.minChunkSize ≤ group.text.length) ++ [last] := by
  induction elements generalizing current with
  | nil => exact ⟨[], current, rfl, rfl⟩
  | cons elem rest ih =>
      have flushed : ∃ earlier last,
          { chunker with minChunkSize := 0 }.keep current ++
              { chunker with minChunkSize := 0 }.mergeFrom elem rest = earlier ++ [last] ∧
            chunker.keep current ++ chunker.mergeFrom elem rest =
              earlier.filter (fun group => chunker.minChunkSize ≤ group.text.length) ++
                [last] := by
        obtain ⟨earlier, last, all, kept⟩ := ih elem
        refine ⟨current :: earlier, last, ?_, ?_⟩
        · rw [keep_all, all]
          rfl
        · rw [keep, kept, List.filter_cons]
          simp only [decide_eq_true_eq]
          split <;> rfl
      rw [mergeFrom, mergeFrom]
      split_ifs
      · exact flushed
      · exact flushed
      · exact ih _
      · exact flushed

theorem joinLines_snoc {held : List StructureElement} {text : Text} (some : held ≠ [])
    (holds : text = joinLines (held.map StructureElement.text)) (elem : StructureElement) :
    text ++ '\n' :: elem.text = joinLines ((held ++ [elem]).map StructureElement.text) := by
  cases held with
  | nil => contradiction
  | cons first more =>
      rw [List.map_append, List.map_cons, List.map_singleton,
        joinLines_append _ _ (List.cons_ne_nil _ _), holds]
      simp [joinLines]

theorem infix_joinLines {lines : List Text} {line : Text} (member : line ∈ lines) :
    line <:+: joinLines lines := by
  induction lines with
  | nil => cases member
  | cons first rest ih =>
      by_cases last : rest = []
      · subst last
        obtain rfl := List.mem_singleton.mp member
        simp [joinLines]
      · rw [joinLines_cons first last]
        rcases List.mem_cons.mp member with rfl | later
        · exact (List.prefix_append _ _).isInfix
        · exact (ih later).trans ⟨first ++ ['\n'], [], by simp⟩

theorem mergeFrom_blocks (held : List StructureElement) (current : StructureElement)
    (elements : List StructureElement) (some : held ≠ [])
    (holds : current.text = joinLines (held.map StructureElement.text)) :
    ∃ blocks : List (List StructureElement), blocks.flatten = held ++ elements ∧
      List.Forall₂ (fun block group => group.text = joinLines (block.map StructureElement.text))
        blocks ({ chunker with minChunkSize := 0 }.mergeFrom current elements) := by
  induction elements generalizing held current with
  | nil => exact ⟨[held], by simp, .cons holds .nil⟩
  | cons elem rest ih =>
      have flushed : ∃ blocks : List (List StructureElement),
          blocks.flatten = held ++ elem :: rest ∧
          List.Forall₂ (fun block group => group.text = joinLines (block.map StructureElement.text))
            blocks ({ chunker with minChunkSize := 0 }.keep current ++
              { chunker with minChunkSize := 0 }.mergeFrom elem rest) := by
        obtain ⟨blocks, whole, each⟩ := ih [elem] elem (by simp) (by simp [joinLines])
        refine ⟨held :: blocks, ?_, ?_⟩
        · rw [List.flatten_cons, whole]
          rfl
        · rw [keep_all]
          exact .cons holds each
      rw [mergeFrom]
      split_ifs
      · exact flushed
      · exact flushed
      · obtain ⟨blocks, whole, each⟩ := ih (held ++ [elem])
          { current with text := current.text ++ '\n' :: elem.text, stop := elem.stop }
          (by simp) (joinLines_snoc some holds elem)
        exact ⟨blocks, by rw [whole, List.append_assoc]; rfl, each⟩
      · exact flushed

theorem exists_mem_overlapFrom (previous : Text) {chunks : List StructureElement}
    {chunk : StructureElement} (member : chunk ∈ chunks) :
    ∃ overlapped ∈ chunker.overlapFrom previous chunks, chunk.text <:+: overlapped.text := by
  induction chunks generalizing previous with
  | nil => cases member
  | cons first rest ih =>
      rw [overlapFrom]
      rcases List.mem_cons.mp member with rfl | later
      · exact ⟨_, List.mem_cons_self, (List.suffix_append _ _).isInfix⟩
      · obtain ⟨overlapped, known, inside⟩ := ih _ later
        exact ⟨overlapped, List.mem_cons_of_mem _ known, inside⟩

theorem exists_mem_applyOverlap {chunks : List StructureElement} {chunk : StructureElement}
    (member : chunk ∈ chunks) :
    ∃ overlapped ∈ chunker.applyOverlap chunks, chunk.text <:+: overlapped.text := by
  unfold applyOverlap
  split
  · exact ⟨chunk, member, List.infix_refl _⟩
  · cases chunks with
    | nil => cases member
    | cons first rest =>
        rcases List.mem_cons.mp member with rfl | later
        · exact ⟨_, List.mem_cons_self, List.infix_refl _⟩
        · obtain ⟨overlapped, known, inside⟩ := exists_mem_overlapFrom first.text later
          exact ⟨overlapped, List.mem_cons_of_mem _ known, inside⟩

theorem exists_mem_splitFrom {elem : StructureElement} {current part : Text}
    {sentences : List Text} (words : strip part ≠ [])
    (among : part <:+: current ∨ part ∈ sentences) :
    ∃ piece ∈ chunker.splitFrom elem current sentences, strip part <:+: piece.text := by
  have here {current : Text} (inside : part <:+: current) :
      ∃ piece ∈ pieceOf elem current, strip part <:+: piece.text := by
    have some : current ≠ [] := by
      intro given
      rcases given with rfl
      rw [List.infix_nil.mp inside] at words
      exact words rfl
    rw [pieceOf, if_neg some]
    exact ⟨_, List.mem_singleton_self _, strip_infix_strip inside⟩
  induction sentences generalizing current with
  | nil =>
      rcases among with inside | none
      · exact here inside
      · cases none
  | cons sentence rest ih =>
      rw [splitFrom]
      split
      · -- the sentence starts a piece of its own
        rcases among with inside | member
        · obtain ⟨piece, made, found⟩ := here inside
          exact ⟨piece, List.mem_append_left _ made, found⟩
        · have later : part <:+: sentence ∨ part ∈ rest := by
            rcases List.mem_cons.mp member with rfl | later
            · exact .inl (List.infix_refl _)
            · exact .inr later
          obtain ⟨piece, made, found⟩ := ih later
          exact ⟨piece, List.mem_append_right _ made, found⟩
      · apply ih
        rcases among with inside | member
        · have some : current ≠ [] := by
            intro given
            rcases given with rfl
            rw [List.infix_nil.mp inside] at words
            exact words rfl
          rw [if_neg some]
          exact .inl (inside.trans (List.prefix_append _ _).isInfix)
        · rcases List.mem_cons.mp member with rfl | later
          · left
            split
            · exact List.infix_refl _
            · exact ⟨current ++ [' '], [], by simp⟩
          · exact .inr later

theorem exists_mem_chunk {text : Text} {group : StructureElement} {part : Text}
    (kept : group ∈ chunker.mergeSmallElements (detectStructure text))
    (inside : (group.text.length ≤ chunker.maxChunkSize ∧ part <:+: group.text) ∨
      (chunker.maxChunkSize < group.text.length ∧
        ∃ sentence ∈ splitSentences group.text, strip sentence ≠ [] ∧ part = strip sentence)) :
    ∃ chunk ∈ chunker.chunk text, part <:+: chunk.text := by
  have split : ∃ piece ∈ chunker.splitLargeChunks
      (chunker.mergeSmallElements (detectStructure text)), part <:+: piece.text := by
    rcases inside with ⟨small, within⟩ | ⟨large, sentence, among, words, rfl⟩
    · refine ⟨group, List.mem_flatMap.mpr ⟨group, kept, ?_⟩, within⟩
      rw [if_pos small]
      exact List.mem_singleton_self group
    · obtain ⟨piece, made, found⟩ := exists_mem_splitFrom words (.inr among)
      refine ⟨piece, List.mem_flatMap.mpr ⟨group, kept, ?_⟩, found⟩
      rw [if_neg (not_le.mpr large)]
      exact made
  obtain ⟨piece, known, within⟩ := split
  obtain ⟨overlapped, emitted, covers⟩ := exists_mem_applyOverlap known
  exact ⟨overlapped, emitted, within.trans covers⟩

variable (chunker) in
def Kept (elements : List StructureElement) (group : StructureElement) : Prop :=
  chunker.minChunkSize ≤ group.text.length ∨ (chunker.groups elements).getLast? = some group

theorem mem_mergeSmallElements {elements : List StructureElement} {group : StructureElement}
    (member : group ∈ chunker.groups elements) (kept : chunker.Kept elements group) :
    group ∈ chunker.mergeSmallElements elements := by
  unfold Kept at kept
  cases elements with
  | nil => cases member
  | cons first rest =>
      obtain ⟨earlier, last, all, merged⟩ := mergeFrom_eq first rest
      rw [groups, mergeSmallElements, all] at member kept
      rw [mergeSmallElements, merged]
      rcases List.mem_append.mp member with among | isLast
      · rcases kept with large | ends
        · exact List.mem_append_left _ (List.mem_filter.mpr ⟨among, by simpa using large⟩)
        · rw [List.getLast?_append, List.getLast?_singleton] at ends
          exact List.mem_append_right _ (by simpa using ends.symm)
      · exact List.mem_append_right _ isLast

variable (chunker) in
/-- The elements of a group that merging keeps are in a chunk; if the group is too large for one,
its sentences are. -/
structure Reached (document : Text) (block : List StructureElement) (group : StructureElement) :
    Prop where
  joined : group.text = joinLines (block.map StructureElement.text)
  whole : chunker.Kept (detectStructure document) group →
    group.text.length ≤ chunker.maxChunkSize →
    ∀ element ∈ block, ∃ chunk ∈ chunker.chunk document, element.text <:+: chunk.text
  sentences : chunker.Kept (detectStructure document) group →
    chunker.maxChunkSize < group.text.length →
    ∀ sentence ∈ splitSentences group.text, strip sentence ≠ [] →
      ∃ chunk ∈ chunker.chunk document, strip sentence <:+: chunk.text

theorem reached_of_joined {document : Text} {block : List StructureElement}
    {group : StructureElement}
    (joined : group.text = joinLines (block.map StructureElement.text))
    (member : group ∈ chunker.groups (detectStructure document)) :
    chunker.Reached document block group := by
  constructor
  · exact joined
  · intro kept small element among
    have inside : element.text <:+: group.text := by
      rw [joined]
      exact infix_joinLines (List.mem_map_of_mem among)
    exact exists_mem_chunk (mem_mergeSmallElements member kept) (.inl ⟨small, inside⟩)
  · intro kept large sentence among words
    exact exists_mem_chunk (mem_mergeSmallElements member kept)
      (.inr ⟨large, sentence, among, words, rfl⟩)

variable (chunker) in
/-- The elements are made of the lines that are not blank and have their offsets, up to a block of
several lines, and the groups that they are merged into reach the chunks. -/
structure CoversDocument (document : Text) : Prop where
  lines : Covers (detectStructure document) (splitLines document)
  offsets : Located document (detectStructure document)
  chunks : ∃ blocks : List (List StructureElement), blocks.flatten = detectStructure document ∧
    List.Forall₂ (chunker.Reached document) blocks (chunker.groups (detectStructure document))

theorem adaptive_covers (chunker : AdaptiveChunker) (document : Text) :
    chunker.CoversDocument document := by
  refine ⟨covers_detectStructure document, located_detectStructure document, ?_⟩
  have grouped : ∃ blocks : List (List StructureElement),
      blocks.flatten = detectStructure document ∧
      List.Forall₂ (fun block group => group.text = joinLines (block.map StructureElement.text))
        blocks (chunker.groups (detectStructure document)) := by
    cases detectStructure document with
    | nil => exact ⟨[], rfl, .nil⟩
    | cons first rest =>
        exact mergeFrom_blocks [first] first rest (List.cons_ne_nil _ _) (by simp [joinLines])
  obtain ⟨blocks, whole, each⟩ := grouped
  obtain ⟨length, pairs⟩ := List.forall₂_iff_zip.mp each
  refine ⟨blocks, whole, List.forall₂_iff_zip.mpr ⟨length, ?_⟩⟩
  intro block group member
  exact reached_of_joined (pairs member) (List.of_mem_zip member).2

end AdaptiveChunker

/-- The offsets take in the line break, and an element that is too large is split. -/
theorem elements_not_delimited :
    ¬ (∀ element ∈ detectStructure "a\nb".toList,
      slice "a\nb".toList element.start element.stop = element.text) ∧
    ¬ (∀ element ∈ detectStructure "One. Two.".toList,
      ∃ chunk ∈ AdaptiveChunker.chunk
          { maxChunkSize := 5, targetChunkSize := 5, overlapRatio := 0 } "One. Two.".toList,
        element.text <:+: chunk.text) := by
  decide +kernel

end RagSystem.Etl
