import Mathlib.Data.List.DropRight
import RagSystem.Core.Compression

/-! Which compressed texts stay within their budget. -/

namespace RagSystem.Core.Compression

open Etl.MarkdownText (isSpace strip)

/-- Whitespace is what `str.strip` strips, and no word character. -/
structure TextClasses (helpers : Helpers) : Prop where
  space : ∀ char, helpers.isSpace char = isSpace char
  plain : ∀ char, isSpace char = true → helpers.isWord char = false

/-! The estimate, from the length of a text and its tokens. -/

section Estimate

variable (helpers : Helpers)

def tokensIn (text : List Char) : Nat :=
  ((text.splitOnP (fun char => !helpers.isWord char)).filter (· ≠ [])).length +
    (text.filter (fun char => !helpers.isWord char && !helpers.isSpace char)).length

/-- `len(_tokenize_words(text))`. -/
def tokensOf (text : String) : Nat := tokensIn helpers text.toList

def costOf (length tokens : Nat) : Nat :=
  if length = 0 then 0
  else (max 1 (length / 4) * 4 + max 1 (tokens * 13 / 10) * 6) / 10

def joinedLength (separator : Nat) (pieces : List String) : Nat :=
  (pieces.map String.length).sum + separator * (pieces.length - 1)

/-- By length and tokens, the joined pieces cost no more than the budget. -/
def Fits (separator : Nat) (budget : Int) (pieces : List String) : Prop :=
  (costOf (joinedLength separator pieces) (pieces.map (tokensOf helpers)).sum : Int) ≤ budget

end Estimate

variable {helpers : Helpers}

theorem estimateTokenCost_eq (text : String) :
    estimateTokenCost helpers text = costOf text.length (tokensOf helpers text) := by
  have tokens : (runsOf helpers.isWord text).length =
      ((text.toList.splitOnP (fun char => !helpers.isWord char)).filter (· ≠ [])).length := by
    rw [runsOf, List.length_map]
  simp only [estimateTokenCost, costOf, tokensOf, tokensIn, tokens]
  by_cases empty : text = ""
  · simp [empty]
  · have long : text.length ≠ 0 := by simpa using empty
    rw [if_neg empty, if_neg long]
    omega

theorem costOf_mono {first second : Nat} (shorter : first ≤ second) (tokens : Nat) :
    costOf first tokens ≤ costOf second tokens := by
  unfold costOf
  split
  · omega
  · rw [if_neg (by omega)]
    omega

@[simp] theorem tokensIn_nil : tokensIn helpers [] = 0 := by
  simp [tokensIn]

theorem tokensIn_append (classes : TextClasses helpers) {space : Char}
    (blank : isSpace space = true) (first second : List Char) :
    tokensIn helpers (first ++ space :: second) =
      tokensIn helpers first + tokensIn helpers second := by
  have plain := classes.plain space blank
  have hidden := classes.space space
  rw [blank] at hidden
  rw [tokensIn, List.splitOnP_append_cons _ _ (by simp [plain]), List.filter_append,
    List.filter_append, List.filter_cons_of_neg (by simp [hidden]), List.length_append,
    List.length_append, tokensIn, tokensIn]
  omega

theorem tokensIn_spaces (classes : TextClasses helpers) {spaces : List Char}
    (blank : ∀ char ∈ spaces, isSpace char = true) (text : List Char) :
    tokensIn helpers (spaces ++ text) = tokensIn helpers text := by
  induction spaces with
  | nil => rfl
  | cons space spaces ih =>
      have one := tokensIn_append classes (blank space List.mem_cons_self) [] (spaces ++ text)
      rw [List.nil_append, tokensIn_nil, Nat.zero_add] at one
      have later : ∀ char ∈ spaces, isSpace char = true :=
        fun char member => blank char (List.mem_cons_of_mem space member)
      rw [List.cons_append, one, ih later]

theorem tokensIn_trailing (classes : TextClasses helpers) {spaces : List Char}
    (blank : ∀ char ∈ spaces, isSpace char = true) (text : List Char) :
    tokensIn helpers (text ++ spaces) = tokensIn helpers text := by
  cases spaces with
  | nil => rw [List.append_nil]
  | cons space spaces =>
      have rest := tokensIn_spaces classes
        (fun char member => blank char (List.mem_cons_of_mem space member)) []
      rw [tokensIn_append classes (blank space List.mem_cons_self), ← List.append_nil spaces, rest]
      simp

theorem tokensIn_strip (classes : TextClasses helpers) (text : List Char) :
    tokensIn helpers (strip text) = tokensIn helpers text := by
  have front (text : List Char) :
      tokensIn helpers (text.dropWhile isSpace) = tokensIn helpers text := by
    conv_rhs => rw [← List.takeWhile_append_dropWhile (p := isSpace) (l := text)]
    exact (tokensIn_spaces classes (fun char member => List.mem_takeWhile_imp member) _).symm
  have back (text : List Char) :
      tokensIn helpers (text.reverse.dropWhile isSpace).reverse = tokensIn helpers text := by
    conv_rhs => rw [← List.reverse_reverse text,
      ← List.takeWhile_append_dropWhile (p := isSpace) (l := text.reverse), List.reverse_append]
    refine (tokensIn_trailing classes (fun char member => ?_) _).symm
    exact List.mem_takeWhile_imp (List.mem_reverse.mp member)
  rw [strip, back, front]

theorem estimateTokenCost_stripText (classes : TextClasses helpers) (text : String) :
    estimateTokenCost helpers (stripText text) ≤ estimateTokenCost helpers text := by
  have tokens : tokensOf helpers (stripText text) = tokensOf helpers text := by
    rw [tokensOf, stripText, String.toList_ofList, tokensIn_strip classes, tokensOf]
  have shorter : (stripText text).length ≤ text.length := by
    have inside := (Etl.MarkdownText.strip_infix_self text.toList).length_le
    rwa [stripText, String.length_ofList, ← String.length_toList]
  rw [estimateTokenCost_eq, estimateTokenCost_eq, tokens]
  exact costOf_mono shorter _

/-! Joined texts. -/

theorem joinedLength_cons (separator : Nat) (piece : String) {pieces : List String}
    (some : pieces ≠ []) :
    joinedLength separator (piece :: pieces) =
      piece.length + separator + joinedLength separator pieces := by
  have long : 0 < pieces.length := List.length_pos_iff.mpr some
  obtain ⟨count, same⟩ : ∃ count, pieces.length = count + 1 := ⟨pieces.length - 1, by omega⟩
  rw [joinedLength, joinedLength, List.map_cons, List.sum_cons, List.length_cons, same,
    Nat.add_sub_cancel, Nat.add_sub_cancel, Nat.mul_succ]
  omega

theorem length_intercalate (separator : String) (pieces : List String) :
    (separator.intercalate pieces).length = joinedLength separator.length pieces := by
  induction pieces with
  | nil => rfl
  | cons piece pieces ih =>
      by_cases none : pieces = []
      · simp [none, joinedLength]
      · rw [String.intercalate_cons_of_ne_nil none, joinedLength_cons _ _ none, ← ih,
          String.length_append, String.length_append]

theorem tokensOf_intercalate (classes : TextClasses helpers) {separator : String} {first : Char}
    {others : List Char} (made : separator.toList = first :: others)
    (blank : ∀ char ∈ separator.toList, isSpace char = true) (pieces : List String) :
    tokensOf helpers (separator.intercalate pieces) = (pieces.map (tokensOf helpers)).sum := by
  induction pieces with
  | nil => simp [tokensOf]
  | cons piece pieces ih =>
      by_cases none : pieces = []
      · simp [none]
      · rw [made] at blank
        rw [String.intercalate_cons_of_ne_nil none, List.map_cons, List.sum_cons, ← ih, tokensOf,
          String.toList_append, String.toList_append, made, List.append_assoc, List.cons_append,
          tokensIn_append classes (blank first List.mem_cons_self),
          tokensIn_spaces classes fun char member => blank char (List.mem_cons_of_mem first member)]
        rfl

theorem fits_iff (classes : TextClasses helpers) {separator : String} {first : Char}
    {others : List Char} (made : separator.toList = first :: others)
    (blank : ∀ char ∈ separator.toList, isSpace char = true) (budget : Int)
    (pieces : List String) :
    (estimateTokenCost helpers (separator.intercalate pieces) : Int) ≤ budget ↔
      Fits helpers separator.length budget pieces := by
  rw [estimateTokenCost_eq, length_intercalate, tokensOf_intercalate classes made blank, Fits]

/-! The strategies that pack pieces. -/

def keptPieces (keep : String → String) (cost : String → Nat) (floor budget : Int)
    (candidates : List String) : List String :=
  let whole := fitting cost budget candidates
  let left := budget - totalCost cost whole
  whole.map keep ++ (if floor < left then
    ((candidates.drop whole.length).head?.map (clip (left * 4).toNat)).toList else [])

theorem packParts_eq {keep : String → String} {cost : String → Nat} {floor budget : Int}
    (used : Int) (candidates : List String) :
    packParts keep cost floor budget used candidates =
      keptPieces keep cost floor (budget - used) candidates := by
  induction candidates generalizing used with
  | nil => simp [packParts, keptPieces, fitting]
  | cons candidate rest ih =>
      by_cases exceeds : budget < used + cost candidate
      · have inner : budget - used < cost candidate := by omega
        simp only [packParts, keptPieces, fitting, exceeds, inner, if_true, totalCost_nil]
        by_cases more : floor < budget - used <;> simp [more]
      · have inner : ¬ budget - used < cost candidate := by omega
        have left : budget - (used + cost candidate) = budget - used - cost candidate := by omega
        have rest : budget - used - (cost candidate + totalCost cost
            (fitting cost (budget - used - cost candidate) rest) : Nat) =
              budget - used - cost candidate -
                totalCost cost (fitting cost (budget - used - cost candidate) rest) := by
          push_cast
          omega
        simp only [packParts, keptPieces, fitting, exceeds, inner, if_false, ih, left,
          totalCost_cons, rest, List.map_cons, List.length_cons, List.drop_succ_cons,
          List.cons_append]

section Pieces

variable (helpers) (chunks : List ChunkDict) (budget : Int)

def relevancePieces : List String :=
  keptPieces (clip (perChunk chunks budget * 4)) (fun _ => perChunk chunks budget) 50 budget
    ((solidTexts chunks).map Prod.fst)

def summaryPieces : List String :=
  keptPieces id (estimateTokenCost helpers) 20 budget
    ((solidTexts chunks).map (fun entry => " ".intercalate ((sentencesOf entry.1).take 2)))

def hierarchicalPieces : List String :=
  keptPieces id (estimateTokenCost helpers) 50 budget
    ((solidTexts chunks).map (fun entry => segmentOf entry.2 entry.1))

/-- The pieces that the strategy puts together cost no more than the budget; propositions never
do. -/
def ContextFits (strategy : String) : Prop :=
  if chunks = [] ∨ strategy = "proposition" then 0 ≤ budget
  else if strategy = "summary" then Fits helpers 2 budget (summaryPieces helpers chunks budget)
  else if strategy = "hierarchical" then
    Fits helpers 2 budget (hierarchicalPieces helpers chunks budget)
  else Fits helpers 2 budget (relevancePieces chunks budget)

end Pieces

theorem blankLine_iff (classes : TextClasses helpers) (budget : Int) (pieces : List String) :
    (estimateTokenCost helpers ("\n\n".intercalate pieces) : Int) ≤ budget ↔
      Fits helpers 2 budget pieces :=
  fits_iff classes (rfl : "\n\n".toList = '\n' :: ['\n']) (by simp [isSpace]) budget pieces

theorem estimate_empty : estimateTokenCost helpers "" = 0 := by
  simp [estimateTokenCost]

theorem assemblePropositions_within {maxTokens : Int} {result : String}
    (within : (estimateTokenCost helpers result : Int) ≤ maxTokens) (propositions : List String) :
    (estimateTokenCost helpers (assemblePropositions helpers maxTokens result propositions) : Int) ≤
      maxTokens := by
  induction propositions generalizing result with
  | nil => exact within
  | cons proposition rest ih =>
      rw [assemblePropositions]
      by_cases exceeds :
          maxTokens < estimateTokenCost helpers (result ++ proposition ++ " ")
      · simpa [exceeds] using within
      · simpa [exceeds] using ih (by omega)

theorem compressProposition_within (classes : TextClasses helpers) {maxTokens : Int}
    (some : 0 ≤ maxTokens) (chunks : List ChunkDict) :
    (estimateTokenCost helpers (compressProposition helpers chunks maxTokens) : Int) ≤
      maxTokens := by
  have stripped := estimateTokenCost_stripText classes
    (assemblePropositions helpers maxTokens "" (propositionsOf chunks))
  have nothing : (estimateTokenCost helpers "" : Int) ≤ maxTokens := by
    rw [estimate_empty]
    exact some
  have within := assemblePropositions_within nothing (propositionsOf chunks)
  rw [compressProposition]
  omega

theorem compressContext_within_iff (classes : TextClasses helpers) (chunks : List ChunkDict)
    (budget : Int) (strategy : String) :
    (estimateTokenCost helpers (compressContext helpers chunks budget strategy) : Int) ≤ budget ↔
      ContextFits helpers chunks budget strategy := by
  have parts (keep : String → String) (cost : String → Nat) (floor : Int)
      (candidates : List String) :
      packParts keep cost floor budget 0 candidates =
        keptPieces keep cost floor budget candidates := by
    rw [packParts_eq, sub_zero]
  unfold compressContext ContextFits
  by_cases none : chunks = []
  · simp [none, estimate_empty]
  by_cases proposition : strategy = "proposition"
  · subst proposition
    simp only [none, if_false, or_true, if_true, String.reduceEq]
    constructor
    · intro within
      omega
    · exact fun some => compressProposition_within classes some chunks
  · simp only [none, proposition, or_self, if_false]
    by_cases summary : strategy = "summary"
    · subst summary
      simp only [String.reduceEq, if_true, if_false]
      rw [compressSummary, parts]
      exact blankLine_iff classes budget _
    by_cases hierarchical : strategy = "hierarchical"
    · subst hierarchical
      simp only [String.reduceEq, if_true, if_false]
      rw [compressHierarchical, parts]
      exact blankLine_iff classes budget _
    · simp only [summary, hierarchical, if_false, ite_self]
      rw [compressRelevance, parts]
      exact blankLine_iff classes budget _

/-! Stripping joined sentences. -/

theorem strip_eq_rdropWhile {text : List Char}
    (solid : ∀ char, text.head? = some char → isSpace char = false) :
    strip text = text.rdropWhile isSpace := by
  cases text with
  | nil => rfl
  | cons char text =>
      rw [strip, List.dropWhile_cons_of_neg (by simp [solid char rfl]), List.rdropWhile]

theorem rdropWhile_append (first second : List Char) :
    (first ++ second).rdropWhile isSpace =
      if second.rdropWhile isSpace = [] then first.rdropWhile isSpace
      else first ++ second.rdropWhile isSpace := by
  have gone : second.rdropWhile isSpace = [] ↔
      (second.reverse.dropWhile isSpace).isEmpty = true := by
    rw [List.rdropWhile, List.reverse_eq_nil_iff, List.isEmpty_iff]
  rw [List.rdropWhile, List.reverse_append, List.dropWhile_append]
  by_cases blank : second.rdropWhile isSpace = []
  · rw [if_pos blank, if_pos (gone.mp blank), List.rdropWhile]
  · rw [if_neg blank, if_neg (fun empty => blank (gone.mpr empty)), List.reverse_append,
      List.reverse_reverse, List.rdropWhile]

theorem rdropWhile_of_strip {text : List Char} (clean : strip text = text) :
    text.rdropWhile isSpace = text := by
  have solid : ∀ char, text.head? = some char → isSpace char = false := by
    intro char first
    rw [← clean] at first
    exact Etl.MarkdownText.head_strip first
  rw [← strip_eq_rdropWhile solid, clean]

/-- A sentence as the strategies take it: stripped, and not empty. -/
structure Clean (sentence : String) : Prop where
  stripped : strip sentence.toList = sentence.toList
  visible : sentence ≠ ""

theorem clean_stripText {text : String} (visible : stripText text ≠ "") :
    Clean (stripText text) where
  stripped := by
    rw [stripText, String.toList_ofList, strip_eq_rdropWhile fun _ => Etl.MarkdownText.head_strip]
    exact List.rdropWhile_idempotent isSpace (text.toList.dropWhile isSpace)
  visible := visible

theorem Clean.solid {sentence : String} (clean : Clean sentence) :
    ∀ char, sentence.toList.head? = some char → isSpace char = false := by
  intro char first
  rw [← clean.stripped] at first
  exact Etl.MarkdownText.head_strip first

def spaced : List String → String
  | [] => ""
  | sentence :: rest => sentence ++ " " ++ spaced rest

theorem spaced_append (first second : List String) :
    spaced (first ++ second) = spaced first ++ spaced second := by
  induction first with
  | nil => simp [spaced]
  | cons sentence rest ih => simp only [List.cons_append, spaced, ih, String.append_assoc]

theorem length_spaced (sentences : List String) :
    (spaced sentences).length = (sentences.map String.length).sum + sentences.length := by
  induction sentences with
  | nil => rfl
  | cons sentence rest ih =>
      have one : " ".length = 1 := rfl
      rw [spaced, String.length_append, String.length_append, ih, one, List.map_cons, List.sum_cons,
        List.length_cons]
      omega

theorem tokensOf_spaced (classes : TextClasses helpers) (sentences : List String) (last : String) :
    tokensOf helpers (spaced sentences ++ last) =
      (sentences.map (tokensOf helpers)).sum + tokensOf helpers last := by
  induction sentences with
  | nil => simp [spaced]
  | cons sentence rest ih =>
      have split : (spaced (sentence :: rest) ++ last).toList =
          sentence.toList ++ ' ' :: (spaced rest ++ last).toList := by
        simp [spaced]
      rw [tokensOf, split, tokensIn_append classes (by decide), List.map_cons, List.sum_cons,
        Nat.add_assoc, ← ih]
      rfl

def lastPiece (cut : String) : List String :=
  if cut.toList.rdropWhile isSpace = [] then []
  else [String.ofList (cut.toList.rdropWhile isSpace)]

theorem intercalate_visible (separator : String) {pieces : List String} (some : pieces ≠ [])
    (visible : ∀ piece ∈ pieces, piece ≠ "") : separator.intercalate pieces ≠ "" := by
  cases pieces with
  | nil => contradiction
  | cons piece rest =>
      have own := visible piece List.mem_cons_self
      by_cases none : rest = []
      · simpa [none] using own
      · rw [String.intercalate_cons_of_ne_nil none]
        simp [own]

theorem visible_pieces {sentences : List String} (clean : ∀ sentence ∈ sentences, Clean sentence)
    (cut : String) : ∀ piece ∈ sentences ++ lastPiece cut, piece ≠ "" := by
  intro piece member
  rcases List.mem_append.mp member with whole | last
  · exact (clean piece whole).visible
  · unfold lastPiece at last
    split at last
    · simp at last
    · rename_i visible
      rw [List.mem_singleton.mp last]
      simpa using visible

theorem rdropWhile_spaced {sentences : List String} (clean : ∀ sentence ∈ sentences, Clean sentence)
    (cut : String) :
    (spaced sentences ++ cut).toList.rdropWhile isSpace =
      (" ".intercalate (sentences ++ lastPiece cut)).toList := by
  induction sentences with
  | nil =>
      rw [spaced, String.empty_append, List.nil_append, lastPiece]
      split
      · rename_i blank
        simpa using blank
      · simp
  | cons sentence rest ih =>
      have inner := ih fun other member => clean other (List.mem_cons_of_mem sentence member)
      have own := clean sentence List.mem_cons_self
      have split : (spaced (sentence :: rest) ++ cut).toList =
          sentence.toList ++ ([' '] ++ (spaced rest ++ cut).toList) := by
        simp [spaced]
      have space : [' '].rdropWhile isSpace = [] := by decide
      rw [split, rdropWhile_append, rdropWhile_append [' '], inner]
      by_cases none : rest ++ lastPiece cut = []
      · have single : sentence :: rest ++ lastPiece cut = [sentence] := by
          rw [List.cons_append, none]
        simp [none, single, space, rdropWhile_of_strip own.stripped]
      · have visible := intercalate_visible " " none (visible_pieces
          (fun other member => clean other (List.mem_cons_of_mem sentence member)) cut)
        have joined : " ".intercalate (sentence :: rest ++ lastPiece cut) =
            sentence ++ " " ++ " ".intercalate (rest ++ lastPiece cut) := by
          rw [List.cons_append, String.intercalate_cons_of_ne_nil none]
        have shown : (" ".intercalate (rest ++ lastPiece cut)).toList ≠ [] := by
          intro empty
          exact visible (String.toList_eq_nil_iff.mp empty)
        rw [joined, if_neg shown, if_neg (by simp), String.toList_append, String.toList_append,
          List.append_assoc]
        rfl

/-! The strategies for one text. -/

section Sentences

variable (helpers)

/-- The sentences that fit whole, behind so many characters and tokens; each costs its space too. -/
def wholeSentences (budget : Int) : (length tokens : Nat) → List String → List String
  | _, _, [] => []
  | length, tokens, sentence :: rest =>
      let longer := length + sentence.length + 1
      let more := tokens + tokensOf helpers sentence
      if budget < costOf longer more then []
      else sentence :: wholeSentences budget longer more rest

/-- The sentences that fit, and of the next one four characters for each token left, when these are
more than twenty. -/
def sentencePieces (budget : Int) (sentences : List String) : List String :=
  let whole := wholeSentences helpers budget 0 0 sentences
  let left := budget * 4 - (spaced whole).length
  whole ++ (if 20 < left then
    (sentences.drop whole.length).head?.elim [] (fun next => lastPiece (clip left.toNat next))
  else [])

/-- The text costs no more than the budget, or has words and the pieces kept of it do not. -/
def TextFits (text : String) (budget : Int) : Prop :=
  if stripText text = "" then 0 ≤ budget
  else (estimateTokenCost helpers text : Int) ≤ budget ∨
    wordsOf helpers text ≠ [] ∧ Fits helpers 1 budget (sentencePieces helpers budget
      (scoredSentences helpers (wordImportance (wordsOf helpers text)) text))

end Sentences

def cutOf (budget : Int) (whole rest : List String) : String :=
  let left := budget * 4 - (spaced whole).length
  if 20 < left then rest.head?.elim "" (clip left.toNat) else ""

theorem estimate_spaced (classes : TextClasses helpers) (sentences : List String) :
    estimateTokenCost helpers (spaced sentences) =
      costOf (spaced sentences).length (sentences.map (tokensOf helpers)).sum := by
  have tokens := tokensOf_spaced classes sentences ""
  rw [String.append_empty] at tokens
  have nothing : tokensOf helpers "" = 0 := tokensIn_nil
  rw [estimateTokenCost_eq, tokens, nothing, Nat.add_zero]

theorem assembleSentences_eq (classes : TextClasses helpers) (budget : Int)
    (done sentences : List String) :
    let whole := wholeSentences helpers budget (spaced done).length
      (done.map (tokensOf helpers)).sum sentences
    assembleSentences helpers budget (spaced done) sentences =
      spaced (done ++ whole) ++ cutOf budget (done ++ whole) (sentences.drop whole.length) := by
  induction sentences generalizing done with
  | nil => simp [assembleSentences, wholeSentences, cutOf]
  | cons sentence rest ih =>
      have next : spaced done ++ sentence ++ " " = spaced (done ++ [sentence]) := by
        simp [spaced_append, spaced, String.append_assoc]
      have longer : (spaced (done ++ [sentence])).length =
          (spaced done).length + sentence.length + 1 := by
        rw [length_spaced, length_spaced]
        simp
        omega
      have more : ((done ++ [sentence]).map (tokensOf helpers)).sum =
          (done.map (tokensOf helpers)).sum + tokensOf helpers sentence := by
        simp
      have estimate : estimateTokenCost helpers (spaced done ++ sentence ++ " ") =
          costOf ((spaced done).length + sentence.length + 1)
            ((done.map (tokensOf helpers)).sum + tokensOf helpers sentence) := by
        rw [next, estimate_spaced classes, longer, more]
      simp only [assembleSentences, wholeSentences, estimate]
      by_cases exceeds : budget < costOf ((spaced done).length + sentence.length + 1)
          ((done.map (tokensOf helpers)).sum + tokensOf helpers sentence)
      · simp only [exceeds, if_true, List.append_nil, List.length_nil, List.drop_zero, cutOf,
          List.head?_cons, Option.elim_some]
        split <;> simp
      · have inner := ih (done ++ [sentence])
        rw [longer, more, ← next] at inner
        simp only [exceeds, if_false, inner, List.length_cons, List.drop_succ_cons,
          List.append_assoc, List.cons_append, List.nil_append]

theorem clean_scoredSentences (weight : String → ℚ) (text : String) :
    ∀ sentence ∈ scoredSentences helpers weight text, Clean sentence := by
  intro sentence member
  have inside := mem_sortDescending.mp member
  rw [List.mem_filter] at inside
  obtain ⟨source, _, rfl⟩ := List.mem_map.mp inside.1
  exact clean_stripText (by simpa using inside.2)

theorem solid_clip {sentence : String} (clean : Clean sentence) (length : Nat) :
    ∀ char, (clip length sentence).toList.head? = some char → isSpace char = false := by
  intro char first
  apply clean.solid char
  rw [clip, String.toList_ofList] at first
  cases length with
  | zero => simp at first
  | succ length =>
      rwa [List.head?_take, if_neg (by omega)] at first

theorem solid_spaced {sentences : List String} (clean : ∀ sentence ∈ sentences, Clean sentence)
    {cut : String} (solid : ∀ char, cut.toList.head? = some char → isSpace char = false) :
    ∀ char, (spaced sentences ++ cut).toList.head? = some char → isSpace char = false := by
  intro char first
  cases sentences with
  | nil => exact solid char (by simpa [spaced] using first)
  | cons sentence rest =>
      have own := clean sentence List.mem_cons_self
      have visible : sentence.toList ≠ [] := by simpa using own.visible
      obtain ⟨head, others, made⟩ := List.exists_cons_of_ne_nil visible
      apply own.solid char
      rw [made]
      simpa [spaced, made] using first

theorem prefix_wholeSentences (budget : Int) (length tokens : Nat) (sentences : List String) :
    wholeSentences helpers budget length tokens sentences <+: sentences := by
  induction sentences generalizing length tokens with
  | nil => exact List.prefix_rfl
  | cons sentence rest ih =>
      rw [wholeSentences]
      split
      · exact List.nil_prefix
      · exact List.cons_prefix_cons.mpr ⟨rfl, ih _ _⟩

theorem sentencePieces_eq (budget : Int) (sentences : List String) :
    let whole := wholeSentences helpers budget 0 0 sentences
    sentencePieces helpers budget sentences =
      whole ++ lastPiece (cutOf budget whole (sentences.drop whole.length)) := by
  have nothing : lastPiece "" = [] := rfl
  simp only [sentencePieces, cutOf]
  congr 1
  split
  · cases (sentences.drop (wholeSentences helpers budget 0 0 sentences).length).head? with
    | none => exact nothing.symm
    | some next => rfl
  · exact nothing.symm

theorem stripText_assembleSentences (classes : TextClasses helpers) (budget : Int)
    {sentences : List String} (clean : ∀ sentence ∈ sentences, Clean sentence) :
    stripText (assembleSentences helpers budget "" sentences) =
      " ".intercalate (sentencePieces helpers budget sentences) := by
  have loop : assembleSentences helpers budget "" sentences =
      spaced (wholeSentences helpers budget 0 0 sentences) ++
        cutOf budget (wholeSentences helpers budget 0 0 sentences)
          (sentences.drop (wholeSentences helpers budget 0 0 sentences).length) :=
    assembleSentences_eq classes budget [] sentences
  have whole : ∀ sentence ∈ wholeSentences helpers budget 0 0 sentences, Clean sentence :=
    fun sentence member =>
      clean sentence ((prefix_wholeSentences budget 0 0 sentences).subset member)
  have solid : ∀ char, (cutOf budget (wholeSentences helpers budget 0 0 sentences)
      (sentences.drop (wholeSentences helpers budget 0 0 sentences).length)).toList.head? =
        some char → isSpace char = false := by
    simp only [cutOf]
    split
    · cases next : (sentences.drop
          (wholeSentences helpers budget 0 0 sentences).length).head? with
      | none => simp
      | some sentence =>
          have inside := List.mem_of_mem_drop (List.mem_of_mem_head? next)
          exact solid_clip (clean sentence inside) _
    · simp
  rw [loop, stripText, strip_eq_rdropWhile (solid_spaced whole solid), rdropWhile_spaced whole,
    String.ofList_toList, sentencePieces_eq]

theorem oneSpace_iff (classes : TextClasses helpers) (budget : Int) (pieces : List String) :
    (estimateTokenCost helpers (" ".intercalate pieces) : Int) ≤ budget ↔
      Fits helpers 1 budget pieces :=
  fits_iff classes (rfl : " ".toList = ' ' :: []) (by simp [isSpace]) budget pieces

theorem compressWithPerplexity_within_iff (classes : TextClasses helpers) (text : String)
    (budget : Int) {strategy : String} (compresses : strategy ≠ "none") :
    (estimateTokenCost helpers (compressWithPerplexity helpers text budget strategy) : Int) ≤
        budget ↔
      TextFits helpers text budget := by
  rw [compressWithPerplexity, TextFits]
  by_cases blank : stripText text = ""
  · simp [blank, estimate_empty]
  by_cases cheap : (estimateTokenCost helpers text : Int) ≤ budget
  · simp [blank, compresses, cheap]
  · rw [if_neg blank, if_neg blank, if_neg compresses, if_neg cheap, compressByPerplexity_eq,
      ite_self, compressByKeyword]
    by_cases wordless : wordsOf helpers text = []
    · simp [wordless, cheap]
    · rw [if_neg wordless,
        stripText_assembleSentences classes budget (clean_scoredSentences _ text),
        oneSpace_iff classes]
      simp [wordless, cheap]

/-- `Helpers.plain` with the whitespace of `str.strip`. -/
def plainTexts : Helpers := { Helpers.plain with isSpace := isSpace }

theorem plainTexts_classes : TextClasses plainTexts where
  space _ := rfl
  plain char blank := by
    have code : char.toNat < 33 ∨ 127 < char.toNat := by
      simp only [isSpace, List.mem_cons, List.not_mem_nil, or_false, Bool.or_eq_true,
        Bool.and_eq_true, decide_eq_true_eq] at blank
      omega
    have low : char ≠ '_' := by rintro rfl; simp at code
    have outside : ∀ first last : Char, 33 ≤ first.toNat → last.toNat ≤ 127 →
        ¬ (first.val ≤ char.val ∧ char.val ≤ last.val) := by
      intro first last above below given
      rcases given with ⟨after, before⟩
      have after : first.toNat ≤ char.toNat := after
      have before : char.toNat ≤ last.toNat := before
      omega
    have upper : char.isUpper = false :=
      decide_eq_false (outside 'A' 'Z' (by decide) (by decide))
    have lower : char.isLower = false :=
      (Bool.decide_and _ _).symm.trans (decide_eq_false (outside 'a' 'z' (by decide) (by decide)))
    have digit : char.isDigit = false :=
      (Bool.decide_and _ _).symm.trans (decide_eq_false (outside '0' '9' (by decide) (by decide)))
    change ((char.isUpper || char.isLower || char.isDigit) || decide (char = '_')) = false
    rw [upper, lower, digit, decide_eq_false low]
    rfl

def longWords : List ChunkDict :=
  [⟨{ text := some "infrastructures" }, none⟩, ⟨{ text := some "troubleshooting" }, none⟩]

end RagSystem.Core.Compression
