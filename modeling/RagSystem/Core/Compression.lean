import RagSystem.Core.Context
import RagSystem.Data.Packing

/-! Texts compressed to a token budget (`compress_context` and `compress_with_perplexity` of
`proxy/app/core/token_optimizer.py`). -/

namespace RagSystem.Core.Compression

variable (helpers : Helpers)

def solidTexts (chunks : List ChunkDict) : List (String × Nat) :=
  (chunks.map (fun chunk => stripText chunk.text)).zipIdx.filter (fun entry => entry.1 ≠ "")

/-- The loop of three strategies: the candidates that fit are kept, the first that does not fit is
cut to the tokens left when these are more than `floor`. -/
def packParts (keep : String → String) (cost : String → Nat) (floor budget : Int) :
    (used : Int) → List String → List String
  | _, [] => []
  | used, candidate :: rest =>
      if budget < used + cost candidate then
        let remaining := budget - used
        if floor < remaining then [clip (remaining * 4).toNat candidate] else []
      else keep candidate :: packParts keep cost floor budget (used + cost candidate) rest

/-- The `per_chunk` of `_compress_relevance`. -/
def perChunk (chunks : List ChunkDict) (maxTokens : Int) : Nat :=
  (max 50 (maxTokens / max 1 chunks.length)).toNat

def compressRelevance (chunks : List ChunkDict) (maxTokens : Int) : String :=
  let share := perChunk chunks maxTokens
  "\n\n".intercalate (packParts (clip (share * 4)) (fun _ => share) 50 maxTokens 0
    ((solidTexts chunks).map Prod.fst))

def propositionsOf (chunks : List ChunkDict) : List String :=
  (solidTexts chunks).flatMap fun entry =>
    ((sentencesOf entry.1).map stripText).filter (fun sentence => 20 < sentence.length)

def assemblePropositions (maxTokens : Int) : (result : String) → List String → String
  | result, [] => result
  | result, proposition :: rest =>
      let candidate := result ++ proposition ++ " "
      if maxTokens < estimateTokenCost helpers candidate then result
      else assemblePropositions maxTokens candidate rest

def compressProposition (chunks : List ChunkDict) (maxTokens : Int) : String :=
  stripText (assemblePropositions helpers maxTokens "" (propositionsOf chunks))

def compressSummary (chunks : List ChunkDict) (maxTokens : Int) : String :=
  "\n\n".intercalate (packParts id (estimateTokenCost helpers) 20 maxTokens 0
    ((solidTexts chunks).map (fun entry => " ".intercalate ((sentencesOf entry.1).take 2))))

def compressHierarchical (chunks : List ChunkDict) (maxTokens : Int) : String :=
  "\n\n".intercalate (packParts id (estimateTokenCost helpers) 50 maxTokens 0
    ((solidTexts chunks).map (fun entry => segmentOf entry.2 entry.1)))

/-- `compress_context`; an unknown strategy is taken for "relevance". -/
def compressContext (chunks : List ChunkDict) (maxTokens : Int) (strategy : String) : String :=
  if chunks = [] then ""
  else if strategy = "relevance" then compressRelevance chunks maxTokens
  else if strategy = "proposition" then compressProposition helpers chunks maxTokens
  else if strategy = "summary" then compressSummary helpers chunks maxTokens
  else if strategy = "hierarchical" then compressHierarchical helpers chunks maxTokens
  else compressRelevance chunks maxTokens

/-! Compression of one text. -/

def wordsOf (text : String) : List String := runsOf helpers.isWord (helpers.lower text)

/-- `word_importance.get(word, 0.5)`, and `vocab.get(word, 0.5)`: rare words of the text count
more. -/
def wordImportance (words : List String) (word : String) : ℚ :=
  if word ∈ words then 1 - (words.count word : ℚ) / words.length else 1 / 2

/-- `surprises.get(word, 0.5)` over `_compute_token_surprise(text, vocab)`. -/
def tokenSurprise (text : String) (words : List String) (word : String) : ℚ :=
  if word ∈ wordsOf helpers text then wordImportance words word else 1 / 2

def averageOf (weight : String → ℚ) (sentence : String) : ℚ :=
  let words := wordsOf helpers sentence
  if words = [] then 0 else (words.map weight).sum / words.length

def scoredSentences (weight : String → ℚ) (text : String) : List String :=
  sortDescending (averageOf helpers weight)
    (((sentencesOf text).map stripText).filter (· ≠ ""))

def assembleSentences (budget : Int) : (result : String) → List String → String
  | result, [] => result
  | result, sentence :: rest =>
      let candidate := result ++ sentence ++ " "
      if budget < estimateTokenCost helpers candidate then
        let remainingChars := budget * 4 - result.length
        if 20 < remainingChars then result ++ clip remainingChars.toNat sentence else result
      else assembleSentences budget (result ++ sentence ++ " ") rest

def compressByPerplexity (text : String) (budget : Int) : String :=
  let words := wordsOf helpers text
  if words = [] then text
  else
    stripText (assembleSentences helpers budget ""
      (scoredSentences helpers (tokenSurprise helpers text words) text))

def compressByKeyword (text : String) (budget : Int) : String :=
  let words := wordsOf helpers text
  if words = [] then text
  else
    stripText (assembleSentences helpers budget ""
      (scoredSentences helpers (wordImportance words) text))

def compressWithPerplexity (text : String) (budget : Int) (strategy : String) : String :=
  if stripText text = "" then ""
  else if strategy = "none" then text
  else if (estimateTokenCost helpers text : Int) ≤ budget then text
  else if strategy = "perplexity" then compressByPerplexity helpers text budget
  else compressByKeyword helpers text budget

variable {helpers}

theorem compressByPerplexity_eq (text : String) (budget : Int) :
    compressByPerplexity helpers text budget = compressByKeyword helpers text budget := by
  have same : tokenSurprise helpers text (wordsOf helpers text) =
      wordImportance (wordsOf helpers text) := by
    funext word
    unfold tokenSurprise
    split
    · rfl
    · rename_i missing
      rw [wordImportance, if_neg missing]
  rw [compressByPerplexity, compressByKeyword, same]

theorem hierarchicalParts_eq {maxTokens used : Nat} (within : used ≤ maxTokens) (index : Nat)
    (chunks : List ChunkDict) :
    (hierarchicalParts helpers maxTokens index used chunks).map Prod.snd =
      packParts id (estimateTokenCost helpers) 50 maxTokens used
        ((((chunks.map (fun chunk => stripText chunk.text)).zipIdx index).filter
          (fun entry => entry.1 ≠ "")).map (fun entry => segmentOf entry.2 entry.1)) := by
  induction chunks generalizing index used with
  | nil => rfl
  | cons chunk rest ih =>
      rw [hierarchicalParts, List.map_cons, List.zipIdx_cons]
      by_cases blank : stripText chunk.text = ""
      · rw [if_pos blank, ih within, List.filter_cons_of_neg (by simpa using blank)]
      · rw [if_neg blank, List.filter_cons_of_pos (by simpa using blank), List.map_cons, packParts]
        by_cases exceeds :
            maxTokens < used + estimateTokenCost helpers (segmentOf index (stripText chunk.text))
        · have inner : (maxTokens : Int) <
              used + estimateTokenCost helpers (segmentOf index (stripText chunk.text)) := by omega
          have clipped : (((maxTokens : Int) - used) * 4).toNat = (maxTokens - used) * 4 := by omega
          rw [if_pos exceeds, if_pos inner]
          dsimp only
          rw [clipped]
          by_cases more : 50 < maxTokens - used
          · rw [if_pos more, if_pos (by omega)]
            rfl
          · rw [if_neg more, if_neg (by omega)]
            rfl
        · have inner : ¬ (maxTokens : Int) <
              used + estimateTokenCost helpers (segmentOf index (stripText chunk.text)) := by omega
          rw [if_neg exceeds, if_neg inner, List.map_cons, ih (by omega)]
          push_cast
          rfl

theorem compressHierarchical_eq (chunks : List ChunkDict) (maxTokens : Nat) :
    compressHierarchical helpers chunks maxTokens =
      (Core.compressContext helpers chunks maxTokens).text := by
  rw [compressHierarchical, Core.compressContext, hierarchicalParts_eq (Nat.zero_le maxTokens)]
  rfl

end RagSystem.Core.Compression
