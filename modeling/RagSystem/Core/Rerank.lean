import RagSystem.Core.Retrieval

/-! Reranking with cached scores and the adaptive cut (`proxy/app/core/rerank.py`). -/

namespace RagSystem.Core

open Transition

variable (helpers : Helpers) (config : Config) (services : Services)

/-- `_truncate_text`. -/
def truncateText (text : String) : String := clip (config.rerankerMaxLength * 4) text

def rerankKey (query text : String) : String := "rerank:" ++ helpers.md5 (query ++ "|" ++ text)

def aboveChord (scores : List ℚ) : List ℚ :=
  let first := scores.headD 0
  let span := first - scores.getLastD 0
  scores.zipIdx.map (fun item => item.1 - (first - span * (item.2 / (scores.length - 1 : ℚ))))

def bestAbove (bound : ℚ) (numbers : List ℚ) : Option Nat :=
  (numbers.zipIdx.foldl
    (fun (best : ℚ × Option Nat) item => if best.1 < item.1 then (item.1, some item.2) else best)
    (bound, none)).2

/-- `adaptive_top_k` with sensitivity 1/2. -/
def adaptiveTopK (sortedScores : List ℚ) (requested : Nat) : Nat :=
  let floor := max 1 config.adaptiveTopKMin
  let count := min sortedScores.length requested
  let scores := sortedScores.take count
  let span := scores.headD 0 - scores.getLastD 0
  if requested = 0 then 0
  else if count ≤ floor then count
  else if span ≤ 1 / 10 ^ 9 then requested
  else
    match bestAbove (5 / 100 * span) (aboveChord scores) with
    | none => requested
    | some best =>
        let knee := best + 1
        let relaxed := knee + (roundHalfEven (((requested : ℚ) - knee) * (1 / 2))).toNat
        max floor (min requested relaxed)

def cachedScores (now : ℚ) : List String → InMemoryCache ℚ → List (Option ℚ) × InMemoryCache ℚ
  | [], ranks => ([], ranks)
  | key :: rest, ranks =>
      let cached := InMemoryCache.get now key ranks
      let later := cachedScores now rest cached.2
      (cached.1 :: later.1, later.2)

/-- The scores of the texts: the cached ones, and predictions, which are cached, for the others. -/
def rerankScores (query : String) (texts : List String) : Attempt Caches (List ℚ) := fun caches =>
  let keys := texts.map (rerankKey helpers query)
  let cached := cachedScores services.startedAt keys caches.ranks
  if none ∈ cached.1 then
    match services.reranker with
    | none => (none, { caches with ranks := cached.2 })
    | some predict =>
        let scores := List.zipWith (fun hit text => hit.getD (predict query text)) cached.1 texts
        let uncached := ((cached.1.zip texts).filter (fun item => item.1 = none)).map Prod.snd
        let ranks := uncached.foldl
          (fun ranks text => InMemoryCache.set services.startedAt 3600
            (rerankKey helpers query text) (predict query text) ranks)
          cached.2
        (some scores, { caches with ranks := ranks })
  else (some (cached.1.map (fun hit => hit.getD 0)), { caches with ranks := cached.2 })

def rankIndices (topK : Nat) (scores : List ℚ) : List Nat :=
  let indexed := sortDescending Prod.fst scores.zipIdx
  let effective :=
    if config.adaptiveTopKEnabled then adaptiveTopK config (indexed.map Prod.fst) topK else topK
  (indexed.take effective).map Prod.snd

/-- `rerank_chunks`: the indices of the best texts. -/
def rerankChunks (query : String) (texts : List String) (topK : Nat) :
    Attempt Caches (List Nat) := do
  if texts = [] then pure []
  else
    let scores ← rerankScores helpers services query (texts.map (truncateText config))
    pure (rankIndices config topK scores)

theorem rankIndices_singleton {topK : Nat} (asked : topK ≠ 0) (score : ℚ) :
    rankIndices config topK [score] = [0] := by
  have one : min 1 topK = 1 := by omega
  have some : ∃ rest, topK = rest + 1 := Nat.exists_eq_succ_of_ne_zero asked
  obtain ⟨rest, rfl⟩ := some
  have floor : 1 ≤ max 1 config.adaptiveTopKMin := by omega
  simp only [rankIndices, List.zipIdx_cons, List.zipIdx_nil, sortDescending,
    List.insertionSort_cons, List.insertionSort_nil, List.orderedInsert_nil, List.map_cons,
    List.map_nil]
  split
  · simp [adaptiveTopK, floor]
  · simp

theorem rankIndices_zero (scores : List ℚ) : rankIndices config 0 scores = [] := by
  simp [rankIndices, adaptiveTopK]

variable {helpers config services} in
theorem rerankChunks_returns {query : String} {texts : List String} {topK : Nat} :
    Attempt.Returns (fun indices => indices ≠ [] → topK ≠ 0)
      (rerankChunks helpers config services query texts topK) := by
  unfold rerankChunks
  split
  · exact Attempt.returns_value (fun some => absurd rfl some)
  · refine Attempt.returns_andThen (Attempt.returns_trivial _) ?_
    intro scores _
    refine Attempt.returns_value ?_
    intro some given
    rcases given with rfl
    exact some (rankIndices_zero config scores)

end RagSystem.Core
