import Mathlib.Analysis.SpecialFunctions.Log.Base
import RagSystem.Data.Builtins

/-! The retrieval metrics of `proxy/app/core/evaluation.py`: MRR, recall, nDCG and precision at
`k`. -/

namespace RagSystem.Core.Evaluation

/-- `1.0 / rank` of the first relevant document, where there is one. -/
def reciprocalRank (retrieved : List String) (relevant : Finset String) : ℚ :=
  match retrieved.findIdx? (· ∈ relevant) with
  | some place => 1 / (place + 1 : Nat)
  | none => 0

def computeMrr (retrievedLists : List (List String)) (relevantSets : List (Finset String)) : ℚ :=
  if retrievedLists = [] then 0
  else
    let (rrSum, queryCount) := (retrievedLists.zip relevantSets).foldl
      (fun (state : ℚ × Nat) query =>
        if query.2 = ∅ then state
        else (state.1 + reciprocalRank query.1 query.2, state.2 + 1)) (0, 0)
    if 0 < queryCount then rrSum / queryCount else 0

def computeRecallAtK (retrieved : List String) (relevant : Finset String) (k : Nat) : ℚ :=
  if relevant = ∅ then 1
  else (((retrieved.take k).toFinset ∩ relevant).card : ℚ) / relevant.card

/-- `sum(rel / math.log2(i + 2) for i, rel in enumerate(gains))`. -/
noncomputable def discountedSum (gains : List ℝ) : ℝ :=
  (gains.zipIdx.map (fun gain => gain.1 / Real.logb 2 ((gain.2 + 2 : Nat) : ℝ))).sum

/-- The weight of a place: `1 / math.log2(place + 2)`. -/
noncomputable def discount (place : Nat) : ℝ := 1 / Real.logb 2 ((place + 2 : Nat) : ℝ)

noncomputable def computeNdcgAtK (retrieved : List String) (relevant : Finset String) (k : Nat) :
    ℝ :=
  if relevant = ∅ then 1
  else
    let binaryRelevance : List ℝ :=
      (retrieved.take k).map (fun doc => if doc ∈ relevant then 1 else 0)
    let idealRelevance : List ℝ :=
      (List.replicate (min relevant.card k) (1 : ℝ) ++
        List.replicate (k - relevant.card) 0).insertionSort (fun first second => second ≤ first)
    let dcg := discountedSum (binaryRelevance.take k)
    let idcg := discountedSum (idealRelevance.take k)
    if 0 < idcg then dcg / idcg else 0

def computePrecisionAtK (retrieved : List String) (relevant : Finset String) (k : Nat) : ℚ :=
  if retrieved = [] then 0
  else if 0 < k then (((retrieved.take k).toFinset ∩ relevant).card : ℚ) / k
  else 0

noncomputable def mean (values : List ℝ) : ℝ :=
  if values = [] then 0 else values.sum / values.length

noncomputable def computeAllMetrics (retrievedLists : List (List String))
    (relevantSets : List (Finset String)) : List (String × ℝ) :=
  let queries := retrievedLists.zip relevantSets
  [("mrr", (computeMrr retrievedLists relevantSets : ℝ))] ++
    [5, 10, 20].map (fun k => (s!"recall@{k}",
      mean (queries.map (fun query => (computeRecallAtK query.1 query.2 k : ℝ))))) ++
    [5, 10].map (fun k => (s!"ndcg@{k}",
      mean (queries.map (fun query => computeNdcgAtK query.1 query.2 k)))) ++
    [5].map (fun k => (s!"precision@{k}",
      mean (queries.map (fun query => (computePrecisionAtK query.1 query.2 k : ℝ))))) ++
    [("num_queries", (retrievedLists.length : ℝ))]

end RagSystem.Core.Evaluation
