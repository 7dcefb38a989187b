import Mathlib.Data.Finset.Card
import RagSystem.Core.Pipeline
import RagSystem.Data.Spread

/-! The retrieval evaluator of `proxy/app/core/retrieval_evaluator.py` on chunks with and without
scores, and that better scores are never judged worse. -/

namespace RagSystem.Core.RetrievalEvaluator

open Spread

/-- A retrieved chunk; each of its two scores is missing, `None` or a number. -/
structure RetrievedChunk where
  score : Option (Option ℚ) := none
  innerScore : Option (Option ℚ) := none
  text : String := ""
  deriving DecidableEq, Repr

/-- `chunk.get("score", chunk.get("_score", None))` -/
def RetrievedChunk.found (chunk : RetrievedChunk) : Option ℚ :=
  chunk.score.getD (chunk.innerScore.getD none)

section Evaluation

variable (lower : String → String) (isWord : Char → Bool)

/-- `set(re.findall(r"\w+", text.lower()))` -/
def tokens (text : String) : Finset (List Char) :=
  (((lower text).toList.splitOnP (fun char => !isWord char)).filter
    (fun word => !word.isEmpty)).toFinset

def computeTextOverlapScores (query : String) (chunks : List RetrievedChunk) : List ℚ :=
  let queryTokens := tokens lower isWord query
  if queryTokens = ∅ then []
  else chunks.map (fun chunk =>
    let textTokens := tokens lower isWord chunk.text
    if chunk.text = "" ∨ textTokens = ∅ then 0
    else ((queryTokens ∩ textTokens).card : ℚ) / (queryTokens ∪ textTokens).card)

/-- `evaluate_quality`: without any score the words of query and chunks are compared. -/
def evaluateQuality (query : String) (retrievedChunks : List RetrievedChunk) : ℚ :=
  if retrievedChunks = [] then 0
  else
    let scores := retrievedChunks.filterMap RetrievedChunk.found
    if scores = [] then
      Core.evaluateQuality (computeTextOverlapScores lower isWord query retrievedChunks)
    else Core.evaluateQuality scores

end Evaluation

def Action.worth : Action → Nat
  | .use => 3
  | .rewrite => 2
  | .expand => 1
  | .fallback => 0

section Summands

def credit (score : ℚ) : ℚ :=
  if 7 / 10 < score then 1 else if 4 / 10 < score then 1 / 2 else 0

theorem credit_mono (low high : ℚ) (rises : low ≤ high) : credit low ≤ credit high := by
  rw [credit, credit]
  split_ifs with lowHigh highHigh highMedium lowMedium highHigh highMedium
  all_goals linarith

variable {scores : List ℚ}

theorem sum_credit :
    (scores.map credit).sum =
      ((scores.filter (fun score => 7 / 10 < score)).length : ℚ) +
        ((scores.filter (fun score => 4 / 10 < score ∧ score ≤ 7 / 10)).length : ℚ) / 2 := by
  induction scores with
  | nil => simp
  | cons score scores ih =>
      rw [List.map_cons, List.sum_cons, ih, credit, List.filter_cons, List.filter_cons]
      by_cases high : 7 / 10 < score
      · have outside : ¬ (4 / 10 < score ∧ score ≤ 7 / 10) := fun medium => by linarith [medium.2]
        simp only [high, outside, if_true, decide_true, decide_false,
          Bool.false_eq_true, if_false,
          List.length_cons, Nat.cast_add, Nat.cast_one]
        ring
      · by_cases medium : 4 / 10 < score
        · have inside : 4 / 10 < score ∧ score ≤ 7 / 10 := ⟨medium, not_lt.mp high⟩
          simp only [high, medium, inside, if_true, if_false, decide_true, decide_false,
            Bool.false_eq_true, and_self, List.length_cons, Nat.cast_add, Nat.cast_one]
          ring
        · simp only [high, medium, false_and, if_false, decide_false, Bool.false_eq_true]
          ring

def confidence (scores : List ℚ) : ℚ :=
  mean scores * (4 / 10) + mean (scores.map credit) * (3 / 10) +
    min 1 ((scores.length : ℚ) / 5) * (2 / 10) + 1 / (1 + variance scores) * (1 / 10)

theorem evaluateQuality_eq (nonempty : scores ≠ []) :
    Core.evaluateQuality scores = min 1 (max 0 (confidence scores)) := by
  rw [Core.evaluateQuality, if_neg nonempty, confidence, mean, mean, variance, sum_credit,
    List.length_map]
  rfl

theorem confidence_mono {first second : List ℚ} (rises : RisesTo first second) :
    confidence first ≤ confidence second := by
  have average := rises.mean_le
  have decay := rises.decay_le
  have coverage : mean (first.map credit) ≤ mean (second.map credit) := by
    rw [mean, mean, List.length_map, List.length_map, rises.length_eq]
    exact div_le_div_of_nonneg_right (rises.sum_map_le credit credit_mono) (Nat.cast_nonneg _)
  rw [confidence, confidence, rises.length_eq]
  linarith

theorem evaluateQuality_mem :
    0 ≤ Core.evaluateQuality scores ∧ Core.evaluateQuality scores ≤ 1 := by
  by_cases empty : scores = []
  · subst empty
    constructor <;> norm_num [Core.evaluateQuality]
  · rw [evaluateQuality_eq empty]
    exact ⟨le_min zero_le_one (le_max_left _ _), min_le_left _ _⟩

theorem evaluateQuality_le {first second : List ℚ} (rises : RisesTo first second) :
    Core.evaluateQuality first ≤ Core.evaluateQuality second := by
  by_cases empty : first = []
  · subst empty
    obtain rfl : second = [] := List.length_eq_zero_iff.mp rises.length_eq.symm
    exact le_rfl
  · have filled : second ≠ [] := by
      intro none
      exact empty (List.length_eq_zero_iff.mp (by rw [rises.length_eq, none]; rfl))
    rw [evaluateQuality_eq empty, evaluateQuality_eq filled]
    exact min_le_min_left 1 (max_le_max_left 0 (confidence_mono rises))

theorem getAction_mono {low high : ℚ} (rises : low ≤ high) :
    Action.worth (getAction low) ≤ Action.worth (getAction high) := by
  rw [getAction, getAction]
  split_ifs with first second third fourth fifth sixth
  all_goals first | (exfalso; linarith) | decide

end Summands

section Chunks

variable (lower : String → String) (isWord : Char → Bool) (query : String)

/-- The chunks of both lists carry scores between zero and one, those of the second at least those
of the first. -/
def ScoresRise (first second : List RetrievedChunk) : Prop :=
  List.Forall₂ (fun low high => ∃ lowScore highScore, low.found = some lowScore ∧
    high.found = some highScore ∧ 0 ≤ lowScore ∧ lowScore ≤ highScore ∧ highScore ≤ 1) first second

theorem risesTo_of_scoresRise {first second : List RetrievedChunk}
    (rises : ScoresRise first second) :
    RisesTo (first.filterMap RetrievedChunk.found) (second.filterMap RetrievedChunk.found) ∧
      (first.filterMap RetrievedChunk.found).length = first.length := by
  induction rises with
  | nil => exact ⟨List.Forall₂.nil, rfl⟩
  | cons pair _ ih =>
      obtain ⟨lowScore, highScore, here, there, bounds⟩ := pair
      rw [List.filterMap_cons_some here, List.filterMap_cons_some there]
      exact ⟨List.Forall₂.cons bounds ih.1, congrArg (· + 1) ih.2⟩

theorem evaluateQuality_scored {chunks : List RetrievedChunk}
    (scored : (chunks.filterMap RetrievedChunk.found).length = chunks.length) :
    evaluateQuality lower isWord query chunks =
      Core.evaluateQuality (chunks.filterMap RetrievedChunk.found) := by
  rw [evaluateQuality]
  by_cases empty : chunks = []
  · subst empty
    rfl
  · have filled : chunks.filterMap RetrievedChunk.found ≠ [] := by
      intro none
      rw [none] at scored
      exact empty (List.length_eq_zero_iff.mp scored.symm)
    rw [if_neg empty, if_neg filled]

/-- Raising scores never lowers the quality and never leads to a worse action. -/
theorem evaluateQuality_rises {first second : List RetrievedChunk}
    (rises : ScoresRise first second) :
    0 ≤ evaluateQuality lower isWord query first ∧
      evaluateQuality lower isWord query first ≤ evaluateQuality lower isWord query second ∧
      evaluateQuality lower isWord query second ≤ 1 ∧
      Action.worth (getAction (evaluateQuality lower isWord query first)) ≤
        Action.worth (getAction (evaluateQuality lower isWord query second)) := by
  obtain ⟨known, scored⟩ := risesTo_of_scoresRise rises
  have also_scored : (second.filterMap RetrievedChunk.found).length = second.length := by
    rw [← known.length_eq, scored, List.Forall₂.length_eq rises]
  rw [evaluateQuality_scored lower isWord query scored,
    evaluateQuality_scored lower isWord query also_scored]
  have better := evaluateQuality_le known
  exact ⟨evaluateQuality_mem.1, better, evaluateQuality_mem.2, getAction_mono better⟩

/-- One strong hit in place of a weak one, from two scores that were equal. -/
theorem evaluateQuality_rises_spread :
    evaluateQuality id Char.isAlphanum "vpn"
        [{ score := some (some (3 / 10)) }, { innerScore := some (some (3 / 10)) }] ≤
      evaluateQuality id Char.isAlphanum "vpn"
        [{ score := some (some 1) }, { innerScore := some (some (3 / 10)) }] :=
  (evaluateQuality_rises id Char.isAlphanum "vpn"
    (List.Forall₂.cons ⟨3 / 10, 1, rfl, rfl, by norm_num, by norm_num, by norm_num⟩
      (List.Forall₂.cons ⟨3 / 10, 3 / 10, rfl, rfl, by norm_num, by norm_num, by norm_num⟩
        List.Forall₂.nil))).2.1

end Chunks

end RagSystem.Core.RetrievalEvaluator
