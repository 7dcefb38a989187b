import Mathlib.Tactic.Linarith
import RagSystem.Core.Rerank
import RagSystem.Data.StableSort

/-! Two-stage reranking (`TwoStageReranker`, `hybrid_rerank`). -/

namespace RagSystem.Core

open Transition

/-! The candidates by rank. -/

section Ranks

variable (config : Config) (scores : List ℚ)

/-- The greater score is ahead, and among equal ones the smaller index. -/
def Ahead (first second : ℚ × Nat) : Prop :=
  Outranks Prod.fst (fun first second => first.2 < second.2) first second

instance : DecidableRel Ahead := fun _ _ => inferInstanceAs (Decidable (_ ∨ _ ∧ _))

def aheadOf (index : Nat) : Nat :=
  (scores.zipIdx.filter (fun other => Ahead other (scores[index]?.getD 0, index))).length

def rankCut (topK : Nat) : Nat :=
  if config.adaptiveTopKEnabled then
    adaptiveTopK config ((sortDescending Prod.fst scores.zipIdx).map Prod.fst) topK
  else topK

variable {config scores} {topK place index : Nat}

theorem Ahead.asymm (first second : ℚ × Nat) (ahead : Ahead first second) :
    ¬ Ahead second first := by
  apply Outranks.asymm _ ahead
  intro first second below
  exact below.asymm

theorem pairwise_zipIdx {α : Type} (items : List α) :
    items.zipIdx.Pairwise (fun first second => first.2 < second.2) := by
  apply List.pairwise_iff_getElem.mpr
  intro first second _ _ order
  simpa using order

theorem pairwise_ahead :
    (sortDescending Prod.fst scores.zipIdx).Pairwise Ahead :=
  sortDescending_outranks (pairwise_zipIdx scores)

theorem mem_zipIdx_iff {score : ℚ} :
    (score, index) ∈ scores.zipIdx ↔ index < scores.length ∧ scores[index]?.getD 0 = score := by
  rw [List.mem_zipIdx_iff_getElem?]
  constructor
  · intro found
    refine ⟨(List.getElem?_eq_some_iff.mp found).1, ?_⟩
    rw [found, Option.getD_some]
  · intro given
    rcases given with ⟨inside, same⟩
    rw [List.getElem?_eq_getElem inside, Option.getD_some] at same
    rw [List.getElem?_eq_getElem inside, same]

theorem getElem?_rankIndices :
    (rankIndices config topK scores)[place]? = some index ↔
      place < rankCut config scores topK ∧ index < scores.length ∧
        aheadOf scores index = place := by
  have unfolded : rankIndices config topK scores =
      ((sortDescending Prod.fst scores.zipIdx).take (rankCut config scores topK)).map Prod.snd :=
    rfl
  have counted (item : ℚ × Nat) :
      ((sortDescending Prod.fst scores.zipIdx).filter (fun other => Ahead other item)).length =
        (scores.zipIdx.filter (fun other => Ahead other item)).length :=
    (sortDescending_perm.filter _).length_eq
  rw [unfolded, List.getElem?_map, Option.map_eq_some_iff, List.getElem?_take]
  by_cases inside : place < rankCut config scores topK
  · rw [if_pos inside]
    simp only [getElem?_iff_of_ordered Ahead.asymm pairwise_ahead, mem_sortDescending, counted,
      inside, true_and]
    constructor
    · intro given
      rcases given with ⟨⟨score, index⟩, ⟨listed, placed⟩, rfl⟩
      obtain ⟨bound, same⟩ := mem_zipIdx_iff.mp listed
      refine ⟨bound, ?_⟩
      rw [aheadOf, same]
      exact placed
    · intro given
      rcases given with ⟨bound, placed⟩
      exact ⟨(scores[index]?.getD 0, index), ⟨mem_zipIdx_iff.mpr ⟨bound, rfl⟩, placed⟩, rfl⟩
  · rw [if_neg inside]
    constructor
    · intro given
      rcases given with ⟨_, impossible, _⟩
      cases impossible
    · intro given
      rcases given with ⟨within, _⟩
      exact absurd within inside

theorem length_rankIndices :
    (rankIndices config topK scores).length = min (rankCut config scores topK) scores.length := by
  have unfolded : rankIndices config topK scores =
      ((sortDescending Prod.fst scores.zipIdx).take (rankCut config scores topK)).map Prod.snd :=
    rfl
  rw [unfolded, List.length_map, List.length_take, length_sortDescending, List.length_zipIdx]

/-- The index that `place` others are ahead of, and 0 behind the cut. -/
def rankedPosition (scores : List ℚ) (cut place : Nat) : Nat :=
  if place < cut then
    ((List.range scores.length).find? (fun index => aheadOf scores index = place)).getD 0
  else 0

theorem getD_rankIndices :
    (rankIndices config topK scores)[place]?.getD 0 =
      rankedPosition scores (rankCut config scores topK) place := by
  unfold rankedPosition
  cases found : (rankIndices config topK scores)[place]? with
  | some index =>
      obtain ⟨inside, bound, placed⟩ := getElem?_rankIndices.mp found
      rw [if_pos inside]
      cases search : (List.range scores.length).find?
          (fun index => aheadOf scores index = place) with
      | none =>
          have unplaced := List.find?_eq_none.mp search index (List.mem_range.mpr bound)
          simp [placed] at unplaced
      | some other =>
          have member := List.mem_range.mp (List.mem_of_find?_eq_some search)
          have placedToo : aheadOf scores other = place := by
            simpa using List.find?_some search
          have again := getElem?_rankIndices.mpr ⟨inside, member, placedToo⟩
          rw [found] at again
          rw [Option.getD_some, Option.getD_some, Option.some.inj again]
  | none =>
      split
      · next inside =>
          have missing : (List.range scores.length).find?
              (fun index => aheadOf scores index = place) = none := by
            apply List.find?_eq_none.mpr
            intro index bound placed
            have present := getElem?_rankIndices.mpr
              ⟨inside, List.mem_range.mp bound, by simpa using placed⟩
            rw [found] at present
            cases present
          rw [missing]
      · rfl

end Ranks

theorem rerankChunks_eq {helpers : Helpers} {config : Config} {services : Services}
    {query : String} {texts : List String} {topK : Nat} {scores : List ℚ} {caches later : Caches}
    (someTexts : texts ≠ [])
    (scored : rerankScores helpers services query (texts.map (truncateText config)) caches =
      (some scores, later)) :
    rerankChunks helpers config services query texts topK caches =
      (some (rankIndices config topK scores), later) := by
  have returned : (rerankScores helpers services query (texts.map (truncateText config))
      caches).1 = some scores := by
    rw [scored]
  rw [rerankChunks, if_neg someTexts, Attempt.bind_eq, Attempt.andThen_of_some returned, scored]
  rfl

/-! The two rerankers. -/

/-- A document with the scores that the first stage and the cross-encoder assign to it. -/
structure Candidate (δ : Type) where
  document : δ
  firstScore : ℚ
  crossScore : ℚ
  deriving DecidableEq, Repr

/-- A document with the entries that a reranker puts into it: the cross-encoder's score and the
combined one. -/
structure Reranked (δ : Type) where
  candidate : Candidate δ
  attached : ℚ
  score : ℚ
  deriving DecidableEq, Repr

variable {δ : Type} (config : Config)

/-- The loop of both rerankers: `cross_scores[i]` goes to the document at place `i`. -/
def combineScores (firstWeight crossWeight : ℚ) (crossScores : List ℚ)
    (candidates : List (Candidate δ)) : List (Reranked δ) :=
  candidates.zipIdx.map (fun item =>
    let cross := crossScores[item.2]?.getD 0
    ⟨item.1, cross, firstWeight * item.1.firstScore + crossWeight * cross⟩)

/-- `cross_encoder_score`: the indices that `rerank_chunks` returns, as numbers. -/
def crossEncoderScore (scores : List ℚ) : List ℚ :=
  (rankIndices config scores.length scores).map (fun index : Nat => (index : ℚ))

def topFast (fastTopK : Nat) (documents : List (Candidate δ)) : List (Candidate δ) :=
  (sortDescending Candidate.firstScore documents).take fastTopK

/-- `TwoStageReranker.rerank`. -/
def twoStageRerank (fastTopK finalTopK : Nat) (documents : List (Candidate δ)) :
    List (Reranked δ) :=
  let candidates := topFast fastTopK documents
  let crossScores := crossEncoderScore config (candidates.map Candidate.crossScore)
  (sortDescending Reranked.score
    (combineScores (2 / 10) (8 / 10) crossScores candidates)).take finalTopK

/-- `hybrid_rerank`; `none` is an `IndexError`. -/
def hybridRerank (colbertWeight crossEncoderWeight : ℚ) (documents : List (Candidate δ)) :
    Option (List (Reranked δ)) :=
  let crossScores := (rankIndices config 20 (documents.map Candidate.crossScore)).map
    (fun index : Nat => (index : ℚ))
  if crossScores.length < documents.length then none
  else
    some (sortDescending Reranked.score
      (combineScores colbertWeight crossEncoderWeight crossScores documents))

/-! What they should do. -/

section Own

variable (firstWeight crossWeight : ℚ)

def ownSum (candidate : Candidate δ) : ℚ :=
  firstWeight * candidate.firstScore + crossWeight * candidate.crossScore

/-- Every result carries the cross-encoder's score of its own document, the results stand in the
order of their own sums, and nothing that is left out has a greater one. -/
structure UsesOwnScores (considered : List (Candidate δ)) (returned : List (Reranked δ)) : Prop where
  attached : ∀ result ∈ returned, result.attached = result.candidate.crossScore
  ordered : returned.Pairwise (fun first second =>
    ownSum firstWeight crossWeight second.candidate ≤
      ownSum firstWeight crossWeight first.candidate)
  best : ∃ left, (returned.map Reranked.candidate ++ left).Perm considered ∧
    ∀ other ∈ left, ∀ result ∈ returned,
      ownSum firstWeight crossWeight other ≤ ownSum firstWeight crossWeight result.candidate

def withPositions (cut : Nat) (candidates : List (Candidate δ)) : List (Reranked δ) :=
  candidates.zipIdx.map (fun item =>
    let cross : ℚ := rankedPosition (candidates.map Candidate.crossScore) cut item.2
    ⟨item.1, cross, firstWeight * item.1.firstScore + crossWeight * cross⟩)

def Precedes (first second : Reranked δ × Nat) : Prop :=
  Outranks (fun item => item.1.score) (fun first second => first.2 < second.2) first second

instance : DecidableRel (Precedes (δ := δ)) := fun _ _ => inferInstanceAs (Decidable (_ ∨ _ ∧ _))

/-- Fewer than `count` results precede this one. -/
def AmongFirst (count : Nat) (results : List (Reranked δ)) (item : Reranked δ × Nat) : Prop :=
  (results.zipIdx.filter (fun other => Precedes other item)).length < count

/-- The positions are the scores for the first results, and no other candidate's own sum exceeds
theirs. -/
structure PositionsMatch (count : Nat) (results : List (Reranked δ)) : Prop where
  own : ∀ item ∈ results.zipIdx, AmongFirst count results item →
    item.1.attached = item.1.candidate.crossScore
  others : ∀ item ∈ results.zipIdx, ∀ other ∈ results.zipIdx, AmongFirst count results item →
    ¬ AmongFirst count results other →
    ownSum firstWeight crossWeight other.1.candidate ≤
      ownSum firstWeight crossWeight item.1.candidate

variable {firstWeight crossWeight}

theorem combineScores_eq {topK : Nat} {candidates : List (Candidate δ)} :
    combineScores firstWeight crossWeight
        ((rankIndices config topK (candidates.map Candidate.crossScore)).map
          (fun index : Nat => (index : ℚ))) candidates =
      withPositions firstWeight crossWeight
        (rankCut config (candidates.map Candidate.crossScore) topK) candidates := by
  apply List.map_congr_left
  intro item _
  have cross : (((rankIndices config topK (candidates.map Candidate.crossScore)).map
      (fun index : Nat => (index : ℚ)))[item.2]?).getD 0 =
      rankedPosition (candidates.map Candidate.crossScore)
        (rankCut config (candidates.map Candidate.crossScore) topK) item.2 := by
    rw [← getD_rankIndices, List.getElem?_map]
    exact Option.getD_map _ 0 _
  simp only [cross]

theorem Precedes.asymm (first second : Reranked δ × Nat) (precedes : Precedes first second) :
    ¬ Precedes second first := by
  apply Outranks.asymm _ precedes
  intro first second below
  exact below.asymm

def sortedItems (results : List (Reranked δ)) : List (Reranked δ × Nat) :=
  sortDescending (fun item => item.1.score) results.zipIdx

theorem sortedItems_precedes (results : List (Reranked δ)) :
    (sortedItems results).Pairwise Precedes :=
  sortDescending_outranks (pairwise_zipIdx results)

theorem map_sortedItems (results : List (Reranked δ)) :
    (sortedItems results).map Prod.fst = sortDescending Reranked.score results := by
  have mapped : (sortedItems results).map Prod.fst =
      sortDescending Reranked.score (results.zipIdx.map Prod.fst) := by
    apply List.map_insertionSort
    intro first _ second _
    exact Iff.rfl
  rw [mapped, List.zipIdx_map_fst]

theorem mem_take_sortedItems {count : Nat} {results : List (Reranked δ)} {item : Reranked δ × Nat}
    (member : item ∈ results.zipIdx) :
    item ∈ (sortedItems results).take count ↔ AmongFirst count results item := by
  have counted : ((sortedItems results).filter (fun other => Precedes other item)).length =
      (results.zipIdx.filter (fun other => Precedes other item)).length :=
    (sortDescending_perm.filter _).length_eq
  rw [mem_take_iff_of_ordered count Precedes.asymm (sortedItems_precedes results)
    (mem_sortDescending.mpr member), counted]
  exact Iff.rfl

theorem mem_drop_sortedItems {count : Nat} {results : List (Reranked δ)} {item : Reranked δ × Nat}
    (member : item ∈ results.zipIdx) :
    item ∈ (sortedItems results).drop count ↔ ¬ AmongFirst count results item := by
  rw [← mem_take_sortedItems member, mem_drop_iff_of_ordered count Precedes.asymm
    (sortedItems_precedes results) (mem_sortDescending.mpr member), mem_take_iff_of_ordered count
    Precedes.asymm (sortedItems_precedes results) (mem_sortDescending.mpr member)]

theorem sortedItems_perm (count : Nat) (results : List (Reranked δ)) :
    ((((sortedItems results).take count).map Prod.fst).map Reranked.candidate ++
        ((sortedItems results).drop count).map (fun item => item.1.candidate)).Perm
      (results.map Reranked.candidate) := by
  have split : (((sortedItems results).take count).map Prod.fst).map Reranked.candidate ++
      ((sortedItems results).drop count).map (fun item => item.1.candidate) =
      ((sortedItems results).map Prod.fst).map Reranked.candidate := by
    rw [List.map_map, List.map_map]
    conv_rhs => rw [← List.take_append_drop count (sortedItems results), List.map_append]
    rfl
  rw [split, map_sortedItems]
  exact sortDescending_perm.map _

theorem usesOwnScores_take_iff (count : Nat) {results : List (Reranked δ)}
    (combined : ∀ result ∈ results, result.score =
      firstWeight * result.candidate.firstScore + crossWeight * result.attached) :
    UsesOwnScores firstWeight crossWeight (results.map Reranked.candidate)
        ((sortDescending Reranked.score results).take count) ↔
      PositionsMatch firstWeight crossWeight count results := by
  have whole := sortedItems_perm count results
  rw [← map_sortedItems, ← List.map_take]
  constructor
  · intro uses
    constructor
    · intro item member among
      have taken := (mem_take_sortedItems member).mpr among
      exact uses.attached item.1 (List.mem_map_of_mem taken)
    · intro item member other otherMember among out
      obtain ⟨left, permuted, bounded⟩ := uses.best
      have taken := (mem_take_sortedItems member).mpr among
      have dropped := (mem_drop_sortedItems otherMember).mpr out
      have same := (List.perm_append_left_iff _).mp (permuted.trans whole.symm)
      have inLeft : other.1.candidate ∈ left :=
        same.mem_iff.mpr (List.mem_map.mpr ⟨other, dropped, rfl⟩)
      exact bounded _ inLeft item.1 (List.mem_map_of_mem taken)
  · intro positions
    have listed {item : Reranked δ × Nat} (inside : item ∈ sortedItems results) :
        item ∈ results.zipIdx := mem_sortDescending.mp inside
    have own (item : Reranked δ × Nat) (taken : item ∈ (sortedItems results).take count) :
        item.1.attached = item.1.candidate.crossScore := by
      have member := listed (List.mem_of_mem_take taken)
      exact positions.own item member ((mem_take_sortedItems member).mp taken)
    have sums (item : Reranked δ × Nat) (taken : item ∈ (sortedItems results).take count) :
        item.1.score = ownSum firstWeight crossWeight item.1.candidate := by
      have member := List.fst_mem_of_mem_zipIdx (listed (List.mem_of_mem_take taken))
      rw [combined item.1 member, own item taken, ownSum]
    refine ⟨?_, ?_, ((sortedItems results).drop count).map (fun item => item.1.candidate), whole,
      ?_⟩
    · intro result member
      obtain ⟨item, taken, rfl⟩ := List.mem_map.mp member
      exact own item taken
    · apply List.pairwise_map.mpr
      apply (sortedItems_precedes results).take.imp_of_mem
      intro first second firstIn secondIn precedes
      rw [← sums first firstIn, ← sums second secondIn]
      exact precedes.le
    · intro other otherIn result resultIn
      obtain ⟨out, dropped, rfl⟩ := List.mem_map.mp otherIn
      obtain ⟨item, taken, rfl⟩ := List.mem_map.mp resultIn
      have outListed := listed (List.mem_of_mem_drop dropped)
      have itemListed := listed (List.mem_of_mem_take taken)
      exact positions.others item itemListed out outListed
        ((mem_take_sortedItems itemListed).mp taken) ((mem_drop_sortedItems outListed).mp dropped)

theorem usesOwnScores_iff {results : List (Reranked δ)}
    (combined : ∀ result ∈ results, result.score =
      firstWeight * result.candidate.firstScore + crossWeight * result.attached) :
    UsesOwnScores firstWeight crossWeight (results.map Reranked.candidate)
        (sortDescending Reranked.score results) ↔
      ∀ result ∈ results, result.attached = result.candidate.crossScore := by
  constructor
  · intro uses result member
    exact uses.attached result (mem_sortDescending.mpr member)
  · intro own
    have sums (result : Reranked δ) (member : result ∈ results) :
        result.score = ownSum firstWeight crossWeight result.candidate := by
      rw [combined result member, own result member, ownSum]
    refine ⟨fun result member => own result (mem_sortDescending.mp member), ?_, [], ?_, by simp⟩
    · apply (pairwise_sortDescending Reranked.score results).imp_of_mem
      intro first second firstIn secondIn below
      rw [← sums first (mem_sortDescending.mp firstIn),
        ← sums second (mem_sortDescending.mp secondIn)]
      exact below
    · rw [List.append_nil]
      exact sortDescending_perm.map _

end Own

section Results

variable (firstWeight crossWeight : ℚ) (cut : Nat) (candidates : List (Candidate δ))

theorem map_candidate_withPositions :
    (withPositions firstWeight crossWeight cut candidates).map Reranked.candidate = candidates := by
  rw [withPositions, List.map_map]
  exact List.zipIdx_map_fst 0 candidates

theorem score_withPositions : ∀ result ∈ withPositions firstWeight crossWeight cut candidates,
    result.score = firstWeight * result.candidate.firstScore + crossWeight * result.attached := by
  intro result member
  obtain ⟨item, _, rfl⟩ := List.mem_map.mp member
  rfl

theorem attached_withPositions_iff :
    (∀ result ∈ withPositions firstWeight crossWeight cut candidates,
        result.attached = result.candidate.crossScore) ↔
      ∀ place candidate, candidates[place]? = some candidate → candidate.crossScore =
        (rankedPosition (candidates.map Candidate.crossScore) cut place : ℚ) := by
  constructor
  · intro own place candidate found
    have member : (candidate, place) ∈ candidates.zipIdx := List.mem_zipIdx_iff_getElem?.mpr found
    exact (own _ (List.mem_map.mpr ⟨_, member, rfl⟩)).symm
  · intro positions result member
    obtain ⟨⟨candidate, place⟩, inside, rfl⟩ := List.mem_map.mp member
    exact (positions place candidate (List.mem_zipIdx_iff_getElem?.mp inside)).symm

end Results

def stagePositions (fastTopK : Nat) (documents : List (Candidate δ)) : List (Reranked δ) :=
  withPositions (2 / 10) (8 / 10)
    (rankCut config ((topFast fastTopK documents).map Candidate.crossScore)
      (topFast fastTopK documents).length) (topFast fastTopK documents)

theorem twoStageRerank_iff (fastTopK finalTopK : Nat) (documents : List (Candidate δ)) :
    UsesOwnScores (2 / 10) (8 / 10) (topFast fastTopK documents)
        (twoStageRerank config fastTopK finalTopK documents) ↔
      PositionsMatch (2 / 10) (8 / 10) finalTopK (stagePositions config fastTopK documents) := by
  have whole := usesOwnScores_take_iff finalTopK (score_withPositions (2 / 10) (8 / 10)
    (rankCut config ((topFast fastTopK documents).map Candidate.crossScore)
      (topFast fastTopK documents).length) (topFast fastTopK documents))
  rw [map_candidate_withPositions] at whole
  rw [stagePositions, ← whole, twoStageRerank, crossEncoderScore, List.length_map, combineScores_eq]

theorem hybridRerank_iff (colbertWeight crossEncoderWeight : ℚ)
    (documents : List (Candidate δ)) :
    (∃ returned, hybridRerank config colbertWeight crossEncoderWeight documents = some returned ∧
        UsesOwnScores colbertWeight crossEncoderWeight documents returned) ↔
      documents.length ≤ rankCut config (documents.map Candidate.crossScore) 20 ∧
        ∀ place candidate, documents[place]? = some candidate → candidate.crossScore =
          (rankedPosition (documents.map Candidate.crossScore)
            (rankCut config (documents.map Candidate.crossScore) 20) place : ℚ) := by
  have whole := usesOwnScores_iff (score_withPositions colbertWeight crossEncoderWeight
    (rankCut config (documents.map Candidate.crossScore) 20) documents)
  rw [map_candidate_withPositions, attached_withPositions_iff] at whole
  rw [← whole]
  simp only [hybridRerank, combineScores_eq, List.length_map, length_rankIndices]
  by_cases short : documents.length ≤ rankCut config (documents.map Candidate.crossScore) 20
  · rw [if_neg (by omega)]
    simp [short]
  · rw [if_pos (by omega)]
    simp [short]

/-- Both rerankers use the cross-encoder's scores exactly where the ranked positions are these
scores; the hybrid one must not have more documents than are ranked either. -/
theorem rerankers_iff (config : Config) (fastTopK finalTopK : Nat)
    (colbertWeight crossEncoderWeight : ℚ) (documents : List (Candidate δ)) :
    (UsesOwnScores (2 / 10) (8 / 10) (topFast fastTopK documents)
        (twoStageRerank config fastTopK finalTopK documents) ↔
      PositionsMatch (2 / 10) (8 / 10) finalTopK (stagePositions config fastTopK documents)) ∧
    ((∃ returned, hybridRerank config colbertWeight crossEncoderWeight documents = some returned ∧
        UsesOwnScores colbertWeight crossEncoderWeight documents returned) ↔
      documents.length ≤ rankCut config (documents.map Candidate.crossScore) 20 ∧
        ∀ place candidate, documents[place]? = some candidate → candidate.crossScore =
          (rankedPosition (documents.map Candidate.crossScore)
            (rankCut config (documents.map Candidate.crossScore) 20) place : ℚ)) :=
  ⟨twoStageRerank_iff config fastTopK finalTopK documents,
    hybridRerank_iff config colbertWeight crossEncoderWeight documents⟩

def equalFirst : List (Candidate String) := [⟨"a", 1 / 2, 9 / 10⟩, ⟨"b", 1 / 2, 1 / 10⟩]

theorem rerankers_fail :
    (twoStageRerank {} 20 5 equalFirst).map (fun result =>
        (result.candidate.document, result.attached)) = [("b", 1), ("a", 0)] ∧
      ¬ UsesOwnScores (2 / 10) (8 / 10) (topFast 20 equalFirst)
        (twoStageRerank {} 20 5 equalFirst) ∧
      hybridRerank {} (3 / 10) (7 / 10)
        (List.replicate 21 (⟨"a", 1 / 2, 9 / 10⟩ : Candidate String)) = none := by
  have results : twoStageRerank {} 20 5 equalFirst =
      [⟨⟨"b", 1 / 2, 1 / 10⟩, 1, 9 / 10⟩, ⟨⟨"a", 1 / 2, 9 / 10⟩, 0, 1 / 10⟩] := by
    decide +kernel
  refine ⟨by rw [results]; rfl, ?_, by decide +kernel⟩
  intro uses
  have attached := uses.attached
  rw [results] at attached
  exact absurd (attached _ List.mem_cons_self) (by decide +kernel)

end RagSystem.Core
