import Mathlib.Tactic.Linarith
import Mathlib.Tactic.Positivity
import Mathlib.Tactic.Ring
import RagSystem.Core.Retrieval
import RagSystem.Data.StableSort

/-! Reciprocal rank fusion and the canonical sum of reciprocal ranks. -/

namespace RagSystem.Core

/-- `reciprocal_rank_fusion`. -/
def reciprocalRankFusionWith (k : Nat) (dense sparse : List Hit) : List Hit :=
  let sparseSentinel := k + max sparse.length 1
  let denseSentinel := k + max dense.length 1
  let scores := addRanks (fun rank => computeRrfScore k rank sparseSentinel) dense ∅
  let scores := addRanks (fun rank => computeRrfScore k denseSentinel rank) sparse scores
  let sortedIds := (sortDescending Prod.snd scores.entries).map Prod.fst
  let allResults := Dict.ofList ((dense ++ sparse).map (fun hit => (hit.point.id, hit)))
  sortedIds.filterMap allResults.get?

theorem reciprocalRankFusion_eq : reciprocalRankFusion = reciprocalRankFusionWith 60 := by
  rfl

def idsOf (hits : List Hit) : List String := hits.map (fun hit => hit.point.id)

def rankIn (hits : List Hit) (id : String) : Nat := (idsOf hits).idxOf id + 1

/-! The canonical score. -/

def reciprocalRank (k : Nat) (hits : List Hit) (id : String) : ℚ :=
  if id ∈ idsOf hits then 1 / (k + rankIn hits id : ℚ) else 0

def canonicalScore (k : Nat) (dense sparse : List Hit) (id : String) : ℚ :=
  reciprocalRank k dense id + reciprocalRank k sparse id

/-- Every id of the two lists once, in the order of the canonical scores. -/
structure CanonicalFusion (k : Nat) (dense sparse : List Hit) : Prop where
  nodup : (idsOf (reciprocalRankFusionWith k dense sparse)).Nodup
  complete : ∀ id, id ∈ idsOf (reciprocalRankFusionWith k dense sparse) ↔
    id ∈ idsOf dense ∨ id ∈ idsOf sparse
  ordered : (idsOf (reciprocalRankFusionWith k dense sparse)).Pairwise (fun first second =>
    canonicalScore k dense sparse second ≤ canonicalScore k dense sparse first)

/-! The score of the code. -/

def sentinelShare (k : Nat) (hits : List Hit) : ℚ := 1 / (k + (k + max hits.length 1 : Nat) : ℚ)

def unionIds (dense sparse : List Hit) : List String :=
  idsOf dense ++ (idsOf sparse).filter (fun id => id ∉ idsOf dense)

def fusedScore (k : Nat) (dense sparse : List Hit) (id : String) : ℚ :=
  (if id ∈ idsOf dense then reciprocalRank k dense id + sentinelShare k sparse else 0) +
    (if id ∈ idsOf sparse then sentinelShare k dense + reciprocalRank k sparse id else 0)

section AddRanks

variable (score : Nat → ℚ) {hits : List Hit}

/-- One of the two loops, where the first hit has the rank `start`. -/
def addRanksFrom (score : Nat → ℚ) (start : Nat) (hits : List Hit) (scores : Dict String ℚ) :
    Dict String ℚ :=
  (hits.zipIdx start).foldl
    (fun scores ranked =>
      scores.set ranked.1.point.id ((scores.get? ranked.1.point.id).getD 0 + score ranked.2))
    scores

theorem addRanksFrom_cons (start : Nat) (hit : Hit) (scores : Dict String ℚ) :
    addRanksFrom score start (hit :: hits) scores =
      addRanksFrom score (start + 1) hits
        (scores.set hit.point.id ((scores.get? hit.point.id).getD 0 + score start)) := by
  rfl

theorem get?_addRanksFrom (start : Nat) (distinct : (idsOf hits).Nodup)
    (scores : Dict String ℚ) (id : String) :
    (addRanksFrom score start hits scores).get? id =
      if id ∈ idsOf hits then
        some ((scores.get? id).getD 0 + score (start + (idsOf hits).idxOf id))
      else scores.get? id := by
  induction hits generalizing start scores with
  | nil => rfl
  | cons hit rest ih =>
      have ids : idsOf (hit :: rest) = hit.point.id :: idsOf rest := rfl
      rw [ids] at distinct
      obtain ⟨new, later⟩ := List.nodup_cons.mp distinct
      rw [addRanksFrom_cons, ih (start + 1) later, ids]
      by_cases same : id = hit.point.id
      · rw [same, if_neg new, if_pos List.mem_cons_self, Dict.get?_set_self, List.idxOf_cons_self,
          Nat.add_zero]
      · rw [Dict.get?_set_of_ne same, List.idxOf_cons_ne _ (Ne.symm same)]
        have members : id ∈ hit.point.id :: idsOf rest ↔ id ∈ idsOf rest := by simp [same]
        simp only [members, Nat.succ_eq_add_one]
        rw [Nat.add_right_comm, Nat.add_assoc]

theorem keys_addRanksFrom (start : Nat) (distinct : (idsOf hits).Nodup)
    (scores : Dict String ℚ) :
    (addRanksFrom score start hits scores).keys =
      scores.keys ++ (idsOf hits).filter (fun id => id ∉ scores.keys) := by
  induction hits generalizing start scores with
  | nil => exact (List.append_nil _).symm
  | cons hit rest ih =>
      have ids : idsOf (hit :: rest) = hit.point.id :: idsOf rest := rfl
      rw [ids] at distinct
      obtain ⟨new, later⟩ := List.nodup_cons.mp distinct
      rw [addRanksFrom_cons, ih (start + 1) later, ids, Dict.keys_set]
      by_cases present : hit.point.id ∈ scores.keys
      · rw [if_pos present, List.filter_cons_of_neg (by simpa using present)]
      · have unmoved : (idsOf rest).filter (fun id => id ∉ scores.keys ++ [hit.point.id]) =
            (idsOf rest).filter (fun id => id ∉ scores.keys) := by
          apply List.filter_congr
          intro id inside
          have differs : id ≠ hit.point.id := by
            intro given
            rcases given with rfl
            exact new inside
          simp [differs]
        rw [if_neg present, List.filter_cons_of_pos (by simpa using present), unmoved]
        simp

end AddRanks

/-! The order of the ids. -/

variable {k : Nat} {dense sparse : List Hit} {id : String}

theorem mem_unionIds : id ∈ unionIds dense sparse ↔ id ∈ idsOf dense ∨ id ∈ idsOf sparse := by
  by_cases inside : id ∈ idsOf dense <;> simp [unionIds, inside]

theorem nodup_unionIds (denseDistinct : (idsOf dense).Nodup)
    (sparseDistinct : (idsOf sparse).Nodup) : (unionIds dense sparse).Nodup := by
  apply denseDistinct.append (sparseDistinct.filter _)
  intro id inDense inSparse
  have outside := (List.mem_filter.mp inSparse).2
  simp only [decide_eq_true_eq] at outside
  exact outside inDense

def fusionScores (k : Nat) (dense sparse : List Hit) : Dict String ℚ :=
  addRanks (fun rank => computeRrfScore k (k + max dense.length 1) rank) sparse
    (addRanks (fun rank => computeRrfScore k rank (k + max sparse.length 1)) dense ∅)

theorem keys_fusionScores (denseDistinct : (idsOf dense).Nodup)
    (sparseDistinct : (idsOf sparse).Nodup) :
    (fusionScores k dense sparse).keys = unionIds dense sparse := by
  have none : (∅ : Dict String ℚ).keys = [] := rfl
  have first := keys_addRanksFrom
    (fun rank => computeRrfScore k rank (k + max sparse.length 1)) 1 denseDistinct ∅
  have second := keys_addRanksFrom
    (fun rank => computeRrfScore k (k + max dense.length 1) rank) 1 sparseDistinct
    (addRanks (fun rank => computeRrfScore k rank (k + max sparse.length 1)) dense ∅)
  have all : (idsOf dense).filter (fun id => id ∉ ([] : List String)) = idsOf dense := by simp
  rw [none, List.nil_append, all] at first
  exact second.trans (by rw [unionIds, ← first]; rfl)

theorem get?_fusionScores (denseDistinct : (idsOf dense).Nodup)
    (sparseDistinct : (idsOf sparse).Nodup)
    (member : id ∈ unionIds dense sparse) :
    (fusionScores k dense sparse).get? id = some (fusedScore k dense sparse id) := by
  have first := get?_addRanksFrom
    (fun rank => computeRrfScore k rank (k + max sparse.length 1)) 1 denseDistinct ∅ id
  have second := get?_addRanksFrom
    (fun rank => computeRrfScore k (k + max dense.length 1) rank) 1 sparseDistinct
    (addRanks (fun rank => computeRrfScore k rank (k + max sparse.length 1)) dense ∅) id
  have joined := mem_unionIds.mp member
  refine second.trans ?_
  have unfolded : (addRanks (fun rank => computeRrfScore k rank (k + max sparse.length 1)) dense
      ∅).get? id = _ := first
  rw [unfolded]
  simp only [fusedScore, reciprocalRank, rankIn, sentinelShare, computeRrfScore, Dict.get?_empty,
    Nat.add_comm 1]
  by_cases inDense : id ∈ idsOf dense <;> by_cases inSparse : id ∈ idsOf sparse
  · simp [inDense, inSparse]
  · simp [inDense, inSparse]
  · simp [inDense, inSparse]
  · exact absurd joined (not_or.mpr ⟨inDense, inSparse⟩)

def allResults (dense sparse : List Hit) : Dict String Hit :=
  Dict.ofList ((dense ++ sparse).map (fun hit => (hit.point.id, hit)))

theorem allResults_id (member : id ∈ idsOf dense ∨ id ∈ idsOf sparse) :
    ((allResults dense sparse).get? id).map (fun hit => hit.point.id) = some id := by
  have listed : id ∈ idsOf (dense ++ sparse) := by
    rw [idsOf, List.map_append]
    exact List.mem_append.mpr member
  obtain ⟨source, inside, same⟩ := List.mem_map.mp listed
  have bound : (source.point.id, source) ∈
      (dense ++ sparse).map (fun hit => (hit.point.id, hit)) :=
    List.mem_map.mpr ⟨source, inside, rfl⟩
  obtain ⟨hit, found⟩ : ∃ hit, (allResults dense sparse).get? id = some hit :=
    Dict.exists_get?_ofList.mpr ⟨_, bound, same⟩
  obtain ⟨stored, -, equal⟩ := List.mem_map.mp (Dict.mem_of_get?_ofList found)
  obtain ⟨own, rfl⟩ := Prod.mk.inj equal
  rw [found, Option.map_some, own]

theorem reciprocalRankFusionWith_eq (denseDistinct : (idsOf dense).Nodup)
    (sparseDistinct : (idsOf sparse).Nodup) :
    reciprocalRankFusionWith k dense sparse =
      (sortDescending (fusedScore k dense sparse) (unionIds dense sparse)).filterMap
        (allResults dense sparse).get? := by
  have entries : (fusionScores k dense sparse).entries =
      (unionIds dense sparse).map (fun id => (id, fusedScore k dense sparse id)) := by
    rw [← keys_fusionScores (k := k) denseDistinct sparseDistinct, Dict.keys, List.map_map]
    calc
      _ = (fusionScores k dense sparse).entries.map id := (List.map_id _).symm
      _ = _ := by
        apply List.map_congr_left
        intro given inside
        rcases given with ⟨id, score⟩
        have member : id ∈ unionIds dense sparse := by
          rw [← keys_fusionScores (k := k) denseDistinct sparseDistinct]
          exact List.mem_map_of_mem inside
        have stored := (Dict.mem_entries_iff _ id score).mp inside
        rw [get?_fusionScores denseDistinct sparseDistinct member] at stored
        simpa using (Option.some.inj stored).symm
  have unfolded : reciprocalRankFusionWith k dense sparse =
      ((sortDescending Prod.snd (fusionScores k dense sparse).entries).map Prod.fst).filterMap
        (allResults dense sparse).get? := rfl
  rw [unfolded, entries, map_sortDescending_pairs]

theorem idsOf_reciprocalRankFusionWith (denseDistinct : (idsOf dense).Nodup)
    (sparseDistinct : (idsOf sparse).Nodup) :
    idsOf (reciprocalRankFusionWith k dense sparse) =
      sortDescending (fusedScore k dense sparse) (unionIds dense sparse) := by
  rw [reciprocalRankFusionWith_eq denseDistinct sparseDistinct, idsOf, List.map_filterMap]
  have found : ∀ id ∈ sortDescending (fusedScore k dense sparse) (unionIds dense sparse),
      ((allResults dense sparse).get? id).map (fun hit => hit.point.id) = some id := by
    intro id inside
    exact allResults_id (mem_unionIds.mp (mem_sortDescending.mp inside))
  rw [List.filterMap_congr found, List.filterMap_some]

/-- Where the code places an id before another among equal scores. -/
def EarlierId (dense sparse : List Hit) (first second : String) : Prop :=
  (first ∈ idsOf dense ∧ second ∈ idsOf dense ∧ rankIn dense first < rankIn dense second) ∨
    (first ∈ idsOf dense ∧ second ∉ idsOf dense) ∨
    (first ∉ idsOf dense ∧ second ∉ idsOf dense ∧ rankIn sparse first < rankIn sparse second)

theorem EarlierId.asymm {first second : String} (earlier : EarlierId dense sparse first second) :
    ¬ EarlierId dense sparse second first := by
  unfold EarlierId at earlier ⊢
  grind

theorem EarlierId.of_mem_dense {first second : String}
    (earlier : EarlierId dense sparse first second) (member : second ∈ idsOf dense) :
    first ∈ idsOf dense ∧ rankIn dense first < rankIn dense second := by
  rcases earlier with both | apart | neither
  · exact ⟨both.1, both.2.2⟩
  · exact absurd member apart.2
  · exact absurd member neither.2.1

theorem pairwise_rankIn {hits : List Hit} (distinct : (idsOf hits).Nodup) :
    (idsOf hits).Pairwise (fun first second => rankIn hits first < rankIn hits second) := by
  apply List.pairwise_iff_getElem.mpr
  intro place other inside otherInside order
  rw [rankIn, rankIn, distinct.idxOf_getElem, distinct.idxOf_getElem]
  omega

theorem pairwise_unionIds (denseDistinct : (idsOf dense).Nodup)
    (sparseDistinct : (idsOf sparse).Nodup) :
    (unionIds dense sparse).Pairwise (EarlierId dense sparse) := by
  have outside : ∀ id ∈ (idsOf sparse).filter (fun id => id ∉ idsOf dense), id ∉ idsOf dense := by
    intro id inside
    simpa using (List.mem_filter.mp inside).2
  apply List.pairwise_append.mpr
  refine ⟨?_, ?_, ?_⟩
  · apply (pairwise_rankIn denseDistinct).imp_of_mem
    intro first second firstIn secondIn order
    exact Or.inl ⟨firstIn, secondIn, order⟩
  · apply ((pairwise_rankIn sparseDistinct).filter _).imp_of_mem
    intro first second firstIn secondIn order
    exact Or.inr (Or.inr ⟨outside first firstIn, outside second secondIn, order⟩)
  · intro first firstIn second secondIn
    exact Or.inr (Or.inl ⟨firstIn, outside second secondIn⟩)

theorem pairwise_idsOf_reciprocalRankFusionWith (denseDistinct : (idsOf dense).Nodup)
    (sparseDistinct : (idsOf sparse).Nodup) :
    (idsOf (reciprocalRankFusionWith k dense sparse)).Pairwise
      (Outranks (fusedScore k dense sparse) (EarlierId dense sparse)) := by
  rw [idsOf_reciprocalRankFusionWith denseDistinct sparseDistinct]
  exact sortDescending_outranks (pairwise_unionIds denseDistinct sparseDistinct)

theorem ordered_iff (denseDistinct : (idsOf dense).Nodup) (sparseDistinct : (idsOf sparse).Nodup) :
    CanonicalFusion k dense sparse ↔
      ∀ first ∈ unionIds dense sparse, ∀ second ∈ unionIds dense sparse,
        Outranks (fusedScore k dense sparse) (EarlierId dense sparse) first second →
          canonicalScore k dense sparse second ≤ canonicalScore k dense sparse first := by
  have ids := idsOf_reciprocalRankFusionWith (k := k) denseDistinct sparseDistinct
  have sorted := pairwise_idsOf_reciprocalRankFusionWith (k := k) denseDistinct sparseDistinct
  rw [ids] at sorted
  have asymmetric (first second : String)
      (before : Outranks (fusedScore k dense sparse) (EarlierId dense sparse) first second) :
      ¬ Outranks (fusedScore k dense sparse) (EarlierId dense sparse) second first :=
    before.asymm (fun _ _ => EarlierId.asymm)
  have pairs : (sortDescending (fusedScore k dense sparse) (unionIds dense sparse)).Pairwise
      (fun first second => canonicalScore k dense sparse second ≤
        canonicalScore k dense sparse first) ↔ _ :=
    pairwise_iff_of_ordered asymmetric sorted
  simp only [mem_sortDescending] at pairs
  rw [← pairs, ← ids]
  constructor
  · exact CanonicalFusion.ordered
  · intro ordered
    refine ⟨?_, ?_, ordered⟩
    · rw [ids]
      exact sortDescending_perm.nodup_iff.mpr (nodup_unionIds denseDistinct sparseDistinct)
    · intro id
      rw [ids, mem_sortDescending, mem_unionIds]

/-! The condition on the ranks. -/

/-- The canonical scores are far enough apart: one of an id that only one list contains and that
of another id differ by more than what the sentinels add to them. -/
structure RanksAgree (k : Nat) (dense sparse : List Hit) : Prop where
  denseOnly : ∀ one both, one ∈ idsOf dense → one ∉ idsOf sparse → both ∈ idsOf dense →
    both ∈ idsOf sparse →
    canonicalScore k dense sparse both < canonicalScore k dense sparse one →
    sentinelShare k dense ≤
      canonicalScore k dense sparse one - canonicalScore k dense sparse both
  sparseOnly : ∀ one both, one ∉ idsOf dense → one ∈ idsOf sparse → both ∈ idsOf dense →
    both ∈ idsOf sparse →
    canonicalScore k dense sparse both < canonicalScore k dense sparse one →
    sentinelShare k sparse <
      canonicalScore k dense sparse one - canonicalScore k dense sparse both
  apart : ∀ first second, first ∈ idsOf dense → first ∉ idsOf sparse → second ∉ idsOf dense →
    second ∈ idsOf sparse →
    (canonicalScore k dense sparse second < canonicalScore k dense sparse first →
      sentinelShare k dense - sentinelShare k sparse ≤
        canonicalScore k dense sparse first - canonicalScore k dense sparse second) ∧
    (canonicalScore k dense sparse first < canonicalScore k dense sparse second →
      sentinelShare k sparse - sentinelShare k dense <
        canonicalScore k dense sparse second - canonicalScore k dense sparse first)

theorem sentinelShare_pos (k : Nat) (hits : List Hit) : 0 < sentinelShare k hits := by
  have some : 0 < k + max hits.length 1 := by omega
  have cast : (0 : ℚ) < (k + max hits.length 1 : Nat) := Nat.cast_pos.mpr some
  unfold sentinelShare
  positivity

theorem fusedScore_eq (k : Nat) (dense sparse : List Hit) (id : String) :
    fusedScore k dense sparse id = canonicalScore k dense sparse id +
      (if id ∈ idsOf dense then sentinelShare k sparse else 0) +
      (if id ∈ idsOf sparse then sentinelShare k dense else 0) := by
  unfold fusedScore canonicalScore
  by_cases inDense : id ∈ idsOf dense <;> by_cases inSparse : id ∈ idsOf sparse
  · simp only [if_pos inDense, if_pos inSparse]
    ring
  · simp only [if_pos inDense, if_neg inSparse, reciprocalRank]
    ring
  · simp only [if_neg inDense, if_pos inSparse, reciprocalRank]
    ring
  · simp only [if_neg inDense, if_neg inSparse, reciprocalRank]
    ring

theorem fusedScore_both (inDense : id ∈ idsOf dense) (inSparse : id ∈ idsOf sparse) :
    fusedScore k dense sparse id =
      canonicalScore k dense sparse id + sentinelShare k sparse + sentinelShare k dense := by
  rw [fusedScore_eq, if_pos inDense, if_pos inSparse]

theorem fusedScore_dense (inDense : id ∈ idsOf dense) (notSparse : id ∉ idsOf sparse) :
    fusedScore k dense sparse id = canonicalScore k dense sparse id + sentinelShare k sparse := by
  rw [fusedScore_eq, if_pos inDense, if_neg notSparse, add_zero]

theorem fusedScore_sparse (notDense : id ∉ idsOf dense) (inSparse : id ∈ idsOf sparse) :
    fusedScore k dense sparse id = canonicalScore k dense sparse id + sentinelShare k dense := by
  rw [fusedScore_eq, if_neg notDense, if_pos inSparse, add_zero]

theorem reciprocalRank_lt {hits : List Hit} {first second : String}
    (firstIn : first ∈ idsOf hits) (secondIn : second ∈ idsOf hits)
    (earlier : rankIn hits first < rankIn hits second) :
    reciprocalRank k hits second < reciprocalRank k hits first := by
  have ranks : (rankIn hits first : ℚ) < rankIn hits second := Nat.cast_lt.mpr earlier
  have positive : (0 : ℚ) < k + rankIn hits first := by
    unfold rankIn
    positivity
  rw [reciprocalRank, reciprocalRank, if_pos firstIn, if_pos secondIn]
  exact one_div_lt_one_div_of_lt positive (by linarith)

theorem canonicalScore_lt_of_earlier {first second : String} (firstDense : first ∈ idsOf dense)
    (firstSparse : first ∈ idsOf sparse) (secondDense : second ∈ idsOf dense)
    (secondSparse : second ∉ idsOf sparse) (earlier : rankIn dense first < rankIn dense second) :
    canonicalScore k dense sparse second < canonicalScore k dense sparse first := by
  have less := reciprocalRank_lt (k := k) firstDense secondDense earlier
  have share : 0 < reciprocalRank k sparse first := by
    rw [reciprocalRank, if_pos firstSparse]
    unfold rankIn
    positivity
  have nothing : reciprocalRank k sparse second = 0 := if_neg secondSparse
  rw [canonicalScore, canonicalScore, nothing]
  linarith

theorem ranksAgree_of_ordered
    (ordered : ∀ first ∈ unionIds dense sparse, ∀ second ∈ unionIds dense sparse,
      Outranks (fusedScore k dense sparse) (EarlierId dense sparse) first second →
        canonicalScore k dense sparse second ≤ canonicalScore k dense sparse first) :
    RanksAgree k dense sparse := by
  constructor
  · intro one both oneDense oneSparse bothDense bothSparse less
    by_contra close
    have greater : fusedScore k dense sparse one < fusedScore k dense sparse both := by
      rw [fusedScore_dense oneDense oneSparse, fusedScore_both bothDense bothSparse]
      linarith
    have before := ordered both (mem_unionIds.mpr (Or.inl bothDense)) one
      (mem_unionIds.mpr (Or.inl oneDense)) (Or.inl greater)
    exact absurd less before.not_gt
  · intro one both oneDense oneSparse bothDense bothSparse less
    by_contra close
    have greater : fusedScore k dense sparse one ≤ fusedScore k dense sparse both := by
      rw [fusedScore_sparse oneDense oneSparse, fusedScore_both bothDense bothSparse]
      linarith
    have before := ordered both (mem_unionIds.mpr (Or.inl bothDense)) one
      (mem_unionIds.mpr (Or.inr oneSparse))
      (Outranks.of_le greater (Or.inr (Or.inl ⟨bothDense, oneDense⟩)))
    exact absurd less before.not_gt
  · intro first second firstDense firstSparse secondDense secondSparse
    have firstIn : first ∈ unionIds dense sparse := mem_unionIds.mpr (Or.inl firstDense)
    have secondIn : second ∈ unionIds dense sparse := mem_unionIds.mpr (Or.inr secondSparse)
    constructor
    · intro less
      by_contra close
      have greater : fusedScore k dense sparse first < fusedScore k dense sparse second := by
        rw [fusedScore_dense firstDense firstSparse, fusedScore_sparse secondDense secondSparse]
        linarith
      exact absurd less (ordered second secondIn first firstIn (Or.inl greater)).not_gt
    · intro less
      by_contra close
      have greater : fusedScore k dense sparse second ≤ fusedScore k dense sparse first := by
        rw [fusedScore_dense firstDense firstSparse, fusedScore_sparse secondDense secondSparse]
        linarith
      have before : Outranks (fusedScore k dense sparse) (EarlierId dense sparse) first second :=
        Outranks.of_le greater (Or.inr (Or.inl ⟨firstDense, secondDense⟩))
      exact absurd less (ordered first firstIn second secondIn before).not_gt

theorem ordered_of_ranksAgree (agree : RanksAgree k dense sparse) {first second : String}
    (firstIn : first ∈ unionIds dense sparse) (secondIn : second ∈ unionIds dense sparse)
    (before : Outranks (fusedScore k dense sparse) (EarlierId dense sparse) first second) :
    canonicalScore k dense sparse second ≤ canonicalScore k dense sparse first := by
  have densePos := sentinelShare_pos k dense
  have sparsePos := sentinelShare_pos k sparse
  have scores := before.le
  by_contra order
  have less := not_le.mp order
  by_cases firstDense : first ∈ idsOf dense <;> by_cases secondDense : second ∈ idsOf dense
  · by_cases firstSparse : first ∈ idsOf sparse <;> by_cases secondSparse : second ∈ idsOf sparse
    · rw [fusedScore_both firstDense firstSparse,
        fusedScore_both secondDense secondSparse] at scores
      linarith
    · have far := agree.denseOnly second first secondDense secondSparse firstDense firstSparse less
      rcases before with greater | tied
      · rw [fusedScore_both firstDense firstSparse,
          fusedScore_dense secondDense secondSparse] at greater
        linarith
      · have rank := (tied.2.of_mem_dense secondDense).2
        exact absurd less (canonicalScore_lt_of_earlier firstDense firstSparse secondDense
          secondSparse rank).not_gt
    · rw [fusedScore_dense firstDense firstSparse,
        fusedScore_both secondDense secondSparse] at scores
      linarith
    · rw [fusedScore_dense firstDense firstSparse,
        fusedScore_dense secondDense secondSparse] at scores
      linarith
  · have secondSparse := (mem_unionIds.mp secondIn).resolve_left secondDense
    by_cases firstSparse : first ∈ idsOf sparse
    · have far := agree.sparseOnly second first secondDense secondSparse firstDense firstSparse less
      rw [fusedScore_both firstDense firstSparse,
        fusedScore_sparse secondDense secondSparse] at scores
      linarith
    · have far := (agree.apart first second firstDense firstSparse secondDense secondSparse).2 less
      rw [fusedScore_dense firstDense firstSparse,
        fusedScore_sparse secondDense secondSparse] at scores
      linarith
  · have firstSparse := (mem_unionIds.mp firstIn).resolve_left firstDense
    by_cases secondSparse : second ∈ idsOf sparse
    · rw [fusedScore_sparse firstDense firstSparse,
        fusedScore_both secondDense secondSparse] at scores
      linarith
    · have far := (agree.apart second first secondDense secondSparse firstDense firstSparse).1 less
      rcases before with greater | tied
      · rw [fusedScore_sparse firstDense firstSparse,
          fusedScore_dense secondDense secondSparse] at greater
        linarith
      · exact absurd (tied.2.of_mem_dense secondDense).1 firstDense
  · have firstSparse := (mem_unionIds.mp firstIn).resolve_left firstDense
    have secondSparse := (mem_unionIds.mp secondIn).resolve_left secondDense
    rw [fusedScore_sparse firstDense firstSparse,
      fusedScore_sparse secondDense secondSparse] at scores
    linarith

theorem canonicalFusion_iff (denseDistinct : (idsOf dense).Nodup)
    (sparseDistinct : (idsOf sparse).Nodup) :
    CanonicalFusion k dense sparse ↔ RanksAgree k dense sparse := by
  rw [ordered_iff denseDistinct sparseDistinct]
  constructor
  · exact ranksAgree_of_ordered
  · intro agree first firstIn second secondIn before
    exact ordered_of_ranksAgree agree firstIn secondIn before

def oneDense : List Hit := [⟨⟨"a", {}⟩, 9 / 10⟩]

def fiveSparse : List Hit :=
  ["v", "w", "x", "y", "z"].map (fun id => ⟨⟨id, {}⟩, 9 / 10⟩)

theorem canonicalFusion_iff_unequal :
    CanonicalFusion 60 oneDense fiveSparse ↔ RanksAgree 60 oneDense fiveSparse :=
  canonicalFusion_iff (by decide) (by decide)

theorem canonicalFusion_fails :
    idsOf (reciprocalRankFusion oneDense fiveSparse) = ["v", "w", "a", "x", "y", "z"] ∧
      canonicalScore 60 oneDense fiveSparse "w" < canonicalScore 60 oneDense fiveSparse "a" ∧
      ¬ CanonicalFusion 60 oneDense fiveSparse := by
  have fused : idsOf (reciprocalRankFusionWith 60 oneDense fiveSparse) =
      ["v", "w", "a", "x", "y", "z"] := by
    decide +kernel
  have less : canonicalScore 60 oneDense fiveSparse "w" <
      canonicalScore 60 oneDense fiveSparse "a" := by
    decide +kernel
  refine ⟨fused, less, ?_⟩
  intro canonical
  have ordered := canonical.ordered
  rw [fused] at ordered
  have before := List.rel_of_pairwise_cons (List.pairwise_cons.mp ordered).2
    (by decide : "a" ∈ ["a", "x", "y", "z"])
  exact absurd less before.not_gt

end RagSystem.Core
