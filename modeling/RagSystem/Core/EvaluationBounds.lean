import RagSystem.Core.Evaluation
import RagSystem.Data.FallingWeights

/-! The bounds of the retrieval metrics, and what repeated documents do to the nDCG. -/

namespace RagSystem.Core.Evaluation

open FallingWeights

variable {retrieved more : List String} {relevant : Finset String} {k place : Nat}

/-- The places of the first `k` at which a relevant document stands. -/
def relevantPlaces (retrieved : List String) (relevant : Finset String) (k : Nat) : Finset Nat :=
  (Finset.range k).filter (fun place => ∃ doc ∈ retrieved[place]?, doc ∈ relevant)

def repeatedPlaces (retrieved : List String) (relevant : Finset String) (k : Nat) : Finset Nat :=
  (relevantPlaces retrieved relevant k).filter
    (fun place => ∃ doc ∈ retrieved[place]?, doc ∈ retrieved.take place)

def Ideal (retrieved : List String) (relevant : Finset String) (k : Nat) : Prop :=
  let first := retrieved.take (min k relevant.card)
  first.length = min k relevant.card ∧ first.Nodup ∧ ∀ doc ∈ first, doc ∈ relevant

section Discounts

theorem log_pos (place : Nat) : 0 < Real.logb 2 ((place + 2 : Nat) : ℝ) := by
  apply Real.logb_pos one_lt_two
  exact_mod_cast Nat.lt_add_left place one_lt_two

theorem discount_pos (place : Nat) : 0 < discount place := one_div_pos.mpr (log_pos place)

theorem discount_falls : StrictAnti discount := by
  intro first second before
  apply one_div_lt_one_div_of_lt (log_pos first)
  apply Real.logb_lt_logb one_lt_two
  · exact_mod_cast Nat.succ_pos (first + 1)
  · exact_mod_cast Nat.add_lt_add_right before 2

theorem discountedSum_eq (gains : List ℝ) (good : Nat → Prop) [DecidablePred good]
    (binary : ∀ place gain, gains[place]? = some gain → gain = if good place then 1 else 0) :
    discountedSum gains =
      ∑ place ∈ (Finset.range gains.length).filter good, discount place := by
  induction gains using List.reverseRecOn with
  | nil => simp [discountedSum]
  | append_singleton gains gain ih =>
      have earlier : ∀ place gain, gains[place]? = some gain →
          gain = if good place then 1 else 0 := by
        intro place other found
        have inside : place < gains.length := (List.getElem?_eq_some_iff.mp found).1
        exact binary place other (by rw [List.getElem?_append_left inside, found])
      have last : gain = if good gains.length then 1 else 0 :=
        binary gains.length gain List.getElem?_concat_length
      have sum : discountedSum (gains ++ [gain]) =
          discountedSum gains + gain * discount gains.length := by
        simp [discountedSum, List.zipIdx_append, discount, div_eq_mul_inv]
      rw [sum, ih earlier, List.length_append, List.length_singleton, Finset.range_add_one,
        Finset.filter_insert, last]
      split
      · rw [Finset.sum_insert (by simp), one_mul, add_comm]
      · rw [zero_mul, add_zero]

variable (retrieved relevant k) in
theorem discountedSum_binary :
    discountedSum (((retrieved.take k).map
      (fun doc => if doc ∈ relevant then (1 : ℝ) else 0)).take k) =
      ∑ place ∈ relevantPlaces retrieved relevant k, discount place := by
  have short : ((retrieved.take k).map
      (fun doc => if doc ∈ relevant then (1 : ℝ) else 0)).length ≤ k := by
    rw [List.length_map]
    exact List.length_take_le k retrieved
  have binary (place : Nat) (gain : ℝ) (found : ((retrieved.take k).map
      (fun doc => if doc ∈ relevant then (1 : ℝ) else 0))[place]? = some gain) :
      gain = if ∃ doc ∈ retrieved[place]?, doc ∈ relevant then 1 else 0 := by
    rw [List.getElem?_map, Option.map_eq_some_iff] at found
    obtain ⟨doc, held, rfl⟩ := found
    rw [List.getElem?_take] at held
    split at held
    · simp [held]
    · cases held
  have places : (Finset.range ((retrieved.take k).map
      (fun doc => if doc ∈ relevant then (1 : ℝ) else 0)).length).filter
      (fun place => ∃ doc ∈ retrieved[place]?, doc ∈ relevant) =
      relevantPlaces retrieved relevant k := by
    ext place
    rw [relevantPlaces, Finset.mem_filter, Finset.mem_filter, Finset.mem_range, Finset.mem_range,
      List.length_map, List.length_take, lt_min_iff, and_assoc]
    apply and_congr_right
    intro _
    apply and_iff_right_of_imp
    intro stands
    obtain ⟨doc, held, _⟩ := stands
    exact (List.getElem?_eq_some_iff.mp held).1
  rw [List.take_of_length_le short, discountedSum_eq _ _ binary, places]

theorem discountedSum_ideal (card k : Nat) :
    discountedSum (((List.replicate (min card k) (1 : ℝ) ++
      List.replicate (k - card) 0).insertionSort (fun first second => second ≤ first)).take k) =
      ∑ place ∈ Finset.range (min k card), discount place := by
  have sorted : (List.replicate (min card k) (1 : ℝ) ++ List.replicate (k - card) 0).Pairwise
      (fun first second => second ≤ first) := by
    apply List.pairwise_append.mpr
    refine ⟨List.pairwise_replicate_of_refl, List.pairwise_replicate_of_refl, ?_⟩
    intro one inOnes zero inZeros
    rw [List.eq_of_mem_replicate inOnes, List.eq_of_mem_replicate inZeros]
    exact zero_le_one
  have length : (List.replicate (min card k) (1 : ℝ) ++
      List.replicate (k - card) 0).length = k := by
    rw [List.length_append, List.length_replicate, List.length_replicate]
    omega
  have binary (place : Nat) (gain : ℝ) (found : (List.replicate (min card k) (1 : ℝ) ++
      List.replicate (k - card) 0)[place]? = some gain) :
      gain = if place < min k card then 1 else 0 := by
    rw [min_comm]
    by_cases first : place < min card k
    · rw [List.getElem?_append_left (by rwa [List.length_replicate])] at found
      rw [if_pos first]
      exact List.eq_of_mem_replicate (List.mem_of_getElem? found)
    · rw [List.getElem?_append_right (by rw [List.length_replicate]; omega)] at found
      rw [if_neg first]
      exact List.eq_of_mem_replicate (List.mem_of_getElem? found)
  have places : (Finset.range k).filter (fun place => place < min k card) =
      Finset.range (min k card) := by
    ext place
    rw [Finset.mem_filter, Finset.mem_range, Finset.mem_range]
    omega
  rw [sorted.insertionSort_eq, List.take_of_length_le length.le, discountedSum_eq _ _ binary,
    length, places]

end Discounts

section Places

theorem mem_relevantPlaces : place ∈ relevantPlaces retrieved relevant k ↔
    place < k ∧ ∃ doc, retrieved[place]? = some doc ∧ doc ∈ relevant := by
  rw [relevantPlaces, Finset.mem_filter, Finset.mem_range]
  rfl

theorem mem_take_iff {doc : String} : doc ∈ retrieved.take k ↔
    ∃ earlier < k, retrieved[earlier]? = some doc := by
  rw [List.mem_iff_getElem?]
  apply exists_congr
  intro earlier
  rw [List.getElem?_take]
  by_cases before : earlier < k
  · rw [if_pos before, and_iff_right before]
  · rw [if_neg before]
    exact iff_of_false (fun same => by cases same) (fun both => before both.1)

theorem mem_repeatedPlaces : place ∈ repeatedPlaces retrieved relevant k ↔
    place ∈ relevantPlaces retrieved relevant k ∧
      ∃ earlier < place, retrieved[earlier]? = retrieved[place]? := by
  rw [repeatedPlaces, Finset.mem_filter]
  apply and_congr_right
  intro relevantHere
  obtain ⟨_, doc, held, _⟩ := mem_relevantPlaces.mp relevantHere
  rw [held]
  simp only [Option.mem_def, Option.some.injEq, exists_eq_left', mem_take_iff]

theorem card_relevantPlaces_le (once : repeatedPlaces retrieved relevant k = ∅) :
    (relevantPlaces retrieved relevant k).card ≤ min k relevant.card := by
  have apart : ∀ first ∈ relevantPlaces retrieved relevant k,
      ∀ second ∈ relevantPlaces retrieved relevant k, first < second →
        retrieved[first]? ≠ retrieved[second]? := by
    intro first _ second there before same
    have repeats := mem_repeatedPlaces.mpr ⟨there, first, before, same⟩
    rw [once] at repeats
    exact Finset.notMem_empty second repeats
  apply le_min
  · exact card_le_of_below (fun place member => (mem_relevantPlaces.mp member).1)
  · have held : ∀ place ∈ relevantPlaces retrieved relevant k,
        ∃ doc, retrieved[place]? = some doc ∧ doc ∈ relevant :=
      fun place member => (mem_relevantPlaces.mp member).2
    apply Finset.card_le_card_of_injOn (fun place => retrieved[place]?.getD "")
    · intro place member
      obtain ⟨doc, found, good⟩ := held place member
      change retrieved[place]?.getD "" ∈ relevant
      rw [found]
      exact good
    · intro first here second there same
      obtain ⟨doc, found, _⟩ := held first here
      obtain ⟨other, also, _⟩ := held second there
      have equal : retrieved[first]? = retrieved[second]? := by
        change retrieved[first]?.getD "" = retrieved[second]?.getD "" at same
        rw [found, also] at same ⊢
        exact congrArg some same
      rcases lt_trichotomy first second with before | rfl | behind
      · exact absurd equal (apart first here second there before)
      · rfl
      · exact absurd equal.symm (apart second there first here behind)

theorem ideal_iff : Ideal retrieved relevant k ↔
    Finset.range (min k relevant.card) ⊆
      relevantPlaces retrieved relevant k \ repeatedPlaces retrieved relevant k := by
  rw [Ideal]
  constructor
  · intro ideal place member
    obtain ⟨length, simple, good⟩ := ideal
    have first := Finset.mem_range.mp member
    have inside : place < (retrieved.take (min k relevant.card)).length := by rwa [length]
    obtain ⟨doc, found⟩ : ∃ doc, (retrieved.take (min k relevant.card))[place]? = some doc :=
      ⟨_, List.getElem?_eq_getElem inside⟩
    have stands : retrieved[place]? = some doc := by
      rwa [List.getElem?_take, if_pos first] at found
    apply Finset.mem_sdiff.mpr
    constructor
    · exact mem_relevantPlaces.mpr ⟨(lt_min_iff.mp first).1, doc, stands,
        good doc (List.mem_of_getElem? found)⟩
    · intro repeats
      obtain ⟨_, earlier, before, same⟩ := mem_repeatedPlaces.mp repeats
      apply List.nodup_iff_getElem?_ne_getElem?.mp simple earlier place before inside
      rw [List.getElem?_take, List.getElem?_take, if_pos first, if_pos (before.trans first), same]
  · intro inside
    have fresh (place : Nat) (first : place < min k relevant.card) :=
      Finset.mem_sdiff.mp (inside (Finset.mem_range.mpr first))
    have stands (place : Nat) (first : place < min k relevant.card) :
        ∃ doc, retrieved[place]? = some doc ∧ doc ∈ relevant :=
      (mem_relevantPlaces.mp (fresh place first).1).2
    refine ⟨?_, ?_, ?_⟩
    · rw [List.length_take]
      apply min_eq_left
      by_contra short
      obtain ⟨doc, found, _⟩ := stands retrieved.length (not_le.mp short)
      rw [List.getElem?_eq_none (le_refl _)] at found
      cases found
    · apply List.nodup_iff_getElem?_ne_getElem?.mpr
      intro earlier place before within same
      have first : place < min k relevant.card :=
        within.trans_le (List.length_take_le _ _)
      rw [List.getElem?_take, List.getElem?_take, if_pos first,
        if_pos (before.trans first)] at same
      have here := fresh place first
      exact here.2 (mem_repeatedPlaces.mpr ⟨here.1, earlier, before, same⟩)
    · intro doc member
      obtain ⟨place, first, found⟩ := mem_take_iff.mp member
      obtain ⟨other, also, good⟩ := stands place first
      obtain rfl := Option.some.inj (found.symm.trans also)
      exact good

end Places

section Ndcg

/-- The documents that stand again weigh less than what the others leave of the ideal weight. -/
def RepeatsFit (retrieved : List String) (relevant : Finset String) (k : Nat) : Prop :=
  let relevantHere := relevantPlaces retrieved relevant k
  let repeated := repeatedPlaces retrieved relevant k
  repeated = ∅ ∨
    ∑ place ∈ repeated, discount place <
      (∑ place ∈ Finset.range (min k relevant.card), discount place) -
        ∑ place ∈ relevantHere \ repeated, discount place

theorem ideal_pos (some : relevant.Nonempty) (positive : 1 ≤ k) :
    0 < ∑ place ∈ Finset.range (min k relevant.card), discount place := by
  apply Finset.sum_pos (fun place _ => discount_pos place)
  have card := Finset.card_pos.mpr some
  exact Finset.nonempty_range_iff.mpr (by omega)

theorem computeNdcgAtK_eq (retrieved : List String) (some : relevant.Nonempty) (positive : 1 ≤ k) :
    computeNdcgAtK retrieved relevant k =
      (∑ place ∈ relevantPlaces retrieved relevant k, discount place) /
        ∑ place ∈ Finset.range (min k relevant.card), discount place := by
  have ideal := ideal_pos some positive
  simp only [computeNdcgAtK, discountedSum_binary, discountedSum_ideal]
  rw [if_neg some.ne_empty, if_pos ideal]

theorem sum_relevantPlaces :
    ∑ place ∈ relevantPlaces retrieved relevant k, discount place =
      (∑ place ∈ relevantPlaces retrieved relevant k \ repeatedPlaces retrieved relevant k,
        discount place) + ∑ place ∈ repeatedPlaces retrieved relevant k, discount place :=
  (Finset.sum_sdiff (Finset.filter_subset _ _)).symm

theorem gains_iff_repeatsFit :
    (∑ place ∈ relevantPlaces retrieved relevant k, discount place ≤
        ∑ place ∈ Finset.range (min k relevant.card), discount place ∧
      (∑ place ∈ relevantPlaces retrieved relevant k, discount place =
        ∑ place ∈ Finset.range (min k relevant.card), discount place ↔
          Ideal retrieved relevant k)) ↔ RepeatsFit retrieved relevant k := by
  by_cases once : repeatedPlaces retrieved relevant k = ∅
  · have few := card_relevantPlaces_le once
    obtain ⟨bound, equal⟩ := sum_le_sum_range_of_card_le discount_falls discount_pos few
    have best : relevantPlaces retrieved relevant k = Finset.range (min k relevant.card) ↔
        Ideal retrieved relevant k := by
      rw [ideal_iff, once, Finset.sdiff_empty]
      constructor
      · exact fun same => same.ge
      · intro inside
        exact (Finset.eq_of_subset_of_card_le inside (by rwa [Finset.card_range])).symm
    exact iff_of_true ⟨bound, equal.trans best⟩ (Or.inl once)
  · have fit : RepeatsFit retrieved relevant k ↔
        ∑ place ∈ relevantPlaces retrieved relevant k, discount place <
          ∑ place ∈ Finset.range (min k relevant.card), discount place := by
      rw [RepeatsFit, or_iff_right once, sum_relevantPlaces, lt_sub_iff_add_lt']
    have more (ideal : Ideal retrieved relevant k) :
        ∑ place ∈ Finset.range (min k relevant.card), discount place <
          ∑ place ∈ relevantPlaces retrieved relevant k, discount place := by
      apply sum_lt_of_ssubset discount_pos
      have apart := ideal_iff.mp ideal
      refine Finset.ssubset_iff_subset_ne.mpr ⟨apart.trans Finset.sdiff_subset, ?_⟩
      intro same
      rw [same] at apart
      obtain ⟨place, repeats⟩ := Finset.nonempty_iff_ne_empty.mpr once
      have here := (mem_repeatedPlaces.mp repeats).1
      exact (Finset.mem_sdiff.mp (apart here)).2 repeats
    rw [fit]
    constructor
    · intro both
      apply both.1.lt_of_ne
      intro equal
      exact absurd equal (more (both.2.mp equal)).ne'
    · intro less
      exact ⟨less.le, iff_of_false less.ne (fun ideal => less.not_gt (more ideal))⟩

end Ndcg

section Metrics

theorem reciprocalRank_bounds (retrieved : List String) (relevant : Finset String) :
    0 ≤ reciprocalRank retrieved relevant ∧ reciprocalRank retrieved relevant ≤ 1 := by
  rw [reciprocalRank]
  cases retrieved.findIdx? (· ∈ relevant) with
  | none => exact ⟨le_refl 0, zero_le_one⟩
  | some place =>
      have rank : (1 : ℚ) ≤ (place + 1 : Nat) := by exact_mod_cast Nat.succ_pos place
      exact ⟨by positivity, (div_le_one (zero_lt_one.trans_le rank)).mpr rank⟩

theorem foldl_mrr_bounds (queries : List (List String × Finset String)) (state : ℚ × Nat)
    (low : 0 ≤ state.1) (high : state.1 ≤ state.2) :
    let sums := queries.foldl (fun (state : ℚ × Nat) query =>
      if query.2 = ∅ then state
      else (state.1 + reciprocalRank query.1 query.2, state.2 + 1)) state
    0 ≤ sums.1 ∧ sums.1 ≤ sums.2 := by
  induction queries generalizing state with
  | nil => exact ⟨low, high⟩
  | cons query rest ih =>
      rw [List.foldl_cons]
      split
      · exact ih state low high
      · obtain ⟨positive, bounded⟩ := reciprocalRank_bounds query.1 query.2
        apply ih
        · exact add_nonneg low positive
        · push_cast
          exact add_le_add high bounded

theorem computeMrr_bounds (retrievedLists : List (List String))
    (relevantSets : List (Finset String)) :
    0 ≤ computeMrr retrievedLists relevantSets ∧ computeMrr retrievedLists relevantSets ≤ 1 := by
  obtain ⟨low, high⟩ := foldl_mrr_bounds (retrievedLists.zip relevantSets) (0, 0)
    (le_refl 0) (by simp)
  rw [computeMrr]
  split
  · exact ⟨le_refl 0, zero_le_one⟩
  · dsimp only
    split
    · rename_i some
      exact ⟨div_nonneg low (Nat.cast_nonneg _), (div_le_one (Nat.cast_pos.mpr some)).mpr high⟩
    · exact ⟨le_refl 0, zero_le_one⟩

theorem ratio_bounds {hits total : Nat} (fewer : hits ≤ total) :
    0 ≤ (hits : ℚ) / total ∧ (hits : ℚ) / total ≤ 1 :=
  ⟨div_nonneg (Nat.cast_nonneg hits) (Nat.cast_nonneg total),
    div_le_one_of_le₀ (Nat.cast_le.mpr fewer) (Nat.cast_nonneg total)⟩

theorem computeRecallAtK_bounds (retrieved : List String) (relevant : Finset String) (k : Nat) :
    0 ≤ computeRecallAtK retrieved relevant k ∧ computeRecallAtK retrieved relevant k ≤ 1 := by
  rw [computeRecallAtK]
  split
  · exact ⟨zero_le_one, le_refl 1⟩
  · exact ratio_bounds (Finset.card_le_card Finset.inter_subset_right)

theorem computePrecisionAtK_bounds (retrieved : List String) (relevant : Finset String)
    (k : Nat) :
    0 ≤ computePrecisionAtK retrieved relevant k ∧
      computePrecisionAtK retrieved relevant k ≤ 1 := by
  have few : ((retrieved.take k).toFinset ∩ relevant).card ≤ k :=
    calc ((retrieved.take k).toFinset ∩ relevant).card
      _ ≤ (retrieved.take k).toFinset.card := Finset.card_le_card Finset.inter_subset_left
      _ ≤ (retrieved.take k).length := List.toFinset_card_le _
      _ ≤ k := List.length_take_le k retrieved
  rw [computePrecisionAtK]
  split
  · exact ⟨le_refl 0, zero_le_one⟩
  · split
    · exact ratio_bounds few
    · exact ⟨le_refl 0, zero_le_one⟩

theorem metrics_append (enough : k ≤ retrieved.length) (positive : 1 ≤ k) (more : List String) :
    computeRecallAtK (retrieved ++ more) relevant k = computeRecallAtK retrieved relevant k ∧
      computeNdcgAtK (retrieved ++ more) relevant k = computeNdcgAtK retrieved relevant k ∧
      computePrecisionAtK (retrieved ++ more) relevant k =
        computePrecisionAtK retrieved relevant k := by
  have first : (retrieved ++ more).take k = retrieved.take k := List.take_append_of_le_length enough
  have some : retrieved ≠ [] := List.ne_nil_of_length_pos (positive.trans enough)
  have also : retrieved ++ more ≠ [] := List.append_ne_nil_of_left_ne_nil some more
  simp only [computeRecallAtK, computeNdcgAtK, computePrecisionAtK, first, if_neg some,
    if_neg also, and_self]

end Metrics

/-- The metrics of a query are within their bounds, the nDCG is one at the best and only there, and
what stands behind the first `k` has no part in them. -/
structure WellFormed (retrieved : List String) (relevant : Finset String) (k : Nat) : Prop where
  mrr : computeMrr [retrieved] [relevant] ∈ Set.Icc 0 1
  recallAtK : computeRecallAtK retrieved relevant k ∈ Set.Icc 0 1
  precisionAtK : computePrecisionAtK retrieved relevant k ∈ Set.Icc 0 1
  ndcgAtK : computeNdcgAtK retrieved relevant k ∈ Set.Icc 0 1
  best : computeNdcgAtK retrieved relevant k = 1 ↔ Ideal retrieved relevant k
  appended : ∀ more, k ≤ retrieved.length →
    computeRecallAtK (retrieved ++ more) relevant k = computeRecallAtK retrieved relevant k ∧
      computeNdcgAtK (retrieved ++ more) relevant k = computeNdcgAtK retrieved relevant k ∧
      computePrecisionAtK (retrieved ++ more) relevant k =
        computePrecisionAtK retrieved relevant k

section Averages

theorem mean_bounds {values : List ℝ} (bounded : ∀ value ∈ values, value ∈ Set.Icc 0 1) :
    mean values ∈ Set.Icc 0 1 := by
  rw [mean]
  split
  · exact ⟨le_refl 0, zero_le_one⟩
  · have low : 0 ≤ values.sum := List.sum_nonneg (fun value member => (bounded value member).1)
    have high : values.sum ≤ values.length := by
      have below := List.sum_le_card_nsmul values 1 (fun value member => (bounded value member).2)
      rwa [nsmul_one] at below
    exact ⟨div_nonneg low (Nat.cast_nonneg _), div_le_one_of_le₀ high (Nat.cast_nonneg _)⟩

theorem computeNdcgAtK_bounds (fits : relevant = ∅ ∨ RepeatsFit retrieved relevant k)
    (positive : 1 ≤ k) : computeNdcgAtK retrieved relevant k ∈ Set.Icc 0 1 := by
  by_cases none : relevant = ∅
  · rw [computeNdcgAtK, if_pos none]
    exact ⟨zero_le_one, le_refl 1⟩
  · have some := Finset.nonempty_iff_ne_empty.mpr none
    have ideal := ideal_pos some positive
    have within := gains_iff_repeatsFit.mpr (fits.resolve_left none)
    rw [computeNdcgAtK_eq retrieved some positive]
    exact ⟨div_nonneg (Finset.sum_nonneg (fun place _ => (discount_pos place).le)) ideal.le,
      (div_le_one ideal).mpr within.1⟩

theorem cast_bounds {number : ℚ} (bounds : 0 ≤ number ∧ number ≤ 1) :
    (number : ℝ) ∈ Set.Icc 0 1 :=
  ⟨by exact_mod_cast bounds.1, by exact_mod_cast bounds.2⟩

end Averages

end RagSystem.Core.Evaluation
