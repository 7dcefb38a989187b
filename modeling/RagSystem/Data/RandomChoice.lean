import Mathlib.Algebra.BigOperators.Group.List.Lemmas
import Mathlib.Algebra.Order.BigOperators.Group.List
import Mathlib.Algebra.Order.Field.Rat
import Mathlib.Tactic.FieldSimp
import Mathlib.Tactic.Linarith
import Mathlib.Tactic.Positivity

/-! `random.choice` and `random.choices`: which items a draw can select. -/

namespace RandomChoice

/-- The numbers that `random.random()` returns. -/
def IsDraw (draw : ℚ) : Prop := 0 ≤ draw ∧ draw < 1

theorem isDraw_zero : IsDraw 0 := ⟨le_refl _, by norm_num⟩

/-- `itertools.accumulate(weights)`, by index. -/
def cumulative (weights : List ℚ) (index : Nat) : ℚ := (weights.take (index + 1)).sum

/-- `bisect.bisect_right(values, target, low, high)`; every turn narrows the range. -/
def bisectRight (values : Nat → ℚ) (target : ℚ) : Nat → Nat → Nat → Nat
  | 0, low, _ => low
  | fuel + 1, low, high =>
      if low < high then
        let middle := (low + high) / 2
        if target < values middle then bisectRight values target fuel low middle
        else bisectRight values target fuel (middle + 1) high
      else low

/-- The index that `random.choices(items, weights)` takes. -/
def choicesIndex (weights : List ℚ) (draw : ℚ) : Nat :=
  bisectRight (cumulative weights) (draw * weights.sum) weights.length 0 (weights.length - 1)

/-- The index that `random.choice(items)` takes. -/
def choiceIndex (count : Nat) (draw : ℚ) : Nat := (draw * count).floor.toNat

theorem bisectRight_spec (values : Nat → ℚ) (target : ℚ) (fuel low high : Nat) (le : low ≤ high)
    (enough : high ≤ low + fuel) :
    low ≤ bisectRight values target fuel low high ∧
      bisectRight values target fuel low high ≤ high ∧
      (low < bisectRight values target fuel low high →
        values (bisectRight values target fuel low high - 1) ≤ target) ∧
      (bisectRight values target fuel low high < high →
        target < values (bisectRight values target fuel low high)) := by
  induction fuel generalizing low high with
  | zero =>
      obtain rfl : low = high := by omega
      simp [bisectRight]
  | succ fuel ih =>
      unfold bisectRight
      by_cases open_range : low < high
      · simp only [open_range, if_true]
        by_cases below : target < values ((low + high) / 2)
        · simp only [below, if_true]
          obtain ⟨least, most, before, after⟩ := ih low ((low + high) / 2) (by omega) (by omega)
          refine ⟨least, by omega, before, fun _ => ?_⟩
          by_cases last : bisectRight values target fuel low ((low + high) / 2) = (low + high) / 2
          · rwa [last]
          · exact after (by omega)
        · simp only [below, if_false]
          obtain ⟨least, most, before, after⟩ :=
            ih ((low + high) / 2 + 1) high (by omega) (by omega)
          refine ⟨by omega, most, fun _ => ?_, after⟩
          by_cases first : bisectRight values target fuel ((low + high) / 2 + 1) high =
              (low + high) / 2 + 1
          · rw [first]
            exact not_lt.mp below
          · exact before (by omega)
      · obtain rfl : low = high := by omega
        simp

section Weighted

variable {weights : List ℚ} {draw weight : ℚ} {index : Nat}

theorem choicesIndex_lt (some_weight : weights ≠ []) (draw : ℚ) :
    choicesIndex weights draw < weights.length := by
  have length := List.length_pos_iff.mpr some_weight
  have bounds := bisectRight_spec (cumulative weights) (draw * weights.sum) weights.length 0
    (weights.length - 1) (by omega) (by omega)
  have most : choicesIndex weights draw ≤ weights.length - 1 := bounds.2.1
  omega

theorem choicesIndex_spec (some_weight : weights ≠ []) (positive : 0 < weights.sum)
    (drawn : IsDraw draw) :
    (weights.take (choicesIndex weights draw)).sum ≤ draw * weights.sum ∧
      draw * weights.sum < (weights.take (choicesIndex weights draw + 1)).sum := by
  have length := List.length_pos_iff.mpr some_weight
  obtain ⟨-, most, before, after⟩ := bisectRight_spec (cumulative weights) (draw * weights.sum)
    weights.length 0 (weights.length - 1) (by omega) (by omega)
  constructor
  · by_cases first : choicesIndex weights draw = 0
    · rw [first]
      have target : 0 ≤ draw * weights.sum := mul_nonneg drawn.1 positive.le
      simpa using target
    · have later : 0 < choicesIndex weights draw := Nat.pos_of_ne_zero first
      have held : (weights.take (choicesIndex weights draw - 1 + 1)).sum ≤ draw * weights.sum :=
        before later
      rwa [Nat.sub_add_cancel later] at held
  · by_cases last : choicesIndex weights draw = weights.length - 1
    · rw [last, Nat.sub_add_cancel length, List.take_length]
      have below : draw * weights.sum < 1 * weights.sum :=
        mul_lt_mul_of_pos_right drawn.2 positive
      rwa [one_mul] at below
    · have early : choicesIndex weights draw < weights.length - 1 := lt_of_le_of_ne most last
      exact after early

theorem sum_take_succ (found : weights[index]? = some weight) :
    (weights.take (index + 1)).sum = (weights.take index).sum + weight := by
  rw [List.take_add_one, List.sum_append, found]
  simp

theorem choicesIndex_positive (positive : 0 < weights.sum) (drawn : IsDraw draw)
    (found : weights[choicesIndex weights draw]? = some weight) : 0 < weight := by
  have some_weight : weights ≠ [] := by
    intro given
    rcases given with rfl
    simp at found
  have around := choicesIndex_spec some_weight positive drawn
  rw [sum_take_succ found] at around
  linarith

theorem sum_take_mono (nonneg : ∀ weight ∈ weights, 0 ≤ weight) {first second : Nat}
    (le : first ≤ second) : (weights.take first).sum ≤ (weights.take second).sum := by
  apply List.Sublist.sum_le_sum (List.take_sublist_take_left le)
  intro weight member
  exact nonneg weight (List.mem_of_mem_take member)

theorem exists_choicesIndex (nonneg : ∀ weight ∈ weights, 0 ≤ weight)
    (found : weights[index]? = some weight) (positive : 0 < weight) :
    ∃ draw, IsDraw draw ∧ choicesIndex weights draw = index := by
  have some_weight : weights ≠ [] := by
    intro given
    rcases given with rfl
    simp at found
  have upTo := sum_take_succ found
  have least : (weights.take 0).sum ≤ (weights.take index).sum :=
    sum_take_mono nonneg (Nat.zero_le _)
  have inside : index < weights.length := (List.getElem?_eq_some_iff.mp found).1
  have most : (weights.take (index + 1)).sum ≤ weights.sum := by
    have all : (weights.take weights.length).sum = weights.sum := by rw [List.take_length]
    rw [← all]
    exact sum_take_mono nonneg inside
  have least' : 0 ≤ (weights.take index).sum := by simpa using least
  have total : 0 < weights.sum := by linarith
  have drawn : IsDraw ((weights.take index).sum / weights.sum) := by
    constructor
    · exact div_nonneg least' total.le
    · rw [div_lt_one total]
      linarith
  refine ⟨_, drawn, ?_⟩
  obtain ⟨before, after⟩ := choicesIndex_spec some_weight total drawn
  rw [div_mul_cancel₀ _ total.ne'] at before after
  by_contra other
  rcases lt_or_gt_of_ne other with early | late
  · have passed := sum_take_mono nonneg (Nat.succ_le_of_lt early)
    linarith
  · have passed := sum_take_mono nonneg (Nat.succ_le_of_lt late)
    linarith

end Weighted

theorem choiceIndex_lt {count : Nat} {draw : ℚ} (drawn : IsDraw draw) (some_item : 0 < count) :
    choiceIndex count draw < count := by
  have positive : (0 : ℚ) < count := by exact_mod_cast some_item
  have below : draw * count < count := by
    have scaled := mul_lt_mul_of_pos_right drawn.2 positive
    rwa [one_mul] at scaled
  have floor_lt : (draw * count).floor < count := by
    have rounded : ((draw * count).floor : ℚ) ≤ draw * count := Rat.floor_le _
    exact_mod_cast lt_of_le_of_lt rounded below
  unfold choiceIndex
  omega

theorem exists_choiceIndex {count index : Nat} (inside : index < count) :
    ∃ draw, IsDraw draw ∧ choiceIndex count draw = index := by
  have positive : (0 : ℚ) < count := by exact_mod_cast Nat.zero_lt_of_lt inside
  refine ⟨(index : ℚ) / count, ⟨by positivity, ?_⟩, ?_⟩
  · rw [div_lt_one positive]
    exact_mod_cast inside
  · have floored : ((index : ℚ)).floor = index := by exact_mod_cast Rat.floor_intCast (index : Int)
    rw [choiceIndex, div_mul_cancel₀ _ positive.ne', floored, Int.toNat_natCast]

end RandomChoice
