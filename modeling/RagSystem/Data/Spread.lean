import Mathlib.Algebra.BigOperators.Group.List.Basic
import Mathlib.Algebra.Order.BigOperators.Group.List
import Mathlib.Algebra.Order.Field.Basic
import Mathlib.Data.List.Forall2
import Mathlib.Tactic.FieldSimp
import Mathlib.Tactic.Linarith
import Mathlib.Tactic.Ring

/-! The mean and the variance of a list of numbers, and what they do when the numbers rise. -/

namespace Spread

variable {K : Type*} [Field K]

def mean (values : List K) : K := values.sum / values.length

def variance (values : List K) : K :=
  (values.map (fun value => (value - mean values) ^ 2)).sum / values.length

theorem sum_map_sq_sub (values : List K) (center : K) :
    (values.map (fun value => (value - center) ^ 2)).sum =
      (values.map (· ^ 2)).sum - 2 * center * values.sum + values.length * center ^ 2 := by
  induction values with
  | nil => simp
  | cons value values ih =>
      simp only [List.map_cons, List.sum_cons, ih, List.length_cons, Nat.cast_add, Nat.cast_one]
      ring

variable [LinearOrder K] [IsStrictOrderedRing K]

theorem variance_eq {values : List K} (nonempty : values ≠ []) :
    variance values = (values.map (· ^ 2)).sum / values.length - mean values ^ 2 := by
  have positive : (values.length : K) ≠ 0 :=
    Nat.cast_ne_zero.mpr (mt List.length_eq_zero_iff.mp nonempty)
  rw [variance, sum_map_sq_sub, mean]
  field_simp
  ring

theorem variance_nonneg (values : List K) : 0 ≤ variance values := by
  apply div_nonneg _ (Nat.cast_nonneg _)
  apply List.sum_nonneg
  intro square member
  obtain ⟨value, -, rfl⟩ := List.mem_map.mp member
  exact sq_nonneg _

/-- The numbers of the second list are in place at least those of the first, all between zero and
one. -/
def RisesTo (first second : List K) : Prop :=
  List.Forall₂ (fun low high => 0 ≤ low ∧ low ≤ high ∧ high ≤ 1) first second

variable {first second : List K}

omit [IsStrictOrderedRing K] in
theorem RisesTo.length_eq (rises : RisesTo first second) : first.length = second.length :=
  List.Forall₂.length_eq rises

theorem RisesTo.sum_map_le (rises : RisesTo first second) (credit : K → K)
    (monotone : ∀ low high, low ≤ high → credit low ≤ credit high) :
    (first.map credit).sum ≤ (second.map credit).sum := by
  induction rises with
  | nil => exact le_rfl
  | cons pair _ ih =>
      simp only [List.map_cons, List.sum_cons]
      exact add_le_add (monotone _ _ pair.2.1) ih

theorem RisesTo.sum_le (rises : RisesTo first second) : first.sum ≤ second.sum := by
  simpa using rises.sum_map_le id (fun _ _ le => le)

theorem RisesTo.sum_nonneg (rises : RisesTo first second) : 0 ≤ first.sum := by
  induction rises with
  | nil => exact le_rfl
  | cons pair _ ih =>
      rw [List.sum_cons]
      exact add_nonneg pair.1 ih

theorem RisesTo.sum_sq_le (rises : RisesTo first second) :
    (second.map (· ^ 2)).sum - (first.map (· ^ 2)).sum ≤ 2 * (second.sum - first.sum) := by
  induction rises with
  | nil => simp
  | @cons low high first second pair _ ih =>
      obtain ⟨positive, rises, bounded⟩ := pair
      have square : high ^ 2 - low ^ 2 ≤ 2 * (high - low) := by
        calc high ^ 2 - low ^ 2 = (high - low) * (high + low) := by ring
          _ ≤ (high - low) * 2 :=
              mul_le_mul_of_nonneg_left (by linarith) (sub_nonneg.mpr rises)
          _ = 2 * (high - low) := by ring
      simp only [List.map_cons, List.sum_cons]
      linarith

theorem RisesTo.mean_le (rises : RisesTo first second) : mean first ≤ mean second := by
  rw [mean, mean, rises.length_eq]
  exact div_le_div_of_nonneg_right rises.sum_le (Nat.cast_nonneg _)

theorem RisesTo.mean_nonneg (rises : RisesTo first second) : 0 ≤ mean first :=
  div_nonneg rises.sum_nonneg (Nat.cast_nonneg _)

theorem RisesTo.variance_le (rises : RisesTo first second) :
    variance second - variance first ≤ 2 * (mean second - mean first) := by
  by_cases empty : first = []
  · subst empty
    obtain rfl : second = [] := List.length_eq_zero_iff.mp rises.length_eq.symm
    simp
  · have filled : second ≠ [] := by
      intro none
      exact empty (List.length_eq_zero_iff.mp (by rw [rises.length_eq, none]; rfl))
    have squares : (second.map (· ^ 2)).sum / (second.length : K) -
        (first.map (· ^ 2)).sum / (first.length : K) ≤ 2 * (mean second - mean first) := by
      calc (second.map (· ^ 2)).sum / (second.length : K) -
            (first.map (· ^ 2)).sum / (first.length : K)
          = ((second.map (· ^ 2)).sum - (first.map (· ^ 2)).sum) / (second.length : K) := by
            rw [rises.length_eq, sub_div]
        _ ≤ 2 * (second.sum - first.sum) / (second.length : K) :=
            div_le_div_of_nonneg_right rises.sum_sq_le (Nat.cast_nonneg _)
        _ = 2 * (mean second - mean first) := by
            rw [mean, mean, rises.length_eq]
            ring
    have means : mean first ^ 2 ≤ mean second ^ 2 :=
      pow_le_pow_left₀ rises.mean_nonneg rises.mean_le 2
    rw [variance_eq empty, variance_eq filled]
    linarith

theorem RisesTo.decay_le (rises : RisesTo first second) :
    1 / (1 + variance first) - 1 / (1 + variance second) ≤ 2 * (mean second - mean first) := by
  have low := variance_nonneg first
  have high := variance_nonneg second
  have lift : 0 ≤ mean second - mean first := sub_nonneg.mpr rises.mean_le
  have equal : 1 / (1 + variance first) - 1 / (1 + variance second) =
      (variance second - variance first) / ((1 + variance first) * (1 + variance second)) := by
    have one : 1 + variance first ≠ 0 := by linarith
    have other : 1 + variance second ≠ 0 := by linarith
    field_simp
    ring
  have large : 1 ≤ (1 + variance first) * (1 + variance second) :=
    one_le_mul_of_one_le_of_one_le (by linarith) (by linarith)
  rw [equal, div_le_iff₀ (by linarith)]
  calc variance second - variance first ≤ 2 * (mean second - mean first) := rises.variance_le
    _ ≤ 2 * (mean second - mean first) * ((1 + variance first) * (1 + variance second)) :=
        le_mul_of_one_le_right (by linarith) large

end Spread
