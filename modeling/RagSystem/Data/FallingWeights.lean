import Mathlib.Algebra.Order.BigOperators.Group.Finset
import Mathlib.Algebra.Order.Group.Defs
import Mathlib.Data.Finset.Max

/-! Weights of places that fall from place to place: so many places weigh most where they are the
first ones. -/

namespace FallingWeights

universe u

variable {K : Type u} [AddCommGroup K] [LinearOrder K] [IsOrderedAddMonoid K] {weight : Nat → K}
  {places : Finset Nat} {count : Nat}

theorem card_le_of_below {last : Nat} (below : ∀ place ∈ places, place < last) :
    places.card ≤ last := by
  have inside : places ⊆ Finset.range last := fun place member =>
    Finset.mem_range.mpr (below place member)
  calc places.card
    _ ≤ (Finset.range last).card := Finset.card_le_card inside
    _ = last := Finset.card_range last

theorem sum_le_sum_range (falls : StrictAnti weight) (places : Finset Nat) :
    (∑ place ∈ places, weight place) ≤ ∑ place ∈ Finset.range places.card, weight place ∧
      ((∑ place ∈ places, weight place) = ∑ place ∈ Finset.range places.card, weight place →
        places = Finset.range places.card) := by
  induction places using Finset.induction_on_max with
  | empty => simp
  | insert last places below ih =>
      obtain ⟨bound, equal⟩ := ih
      have fresh : last ∉ places := fun member => lt_irrefl last (below last member)
      have card := card_le_of_below below
      have lighter := falls.antitone card
      rw [Finset.sum_insert fresh, Finset.card_insert_of_notMem fresh, Finset.sum_range_succ,
        add_comm (weight last)]
      constructor
      · exact add_le_add bound lighter
      · intro same
        have parts := (add_eq_add_iff_eq_and_eq bound lighter).mp same
        have here : last = places.card := falls.injective parts.2
        rw [Finset.range_add_one, here, ← equal parts.1]

theorem sum_lt_of_ssubset (positive : ∀ place, 0 < weight place) {fewer : Finset Nat}
    (less : fewer ⊂ places) :
    ∑ place ∈ fewer, weight place < ∑ place ∈ places, weight place := by
  obtain ⟨place, member, outside⟩ := Finset.exists_of_ssubset less
  apply Finset.sum_lt_sum_of_subset less.subset member outside (positive place)
  exact fun other _ _ => (positive other).le

theorem sum_le_sum_range_of_card_le (falls : StrictAnti weight)
    (positive : ∀ place, 0 < weight place) (few : places.card ≤ count) :
    ∑ place ∈ places, weight place ≤ ∑ place ∈ Finset.range count, weight place ∧
      (∑ place ∈ places, weight place = ∑ place ∈ Finset.range count, weight place ↔
        places = Finset.range count) := by
  obtain ⟨bound, equal⟩ := sum_le_sum_range falls places
  rcases few.lt_or_eq with less | same
  · have inside : Finset.range places.card ⊂ Finset.range count := by
      refine Finset.ssubset_iff_subset_ne.mpr ⟨Finset.range_mono less.le, ?_⟩
      intro same
      have cards := congrArg Finset.card same
      rw [Finset.card_range, Finset.card_range] at cards
      exact less.ne cards
    have below := bound.trans_lt (sum_lt_of_ssubset positive inside)
    refine ⟨below.le, iff_of_false below.ne ?_⟩
    intro first
    rw [first, Finset.card_range] at less
    exact lt_irrefl count less
  · rw [same] at bound equal
    refine ⟨bound, equal, ?_⟩
    intro first
    rw [first]

end FallingWeights
