import Mathlib.Data.List.Induction
import Mathlib.Order.Lattice
import Mathlib.Order.Defs.LinearOrder

/-! The least of the items of the greatest value, found by going through them in any order. -/

universe u v

variable {α : Type u} {β : Type v} [LinearOrder α] [LinearOrder β]

structure LeastBest (value : α → β) (items : List α) (best : α) : Prop where
  mem : best ∈ items
  greatest : ∀ item ∈ items, value item ≤ value best
  least : ∀ item ∈ items, value item = value best → best ≤ item

namespace LeastBest

variable {value : α → β} {items : List α} {item best other : α} {floor : β} {state : β × α}

/-- An item that is better, or as good and less, takes the place of the one that is kept. -/
def keep (value : α → β) (state : β × α) (item : α) : β × α :=
  if state.1 < value item then (value item, item)
  else if value item = state.1 ∧ item < state.2 then (state.1, item)
  else state

theorem unique (first : LeastBest value items best) (second : LeastBest value items other) :
    best = other := by
  have same : value best = value other :=
    le_antisymm (second.greatest best first.mem) (first.greatest other second.mem)
  exact le_antisymm (first.least other second.mem same.symm) (second.least best first.mem same)

theorem concat_better (above : ∀ earlier ∈ items, value earlier < value item) :
    LeastBest value (items ++ [item]) item where
  mem := List.mem_append_right _ (List.mem_singleton_self item)
  greatest := by
    intro earlier member
    rcases List.mem_append.mp member with old | new
    · exact (above earlier old).le
    · rw [List.mem_singleton.mp new]
  least := by
    intro earlier member same
    rcases List.mem_append.mp member with old | new
    · exact absurd same (above earlier old).ne
    · exact (List.mem_singleton.mp new).ge

theorem concat_less (kept : LeastBest value items best) (same : value item = value best)
    (less : item < best) : LeastBest value (items ++ [item]) item where
  mem := List.mem_append_right _ (List.mem_singleton_self item)
  greatest := by
    intro earlier member
    rcases List.mem_append.mp member with old | new
    · exact (kept.greatest earlier old).trans same.ge
    · rw [List.mem_singleton.mp new]
  least := by
    intro earlier member equal
    rcases List.mem_append.mp member with old | new
    · calc item
        _ ≤ best := less.le
        _ ≤ earlier := kept.least earlier old (equal.trans same)
    · exact (List.mem_singleton.mp new).ge

theorem concat_keep (kept : LeastBest value items best) (below : value item ≤ value best)
    (tied : value item = value best → best ≤ item) : LeastBest value (items ++ [item]) best where
  mem := List.mem_append_left _ kept.mem
  greatest := List.forall_mem_append.mpr ⟨kept.greatest, List.forall_mem_singleton.mpr below⟩
  least := List.forall_mem_append.mpr ⟨kept.least, List.forall_mem_singleton.mpr tied⟩

/-- What is kept of the items: the least of the best, where any is above the floor. -/
def Kept (value : α → β) (floor : β) (items : List α) (state : β × α) : Prop :=
  state.1 = floor ∧ (∀ item ∈ items, value item = floor) ∨
    floor < state.1 ∧ state.1 = value state.2 ∧ LeastBest value items state.2

theorem Kept.concat (kept : Kept value floor items state) (low : floor ≤ value item) :
    Kept value floor (items ++ [item]) (keep value state item) := by
  rw [keep]
  by_cases better : state.1 < value item
  · rw [if_pos better]
    rcases kept with none | some
    · obtain ⟨start, flat⟩ := none
      rw [start] at better
      refine Or.inr ⟨better, rfl, concat_better ?_⟩
      intro earlier member
      rwa [flat earlier member]
    · obtain ⟨above, same, best⟩ := some
      refine Or.inr ⟨above.trans better, rfl, concat_better ?_⟩
      intro earlier member
      exact (best.greatest earlier member).trans_lt (by rwa [← same])
  · rw [if_neg better]
    have below := not_lt.mp better
    rcases kept with none | some
    · obtain ⟨start, flat⟩ := none
      have floored : value item = floor := le_antisymm (below.trans start.le) low
      have all : ∀ earlier ∈ items ++ [item], value earlier = floor :=
        List.forall_mem_append.mpr ⟨flat, List.forall_mem_singleton.mpr floored⟩
      split
      · exact Or.inl ⟨start, all⟩
      · exact Or.inl ⟨start, all⟩
    · obtain ⟨above, same, best⟩ := some
      by_cases less : value item = state.1 ∧ item < state.2
      · rw [if_pos less]
        have tied := less.1.trans same
        exact Or.inr ⟨above, less.1.symm, best.concat_less tied less.2⟩
      · rw [if_neg less]
        refine Or.inr ⟨above, same, best.concat_keep (below.trans same.le) ?_⟩
        intro tied
        exact not_lt.mp (fun under => less ⟨tied.trans same.symm, under⟩)

theorem kept_foldl (low : ∀ item ∈ items, floor ≤ value item) (start : α) :
    Kept value floor items (items.foldl (keep value) (floor, start)) := by
  induction items using List.reverseRecOn with
  | nil => exact Or.inl ⟨rfl, by simp⟩
  | append_singleton earlier item ih =>
      obtain ⟨before, last⟩ := List.forall_mem_append.mp low
      rw [List.foldl_append]
      exact (ih before).concat (last item (List.mem_singleton_self item))

end LeastBest
