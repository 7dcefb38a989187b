import Mathlib.Algebra.Order.Ring.Nat
import Mathlib.Data.List.Basic

/-! Packing from the front: items are taken while their total cost stays within a budget. -/

namespace RagSystem

variable {α : Type}

def totalCost (cost : α → Nat) (items : List α) : Nat := (items.map cost).sum

/-- The items up to the first that does not fit any more. -/
def fitting (cost : α → Nat) : (budget : Int) → List α → List α
  | _, [] => []
  | budget, item :: rest =>
      if budget < cost item then [] else item :: fitting cost (budget - cost item) rest

variable {cost : α → Nat} {budget : Int} {items taken : List α}

@[simp] theorem totalCost_nil : totalCost cost [] = 0 := rfl

@[simp] theorem totalCost_cons (item : α) :
    totalCost cost (item :: items) = cost item + totalCost cost items := by
  rw [totalCost, List.map_cons, List.sum_cons]
  rfl

@[simp] theorem totalCost_append (first second : List α) :
    totalCost cost (first ++ second) = totalCost cost first + totalCost cost second := by
  rw [totalCost, List.map_append, List.sum_append]
  rfl

theorem totalCost_le_of_prefix (cost : α → Nat) (within : taken <+: items) :
    totalCost cost taken ≤ totalCost cost items := by
  obtain ⟨rest, rfl⟩ := within
  rw [totalCost_append]
  omega

theorem fitting_eq_iff :
    fitting cost budget items = taken ↔
      taken <+: items ∧ (taken = [] ∨ (totalCost cost taken : Int) ≤ budget) ∧
        ∀ next rest, items = taken ++ next :: rest → budget < totalCost cost taken + cost next := by
  induction items generalizing budget taken with
  | nil =>
      constructor
      · intro given
        rcases given with rfl
        exact ⟨List.prefix_rfl, Or.inl rfl, by simp [fitting]⟩
      · exact fun packed => (List.prefix_nil.mp packed.1).symm
  | cons item items ih =>
      rw [fitting]
      by_cases exceeds : budget < cost item
      · rw [if_pos exceeds]
        constructor
        · intro given
          rcases given with rfl
          refine ⟨List.nil_prefix, Or.inl rfl, ?_⟩
          intro next rest same
          obtain ⟨rfl, -⟩ := List.cons.inj same
          simpa using exceeds
        · intro given
          rcases given with ⟨within, some | bound, -⟩
          · exact some.symm
          · cases taken with
            | nil => rfl
            | cons head taken =>
                obtain ⟨rfl, -⟩ := List.cons_prefix_cons.mp within
                rw [totalCost_cons] at bound
                omega
      · rw [if_neg exceeds]
        cases taken with
        | nil =>
            constructor
            · intro impossible
              simp at impossible
            · intro given
              rcases given with ⟨-, -, stops⟩
              have above := stops item items rfl
              rw [totalCost_nil] at above
              omega
        | cons head taken =>
            constructor
            · intro same
              obtain ⟨rfl, rest⟩ := List.cons.inj same
              obtain ⟨within, bound, stops⟩ := ih.mp rest
              refine ⟨List.cons_prefix_cons.mpr ⟨rfl, within⟩, Or.inr ?_, ?_⟩
              · rw [totalCost_cons]
                rcases bound with rfl | bound
                · rw [totalCost_nil]
                  omega
                · omega
              · intro next later split
                have above := stops next later (List.cons.inj split).2
                rw [totalCost_cons]
                omega
            · intro given
              rcases given with ⟨within, bound, stops⟩
              obtain ⟨rfl, inner⟩ := List.cons_prefix_cons.mp within
              congr 1
              apply ih.mpr
              refine ⟨inner, Or.inr ?_, ?_⟩
              · have whole := bound.resolve_left (by simp)
                rw [totalCost_cons] at whole
                omega
              · intro next later split
                have above := stops next later (by rw [split]; rfl)
                rw [totalCost_cons] at above
                omega

theorem prefix_fitting (cost : α → Nat) (budget : Int) (items : List α) :
    fitting cost budget items <+: items :=
  (fitting_eq_iff.mp rfl).1

theorem totalCost_fitting_le (some : 0 ≤ budget) (items : List α) :
    (totalCost cost (fitting cost budget items) : Int) ≤ budget := by
  rcases (fitting_eq_iff.mp (rfl : fitting cost budget items = _)).2.1 with none | bound
  · rw [none, totalCost_nil]
    exact some
  · exact bound

theorem totalCost_fitting_lt {next : α} {rest : List α}
    (split : items = fitting cost budget items ++ next :: rest) :
    budget < totalCost cost (fitting cost budget items) + cost next :=
  (fitting_eq_iff.mp rfl).2.2 next rest split

theorem fitting_self_of_prefix (within : taken <+: fitting cost budget items) :
    fitting cost budget taken = taken := by
  refine fitting_eq_iff.mpr ⟨List.prefix_rfl, ?_, ?_⟩
  · rcases (fitting_eq_iff.mp (rfl : fitting cost budget items = _)).2.1 with none | bound
    · rw [none, List.prefix_nil] at within
      exact Or.inl within
    · right
      have less := totalCost_le_of_prefix cost within
      omega
  · intro next rest same
    have lengths := congrArg List.length same
    simp at lengths

theorem fitting_append (cost : α → Nat) (budget : Int) (first second : List α) :
    (fitting cost budget first = first →
        fitting cost budget (first ++ second) =
          first ++ fitting cost (budget - totalCost cost first) second) ∧
      (fitting cost budget first ≠ first →
        fitting cost budget (first ++ second) = fitting cost budget first) := by
  induction first generalizing budget with
  | nil => simp [fitting]
  | cons item first ih =>
      rw [List.cons_append, fitting, fitting]
      by_cases exceeds : budget < cost item
      · simp [exceeds]
      · obtain ⟨whole, part⟩ := ih (budget - cost item)
        rw [if_neg exceeds, if_neg exceeds, totalCost_cons]
        constructor
        · intro same
          rw [whole (List.cons.inj same).2]
          push_cast
          rw [List.cons_append, sub_sub]
        · intro differs
          rw [part fun same => differs (congrArg (item :: ·) same)]

/-- The longest beginning within the budget. -/
structure LongestWithin (cost : α → Nat) (budget : Int) (items taken : List α) : Prop where
  begins : taken <+: items
  within : (totalCost cost taken : Int) ≤ budget
  longest : ∀ other, other <+: items → (totalCost cost other : Int) ≤ budget → other <+: taken

theorem longestWithin_iff (some : 0 ≤ budget) :
    LongestWithin cost budget items taken ↔ taken = fitting cost budget items := by
  have packed : LongestWithin cost budget items (fitting cost budget items) := by
    refine ⟨prefix_fitting cost budget items, totalCost_fitting_le some items, ?_⟩
    intro other begins within
    by_contra longer
    have shorter : fitting cost budget items <+: other :=
      (List.prefix_or_prefix_of_prefix (prefix_fitting cost budget items) begins).resolve_right
        longer
    obtain ⟨rest, rfl⟩ := shorter
    cases rest with
    | nil => simp at longer
    | cons next rest =>
        obtain ⟨later, split⟩ := begins
        have whole : items = fitting cost budget items ++ next :: (rest ++ later) := by
          rw [← List.cons_append, ← List.append_assoc]
          exact split.symm
        have above := totalCost_fitting_lt whole
        rw [totalCost_append, totalCost_cons] at within
        omega
  constructor
  · intro longest
    apply List.IsPrefix.eq_of_length (packed.longest taken longest.begins longest.within)
    apply Nat.le_antisymm
    · exact (packed.longest taken longest.begins longest.within).length_le
    · exact (longest.longest _ packed.begins packed.within).length_le
  · intro given
    rcases given with rfl
    exact packed

end RagSystem
