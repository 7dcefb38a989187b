import Mathlib.Algebra.Order.BigOperators.Group.List
import Mathlib.Algebra.Order.Ring.Nat
import Mathlib.Tactic.Common

/-! The places `range(0, count, size)` at which a list is cut into slices, and what is made of one
slice after the other. -/

namespace Batches

universe u v

variable {α : Type u} {β : Type v} {size count start place : Nat} {items : List α}

/-- `range(0, count, size)`. -/
def starts (size count : Nat) : List Nat :=
  (List.range ((count + size - 1) / size)).map (· * size)

/-- `items[start : start + size]`. -/
def batchAt (size : Nat) (items : List α) (start : Nat) : List α := (items.drop start).take size

def batches (size : Nat) (items : List α) : List (List α) :=
  (starts size items.length).map (batchAt size items)

theorem starts_zero (positive : 0 < size) : starts size 0 = [] := by
  have none : (0 + size - 1) / size = 0 := Nat.div_eq_of_lt (by omega)
  rw [starts, none]
  rfl

theorem starts_cons (positive : 0 < size) (some : 0 < count) :
    starts size count = 0 :: (starts size (count - size)).map (· + size) := by
  have slices : (count + size - 1) / size = (count - size + size - 1) / size + 1 := by
    by_cases large : size ≤ count
    · have shifted : count + size - 1 = (count - size + size - 1) + size := by omega
      rw [shifted, Nat.add_div_right _ positive]
    · have last : count - size + size - 1 = size - 1 := by omega
      have one : count + size - 1 = (count - 1) + size := by omega
      rw [last, one, Nat.add_div_right _ positive, Nat.div_eq_of_lt (by omega),
        Nat.div_eq_of_lt (by omega)]
  rw [starts, starts, slices, List.range_succ_eq_map, List.map_cons, List.map_map, List.map_map,
    Nat.zero_mul]
  congr 1
  apply List.map_congr_left
  intro slice _
  exact Nat.succ_mul slice size

theorem slices_induction {holds : Nat → Prop} (positive : 0 < size) (zero : holds 0)
    (step : ∀ count, 0 < count → holds (count - size) → holds count) (count : Nat) :
    holds count := by
  induction count using Nat.strong_induction_on with
  | _ count ih =>
      rcases Nat.eq_zero_or_pos count with rfl | some
      · exact zero
      · exact step count some (ih (count - size) (by omega))

theorem mem_starts (positive : 0 < size) :
    start ∈ starts size count ↔ size ∣ start ∧ start < count := by
  induction count using slices_induction positive generalizing start with
  | zero =>
      rw [starts_zero positive]
      simp
  | step count some ih =>
      rw [starts_cons positive some, List.mem_cons, List.mem_map]
      constructor
      · intro given
        rcases given with rfl | ⟨earlier, member, rfl⟩
        · exact ⟨Nat.dvd_zero size, some⟩
        · obtain ⟨divides, below⟩ := ih.mp member
          exact ⟨Nat.dvd_add divides (Nat.dvd_refl size), by omega⟩
      · intro placed
        obtain ⟨divides, below⟩ := placed
        rcases Nat.eq_zero_or_pos start with rfl | later
        · exact Or.inl rfl
        · have whole := Nat.le_of_dvd later divides
          refine Or.inr ⟨start - size, ih.mpr ⟨?_, by omega⟩, by omega⟩
          exact Nat.dvd_sub divides (Nat.dvd_refl size)

theorem batches_nil (positive : 0 < size) : batches size ([] : List α) = [] := by
  rw [batches, List.length_nil, starts_zero positive]
  rfl

theorem batches_cons (positive : 0 < size) (some : items ≠ []) :
    batches size items = items.take size :: batches size (items.drop size) := by
  rw [batches, starts_cons positive (List.length_pos_of_ne_nil some), List.map_cons, List.map_map,
    batches, List.length_drop]
  congr 1
  apply List.map_congr_left
  intro start _
  simp only [Function.comp_apply, batchAt, List.drop_drop, Nat.add_comm]

theorem flatten_batches (positive : 0 < size) (items : List α) :
    (batches size items).flatten = items := by
  induction counted : items.length using slices_induction positive generalizing items with
  | zero =>
      obtain rfl := List.eq_nil_of_length_eq_zero counted
      rw [batches_nil positive]
      rfl
  | step count some ih =>
      have nonempty : items ≠ [] := List.ne_nil_of_length_pos (by omega)
      rw [batches_cons positive nonempty, List.flatten_cons,
        ih (items.drop size) (by rw [List.length_drop, counted]), List.take_append_drop]

section Parts

variable {parts : Nat → List β}

theorem sum_slices (positive : 0 < size) (count : Nat) :
    ((starts size count).map (fun start => min size (count - start))).sum = count := by
  induction count using slices_induction positive with
  | zero =>
      rw [starts_zero positive]
      rfl
  | step count some ih =>
      have shifted : (starts size (count - size)).map
          (fun start => min size (count - (start + size))) =
          (starts size (count - size)).map (fun start => min size (count - size - start)) := by
        apply List.map_congr_left
        intro start _
        congr 1
        omega
      have rest : ((starts size (count - size)).map
          (fun start => min size (count - (start + size)))).sum = count - size := by
        rw [shifted, ih]
      rw [starts_cons positive some, List.map_cons, List.sum_cons, List.map_map]
      exact (congrArg (min size (count - 0) + ·) rest).trans (by omega)

theorem getElem?_flatMap_starts (positive : 0 < size)
    (same : ∀ start ∈ starts size count, (parts start).length = min size (count - start)) :
    ((starts size count).flatMap parts)[place]? =
      if place < count then (parts (place / size * size))[place % size]? else none := by
  induction count using slices_induction positive generalizing parts place with
  | zero =>
      rw [starts_zero positive]
      rfl
  | step count some ih =>
      rw [starts_cons positive some] at same ⊢
      obtain ⟨first, later⟩ := List.forall_mem_cons.mp same
      have shifted : ∀ start ∈ starts size (count - size),
          (parts (start + size)).length = min size (count - size - start) := by
        intro start member
        rw [later (start + size) (List.mem_map_of_mem member)]
        omega
      have rest : ((starts size (count - size)).flatMap
          (fun start => parts (start + size)))[place - size]? =
          if place - size < count - size then
            (parts ((place - size) / size * size + size))[(place - size) % size]?
          else none := ih shifted
      rw [List.flatMap_cons, List.flatMap_map]
      by_cases inside : place < (parts 0).length
      · have small : place < size := by omega
        have within : place < count := by omega
        rw [List.getElem?_append_left inside, if_pos within, Nat.div_eq_of_lt small,
          Nat.mod_eq_of_lt small, Nat.zero_mul]
      · rw [List.getElem?_append_right (Nat.not_lt.mp inside)]
        by_cases within : place < count
        · have full : (parts 0).length = size := by omega
          have divided : (place - size) / size * size + size = place / size * size := by
            obtain ⟨left, rfl⟩ : ∃ left, place = left + size := ⟨place - size, by omega⟩
            rw [Nat.add_sub_cancel, Nat.add_div_right _ positive, Nat.succ_mul]
          have rested : (place - size) % size = place % size :=
            (Nat.mod_eq_sub_mod (by omega)).symm
          rw [full, rest, if_pos (by omega), if_pos within, divided, rested]
        · have none : ((starts size (count - size)).flatMap
              (fun start => parts (start + size))).length ≤ place - (parts 0).length := by
            have lengths : (starts size (count - size)).map
                (fun start => (parts (start + size)).length) =
                (starts size (count - size)).map
                  (fun start => min size (count - size - start)) :=
              List.map_congr_left shifted
            rw [List.length_flatMap, lengths, sum_slices positive]
            omega
          rw [if_neg within, List.getElem?_eq_none none]

theorem length_flatMap_starts (positive : 0 < size)
    (same : ∀ start ∈ starts size count, (parts start).length = min size (count - start)) :
    ((starts size count).flatMap parts).length = count := by
  have lengths : (starts size count).map (fun start => (parts start).length) =
      (starts size count).map (fun start => min size (count - start)) :=
    List.map_congr_left same
  rw [List.length_flatMap, lengths, sum_slices positive]

theorem length_eq_of_le (positive : 0 < size)
    (enough : ∀ start ∈ starts size count, min size (count - start) ≤ (parts start).length)
    (total : ((starts size count).flatMap parts).length = count) :
    ∀ start ∈ starts size count, (parts start).length = min size (count - start) := by
  intro start member
  by_contra differs
  have more : ((starts size count).map (fun start => min size (count - start))).sum <
      ((starts size count).map (fun start => (parts start).length)).sum := by
    apply List.sum_lt_sum _ _ enough
    exact ⟨start, member, by have below := enough start member; omega⟩
  rw [sum_slices positive, ← List.length_flatMap, total] at more
  exact Nat.lt_irrefl count more

end Parts

end Batches
