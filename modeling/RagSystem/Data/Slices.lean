import Mathlib.Data.List.Basic
import Mathlib.Data.List.Infix
import Mathlib.Tactic.Common

/-! Slices with negative bounds, as Python reads them. -/

namespace Slices

universe u v

variable {α : Type u} {β : Type v} {items : List α} {count : Int}

/-- `items[-count:]`, which is all of the items for a count of zero. -/
def sliceFrom (count : Int) (items : List α) : List α :=
  if 0 < count then items.drop (items.length - count.toNat) else items.drop (-count).toNat

/-- `items[:-count]`, which is empty for a count of zero. -/
def sliceUpTo (count : Nat) (items : List α) : List α :=
  if count = 0 then [] else items.take (items.length - count)

theorem sliceFrom_suffix (count : Int) (items : List α) : sliceFrom count items <:+ items := by
  unfold sliceFrom
  split
  · exact List.drop_suffix _ items
  · exact List.drop_suffix _ items

theorem sliceUpTo_append_sliceFrom (keep : Nat) (items : List α) :
    sliceUpTo keep items ++ sliceFrom keep items = items := by
  unfold sliceUpTo sliceFrom
  by_cases none : keep = 0
  · simp [none]
  · rw [if_neg none, if_pos (by omega), Int.toNat_natCast]
    exact List.take_append_drop _ items

theorem map_sliceFrom (f : α → β) (items : List α) :
    (sliceFrom count items).map f = sliceFrom count (items.map f) := by
  unfold sliceFrom
  split
  · rw [List.map_drop, List.length_map]
  · rw [List.map_drop]

theorem sliceFrom_zero (items : List α) : sliceFrom 0 items = items := by
  simp [sliceFrom]

theorem sliceFrom_cons (positive : 0 < count) (first : α) (full : (items.length : Int) = count) :
    sliceFrom count (first :: items) = items := by
  have surplus : (first :: items).length - count.toNat = 1 := by
    rw [List.length_cons]
    omega
  rw [sliceFrom, if_pos positive, surplus]
  rfl

end Slices
