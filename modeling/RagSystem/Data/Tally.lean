import Mathlib.Algebra.BigOperators.Group.List.Lemmas
import Mathlib.Algebra.Order.Ring.Nat
import Mathlib.Data.List.Dedup
import Mathlib.Data.List.Sort

/-! Items counted by a key, and counted rows in descending order. -/

namespace Tally

variable {α κ β : Type}

section Counting

variable [DecidableEq κ] (key : α → κ)

/-- Each key of the items with the number of the items that have it. -/
def tally (items : List α) : List (κ × Nat) :=
  (items.map key).dedup.map (fun group => (group, (items.map key).count group))

/-- The counts name every key of the items once, with the number of the items that have it. -/
structure Tallies (items : List α) (counts : List (κ × Nat)) : Prop where
  distinct : (counts.map Prod.fst).Nodup
  counted : ∀ group number, (group, number) ∈ counts ↔
    number = (items.map key).count group ∧ 0 < number

variable {key} {items others : List α} {counts more : List (κ × Nat)}

theorem tallies_tally (items : List α) : Tallies key items (tally key items) := by
  constructor
  · rw [tally, List.map_map, Function.comp_def]
    simpa using List.nodup_dedup (items.map key)
  · intro group number
    rw [tally, List.mem_map]
    constructor
    · intro given
      obtain ⟨other, member, same⟩ := given
      obtain ⟨rfl, rfl⟩ := Prod.mk.inj same
      exact ⟨rfl, List.count_pos_iff.mpr (List.mem_dedup.mp member)⟩
    · intro given
      obtain ⟨rfl, positive⟩ := given
      exact ⟨group, List.mem_dedup.mpr (List.count_pos_iff.mp positive), rfl⟩

theorem Tallies.perm (tallies : Tallies key items counts) (same : counts.Perm more) :
    Tallies key items more :=
  ⟨(same.map Prod.fst).nodup_iff.mp tallies.distinct,
    fun group number => (same.mem_iff).symm.trans (tallies.counted group number)⟩

theorem Tallies.of_perm (tallies : Tallies key items counts) (same : items.Perm others) :
    Tallies key others counts := by
  refine ⟨tallies.distinct, ?_⟩
  intro group number
  rw [tallies.counted, (same.map key).count_eq]

theorem sum_tally (items : List α) : ((tally key items).map Prod.snd).sum = items.length := by
  rw [tally, List.map_map]
  exact (List.sum_map_count_dedup_eq_length (items.map key)).trans (List.length_map key)

theorem find?_tally (items : List α) (group : κ) :
    (((tally key items).find? (fun row => row.1 = group)).map Prod.snd).getD 0 =
      (items.map key).count group := by
  cases found : (tally key items).find? (fun row => row.1 = group) with
  | none =>
      have absent := List.find?_eq_none.mp found
      by_contra other
      have positive : 0 < (items.map key).count group := Nat.pos_of_ne_zero (Ne.symm other)
      have member := ((tallies_tally items).counted group _).mpr ⟨rfl, positive⟩
      exact absent _ member (by simp)
  | some row =>
      have same : row.1 = group := by simpa using List.find?_some found
      have member := List.mem_of_find?_eq_some found
      have counted := ((tallies_tally items).counted row.1 row.2).mp member
      rw [← same]
      exact counted.1

end Counting

section Order

variable [LE β]

/-- An order of rows by a key, the largest first, and any one among equal keys. -/
structure Descending (key : α → β) where
  order : List α → List α
  perm : ∀ rows, (order rows).Perm rows
  descends : ∀ rows, (order rows).Pairwise (fun first second => key second ≤ key first)

end Order

/-- The order that keeps equal keys as they are. -/
def Descending.stable [LinearOrder β] (key : α → β) : Descending key where
  order rows := rows.insertionSort (fun first second => key second ≤ key first)
  perm rows := List.perm_insertionSort _ rows
  descends rows :=
    haveI : Std.Total (fun first second : α => key second ≤ key first) :=
      ⟨fun first second => le_total (key second) (key first)⟩
    haveI : IsTrans α (fun first second => key second ≤ key first) :=
      ⟨fun _ _ _ former latter => latter.trans former⟩
    List.pairwise_insertionSort _ rows

end Tally
