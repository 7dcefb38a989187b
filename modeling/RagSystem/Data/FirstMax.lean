import Mathlib.Order.Lattice
import Mathlib.Order.Monotone.Basic

/-! The first greatest item of a list, as one scan from the left finds it. -/

namespace RagSystem

variable {α β : Type} [LinearOrder α]

/-- `top` is the greatest number, and `index` the first place where it stands. -/
structure FirstMax (numbers : List α) (index : Nat) (top : α) : Prop where
  found : numbers[index]? = some top
  earlier : ∀ number ∈ numbers.take index, number < top
  bounded : ∀ number ∈ numbers, number ≤ top

/-- The scan: what exceeds the best so far replaces it. -/
def scanMax (record : Nat → β) (start : Nat) (best : α × β) (numbers : List α) : α × β :=
  (numbers.zipIdx start).foldl
    (fun best item => if best.1 < item.1 then (item.1, record item.2) else best) best

variable {numbers : List α} {index : Nat} {top number : α}

namespace FirstMax

theorem lt_length (first : FirstMax numbers index top) : index < numbers.length :=
  (List.getElem?_eq_some_iff.mp first.found).1

theorem head (greatest : ∀ later ∈ numbers, later ≤ number) :
    FirstMax (number :: numbers) 0 number where
  found := rfl
  earlier := by simp
  bounded := by simpa using greatest

theorem later (first : FirstMax numbers index top) (below : number < top) :
    FirstMax (number :: numbers) (index + 1) top where
  found := first.found
  earlier := by simpa [below] using first.earlier
  bounded := by simpa [below.le] using first.bounded

theorem le_of_bounded {other : Nat} {greatest : α} (first : FirstMax numbers index top)
    (found : numbers[other]? = some greatest) (bounded : ∀ number ∈ numbers, number ≤ greatest) :
    index ≤ other := by
  by_contra earlier
  have before : other < index := by omega
  have member : greatest ∈ numbers.take index := by
    apply List.mem_of_getElem? (i := other)
    rw [List.getElem?_take_of_lt before, found]
  have smaller := first.earlier greatest member
  have larger := bounded top (List.mem_of_getElem? first.found)
  exact absurd larger smaller.not_ge

theorem unique {other : Nat} {greatest : α} (first : FirstMax numbers index top)
    (second : FirstMax numbers other greatest) : index = other := by
  apply Nat.le_antisymm
  · exact first.le_of_bounded second.found second.bounded
  · exact second.le_of_bounded first.found first.bounded

theorem map {γ : Type} [LinearOrder γ] {f : α → γ} (increasing : StrictMono f)
    (first : FirstMax numbers index top) : FirstMax (numbers.map f) index (f top) where
  found := by simp [first.found]
  earlier := by
    intro number member
    rw [← List.map_take] at member
    obtain ⟨source, inside, rfl⟩ := List.mem_map.mp member
    exact increasing (first.earlier source inside)
  bounded := by simpa [increasing.le_iff_le] using first.bounded

end FirstMax

theorem scanMax_cons {record : Nat → β} {start : Nat} {best : α × β} :
    scanMax record start best (number :: numbers) =
      scanMax record (start + 1) (if best.1 < number then (number, record start) else best)
        numbers := by
  rfl

theorem scanMax_spec (record : Nat → β) (start : Nat) (best : α × β) (numbers : List α) :
    ((∀ number ∈ numbers, number ≤ best.1) ∧ scanMax record start best numbers = best) ∨
      ∃ index top, FirstMax numbers index top ∧ best.1 < top ∧
        scanMax record start best numbers = (top, record (start + index)) := by
  induction numbers generalizing start best with
  | nil => exact Or.inl ⟨by simp, rfl⟩
  | cons number numbers ih =>
      rw [scanMax_cons]
      by_cases exceeds : best.1 < number
      · rw [if_pos exceeds]
        rcases ih (start + 1) (number, record start) with kept | replaced
        · exact Or.inr ⟨0, number, FirstMax.head kept.1, exceeds, kept.2⟩
        · obtain ⟨index, top, first, above, result⟩ := replaced
          refine Or.inr ⟨index + 1, top, first.later above, exceeds.trans above, ?_⟩
          rw [result, Nat.add_right_comm, Nat.add_assoc]
      · rw [if_neg exceeds]
        have below : number ≤ best.1 := not_lt.mp exceeds
        rcases ih (start + 1) best with kept | replaced
        · exact Or.inl ⟨by simpa [below] using kept.1, kept.2⟩
        · obtain ⟨index, top, first, above, result⟩ := replaced
          refine Or.inr ⟨index + 1, top, first.later (below.trans_lt above), above, ?_⟩
          rw [result, Nat.add_right_comm, Nat.add_assoc]

/-- `max(items, key=..)`: of the items with the greatest key the first. -/
def maxBy (key : β → α) (first : β) (rest : List β) : β :=
  rest.foldl (fun best item => if key best < key item then item else best) first

theorem maxBy_cons {key : β → α} {first item : β} {rest : List β} :
    maxBy key first (item :: rest) =
      maxBy key (if key first < key item then item else first) rest := by
  rfl

theorem maxBy_spec (key : β → α) (first : β) (rest : List β) :
    maxBy key first rest ∈ first :: rest ∧
      ∀ item ∈ first :: rest, key item ≤ key (maxBy key first rest) := by
  induction rest generalizing first with
  | nil => simp [maxBy]
  | cons item rest ih =>
      rw [maxBy_cons]
      by_cases exceeds : key first < key item
      · rw [if_pos exceeds]
        obtain ⟨member, greatest⟩ := ih item
        refine ⟨List.mem_cons_of_mem first member, List.forall_mem_cons.mpr ⟨?_, greatest⟩⟩
        exact exceeds.le.trans (greatest item List.mem_cons_self)
      · rw [if_neg exceeds]
        obtain ⟨member, greatest⟩ := ih first
        have atFirst : key first ≤ key (maxBy key first rest) :=
          greatest first List.mem_cons_self
        constructor
        · rcases List.mem_cons.mp member with same | later
          · rw [same]
            exact List.mem_cons_self
          · exact List.mem_cons_of_mem first (List.mem_cons_of_mem item later)
        · refine List.forall_mem_cons.mpr ⟨atFirst, List.forall_mem_cons.mpr ⟨?_, ?_⟩⟩
          · exact (not_lt.mp exceeds).trans atFirst
          · intro other inside
            exact greatest other (List.mem_cons_of_mem first inside)

end RagSystem
