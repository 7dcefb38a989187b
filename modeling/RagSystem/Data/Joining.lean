import Mathlib.Data.List.Basic

/-! Pieces joined by a separator that they may hold themselves: which lists of pieces join to the
same text. -/

namespace Joining

universe u

variable {α : Type u} [DecidableEq α] {separator : α} {pieces others : List (List α)}

/-- The pieces, each split at the separator. -/
def words (separator : α) (pieces : List (List α)) : List (List α) :=
  pieces.flatMap (List.splitOn separator)

omit [DecidableEq α] in
theorem intercalate_ne_nil (some : pieces ≠ []) (full : ∀ piece ∈ pieces, piece ≠ []) :
    [separator].intercalate pieces ≠ [] := by
  cases pieces with
  | nil => exact absurd rfl some
  | cons piece rest =>
      have first := full piece List.mem_cons_self
      cases rest with
      | nil => simpa using first
      | cons next rest => simp [List.intercalate_cons_cons]

theorem words_ne_nil (some : pieces ≠ []) : words separator pieces ≠ [] := by
  cases pieces with
  | nil => exact absurd rfl some
  | cons piece rest => simp [words]

theorem splitOn_intercalate (some : pieces ≠ []) :
    ([separator].intercalate pieces).splitOn separator = words separator pieces := by
  induction pieces with
  | nil => exact absurd rfl some
  | cons piece rest ih =>
      cases rest with
      | nil => simp [words]
      | cons next rest =>
          have inner := ih (List.cons_ne_nil next rest)
          rw [List.intercalate_cons_cons, List.append_assoc, List.singleton_append,
            List.splitOn_append_cons_self, inner]
          rfl

theorem splitOn_inj {first second : List α} :
    first.splitOn separator = second.splitOn separator ↔ first = second := by
  constructor
  · intro same
    have rejoined : ∀ text : List α, [separator].intercalate (text.splitOn separator) = text :=
      fun _ => List.intercalate_splitOn separator
    rw [← rejoined first, same, rejoined]
  · intro same
    rw [same]

theorem intercalate_eq_iff (full : ∀ piece ∈ pieces, piece ≠ [])
    (otherFull : ∀ piece ∈ others, piece ≠ []) :
    [separator].intercalate pieces = [separator].intercalate others ↔
      words separator pieces = words separator others := by
  by_cases empty : pieces = []
  · by_cases otherEmpty : others = []
    · rw [empty, otherEmpty]
      exact iff_of_true rfl rfl
    · apply iff_of_false
      · intro same
        rw [empty] at same
        exact intercalate_ne_nil otherEmpty otherFull same.symm
      · intro same
        rw [empty] at same
        exact words_ne_nil otherEmpty same.symm
  · by_cases otherEmpty : others = []
    · apply iff_of_false
      · intro same
        rw [otherEmpty] at same
        exact intercalate_ne_nil empty full same
      · intro same
        rw [otherEmpty] at same
        exact words_ne_nil empty same
    · rw [← splitOn_intercalate empty, ← splitOn_intercalate otherEmpty, splitOn_inj]

theorem append_separator_inj {front otherFront back otherBack : List α}
    (plain : separator ∉ front) (otherPlain : separator ∉ otherFront) :
    front ++ separator :: back = otherFront ++ separator :: otherBack ↔
      front = otherFront ∧ back = otherBack := by
  constructor
  · intro same
    have split := congrArg (List.splitOn separator) same
    rw [List.splitOn_append_cons_self_of_not_mem plain,
      List.splitOn_append_cons_self_of_not_mem otherPlain, List.cons.injEq, splitOn_inj] at split
    exact split
  · intro both
    rw [both.1, both.2]

end Joining
