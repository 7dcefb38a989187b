import Mathlib.Data.List.Nodup
import Mathlib.Logic.Function.Iterate

/-! What is current, what was current before it, and the way back along that history. -/

universe u

structure Timeline (α : Type u) where
  current : Option α := none
  earlier : List α := []
  deriving DecidableEq, Repr

namespace Timeline

variable {α : Type u}

/-- The way back, from the current item on; there is none while nothing is current. -/
def path (line : Timeline α) : List α :=
  match line.current with
  | none => []
  | some item => item :: line.earlier

def push (item : α) (line : Timeline α) : Timeline α :=
  ⟨some item, line.current.toList ++ line.earlier⟩

/-- One step back, where there is one. -/
def back (line : Timeline α) : Timeline α :=
  match line.path with
  | _ :: previous :: rest => ⟨some previous, rest⟩
  | _ => line

/-- `item` no longer exists. -/
def forget [DecidableEq α] (item : α) (line : Timeline α) : Timeline α :=
  ⟨line.current.filter (· ≠ item), line.earlier.filter (· ≠ item)⟩

theorem back_of_path {line : Timeline α} {item previous : α} {rest : List α}
    (shape : line.path = item :: previous :: rest) : line.back = ⟨some previous, rest⟩ := by
  simp [back, shape]

theorem path_back {line : Timeline α} (room : 1 < line.path.length) :
    line.back.path = line.path.tail := by
  cases shape : line.path with
  | nil => simp [shape] at room
  | cons item rest =>
      cases rest with
      | nil => simp [shape] at room
      | cons previous rest =>
          rw [back_of_path shape]
          rfl

theorem path_iterate_back {line : Timeline α} {count : Nat} (room : count < line.path.length) :
    (back^[count] line).path = line.path.drop count := by
  induction count with
  | zero => simp
  | succ count ih =>
      have past := ih (by omega)
      rw [Function.iterate_succ_apply', path_back, past, List.tail_drop]
      rw [past, List.length_drop]
      omega

theorem path_eq_cons {line : Timeline α} {item : α} {rest : List α} :
    line.path = item :: rest ↔ line.current = some item ∧ line.earlier = rest := by
  cases shape : line.current <;> simp [path, shape]

theorem back_of_short {line : Timeline α} (short : line.path[1]? = none) : line.back = line := by
  unfold back
  split
  · next shape => simp [shape] at short
  · rfl

end Timeline
