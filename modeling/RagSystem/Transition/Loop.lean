import Mathlib.Logic.Relation

/-! `while` loops over a partial step function: `none` of the step is the loop's end. -/

namespace Transition

universe u v

variable {σ : Type u} {τ : Type v}

/-- The state in which the loop ends; `none` is fuel that runs out. -/
def loop (step : σ → Option σ) : Nat → σ → Option σ
  | 0, _ => none
  | fuel + 1, state =>
      match step state with
      | none => some state
      | some next => loop step fuel next

/-- Some steps lead from one state to the other. -/
def Steps (step : σ → Option σ) : σ → σ → Prop :=
  Relation.ReflTransGen (fun state next => step state = some next)

variable {step : σ → Option σ} {other : τ → Option τ} {fuel more : Nat} {state next last : σ}

theorem loop_of_none (ends : step state = none) : loop step (fuel + 1) state = some state := by
  simp only [loop, ends]

theorem loop_of_some (stepped : step state = some next) :
    loop step (fuel + 1) state = loop step fuel next := by
  simp only [loop, stepped]

theorem loop_mono (ended : loop step fuel state = some last) (enough : fuel ≤ more) :
    loop step more state = some last := by
  induction fuel generalizing state more with
  | zero => cases ended
  | succ fuel ih =>
      obtain ⟨more, rfl⟩ : ∃ less, more = less + 1 := ⟨more - 1, by omega⟩
      cases stepped : step state with
      | none =>
          rw [loop_of_none stepped] at ended ⊢
          exact ended
      | some next =>
          rw [loop_of_some stepped] at ended ⊢
          exact ih ended (by omega)

theorem loop_ends (potential : σ → Nat)
    (falls : ∀ state next, step state = some next → potential next < potential state)
    (enough : potential state < fuel) : ∃ last, loop step fuel state = some last := by
  induction fuel generalizing state with
  | zero => exact absurd enough (Nat.not_lt_zero _)
  | succ fuel ih =>
      cases stepped : step state with
      | none => exact ⟨state, loop_of_none stepped⟩
      | some next =>
          have lower := falls state next stepped
          have left : potential next < fuel := by omega
          obtain ⟨last, ended⟩ := ih left
          exact ⟨last, (loop_of_some stepped).trans ended⟩

theorem loop_invariant (holds : σ → Prop) (initial : holds state)
    (kept : ∀ state next, holds state → step state = some next → holds next)
    (ended : loop step fuel state = some last) : holds last ∧ step last = none := by
  induction fuel generalizing state with
  | zero => cases ended
  | succ fuel ih =>
      cases stepped : step state with
      | none =>
          rw [loop_of_none stepped] at ended
          obtain rfl : state = last := Option.some.inj ended
          exact ⟨initial, stepped⟩
      | some next =>
          rw [loop_of_some stepped] at ended
          exact ih (kept state next initial stepped) ended

theorem loop_map (view : σ → τ) (same : ∀ state, other (view state) = (step state).map view) :
    loop other fuel (view state) = (loop step fuel state).map view := by
  induction fuel generalizing state with
  | zero => rfl
  | succ fuel ih =>
      have whole := same state
      cases stepped : step state with
      | none =>
          rw [stepped] at whole
          rw [loop_of_none stepped, loop_of_none whole]
          rfl
      | some next =>
          rw [stepped] at whole
          rw [loop_of_some stepped, loop_of_some whole]
          exact ih

theorem loop_of_steps (steps : Steps step state next) (ended : loop step fuel next = some last) :
    ∃ more, loop step more state = some last := by
  induction steps using Relation.ReflTransGen.head_induction_on with
  | refl => exact ⟨fuel, ended⟩
  | head stepped _ ih =>
      obtain ⟨more, later⟩ := ih
      exact ⟨more + 1, (loop_of_some stepped).trans later⟩

theorem loop_simulates (related : σ → τ → Prop)
    (answers : ∀ state partner next, related state partner → step state = some next →
      ∃ reached, Steps other partner reached ∧ related next reached)
    (settles : ∀ state partner, related state partner → step state = none →
      ∃ reached, Steps other partner reached ∧ related state reached ∧ other reached = none)
    {partner : τ} (initial : related state partner) (ended : loop step fuel state = some last) :
    ∃ more reached, loop other more partner = some reached ∧ related last reached := by
  induction fuel generalizing state partner with
  | zero => cases ended
  | succ fuel ih =>
      cases stepped : step state with
      | none =>
          rw [loop_of_none stepped] at ended
          obtain rfl : state = last := Option.some.inj ended
          obtain ⟨reached, steps, kept, stops⟩ := settles state partner initial stepped
          have stopped : loop other 1 reached = some reached := loop_of_none stops
          obtain ⟨more, done⟩ := loop_of_steps steps stopped
          exact ⟨more, reached, done, kept⟩
      | some next =>
          rw [loop_of_some stepped] at ended
          obtain ⟨reached, steps, kept⟩ := answers state partner next initial stepped
          obtain ⟨fuelThere, there, done, final⟩ := ih kept ended
          obtain ⟨more, whole⟩ := loop_of_steps steps done
          exact ⟨more, there, whole, final⟩

end Transition
