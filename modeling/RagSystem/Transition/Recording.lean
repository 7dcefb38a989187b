import RagSystem.Transition.Attempt

/-! Attempts beside a log: some blocks write their outcomes into it, the others leave it alone, and
a run with the log differs from the run without it in the log only. -/

namespace Transition.Attempt

universe u v w x

variable {σ : Type u} {α : Type v} {β : Type w} {ε : Type x}

/-- The block, with its outcome added to the log. -/
def recorded (block : Attempt σ α) : Attempt (σ × List (Option α)) α := fun state =>
  ((block state.1).1, (block state.1).2, state.2 ++ [(block state.1).1])

def unrecorded (block : Attempt σ α) : Attempt (σ × List ε) α := fun state =>
  ((block state.1).1, (block state.1).2, state.2)

/-- The first block does what the second does, whatever the log is. -/
def Watches (watched : Attempt (σ × List ε) α) (block : Attempt σ α) : Prop :=
  ∀ state, (watched state).1 = (block state.1).1 ∧ (watched state).2.1 = (block state.1).2

theorem watches_recorded (block : Attempt σ α) : Watches block.recorded block :=
  fun _ => ⟨rfl, rfl⟩

theorem watches_unrecorded (block : Attempt σ α) :
    Watches (unrecorded block : Attempt (σ × List ε) α) block :=
  fun _ => ⟨rfl, rfl⟩

theorem watches_value (result : α) :
    Watches (value result : Attempt (σ × List ε) α) (value result) :=
  fun _ => ⟨rfl, rfl⟩

theorem watches_andThen {watched : Attempt (σ × List ε) α} {block : Attempt σ α}
    {watchedNext : α → Attempt (σ × List ε) β} {next : α → Attempt σ β}
    (head : Watches watched block) (tail : ∀ result, Watches (watchedNext result) (next result)) :
    Watches (watched.andThen watchedNext) (block.andThen next) := by
  intro state
  obtain ⟨same, reached⟩ := head state
  cases found : (block state.1).1 with
  | none =>
      rw [found] at same
      rw [andThen_of_none same, andThen_of_none found]
      exact ⟨rfl, reached⟩
  | some result =>
      rw [found] at same
      rw [andThen_of_some same, andThen_of_some found, ← reached]
      exact tail result (watched state).2

theorem watches_settle {watched : Attempt (σ × List ε) α} {block : Attempt σ α}
    (known : Watches watched block) : Watches watched.settle block.settle :=
  fun state => ⟨congrArg some (known state).1, (known state).2⟩

end Transition.Attempt
