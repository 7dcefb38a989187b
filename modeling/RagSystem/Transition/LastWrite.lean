import RagSystem.Transition.Run

/-! What the events of a run were last to write, against what is there. -/

namespace Transition

universe u v w

variable {σ : Type u} {α : Type v} {β : Type w}

/-- The value that was written last, or the initial one. -/
def latest (wrote : Event σ α → Option β) (initial : β) (events : List (Event σ α)) : β :=
  events.foldl (fun value event => (wrote event).getD value) initial

variable {wrote : Event σ α → Option β} {step : σ → α → Option σ} {start last : σ}
  {events : List (Event σ α)}

theorem latest_snoc (initial : β) (event : Event σ α) :
    latest wrote initial (events ++ [event]) =
      (wrote event).getD (latest wrote initial events) := by
  simp [latest]

theorem Run.latest_iff (view : σ → β) (wrote : Event σ α → Option β)
    (run : Run step start events last) :
    (∀ earlier reached, earlier <+: events → Run step start earlier reached →
      view reached = latest wrote (view start) earlier) ↔
    ∀ event ∈ events, view event.after = (wrote event).getD (view event.before) := by
  constructor
  · intro framed event member
    obtain ⟨first, rest, rfl⟩ := List.append_of_mem member
    obtain ⟨before, stepped, -⟩ := run.split
    have upTo : first ++ [event] <+: first ++ event :: rest := ⟨rest, by simp⟩
    have now := framed _ _ upTo (Run.snoc before event.action stepped)
    rw [latest_snoc, ← framed first _ (List.prefix_append _ _) before] at now
    exact now
  · intro kept earlier reached within ran
    have follows : view reached = latest wrote (view start) earlier := by
      refine Run.history_induction
        (fun event => view event.after = (wrote event).getD (view event.before))
        (fun past state => view state = latest wrote (view start) past) rfl ?_ ran
        (fun event member => kept event (within.subset member))
      intro past state action next _ known _ leaves
      rw [latest_snoc, ← known]
      exact leaves
    exact follows

end Transition
