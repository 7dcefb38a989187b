import Mathlib.Data.List.Basic

/-! Histories of a total step function, and the unwinding rule for hidden actions. -/

namespace Transition

universe u v

variable {σ : Type u} {α : Type v}

/-- The state after a history of actions. -/
def replay (step : σ → α → σ) (start : σ) (history : List α) : σ := history.foldl step start

/-- The history without its hidden actions. -/
def purge (hidden : α → Bool) (history : List α) : List α := history.filter (fun act => !hidden act)

variable {step : σ → α → σ}

theorem replay_append (start : σ) (first second : List α) :
    replay step start (first ++ second) = replay step (replay step start first) second := by
  simp [replay]

@[simp] theorem replay_cons (start : σ) (act : α) (rest : List α) :
    replay step start (act :: rest) = replay step (step start act) rest := rfl

theorem replay_invariant (allowed : α → Prop) (holds : σ → Prop)
    (kept : ∀ state act, allowed act → holds state → holds (step state act)) {start : σ}
    (initial : holds start) {history : List α} (fair : ∀ act ∈ history, allowed act) :
    holds (replay step start history) := by
  induction history generalizing start with
  | nil => exact initial
  | cons act rest ih =>
      rw [replay_cons]
      exact ih (kept start act (fair act List.mem_cons_self) initial)
        fun other member => fair other (List.mem_cons_of_mem act member)

theorem agree_purge (hidden : α → Bool) (agree : σ → σ → Prop)
    (visible : ∀ first second act, hidden act = false → agree first second →
      agree (step first act) (step second act))
    (silent : ∀ first second act, hidden act = true → agree first second →
      agree (step first act) second)
    {first second : σ} (initial : agree first second) (history : List α) :
    agree (replay step first history) (replay step second (purge hidden history)) := by
  induction history generalizing first second with
  | nil => exact initial
  | cons act rest ih =>
      cases kind : hidden act with
      | true =>
          have dropped : purge hidden (act :: rest) = purge hidden rest := by simp [purge, kind]
          rw [dropped]
          exact ih (silent first second act kind initial)
      | false =>
          have kept : purge hidden (act :: rest) = act :: purge hidden rest := by
            simp [purge, kind]
          rw [kept]
          exact ih (visible first second act kind initial)

end Transition
