import RagSystem.Transition.Run

/-! Tasks that take turns on a shared state: one turn of a task is atomic, and between two turns
of it any other task may have its own. -/

namespace Transition

universe u v w x

structure Pool (σ : Type u) (τ : Type v) where
  shared : σ
  tasks : List τ
  deriving DecidableEq, Repr

inductive Move (ω : Type w) (ι : Type x)
  | spawn (operation : ω)
  | advance (index : Nat) (input : ι)
  deriving DecidableEq, Repr

section Pool

variable {σ : Type u} {τ : Type v} {ω : Type w} {ι : Type x}

/-- A task keeps its index; one that cannot go on has no turn. -/
def interleave (start : ω → τ) (turn : ι → τ → σ → Option (σ × τ)) (pool : Pool σ τ) :
    Move ω ι → Option (Pool σ τ)
  | .spawn operation => some ⟨pool.shared, pool.tasks ++ [start operation]⟩
  | .advance index input =>
      match pool.tasks[index]? with
      | none => none
      | some task =>
          (turn input task pool.shared).map (fun result =>
            ⟨result.1, pool.tasks.set index result.2⟩)

variable {start : ω → τ} {turn : ι → τ → σ → Option (σ × τ)} {pool next : Pool σ τ}

theorem interleave_spawn {operation : ω}
    (stepped : interleave start turn pool (.spawn operation) = some next) :
    next = ⟨pool.shared, pool.tasks ++ [start operation]⟩ :=
  (Option.some.inj stepped).symm

theorem interleave_advance {index : Nat} {input : ι}
    (stepped : interleave start turn pool (.advance index input) = some next) :
    ∃ task shared later, pool.tasks[index]? = some task ∧
      turn input task pool.shared = some (shared, later) ∧
      next = ⟨shared, pool.tasks.set index later⟩ := by
  simp only [interleave] at stepped
  split at stepped
  · cases stepped
  · rename_i task found
    obtain ⟨⟨shared, later⟩, turned, rfl⟩ := Option.map_eq_some_iff.mp stepped
    exact ⟨task, shared, later, found, turned, rfl⟩

theorem tasks_advanced {tasks : List τ} {index other : Nat} {later found : τ}
    (held : (tasks.set index later)[other]? = some found) :
    (other = index ∧ found = later) ∨ (other ≠ index ∧ tasks[other]? = some found) := by
  rw [List.getElem?_set] at held
  split at held
  · rename_i same
    split at held
    · exact Or.inl ⟨same.symm, (Option.some.inj held).symm⟩
    · cases held
  · rename_i differs
    exact Or.inr ⟨fun same => differs same.symm, held⟩

theorem tasks_spawned {tasks : List τ} {index : Nat} {fresh found : τ}
    (held : (tasks ++ [fresh])[index]? = some found) :
    tasks[index]? = some found ∨ (index = tasks.length ∧ found = fresh) := by
  rcases Nat.lt_or_ge index tasks.length with old | new
  · rw [List.getElem?_append_left old] at held
    exact Or.inl held
  · rw [List.getElem?_append_right new] at held
    obtain ⟨bound, rfl⟩ := List.getElem?_eq_some_iff.mp held
    have last : index = tasks.length := by
      simp only [List.length_singleton] at bound
      omega
    exact Or.inr ⟨last, by simp⟩

theorem Run.pool_invariant (allowed : Event (Pool σ τ) (Move ω ι) → Prop) (holds : Pool σ τ → Prop)
    (initial : holds pool)
    (spawned : ∀ (pool : Pool σ τ) operation, holds pool →
      holds ⟨pool.shared, pool.tasks ++ [start operation]⟩)
    (turned : ∀ (pool : Pool σ τ) index input task shared later, holds pool →
      pool.tasks[index]? = some task → turn input task pool.shared = some (shared, later) →
      allowed ⟨pool, .advance index input, ⟨shared, pool.tasks.set index later⟩⟩ →
      holds ⟨shared, pool.tasks.set index later⟩)
    {events : List (Event (Pool σ τ) (Move ω ι))}
    (run : Run (interleave start turn) pool events next)
    (fair : ∀ event ∈ events, allowed event) : holds next := by
  refine Run.invariant allowed holds initial ?_ run fair
  intro pool move next known stepped fine
  cases move with
  | spawn operation =>
      rw [interleave_spawn stepped]
      exact spawned pool operation known
  | advance index input =>
      obtain ⟨task, shared, later, found, took, rfl⟩ := interleave_advance stepped
      exact turned pool index input task shared later known found took fine

end Pool

end Transition
