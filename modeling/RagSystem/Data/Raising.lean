import Mathlib.Data.List.Basic

/-! Computations that return or raise: when a sequence of them returns. -/

namespace Raising

universe u v

variable {ε : Type u} {α β : Type v}

def Returns (outcome : Except ε α) : Prop := ∃ value, outcome = .ok value

@[simp] theorem returns_ok (value : α) : Returns (.ok value : Except ε α) := ⟨value, rfl⟩

@[simp] theorem returns_pure (value : α) : Returns (pure value : Except ε α) := ⟨value, rfl⟩

@[simp] theorem not_returns_error (raised : ε) : ¬ Returns (.error raised : Except ε α) := by
  intro returns
  obtain ⟨value, equal⟩ := returns
  cases equal

instance (outcome : Except ε α) : Decidable (Returns outcome) :=
  match outcome with
  | .ok value => isTrue (returns_ok value)
  | .error raised => isFalse (not_returns_error raised)

theorem returns_bind {first : Except ε α} {next : α → Except ε β} :
    Returns (first >>= next) ↔ ∃ value, first = .ok value ∧ Returns (next value) := by
  cases first with
  | error raised => simp [bind, Except.bind]
  | ok value => simp [bind, Except.bind]

theorem returns_bind_of_forall {first : Except ε α} {next : α → Except ε β} {later : Prop}
    (rest : ∀ value, Returns (next value) ↔ later) :
    Returns (first >>= next) ↔ Returns first ∧ later := by
  rw [returns_bind]
  constructor
  · intro both
    obtain ⟨value, returned, more⟩ := both
    exact ⟨⟨value, returned⟩, (rest value).mp more⟩
  · intro both
    obtain ⟨⟨value, returned⟩, more⟩ := both
    exact ⟨value, returned, (rest value).mpr more⟩

theorem returns_bind_pure {first : Except ε α} {result : α → β} :
    Returns (first >>= fun value => pure (result value)) ↔ Returns first := by
  rw [returns_bind_of_forall (fun _ => iff_true_intro (returns_pure _)), and_true]

theorem mapM_cons_eq {first : α} {rest : List α} {step : α → Except ε β} {value : β}
    {values : List β} (head : step first = .ok value) (tail : rest.mapM step = .ok values) :
    (first :: rest).mapM step = .ok (value :: values) := by
  rw [List.mapM_cons, head, tail]
  rfl

theorem returns_mapM {items : List α} {step : α → Except ε β} :
    Returns (items.mapM step) ↔ ∀ item ∈ items, Returns (step item) := by
  induction items with
  | nil => simp
  | cons item rest ih =>
      rw [List.mapM_cons, returns_bind_of_forall (fun _ => returns_bind_pure), ih]
      simp

theorem map_eq_of_mapM {γ : Type*} {items : List α} {step : α → Except ε β} {values : List β}
    {source : α → γ} {result : β → γ} (returned : items.mapM step = .ok values)
    (same : ∀ item ∈ items, ∀ value, step item = .ok value → result value = source item) :
    values.map result = items.map source := by
  induction items generalizing values with
  | nil =>
      cases returned
      rfl
  | cons item rest ih =>
      have each : Returns (step item) := returns_mapM.mp ⟨values, returned⟩ item
        List.mem_cons_self
      obtain ⟨value, head⟩ := each
      have others : Returns (rest.mapM step) := returns_mapM.mpr fun other member =>
        returns_mapM.mp ⟨values, returned⟩ other (List.mem_cons_of_mem item member)
      obtain ⟨tail, left⟩ := others
      rw [mapM_cons_eq head left] at returned
      cases returned
      rw [List.map_cons, List.map_cons, same item List.mem_cons_self value head,
        ih left fun other member => same other (List.mem_cons_of_mem item member)]

end Raising
