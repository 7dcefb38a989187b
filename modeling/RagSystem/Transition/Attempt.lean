import Mathlib.Logic.Basic

/-! Stateful computations that may raise: a raised exception leaves the state as far as it came. -/

namespace Transition

universe u v w x

/-- `none` is a raised exception. -/
def Attempt (σ : Type u) (α : Type v) := σ → Option α × σ

namespace Attempt

variable {σ : Type u} {α : Type v} {β : Type w}

def value (result : α) : Attempt σ α := fun state => (some result, state)

def raise : Attempt σ α := fun state => (none, state)

def ofOption (result : Option α) : Attempt σ α := fun state => (result, state)

def ofState (step : σ → α × σ) : Attempt σ α := fun state =>
  (some (step state).1, (step state).2)

/-- The rest of the block is skipped when the first part raises. -/
def andThen (first : Attempt σ α) (next : α → Attempt σ β) : Attempt σ β := fun state =>
  match (first state).1 with
  | some result => next result (first state).2
  | none => (none, (first state).2)

/-- `try: .. except: ..` around a block: its value, or `none` when it raised. -/
def settle (block : Attempt σ α) : Attempt σ (Option α) := fun state =>
  (some (block state).1, (block state).2)

instance : Monad (Attempt σ) where
  pure := value
  bind := andThen

@[simp] theorem pure_eq {α : Type v} (result : α) : (pure result : Attempt σ α) = value result :=
  rfl

@[simp] theorem bind_eq {α β : Type v} (first : Attempt σ α) (next : α → Attempt σ β) :
    (first >>= next) = first.andThen next := rfl

theorem andThen_of_some {first : Attempt σ α} {state : σ} {result : α}
    (returned : (first state).1 = some result) (next : α → Attempt σ β) :
    first.andThen next state = next result (first state).2 := by
  unfold andThen
  rw [returned]

theorem andThen_of_none {first : Attempt σ α} {state : σ} (raised : (first state).1 = none)
    (next : α → Attempt σ β) : first.andThen next state = (none, (first state).2) := by
  unfold andThen
  rw [raised]

theorem andThen_assoc {γ : Type x} (first : Attempt σ α) (second : α → Attempt σ β)
    (third : β → Attempt σ γ) :
    (first.andThen second).andThen third =
      first.andThen (fun result => (second result).andThen third) := by
  funext state
  simp only [andThen]
  cases (first state).1 <;> rfl

/-- Whatever the block returns has the property. -/
def Returns (holds : α → Prop) (block : Attempt σ α) : Prop :=
  ∀ state result, (block state).1 = some result → holds result

/-- The block keeps the invariant, whether it returns or raises. -/
def Keeps (inv : σ → Prop) (block : Attempt σ α) : Prop := ∀ state, inv state → inv (block state).2

/-- From every state of the invariant the block ends the same way, in a state of the invariant:
what it returns says nothing else about the state it started from. -/
def Steady (inv : σ → Prop) (block : Attempt σ α) : Prop :=
  ∃ result, ∀ state, inv state → (block state).1 = result ∧ inv (block state).2

section Returns

variable {holds : α → Prop} {later : β → Prop}

theorem returns_value {result : α} (proof : holds result) :
    Returns holds (value result : Attempt σ α) := by
  intro state other equal
  obtain rfl : result = other := Option.some.inj equal
  exact proof

theorem returns_raise : Returns holds (raise : Attempt σ α) := by
  intro state result impossible
  cases impossible

theorem returns_ofOption {result : Option α} (proof : ∀ found, result = some found → holds found) :
    Returns holds (ofOption result : Attempt σ α) :=
  fun _ found equal => proof found equal

theorem returns_andThen {first : Attempt σ α} {next : α → Attempt σ β} (head : Returns holds first)
    (tail : ∀ result, holds result → Returns later (next result)) :
    Returns later (first.andThen next) := by
  intro state result returned
  unfold andThen at returned
  cases found : (first state).1 with
  | none => simp [found] at returned
  | some middle =>
      simp only [found] at returned
      exact tail middle (head state middle found) _ result returned

theorem returns_trivial (block : Attempt σ α) : Returns (fun _ => True) block :=
  fun _ _ _ => trivial

theorem Returns.mono {weaker : α → Prop} {block : Attempt σ α} (known : Returns holds block)
    (weaken : ∀ result, holds result → weaker result) : Returns weaker block :=
  fun state result returned => weaken result (known state result returned)

theorem returns_settle {block : Attempt σ α} (known : Returns holds block) :
    Returns (fun settled => ∀ result, settled = some result → holds result) block.settle := by
  intro state settled returned result found
  obtain rfl : (block state).1 = settled := Option.some.inj returned
  exact known state result found

end Returns

section Keeps

variable {inv : σ → Prop}

theorem keeps_value (result : α) : Keeps inv (value result : Attempt σ α) := fun _ kept => kept

theorem keeps_raise : Keeps inv (raise : Attempt σ α) := fun _ kept => kept

theorem keeps_ofOption (result : Option α) : Keeps inv (ofOption result : Attempt σ α) :=
  fun _ kept => kept

theorem keeps_andThen {first : Attempt σ α} {next : α → Attempt σ β} (head : Keeps inv first)
    (tail : ∀ result, Keeps inv (next result)) : Keeps inv (first.andThen next) := by
  intro state kept
  unfold andThen
  cases (first state).1 with
  | none => exact head state kept
  | some result => exact tail result _ (head state kept)

theorem keeps_settle {block : Attempt σ α} (known : Keeps inv block) : Keeps inv block.settle :=
  known

end Keeps

section Steady

variable {inv : σ → Prop}

theorem steady_value (result : α) : Steady inv (value result : Attempt σ α) :=
  ⟨some result, fun _ kept => ⟨rfl, kept⟩⟩

theorem steady_raise : Steady inv (raise : Attempt σ α) := ⟨none, fun _ kept => ⟨rfl, kept⟩⟩

theorem steady_ofOption (result : Option α) : Steady inv (ofOption result : Attempt σ α) :=
  ⟨result, fun _ kept => ⟨rfl, kept⟩⟩

theorem steady_andThen {first : Attempt σ α} {next : α → Attempt σ β} (head : Steady inv first)
    (tail : ∀ result, Steady inv (next result)) : Steady inv (first.andThen next) := by
  obtain ⟨result, ends⟩ := head
  cases result with
  | none =>
      refine ⟨none, fun state kept => ?_⟩
      rw [andThen_of_none (ends state kept).1]
      exact ⟨rfl, (ends state kept).2⟩
  | some middle =>
      obtain ⟨last, endsLast⟩ := tail middle
      refine ⟨last, fun state kept => ?_⟩
      rw [andThen_of_some (ends state kept).1]
      exact endsLast _ (ends state kept).2

theorem steady_settle {block : Attempt σ α} (known : Steady inv block) :
    Steady inv block.settle := by
  obtain ⟨result, ends⟩ := known
  exact ⟨some result, fun state kept => ⟨congrArg some (ends state kept).1, (ends state kept).2⟩⟩

theorem steady_settle_skip {block : Attempt σ α} {next : Attempt σ β} (known : Keeps inv block)
    (tail : Steady inv next) : Steady inv (block.settle.andThen (fun _ => next)) := by
  obtain ⟨result, ends⟩ := tail
  exact ⟨result, fun state kept => ends _ (known state kept)⟩

theorem Steady.agree {block : Attempt σ α} (known : Steady inv block) {first second : σ}
    (left : inv first) (right : inv second) : (block first).1 = (block second).1 := by
  obtain ⟨result, ends⟩ := known
  exact (ends first left).1.trans (ends second right).1.symm

end Steady

/-- A property of blocks that sequencing keeps, and that a block whose value is dropped does not
need as long as it keeps the invariant. -/
structure Discipline (inv : σ → Prop) where
  Holds : {α : Type} → Attempt σ α → Prop
  value : ∀ {α : Type} (result : α), Holds (value result)
  raise : ∀ {α : Type}, Holds (raise : Attempt σ α)
  ofOption : ∀ {α : Type} (result : Option α), Holds (ofOption result)
  andThen : ∀ {α β : Type} {first : Attempt σ α} {next : α → Attempt σ β}, Holds first →
    (∀ result, Holds (next result)) → Holds (first.andThen next)
  settle : ∀ {α : Type} {block : Attempt σ α}, Holds block → Holds block.settle
  skip : ∀ {α β : Type} {block : Attempt σ α} {next : Attempt σ β}, Keeps inv block →
    Holds next → Holds (block.settle.andThen (fun _ => next))

def keeping (inv : σ → Prop) : Discipline inv where
  Holds := Keeps inv
  value := keeps_value
  raise := keeps_raise
  ofOption := keeps_ofOption
  andThen := keeps_andThen
  settle := keeps_settle
  skip known tail := keeps_andThen (keeps_settle known) (fun _ => tail)

def steadying (inv : σ → Prop) : Discipline inv where
  Holds := Steady inv
  value := steady_value
  raise := steady_raise
  ofOption := steady_ofOption
  andThen := steady_andThen
  settle := steady_settle
  skip := steady_settle_skip

end Attempt

end Transition
