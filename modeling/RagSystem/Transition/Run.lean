import Mathlib.Algebra.Order.Ring.Nat
import Mathlib.Data.List.Induction
import Mathlib.Data.List.Pairwise

/-! Finite runs of a partial step function, and the induction rules used on them. -/

namespace Transition

universe u v

variable {σ : Type u} {α : Type v}

/-- One executed step: the state before it, the action taken and the state after it. -/
structure Event (σ : Type u) (α : Type v) where
  before : σ
  action : α
  after : σ
  deriving DecidableEq, Repr

/-- The events of a run from `start`, oldest first, and the state it has reached.
A step that answers `none` is not enabled and never part of a run. -/
inductive Run (step : σ → α → Option σ) (start : σ) : List (Event σ α) → σ → Prop
  | nil : Run step start [] start
  | snoc {events : List (Event σ α)} {state : σ} (earlier : Run step start events state)
      (action : α) {next : σ} (stepped : step state action = some next) :
      Run step start (events ++ [⟨state, action, next⟩]) next

/-- The executable form: the events of the run that takes the given actions. -/
def record (step : σ → α → Option σ) : σ → List α → Option (List (Event σ α))
  | _, [] => some []
  | state, action :: rest =>
      match step state action with
      | none => none
      | some next => (record step next rest).map (⟨state, action, next⟩ :: ·)

/-- The state a list of events leaves behind when it starts in `start`. -/
def final (start : σ) : List (Event σ α) → σ
  | [] => start
  | event :: rest => final event.after rest

variable {step : σ → α → Option σ} {start state : σ} {events : List (Event σ α)}

theorem Run.cons {action : α} {next : σ} (stepped : step start action = some next)
    (later : Run step next events state) :
    Run step start (⟨start, action, next⟩ :: events) state := by
  induction later with
  | nil => exact Run.snoc Run.nil action stepped
  | snoc _ other enabled ih => exact Run.snoc ih other enabled

theorem run_of_record {actions : List α} (recorded : record step start actions = some events) :
    Run step start events (final start events) := by
  induction actions generalizing start events with
  | nil =>
      obtain rfl : events = [] := by simpa [record] using recorded.symm
      exact Run.nil
  | cons action rest ih =>
      cases stepped : step start action with
      | none => simp [record, stepped] at recorded
      | some next =>
          simp only [record, stepped, Option.map_eq_some_iff] at recorded
          obtain ⟨tail, tailRecorded, rfl⟩ := recorded
          exact Run.cons stepped (ih tailRecorded)

theorem run_of_isSome {actions : List α} (recorded : (record step start actions).isSome = true) :
    Run step start ((record step start actions).getD [])
      (final start ((record step start actions).getD [])) := by
  obtain ⟨events, found⟩ := Option.isSome_iff_exists.mp recorded
  rw [found]
  exact run_of_record found

theorem actions_of_record {actions : List α} (recorded : record step start actions = some events) :
    events.map Event.action = actions := by
  induction actions generalizing start events with
  | nil =>
      obtain rfl : events = [] := by simpa [record] using recorded.symm
      rfl
  | cons action rest ih =>
      cases stepped : step start action with
      | none => simp [record, stepped] at recorded
      | some next =>
          simp only [record, stepped, Option.map_eq_some_iff] at recorded
          obtain ⟨tail, tailRecorded, rfl⟩ := recorded
          rw [List.map_cons, ih tailRecorded]

theorem action_mem_of_isSome {actions : List α}
    (recorded : (record step start actions).isSome = true) :
    ∀ event ∈ (record step start actions).getD [], event.action ∈ actions := by
  obtain ⟨events, found⟩ := Option.isSome_iff_exists.mp recorded
  intro event member
  rw [found] at member
  rw [← actions_of_record found]
  exact List.mem_map_of_mem member

theorem Run.append {middle : σ} {later : List (Event σ α)} (first : Run step start events middle)
    (second : Run step middle later state) : Run step start (events ++ later) state := by
  induction second with
  | nil => simpa using first
  | snoc _ action enabled ih =>
      rw [← List.append_assoc]
      exact Run.snoc ih action enabled

theorem Run.of_snoc {event : Event σ α} (run : Run step start (events ++ [event]) state) :
    Run step start events event.before ∧ step event.before event.action = some event.after ∧
      state = event.after := by
  generalize whole : events ++ [event] = all at run
  cases run with
  | nil => simp at whole
  | snoc earlier action stepped =>
      obtain ⟨rfl, last⟩ := List.append_inj' whole rfl
      obtain rfl := List.singleton_inj.mp last
      exact ⟨earlier, stepped, rfl⟩

theorem Run.of_append {first second : List (Event σ α)}
    (run : Run step start (first ++ second) state) :
    ∃ middle, Run step start first middle ∧ Run step middle second state := by
  induction second using List.reverseRecOn generalizing state with
  | nil => exact ⟨state, by simpa using run, Run.nil⟩
  | append_singleton second event ih =>
      rw [← List.append_assoc] at run
      obtain ⟨earlier, stepped, rfl⟩ := run.of_snoc
      obtain ⟨middle, before, after⟩ := ih earlier
      exact ⟨middle, before, Run.snoc after event.action stepped⟩

theorem Run.split {first rest : List (Event σ α)} {event : Event σ α}
    (run : Run step start (first ++ event :: rest) state) :
    Run step start first event.before ∧ step event.before event.action = some event.after ∧
      Run step event.after rest state := by
  have regrouped : first ++ event :: rest = (first ++ [event]) ++ rest := by simp
  rw [regrouped] at run
  obtain ⟨middle, upTo, after⟩ := run.of_append
  obtain ⟨before, stepped, rfl⟩ := upTo.of_snoc
  exact ⟨before, stepped, after⟩

theorem Run.event_of_mem (run : Run step start events state) {event : Event σ α}
    (member : event ∈ events) :
    step event.before event.action = some event.after ∧
      ∃ earlier, earlier <+: events ∧ Run step start earlier event.before := by
  obtain ⟨first, rest, rfl⟩ := List.append_of_mem member
  obtain ⟨before, stepped, -⟩ := run.split
  exact ⟨stepped, first, List.prefix_append _ _, before⟩

theorem Run.history_induction (allowed : Event σ α → Prop) (holds : List (Event σ α) → σ → Prop)
    (initial : holds [] start)
    (kept : ∀ events state action next, Run step start events state → holds events state →
      step state action = some next → allowed ⟨state, action, next⟩ →
      holds (events ++ [⟨state, action, next⟩]) next)
    (run : Run step start events state) (fair : ∀ event ∈ events, allowed event) :
    holds events state := by
  induction run with
  | nil => exact initial
  | @snoc events state earlier action next stepped ih =>
      have past := ih (fun event member => fair event (List.mem_append_left _ member))
      exact kept events state action next earlier past stepped
        (fair _ (List.mem_append_right _ (List.mem_singleton_self _)))

theorem Run.invariant (allowed : Event σ α → Prop) (holds : σ → Prop) (initial : holds start)
    (kept : ∀ state action next, holds state → step state action = some next →
      allowed ⟨state, action, next⟩ → holds next)
    (run : Run step start events state) (fair : ∀ event ∈ events, allowed event) : holds state :=
  Run.history_induction allowed (fun _ state => holds state) initial
    (fun _ state action next _ => kept state action next) run fair

theorem Run.invariant_always (holds : σ → Prop) (initial : holds start)
    (kept : ∀ state action next, holds state → step state action = some next → holds next)
    (run : Run step start events state) : holds state :=
  Run.invariant (fun _ => True) holds initial
    (fun state action next past stepped _ => kept state action next past stepped) run
    (fun _ _ => trivial)

theorem Run.invariant_before (allowed : Event σ α → Prop) (holds : σ → Prop) (initial : holds start)
    (kept : ∀ state action next, holds state → step state action = some next →
      allowed ⟨state, action, next⟩ → holds next)
    (run : Run step start events state) (fair : ∀ event ∈ events, allowed event)
    {event : Event σ α} (member : event ∈ events) :
    step event.before event.action = some event.after ∧ holds event.before := by
  obtain ⟨stepped, earlier, front, reached⟩ := run.event_of_mem member
  exact ⟨stepped, Run.invariant allowed holds initial kept reached
    (fun other inside => fair other (front.subset inside))⟩

theorem Run.invariant_before_always (holds : σ → Prop) (initial : holds start)
    (kept : ∀ state action next, holds state → step state action = some next → holds next)
    (run : Run step start events state) {event : Event σ α} (member : event ∈ events) :
    step event.before event.action = some event.after ∧ holds event.before :=
  Run.invariant_before (fun _ => True) holds initial
    (fun state action next past stepped _ => kept state action next past stepped) run
    (fun _ _ => trivial) member

theorem Run.final_eq (run : Run step start events state) : final start events = state := by
  induction run with
  | nil => rfl
  | snoc _ _ _ _ =>
      have ends : ∀ (start : σ) (events : List (Event σ α)) (event : Event σ α),
          final start (events ++ [event]) = event.after := by
        intro start events event
        induction events generalizing start with
        | nil => rfl
        | cons head rest ih => exact ih head.after
      exact ends _ _ _

theorem Run.forall_event_iff (holds : σ → Prop) (right good : Event σ α → Prop)
    (initial : holds start)
    (same : ∀ state action next, holds state → step state action = some next →
      (right ⟨state, action, next⟩ ↔ good ⟨state, action, next⟩))
    (kept : ∀ state action next, holds state → step state action = some next →
      good ⟨state, action, next⟩ → holds next)
    (run : Run step start events state) :
    (∀ event ∈ events, right event) ↔ ∀ event ∈ events, good event := by
  have reached : ((∀ event ∈ events, right event) ↔ ∀ event ∈ events, good event) ∧
      ((∀ event ∈ events, good event) → holds state) := by
    induction run with
    | nil => exact ⟨by simp, fun _ => initial⟩
    | @snoc events state earlier action next stepped ih =>
        obtain ⟨known, ends⟩ := ih
        simp only [List.forall_mem_append, List.forall_mem_singleton]
        constructor
        · constructor
          · intro all
            have past := known.mp all.1
            exact ⟨past, (same state action next (ends past) stepped).mp all.2⟩
          · intro all
            exact ⟨known.mpr all.1, (same state action next (ends all.1) stepped).mpr all.2⟩
        · intro all
          exact kept state action next (ends all.1) stepped all.2
  exact reached.1

theorem Run.forall_after_iff (holds : σ → Prop) (good : Event σ α → Prop) (initial : holds start)
    (kept : ∀ state action next, holds state → step state action = some next →
      (holds next ↔ good ⟨state, action, next⟩))
    (run : Run step start events state) :
    (∀ event ∈ events, holds event.after) ↔ ∀ event ∈ events, good event :=
  Run.forall_event_iff holds (fun event => holds event.after) good initial kept
    (fun state action next past stepped fine => (kept state action next past stepped).mpr fine) run

theorem Run.length_le_potential (holds : σ → Prop) (potential : σ → Nat) (slack : Event σ α → Nat)
    (initial : holds start)
    (kept : ∀ state action next, holds state → step state action = some next → holds next)
    (falls : ∀ state action next, holds state → step state action = some next →
      potential next + 1 ≤ potential state + slack ⟨state, action, next⟩)
    (run : Run step start events state) :
    events.length + potential state ≤ potential start + (events.map slack).sum := by
  induction run with
  | nil => simp
  | @snoc events state earlier action next stepped ih =>
      have past := earlier.invariant_always holds initial kept
      have lowered := falls state action next past stepped
      simp only [List.length_append, List.length_singleton, List.map_append, List.map_cons,
        List.map_nil, List.sum_append, List.sum_singleton]
      omega

theorem exists_run_to (finished : σ → Prop) (potential : σ → Nat)
    (goes : ∀ state, ¬ finished state →
      ∃ action next, step state action = some next ∧ potential next < potential state)
    (state : σ) : ∃ events last, Run step state events last ∧ finished last := by
  induction bound : potential state using Nat.strong_induction_on generalizing state with
  | _ bound ih =>
      by_cases ended : finished state
      · exact ⟨[], state, Run.nil, ended⟩
      · obtain ⟨action, next, stepped, lowered⟩ := goes state ended
        obtain ⟨events, last, run, reached⟩ := ih (potential next) (bound ▸ lowered) next rfl
        exact ⟨_, last, Run.cons stepped run, reached⟩

end Transition
