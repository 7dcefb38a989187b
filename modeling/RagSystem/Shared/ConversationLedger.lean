import RagSystem.Shared.ConversationMemory
import RagSystem.Transition.Run

/-! Where the turns of a conversation go over sequences of calls. -/

namespace RagSystem.ConversationLedger

open ConversationMemory Slices Transition

variable (characters : Characters) {μ : Type}

/-- The memory, and on the side what became of the turns since it was last cleared. -/
structure Service (μ : Type) where
  memory : ConversationMemory μ
  added : List (Turn μ) := []
  /-- The turns of each summary that is kept. -/
  summarised : List (List (Turn μ)) := []
  cut : List (Turn μ) := []
  /-- The turns of the summaries that are gone. -/
  forgotten : List (Turn μ) := []
  deriving DecidableEq, Repr

inductive Action (μ : Type)
  | add (now : ℚ) (role content : String) (metadata : Option (Dict String μ))
  | summarize (keepRecent : Nat)
  | clear
  deriving DecidableEq, Repr

def add (now : ℚ) (role content : String) (metadata : Option (Dict String μ))
    (service : Service μ) : Service μ :=
  let turn := newTurn now role content metadata
  let memory := service.memory.addTurn characters now role content metadata
  let all := service.memory.turns ++ [turn]
  { service with
    memory := memory
    added := service.added ++ [turn]
    cut := service.cut ++ all.take (all.length - memory.turns.length) }

def summarize (keepRecent : Nat) (service : Service μ) : Service μ :=
  let memory := service.memory.summarizeOlderTurns characters keepRecent
  if service.memory.turns.length ≤ keepRecent then { service with memory := memory }
  else
    let all := service.summarised ++ [sliceUpTo keepRecent service.memory.turns]
    let kept := latestSummaries all
    { service with
      memory := memory
      summarised := kept
      forgotten := service.forgotten ++ (all.take (all.length - kept.length)).flatten }

def step (service : Service μ) : Action μ → Option (Service μ)
  | .add now role content metadata => some (add characters now role content metadata service)
  | .summarize keepRecent => some (summarize characters keepRecent service)
  | .clear => some { memory := service.memory.clear }

/-- The estimate is the sum over the stored turns, no more of them are stored than may be, and
every turn that was added is stored, in a summary, cut off or in a summary that is gone. -/
structure Accounted (maxTurnsStored : Int) (service : Service μ) : Prop where
  estimate : service.memory.totalTokenEstimate = tokens service.memory.turns
  bounded : (service.memory.turns.length : Int) ≤ maxTurnsStored
  summaries : service.memory.summaries = service.summarised.map (summaryOf characters)
  everywhere : service.added.Perm
    (service.memory.turns ++ service.summarised.flatten ++ service.cut ++ service.forgotten)

/-- Turns are cut off only when there are too many of them, and summaries dropped only when there
are more than three. -/
def Limited (maxTurnsStored : Int) (event : Event (Service μ) (Action μ)) : Prop :=
  match event.action with
  | .add _ _ _ _ =>
      event.after.forgotten = event.before.forgotten ∧
        (event.after.cut ≠ event.before.cut →
          maxTurnsStored < event.before.memory.turns.length + 1)
  | .summarize _ =>
      event.after.cut = event.before.cut ∧
        (event.after.forgotten ≠ event.before.forgotten →
          3 < event.before.memory.summaries.length + 1)
  | .clear => True

def AllAccounted (maxTurnsStored : Int) (events : List (Event (Service μ) (Action μ))) : Prop :=
  ∀ event ∈ events,
    Accounted characters maxTurnsStored event.after ∧ Limited maxTurnsStored event

/-- There is room for a turn, or the oldest one makes room and counted for nothing. -/
def Room (maxTurnsStored : Int) (event : Event (Service μ) (Action μ)) : Prop :=
  0 ≤ maxTurnsStored ∧
    match event.action with
    | .add _ _ _ _ =>
        (event.before.memory.turns.length : Int) < maxTurnsStored ∨
          0 < maxTurnsStored ∧
            ∀ oldest ∈ event.before.memory.turns.head?, oldest.content.length < 4
    | _ => True

instance (maxTurnsStored : Int) (event : Event (Service μ) (Action μ)) :
    Decidable (Room maxTurnsStored event) :=
  match event with
  | ⟨before, .add _ _ _ _, _⟩ =>
      inferInstanceAs (Decidable (0 ≤ maxTurnsStored ∧
        ((before.memory.turns.length : Int) < maxTurnsStored ∨ 0 < maxTurnsStored ∧
          ∀ oldest ∈ before.memory.turns.head?, oldest.content.length < 4)))
  | ⟨_, .summarize _, _⟩ => inferInstanceAs (Decidable (0 ≤ maxTurnsStored ∧ True))
  | ⟨_, .clear, _⟩ => inferInstanceAs (Decidable (0 ≤ maxTurnsStored ∧ True))

structure Traced (maxTurnsStored : Int) (service : Service μ) : Prop where
  limit : service.memory.maxTurnsStored = maxTurnsStored
  summaries : service.memory.summaries = service.summarised.map (summaryOf characters)
  everywhere : service.added.Perm
    (service.memory.turns ++ service.summarised.flatten ++ service.cut ++ service.forgotten)

def Counted (maxTurnsStored : Int) (memory : ConversationMemory μ) : Prop :=
  memory.totalTokenEstimate = tokens memory.turns ∧ (memory.turns.length : Int) ≤ maxTurnsStored

variable {characters} {maxTurnsStored : Int} {service next : Service μ} {action : Action μ}
variable {events : List (Event (Service μ) (Action μ))}

theorem add_everywhere (now : ℚ) (role content : String) (metadata : Option (Dict String μ))
    (everywhere : service.added.Perm
      (service.memory.turns ++ service.summarised.flatten ++ service.cut ++ service.forgotten)) :
    let after := add characters now role content metadata service
    after.added.Perm
      (after.memory.turns ++ after.summarised.flatten ++ after.cut ++ after.forgotten) := by
  classical
  intro after
  have split := List.suffix_iff_eq_append.mp
    (addTurn_suffix characters service.memory now role content metadata)
  apply List.perm_iff_count.mpr
  intro turn
  have counted := List.perm_iff_count.mp everywhere turn
  have divided := congrArg (List.count turn) split
  simp only [List.count_append] at counted divided
  simp only [after, add, List.count_append]
  omega

theorem summarize_everywhere (keepRecent : Nat)
    (everywhere : service.added.Perm
      (service.memory.turns ++ service.summarised.flatten ++ service.cut ++ service.forgotten)) :
    let after := summarize characters keepRecent service
    after.added.Perm
      (after.memory.turns ++ after.summarised.flatten ++ after.cut ++ after.forgotten) := by
  classical
  unfold summarize summarizeOlderTurns
  by_cases few : service.memory.turns.length ≤ keepRecent
  · simpa [few] using everywhere
  · simp only [few, if_false]
    have older := sliceUpTo_append_sliceFrom keepRecent service.memory.turns
    have kept := List.suffix_iff_eq_append.mp
      (latestSummaries_suffix (service.summarised ++ [sliceUpTo keepRecent service.memory.turns]))
    apply List.perm_iff_count.mpr
    intro turn
    have counted := List.perm_iff_count.mp everywhere turn
    have divided := congrArg (List.count turn) older
    have summaries := congrArg (fun all => List.count turn all.flatten) kept
    simp only [List.flatten_append, List.flatten_singleton, List.count_append]
      at counted divided summaries
    simp only [List.count_append]
    omega

theorem summarize_memory (keepRecent : Nat) :
    (summarize characters keepRecent service).memory =
      service.memory.summarizeOlderTurns characters keepRecent := by
  unfold summarize
  split
  · rfl
  · rfl

theorem summarize_summaries (keepRecent : Nat)
    (summaries : service.memory.summaries = service.summarised.map (summaryOf characters)) :
    let after := summarize characters keepRecent service
    after.memory.summaries = after.summarised.map (summaryOf characters) := by
  unfold summarize summarizeOlderTurns
  by_cases few : service.memory.turns.length ≤ keepRecent
  · simpa [few] using summaries
  · simp [few, summaries, map_latestSummaries]

theorem summarizeOlderTurns_limit (keepRecent : Nat) (memory : ConversationMemory μ) :
    (memory.summarizeOlderTurns characters keepRecent).maxTurnsStored = memory.maxTurnsStored := by
  unfold summarizeOlderTurns
  split
  · rfl
  · rfl

theorem traced_step (traced : Traced characters maxTurnsStored service)
    (stepped : step characters service action = some next) :
    Traced characters maxTurnsStored next := by
  cases action with
  | add now role content metadata =>
      obtain rfl := Option.some.inj stepped
      exact
        { limit := traced.limit
          summaries := traced.summaries
          everywhere := add_everywhere now role content metadata traced.everywhere }
  | summarize keepRecent =>
      obtain rfl := Option.some.inj stepped
      exact
        { limit := by
            rw [summarize_memory, summarizeOlderTurns_limit]
            exact traced.limit
          summaries := summarize_summaries keepRecent traced.summaries
          everywhere := summarize_everywhere keepRecent traced.everywhere }
  | clear =>
      obtain rfl := Option.some.inj stepped
      exact { limit := traced.limit, summaries := rfl, everywhere := List.Perm.refl [] }

theorem addTurn_counted_iff {memory : ConversationMemory μ}
    (limit : memory.maxTurnsStored = maxTurnsStored) (counted : Counted maxTurnsStored memory)
    (now : ℚ) (role content : String) (metadata : Option (Dict String μ)) :
    Counted maxTurnsStored (memory.addTurn characters now role content metadata) ↔
      (memory.turns.length : Int) < maxTurnsStored ∨
        0 < maxTurnsStored ∧ ∀ oldest ∈ memory.turns.head?, oldest.content.length < 4 := by
  obtain ⟨estimate, bounded⟩ := counted
  have total : (memory.addTurn characters now role content metadata).totalTokenEstimate =
      tokens memory.turns + tokensOf content := by
    rw [← estimate]
    rfl
  rw [Counted, total]
  by_cases room : (memory.turns.length : Int) < maxTurnsStored
  · rw [addTurn_of_room (limit ▸ room)]
    simp only [tokens_append, tokens_cons, tokens_nil, newTurn, List.length_append,
      List.length_singleton, room, true_or, iff_true]
    omega
  · have full : (memory.turns.length : Int) = maxTurnsStored := by omega
    cases stored : memory.turns with
    | nil =>
        have zero : maxTurnsStored = 0 := by simpa [stored] using full.symm
        rw [addTurn_of_zero (limit.trans zero)]
        simp [stored, zero]
    | cons oldest rest =>
        rw [addTurn_of_full stored (full.trans limit.symm)]
        rw [stored, List.length_cons] at full
        have positive : 0 < maxTurnsStored := by omega
        simp only [tokens_append, tokens_cons, tokens_nil, newTurn, List.length_append,
          List.length_cons, List.length_nil, List.head?_cons, Option.mem_some_iff, forall_eq',
          positive, true_and, ← tokensOf_eq_zero]
        omega

theorem summarizeOlderTurns_counted {memory : ConversationMemory μ} (keepRecent : Nat)
    (counted : Counted maxTurnsStored memory) :
    Counted maxTurnsStored (memory.summarizeOlderTurns characters keepRecent) := by
  unfold summarizeOlderTurns
  split
  · exact counted
  · have fewer := (sliceFrom_suffix keepRecent memory.turns).length_le
    have bounded := counted.2
    refine ⟨rfl, ?_⟩
    dsimp only
    omega

theorem counted_step_iff (traced : Traced characters maxTurnsStored service)
    (counted : 0 ≤ maxTurnsStored → Counted maxTurnsStored service.memory)
    (stepped : step characters service action = some next) :
    Counted maxTurnsStored next.memory ↔ Room maxTurnsStored ⟨service, action, next⟩ := by
  by_cases possible : 0 ≤ maxTurnsStored
  · have before := counted possible
    cases action with
    | add now role content metadata =>
        obtain rfl := Option.some.inj stepped
        simp only [Room, possible, true_and]
        exact addTurn_counted_iff traced.limit before now role content metadata
    | summarize keepRecent =>
        obtain rfl := Option.some.inj stepped
        simp only [Room, possible, true_and, iff_true]
        rw [summarize_memory]
        exact summarizeOlderTurns_counted keepRecent before
    | clear =>
        obtain rfl := Option.some.inj stepped
        simp only [Room, possible, true_and, iff_true]
        exact ⟨rfl, possible⟩
  · have never : ¬ Counted maxTurnsStored next.memory := by
      intro after
      have bounded := after.2
      omega
    simp only [never, Room, possible, false_and]

theorem limited_step (traced : Traced characters maxTurnsStored service)
    (stepped : step characters service action = some next) :
    Limited maxTurnsStored ⟨service, action, next⟩ := by
  cases action with
  | add now role content metadata =>
      obtain rfl := Option.some.inj stepped
      refine ⟨rfl, ?_⟩
      intro changed
      dsimp only at changed ⊢
      by_contra few
      apply changed
      have room : (service.memory.turns.length : Int) < service.memory.maxTurnsStored := by
        rw [traced.limit]
        omega
      simp [add, addTurn_of_room room]
  | summarize keepRecent =>
      obtain rfl := Option.some.inj stepped
      simp only [Limited, summarize]
      split
      · exact ⟨rfl, fun changed => absurd rfl changed⟩
      · refine ⟨rfl, ?_⟩
        intro changed
        by_contra few
        apply changed
        have same := congrArg List.length traced.summaries
        rw [List.length_map] at same
        rw [latestSummaries_of_few]
        · simp
        · rw [List.length_append, List.length_singleton]
          omega
  | clear => trivial

/-- In every sequence of calls the turns are accounted for after every call exactly if every call
had room. -/
theorem conversation_accounted_iff (characters : Characters) (maxTurnsStored : Int)
    (run : Run (step characters) { memory := { maxTurnsStored := maxTurnsStored } } events
      service) :
    AllAccounted characters maxTurnsStored events ↔
      ∀ event ∈ events, Room maxTurnsStored event := by
  apply Run.forall_event_iff
    (fun service => Traced characters maxTurnsStored service ∧
      (0 ≤ maxTurnsStored → Counted maxTurnsStored service.memory)) _ _ _ _ _ run
  · exact ⟨⟨rfl, rfl, List.Perm.refl []⟩, fun possible => ⟨rfl, possible⟩⟩
  · intro state action next known stepped
    have after := traced_step known.1 stepped
    rw [← counted_step_iff known.1 known.2 stepped]
    constructor
    · intro right
      exact ⟨right.1.estimate, right.1.bounded⟩
    · intro counted
      exact ⟨⟨counted.1, counted.2, after.summaries, after.everywhere⟩,
        limited_step known.1 stepped⟩
  · intro state action next known stepped room
    exact ⟨traced_step known.1 stepped,
      fun _ => (counted_step_iff known.1 known.2 stepped).mpr room⟩

def greeted : List (Event (Service Unit) (Action Unit)) :=
  (record (step Characters.ascii) { memory := { maxTurnsStored := 2 } }
    [.add 0 "user" "Hi" none, .add 1 "assistant" "Hello there" none,
      .add 2 "user" "What is Qdrant?" none, .summarize 1, .clear]).getD []

theorem greeted_accounted : AllAccounted Characters.ascii 2 greeted :=
  (conversation_accounted_iff Characters.ascii 2 (run_of_isSome (by decide +kernel))).mpr
    (by decide +kernel)

def replacedTurn : List (Event (Service Unit) (Action Unit)) :=
  (record (step Characters.ascii) { memory := { maxTurnsStored := 1 } }
    [.add 0 "user" "abcd" none, .add 1 "assistant" "efgh" none]).getD []

theorem cut_turn_counted :
    let reached := final { memory := { maxTurnsStored := 1 } } replacedTurn
    Run (step Characters.ascii) { memory := { maxTurnsStored := 1 } } replacedTurn reached ∧
      reached.memory.totalTokenEstimate = 2 ∧ tokens reached.memory.turns = 1 ∧
      ¬ AllAccounted Characters.ascii 1 replacedTurn := by
  refine ⟨run_of_isSome (by decide +kernel), by decide +kernel, by decide +kernel, ?_⟩
  intro all
  have off : ∃ event ∈ replacedTurn,
      event.after.memory.totalTokenEstimate ≠ tokens event.after.memory.turns := by
    decide +kernel
  obtain ⟨event, member, wrong⟩ := off
  exact wrong (all event member).1.estimate

end RagSystem.ConversationLedger
