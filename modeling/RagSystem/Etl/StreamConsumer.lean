import RagSystem.Transition.Run

/-! The consumers of the event stream and their group (`etl/scheduler/stream_consumer.py`). -/

namespace RagSystem.Etl

open Transition

/-- The stream and its consumer group. Entries are numbered in stream order; `pending` are those
delivered and not acknowledged, with the consumers that own them, `processed` those that
`process_event` has accepted. -/
structure ConsumerGroup (Message : Type) where
  entries : List Message := []
  delivered : Nat := 0
  pending : List (Nat × String) := []
  processed : List Nat := []
  deriving DecidableEq, Repr

structure StreamConsumer where
  consumerName : String := "etl-consumer-1"
  batchSize : Nat := 10
  batchSize_pos : 0 < batchSize := by decide

/-- What `process_event` answers for an entry (`none` raises), whether its acknowledgement reaches
the server, and how many entries the consumer gets to before it dies or its read is lost. -/
structure Handling (Message : Type) where
  processEvent : Nat → Message → Option Bool
  acknowledged : Nat → Bool
  reached : Nat

def Handling.accepting (Message : Type) (reached : Nat) : Handling Message where
  processEvent _ _ := some true
  acknowledged _ := true
  reached := reached

section Consuming

variable {Message : Type} (consumer : StreamConsumer) (handling : Handling Message)

/-- `XREADGROUP` with the id `>`: entries never delivered before. -/
def ConsumerGroup.newEntries (group : ConsumerGroup Message) : List (Nat × Message) :=
  ((group.entries.zipIdx.map Prod.swap).drop group.delivered).take consumer.batchSize

def ConsumerGroup.deliver (messages : List (Nat × Message)) (group : ConsumerGroup Message) :
    ConsumerGroup Message :=
  { group with
    delivered := group.delivered + messages.length
    pending := group.pending ++ messages.map (fun message => (message.1, consumer.consumerName)) }

def handleMessages : Nat → List (Nat × Message) → ConsumerGroup Message → ConsumerGroup Message
  | 0, _, group => group
  | _, [], group => group
  | reached + 1, (id, event) :: rest, group =>
      match handling.processEvent id event with
      | none => group
      | some false => handleMessages reached rest group
      | some true =>
          let accepted := { group with processed := id :: group.processed }
          handleMessages reached rest
            (if handling.acknowledged id then
              { accepted with pending := group.pending.filter (fun entry => entry.1 ≠ id) }
            else accepted)

def consumeBatch (group : ConsumerGroup Message) : ConsumerGroup Message :=
  let messages := group.newEntries consumer
  handleMessages handling handling.reached messages (group.deliver consumer messages)

/-- The entries idle for long enough, at most `count` of them, change their owner. -/
def claimEntries (idle : Nat → Bool) : Nat → List (Nat × String) → List (Nat × String)
  | 0, pending => pending
  | _, [] => []
  | count + 1, (id, owner) :: rest =>
      if idle id then (id, consumer.consumerName) :: claimEntries idle count rest
      else (id, owner) :: claimEntries idle (count + 1) rest

/-- `XAUTOCLAIM`; the entries it answers with are only counted. -/
def claimPending (idle : Nat → Bool) (group : ConsumerGroup Message) : ConsumerGroup Message :=
  { group with pending := claimEntries consumer idle 100 group.pending }

end Consuming

/-- What happens to a group. A handler that fails and a consumer that dies are a batch with such a
handling. -/
inductive StreamAction (Message : Type)
  | add (message : Message)
  | consume (consumer : StreamConsumer) (handling : Handling Message)
  | claim (consumer : StreamConsumer) (idle : Nat → Bool)

variable {Message : Type}

def streamStep (group : ConsumerGroup Message) :
    StreamAction Message → Option (ConsumerGroup Message)
  | .add message => some { group with entries := group.entries ++ [message] }
  | .consume consumer handling => some (consumeBatch consumer handling group)
  | .claim consumer idle => some (claimPending consumer idle group)

/-- A claim and a batch of some consumer, with a processor that accepts. -/
structure Round where
  consumer : StreamConsumer
  idle : Nat → Bool

def Round.perform (round : Round) (group : ConsumerGroup Message) : ConsumerGroup Message :=
  consumeBatch round.consumer (.accepting Message round.consumer.batchSize)
    (claimPending round.consumer round.idle group)

def performAll (group : ConsumerGroup Message) (rounds : List Round) : ConsumerGroup Message :=
  rounds.foldl (fun group round => round.perform group) group

def ConsumerGroup.Recovered (group : ConsumerGroup Message) : Prop :=
  group.pending = [] ∧ ∀ id < group.entries.length, id ∈ group.processed

/-- Enough rounds recover the group, whoever makes them and whatever they claim. -/
def ConsumerGroup.Recovers (group : ConsumerGroup Message) : Prop :=
  ∃ enough, ∀ rounds : List Round, enough ≤ rounds.length → (performAll group rounds).Recovered

def ConsumerGroup.pendingIds (group : ConsumerGroup Message) : List Nat :=
  group.pending.map Prod.fst

/-! The entries that a batch acknowledges. -/

section Batches

variable {consumer : StreamConsumer} {handling : Handling Message} {group : ConsumerGroup Message}

def acknowledgedIds (handling : Handling Message) : Nat → List (Nat × Message) → List Nat
  | 0, _ => []
  | _, [] => []
  | reached + 1, (id, event) :: rest =>
      match handling.processEvent id event with
      | none => []
      | some false => acknowledgedIds handling reached rest
      | some true =>
          if handling.acknowledged id then id :: acknowledgedIds handling reached rest
          else acknowledgedIds handling reached rest

theorem newEntries_length (consumer : StreamConsumer) (group : ConsumerGroup Message) :
    (group.newEntries consumer).length =
      min consumer.batchSize (group.entries.length - group.delivered) := by
  simp [ConsumerGroup.newEntries]

theorem newEntries_ids (consumer : StreamConsumer) (group : ConsumerGroup Message) :
    (group.newEntries consumer).map Prod.fst =
      List.range' group.delivered (group.newEntries consumer).length := by
  have numbers : (group.entries.zipIdx.map Prod.swap).map Prod.fst =
      List.range' 0 group.entries.length := by
    rw [List.map_map, ← List.zipIdx_map_snd 0 group.entries]
    rfl
  have ids : (group.newEntries consumer).map Prod.fst =
      (List.range' group.delivered (group.entries.length - group.delivered)).take
        consumer.batchSize := by
    unfold ConsumerGroup.newEntries
    rw [List.map_take, List.map_drop, numbers, List.drop_range']
    simp
  rw [ids, newEntries_length]
  rcases Nat.le_total (group.entries.length - group.delivered) consumer.batchSize with short | long
  · rw [List.take_range'_of_length_le short, Nat.min_eq_right short]
  · rw [List.take_range'_of_length_ge long, Nat.min_eq_left long]

theorem mem_newEntries_ids {id : Nat} :
    id ∈ (group.newEntries consumer).map Prod.fst ↔
      group.delivered ≤ id ∧ id < group.delivered + (group.newEntries consumer).length := by
  rw [newEntries_ids]
  simp

theorem nodup_newEntries (consumer : StreamConsumer) (group : ConsumerGroup Message) :
    ((group.newEntries consumer).map Prod.fst).Nodup := by
  rw [newEntries_ids]
  exact List.nodup_range'

theorem accepted_of_acknowledged {reached id : Nat} {messages : List (Nat × Message)}
    (member : id ∈ acknowledgedIds handling reached messages) :
    ∃ event, (id, event) ∈ messages ∧ handling.processEvent id event = some true := by
  induction messages generalizing reached with
  | nil => cases reached <;> cases member
  | cons message rest ih =>
      have later {reached : Nat} (inside : id ∈ acknowledgedIds handling reached rest) :
          ∃ event, (id, event) ∈ message :: rest ∧ handling.processEvent id event = some true := by
        obtain ⟨event, listed, accepted⟩ := ih inside
        exact ⟨event, List.mem_cons_of_mem _ listed, accepted⟩
      cases reached with
      | zero => cases member
      | succ reached =>
          simp only [acknowledgedIds] at member
          split at member
          · cases member
          · exact later member
          · rename_i accepted
            split at member
            · rcases List.mem_cons.mp member with rfl | inside
              · exact ⟨message.2, List.mem_cons_self, accepted⟩
              · exact later inside
            · exact later member

theorem acknowledgedIds_subset {reached id : Nat} {messages : List (Nat × Message)}
    (member : id ∈ acknowledgedIds handling reached messages) : id ∈ messages.map Prod.fst := by
  obtain ⟨event, listed, -⟩ := accepted_of_acknowledged member
  exact List.mem_map_of_mem listed

/-- Some delivered entries are processed and leave the pending ones. -/
structure Acknowledges (group after : ConsumerGroup Message) (ids : List Nat) : Prop where
  entries : after.entries = group.entries
  delivered : after.delivered = group.delivered
  pending : after.pending = group.pending.filter (fun entry => decide (entry.1 ∉ ids))
  earlier : group.processed ⊆ after.processed
  processed : ids ⊆ after.processed

theorem Acknowledges.nothing {after : ConsumerGroup Message} (entries : after.entries = group.entries)
    (delivered : after.delivered = group.delivered) (pending : after.pending = group.pending)
    (earlier : group.processed ⊆ after.processed) : Acknowledges group after [] where
  entries := entries
  delivered := delivered
  pending := by
    rw [pending]
    exact (List.filter_eq_self.mpr (by simp)).symm
  earlier := earlier
  processed := List.nil_subset _

theorem handleMessages_acknowledges (reached : Nat) (messages : List (Nat × Message))
    (group : ConsumerGroup Message) :
    Acknowledges group (handleMessages handling reached messages group)
      (acknowledgedIds handling reached messages) := by
  induction messages generalizing reached group with
  | nil => cases reached <;> exact .nothing rfl rfl rfl (List.Subset.refl _)
  | cons message rest ih =>
      cases reached with
      | zero => exact .nothing rfl rfl rfl (List.Subset.refl _)
      | succ reached =>
          simp only [handleMessages, acknowledgedIds]
          cases handling.processEvent message.1 message.2 with
          | none => exact .nothing rfl rfl rfl (List.Subset.refl _)
          | some accepted =>
              cases accepted with
              | false => exact ih reached group
              | true =>
                  cases handling.acknowledged message.1 with
                  | false =>
                      have later := ih reached { group with processed := message.1 :: group.processed }
                      exact { later with
                        earlier := fun id old => later.earlier (List.mem_cons_of_mem _ old) }
                  | true =>
                      have later := ih reached
                        { group with
                          processed := message.1 :: group.processed
                          pending := group.pending.filter (fun entry => entry.1 ≠ message.1) }
                      constructor
                      · exact later.entries
                      · exact later.delivered
                      · have pending := later.pending
                        rw [List.filter_filter] at pending
                        refine pending.trans (List.filter_congr fun entry _ => ?_)
                        simp [Bool.and_comm]
                      · exact fun id old => later.earlier (List.mem_cons_of_mem _ old)
                      · intro id member
                        rcases List.mem_cons.mp member with rfl | rest
                        · exact later.earlier List.mem_cons_self
                        · exact later.processed rest

def Handling.Serves (handling : Handling Message) (messages : List (Nat × Message)) : Prop :=
  messages.length ≤ handling.reached ∧ ∀ message ∈ messages,
    handling.processEvent message.1 message.2 = some true ∧ handling.acknowledged message.1 = true

theorem acknowledgedIds_complete_iff {reached : Nat} {messages : List (Nat × Message)}
    (distinct : (messages.map Prod.fst).Nodup) :
    (∀ message ∈ messages, message.1 ∈ acknowledgedIds handling reached messages) ↔
      messages.length ≤ reached ∧ ∀ message ∈ messages,
        handling.processEvent message.1 message.2 = some true ∧
          handling.acknowledged message.1 = true := by
  induction messages generalizing reached with
  | nil => simp
  | cons message rest ih =>
      rw [List.map_cons, List.nodup_cons] at distinct
      have fresh : message.1 ∉ acknowledgedIds handling (reached - 1) rest :=
        fun member => distinct.1 (acknowledgedIds_subset member)
      cases reached with
      | zero => simp only [acknowledgedIds, List.forall_mem_cons, List.length_cons]; simp
      | succ reached =>
          simp only [acknowledgedIds, List.forall_mem_cons]
          cases answer : handling.processEvent message.1 message.2 with
          | none => simp
          | some accepted =>
              cases accepted with
              | false =>
                  simp only [Nat.add_sub_cancel] at fresh
                  simp [fresh]
              | true =>
                  simp only [Nat.add_sub_cancel] at fresh
                  cases acks : handling.acknowledged message.1 with
                  | false => simp [fresh]
                  | true =>
                      have others : (∀ other ∈ rest,
                          other.1 ∈ message.1 :: acknowledgedIds handling reached rest) ↔
                          ∀ other ∈ rest, other.1 ∈ acknowledgedIds handling reached rest := by
                        refine forall₂_congr (fun other inside => ?_)
                        have differs : other.1 ≠ message.1 := by
                          intro same
                          exact distinct.1 (same ▸ List.mem_map_of_mem inside)
                        simp [differs]
                      simp only [if_true, List.mem_cons_self, true_and, others, ih distinct.2,
                        List.length_cons, Nat.add_le_add_iff_right]

end Batches

/-! What all reachable groups have in common. -/

section Reachable

variable {group : ConsumerGroup Message} {consumer : StreamConsumer} {handling : Handling Message}

structure ConsumerGroup.Tracked (group : ConsumerGroup Message) : Prop where
  bounded : group.delivered ≤ group.entries.length
  owned : ∀ id ∈ group.pendingIds, id < group.delivered
  kept : ∀ id < group.delivered, id ∈ group.processed ∨ id ∈ group.pendingIds

theorem claimEntries_ids (consumer : StreamConsumer) (idle : Nat → Bool) (count : Nat)
    (pending : List (Nat × String)) :
    (claimEntries consumer idle count pending).map Prod.fst = pending.map Prod.fst := by
  induction pending generalizing count with
  | nil => cases count <;> rfl
  | cons entry rest ih =>
      cases count with
      | zero => rfl
      | succ count =>
          simp only [claimEntries]
          cases idle entry.1 with
          | false => exact congrArg (entry.1 :: ·) (ih (count + 1))
          | true => exact congrArg (entry.1 :: ·) (ih count)

theorem claimPending_ids (consumer : StreamConsumer) (idle : Nat → Bool)
    (group : ConsumerGroup Message) :
    (claimPending consumer idle group).pendingIds = group.pendingIds :=
  claimEntries_ids consumer idle 100 group.pending

theorem ConsumerGroup.Tracked.claim (tracked : group.Tracked) (idle : Nat → Bool) :
    (claimPending consumer idle group).Tracked where
  bounded := tracked.bounded
  owned := by
    rw [claimPending_ids]
    exact tracked.owned
  kept := by
    rw [claimPending_ids]
    exact tracked.kept

def batchIds (consumer : StreamConsumer) (handling : Handling Message)
    (group : ConsumerGroup Message) : List Nat :=
  acknowledgedIds handling handling.reached (group.newEntries consumer)

theorem consumeBatch_acknowledges (consumer : StreamConsumer) (handling : Handling Message)
    (group : ConsumerGroup Message) :
    Acknowledges (group.deliver consumer (group.newEntries consumer))
      (consumeBatch consumer handling group) (batchIds consumer handling group) :=
  handleMessages_acknowledges _ _ _

theorem mem_batchIds_bounds {id : Nat} (member : id ∈ batchIds consumer handling group) :
    group.delivered ≤ id ∧ id < group.delivered + (group.newEntries consumer).length :=
  mem_newEntries_ids.mp (acknowledgedIds_subset member)

theorem mem_pendingIds_consumeBatch (tracked : group.Tracked) {id : Nat} :
    id ∈ (consumeBatch consumer handling group).pendingIds ↔
      id ∈ group.pendingIds ∨
        id ∈ (group.newEntries consumer).map Prod.fst ∧ id ∉ batchIds consumer handling group := by
  have acknowledges := consumeBatch_acknowledges consumer handling group
  have ids : (consumeBatch consumer handling group).pendingIds =
      (group.pendingIds ++ (group.newEntries consumer).map Prod.fst).filter
        (fun id => decide (id ∉ batchIds consumer handling group)) := by
    unfold ConsumerGroup.pendingIds
    rw [acknowledges.pending]
    simp [ConsumerGroup.deliver, List.filter_map, Function.comp_def]
  rw [ids, List.mem_filter, List.mem_append, decide_eq_true_iff, or_and_right]
  refine or_congr_left ⟨And.left, fun old => ⟨old, fun member => ?_⟩⟩
  have earlier := tracked.owned id old
  have later := (mem_batchIds_bounds member).1
  omega

theorem ConsumerGroup.Tracked.consume (tracked : group.Tracked) :
    (consumeBatch consumer handling group).Tracked := by
  have acknowledges := consumeBatch_acknowledges consumer handling group
  have delivered : (consumeBatch consumer handling group).delivered =
      group.delivered + (group.newEntries consumer).length := acknowledges.delivered
  constructor
  · rw [delivered, acknowledges.entries, newEntries_length]
    have bounded := tracked.bounded
    dsimp only [ConsumerGroup.deliver]
    omega
  · intro id member
    rw [delivered]
    rcases (mem_pendingIds_consumeBatch tracked).mp member with old | ⟨now, -⟩
    · exact Nat.lt_add_right _ (tracked.owned id old)
    · exact (mem_newEntries_ids.mp now).2
  · intro id below
    rw [delivered] at below
    rw [mem_pendingIds_consumeBatch tracked]
    by_cases old : id < group.delivered
    · rcases tracked.kept id old with processed | pending
      · exact Or.inl (acknowledges.earlier processed)
      · exact Or.inr (Or.inl pending)
    · by_cases acked : id ∈ batchIds consumer handling group
      · exact Or.inl (acknowledges.processed acked)
      · exact Or.inr (Or.inr ⟨mem_newEntries_ids.mpr ⟨by omega, below⟩, acked⟩)

theorem tracked_step {action : StreamAction Message} {next : ConsumerGroup Message}
    (tracked : group.Tracked) (stepped : streamStep group action = some next) : next.Tracked := by
  cases action with
  | add message =>
      obtain rfl := Option.some.inj stepped
      refine ⟨?_, tracked.owned, tracked.kept⟩
      have bounded := tracked.bounded
      simp only [List.length_append, List.length_singleton]
      omega
  | consume consumer handling =>
      obtain rfl := Option.some.inj stepped
      exact tracked.consume
  | claim consumer idle =>
      obtain rfl := Option.some.inj stepped
      exact tracked.claim idle

/-- A batch of the action is handled without fault. -/
def StreamAction.Served (group : ConsumerGroup Message) : StreamAction Message → Prop
  | .add _ => True
  | .consume consumer handling => handling.Serves (group.newEntries consumer)
  | .claim _ _ => True

theorem pendingIds_nil_iff : group.pendingIds = [] ↔ group.pending = [] := by
  simp [ConsumerGroup.pendingIds]

theorem consumeBatch_pending_nil_iff (tracked : group.Tracked) :
    (consumeBatch consumer handling group).pending = [] ↔
      group.pending = [] ∧ handling.Serves (group.newEntries consumer) := by
  have complete : (∀ message ∈ group.newEntries consumer,
      message.1 ∈ acknowledgedIds handling handling.reached (group.newEntries consumer)) ↔
        handling.Serves (group.newEntries consumer) :=
    acknowledgedIds_complete_iff (nodup_newEntries consumer group)
  rw [← complete, ← pendingIds_nil_iff, ← pendingIds_nil_iff, List.eq_nil_iff_forall_not_mem,
    List.eq_nil_iff_forall_not_mem]
  simp only [mem_pendingIds_consumeBatch tracked, not_or, forall_and, not_and, not_not]
  refine and_congr_right (fun _ => ?_)
  simp [batchIds]

theorem pending_nil_step_iff {action : StreamAction Message} {next : ConsumerGroup Message}
    (tracked : group.Tracked) (stepped : streamStep group action = some next) :
    next.pending = [] ↔ group.pending = [] ∧ action.Served group := by
  cases action with
  | add message =>
      obtain rfl := Option.some.inj stepped
      simp [StreamAction.Served]
  | consume consumer handling =>
      obtain rfl := Option.some.inj stepped
      exact consumeBatch_pending_nil_iff tracked
  | claim consumer idle =>
      obtain rfl := Option.some.inj stepped
      rw [← pendingIds_nil_iff, claimPending_ids, pendingIds_nil_iff]
      simp [StreamAction.Served]

theorem tracked_empty : ({} : ConsumerGroup Message).Tracked where
  bounded := Nat.le_refl 0
  owned := by simp [ConsumerGroup.pendingIds]
  kept := by simp

theorem tracked_of_run {events : List (Event (ConsumerGroup Message) (StreamAction Message))}
    (run : Run streamStep {} events group) : group.Tracked :=
  run.invariant_always ConsumerGroup.Tracked tracked_empty
    (fun _ _ _ tracked stepped => tracked_step tracked stepped)

theorem pending_nil_iff_served
    {events : List (Event (ConsumerGroup Message) (StreamAction Message))}
    (run : Run streamStep {} events group) :
    group.pending = [] ↔ ∀ event ∈ events, event.action.Served event.before := by
  induction run with
  | nil => simp
  | snoc earlier action stepped ih =>
      rw [pending_nil_step_iff (tracked_of_run earlier) stepped, ih]
      simp [or_imp, forall_and]

end Reachable

/-! Recovery. -/

section Recovery

variable {group : ConsumerGroup Message}

theorem ConsumerGroup.Tracked.perform (tracked : group.Tracked) (round : Round) : (round.perform group).Tracked :=
  (tracked.claim round.idle).consume

theorem pendingIds_performAll (tracked : group.Tracked) (rounds : List Round) :
    group.pendingIds ⊆ (performAll group rounds).pendingIds := by
  induction rounds generalizing group with
  | nil => exact List.Subset.refl _
  | cons round rest ih =>
      intro id member
      refine ih (tracked.perform round) ?_
      refine (mem_pendingIds_consumeBatch (tracked.claim round.idle)).mpr (Or.inl ?_)
      rw [claimPending_ids]
      exact member

theorem not_recovered_of_pending (tracked : group.Tracked) (pending : group.pending ≠ [])
    (rounds : List Round) : ¬ (performAll group rounds).Recovered := by
  intro recovered
  apply pending
  rw [← pendingIds_nil_iff]
  apply List.eq_nil_of_subset_nil
  have kept := pendingIds_performAll tracked rounds
  rw [pendingIds_nil_iff.mpr recovered.1] at kept
  exact kept

theorem serves_accepting {messages : List (Nat × Message)} {reached : Nat}
    (enough : messages.length ≤ reached) : (Handling.accepting Message reached).Serves messages :=
  ⟨enough, fun _ _ => ⟨rfl, rfl⟩⟩

theorem perform_advances (tracked : group.Tracked) (clear : group.pending = []) (round : Round) :
    (round.perform group).pending = [] ∧ (round.perform group).entries = group.entries ∧
      min (group.delivered + 1) group.entries.length ≤ (round.perform group).delivered := by
  have claimed : (claimPending round.consumer round.idle group).Tracked := tracked.claim round.idle
  have acknowledges := consumeBatch_acknowledges round.consumer
    (.accepting Message round.consumer.batchSize) (claimPending round.consumer round.idle group)
  have length := newEntries_length round.consumer (claimPending round.consumer round.idle group)
  have delivered : (round.perform group).delivered = group.delivered +
      min round.consumer.batchSize (group.entries.length - group.delivered) :=
    acknowledges.delivered.trans (congrArg (group.delivered + ·) length)
  refine ⟨?_, acknowledges.entries, ?_⟩
  · refine (consumeBatch_pending_nil_iff claimed).mpr ⟨?_, serves_accepting ?_⟩
    · rw [← pendingIds_nil_iff, claimPending_ids, pendingIds_nil_iff]
      exact clear
    · rw [length]
      exact Nat.min_le_left _ _
  · have positive := round.consumer.batchSize_pos
    rw [delivered]
    omega

theorem performAll_recovered (tracked : group.Tracked) (clear : group.pending = [])
    {rounds : List Round} (enough : group.entries.length - group.delivered ≤ rounds.length) :
    (performAll group rounds).Recovered := by
  induction rounds generalizing group with
  | nil =>
      refine ⟨clear, fun id below => ?_⟩
      have whole : group.entries.length - group.delivered ≤ 0 := enough
      rcases tracked.kept id (by dsimp only [performAll, List.foldl_nil] at below; omega) with
        processed | pending
      · exact processed
      · rw [pendingIds_nil_iff.mpr clear] at pending
        cases pending
  | cons round rest ih =>
      obtain ⟨still, entries, further⟩ := perform_advances tracked clear round
      refine ih (tracked.perform round) still ?_
      rw [List.length_cons] at enough
      dsimp only
      rw [entries]
      omega

theorem recovers_iff_pending_nil (tracked : group.Tracked) :
    group.Recovers ↔ group.pending = [] := by
  constructor
  · intro given
    rcases given with ⟨enough, recovers⟩
    by_contra pending
    let anyone : Round := ⟨{}, fun _ => true⟩
    exact not_recovered_of_pending tracked pending (List.replicate enough anyone)
      (recovers _ (by simp))
  · intro clear
    exact ⟨_, fun rounds enough => performAll_recovered tracked clear enough⟩

/-- A group recovers exactly if every batch of its history was handled without fault. -/
theorem recovers_iff_served
    {events : List (Event (ConsumerGroup Message) (StreamAction Message))}
    (run : Run streamStep {} events group) :
    group.Recovers ↔ ∀ event ∈ events, event.action.Served event.before :=
  (recovers_iff_pending_nil (tracked_of_run run)).trans (pending_nil_iff_served run)

end Recovery

def answeredHistory (answer : Bool) : List (StreamAction String) :=
  [.add "page_updated", .consume {} ⟨fun _ _ => some answer, fun _ => true, 10⟩,
    .claim { consumerName := "etl-consumer-2" } (fun _ => true)]

def answeredEvents (answer : Bool) : List (Event (ConsumerGroup String) (StreamAction String)) :=
  (record streamStep {} (answeredHistory answer)).getD []

theorem answeredEvents_run (answer : Bool) :
    Run streamStep {} (answeredEvents answer) (final {} (answeredEvents answer)) := by
  have recorded : record streamStep {} (answeredHistory answer) = some (answeredEvents answer) := rfl
  exact run_of_record recorded

theorem recovers_after_acceptance : (final {} (answeredEvents true)).Recovers := by
  refine (recovers_iff_served (answeredEvents_run true)).mpr ?_
  intro event member
  have shape : answeredEvents true = [_, _, _] := rfl
  rw [shape] at member
  rcases List.mem_cons.mp member with rfl | later
  · exact trivial
  · rcases List.mem_cons.mp later with rfl | last
    · exact ⟨by decide, fun _ _ => ⟨rfl, rfl⟩⟩
    · obtain rfl := List.mem_singleton.mp last
      exact trivial

/-- A message refused once is claimed by the other consumer, and never processed. -/
theorem refused_never_recovers :
    ¬ ∀ events (group : ConsumerGroup String), Run streamStep {} events group → group.Recovers := by
  intro recovers
  have refused := recovers _ _ (answeredEvents_run false)
  have pending : (final {} (answeredEvents false)).pending ≠ [] := by decide +kernel
  exact pending ((recovers_iff_pending_nil (tracked_of_run (answeredEvents_run false))).mp refused)

end RagSystem.Etl
