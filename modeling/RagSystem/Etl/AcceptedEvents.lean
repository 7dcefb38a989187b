import Mathlib.Data.List.Induction
import Mathlib.Logic.Function.Basic
import RagSystem.Etl.StreamConsumer

/-! The webhook server, the producer that bounds the stream (`stream_producer.py`,
`webhook_server.py`) and the single steps of the consumers: what becomes of accepted events. -/

namespace RagSystem.Etl

/-- The body of a request: a JSON object is an event to put on the stream. -/
inductive RequestBody (Message : Type)
  | notJson
  | notObject
  | event (message : Message)
  deriving DecidableEq, Repr

/-- A request to a webhook endpoint, with the state of the server, and whether the entry reaches the
stream and the reply the server. -/
structure WebhookRequest (Message : Type) where
  enabled : Bool := true
  signed : Bool := true
  body : RequestBody Message
  client : Bool := true
  stored : Bool := true
  replied : Bool := true
  deriving DecidableEq, Repr

/-- The argument `maxlen` of `xadd`. -/
def maxLength : Nat := 10000

variable {Message : Type}

def WebhookRequest.stores (request : WebhookRequest Message) : Option Message :=
  if request.enabled ∧ request.signed ∧ request.client ∧ request.stored then
    match request.body with
    | .event message => some message
    | _ => none
  else none

/-- `produce_event` answers with an id. -/
def WebhookRequest.produced (request : WebhookRequest Message) : Bool :=
  request.stored ∧ request.replied

def WebhookRequest.status (request : WebhookRequest Message) : Nat :=
  if ¬ request.enabled then 503
  else if ¬ request.signed then 401
  else
    match request.body with
    | .notJson => 422
    | .notObject => 500
    | .event _ =>
        if ¬ request.client then 503
        else if ¬ request.produced then 503
        else 202

/-- The messages that a consumer has read and not yet handled, and the one that the processor has
accepted and that is still to be acknowledged. -/
structure Hand where
  reading : List Nat := []
  accepted : Option Nat := none
  deriving DecidableEq, Repr

/-- The group with the number of entries that are trimmed off the stream, the entries answered with
202, those acknowledged, and what the consumers have in hand. -/
structure EventStream (Message : Type) where
  group : ConsumerGroup Message := {}
  trimmed : Nat := 0
  answered : List Nat := []
  acknowledged : List Nat := []
  hands : Nat → Hand := fun _ => {}

/-- The steps of the webhook server and of the consumers, which are numbered. A claim may drop
pending entries that are gone from the stream. -/
inductive StreamEvents (Message : Type)
  | webhook (request : WebhookRequest Message)
  | read (worker : Nat) (consumer : StreamConsumer)
  | handle (worker : Nat) (answer : Option Bool)
  | acknowledge (worker : Nat) (reaches : Bool)
  | claim (consumer : StreamConsumer) (idle purged : Nat → Bool)
  | crash (worker : Nat)

namespace EventStream

def setHand (stream : EventStream Message) (worker : Nat) (hand : Hand) : EventStream Message :=
  { stream with hands := Function.update stream.hands worker hand }

/-- How many entries the server may trim when an entry is added: it keeps at least `maxlen`. -/
def excess (stream : EventStream Message) : Nat :=
  stream.group.entries.length + 1 - stream.trimmed - maxLength

/-- `trim` is what the server trims; it is free to trim less than the excess. -/
def produce (message : Message) (answered : Bool) (trim : Nat) (stream : EventStream Message) :
    EventStream Message :=
  { stream with
    group := { stream.group with entries := stream.group.entries ++ [message] }
    trimmed := stream.trimmed + min trim stream.excess
    answered := if answered then stream.group.entries.length :: stream.answered
      else stream.answered }

def skipTrimmed (stream : EventStream Message) : ConsumerGroup Message :=
  { stream.group with delivered := max stream.group.delivered stream.trimmed }

def read (worker : Nat) (consumer : StreamConsumer) (stream : EventStream Message) :
    EventStream Message :=
  if stream.hands worker = {} then
    let messages := stream.skipTrimmed.newEntries consumer
    if messages = [] then stream
    else
      { stream.setHand worker { reading := messages.map Prod.fst } with
        group := stream.skipTrimmed.deliver consumer messages }
  else stream

def handle (worker : Nat) (answer : Option Bool) (stream : EventStream Message) :
    EventStream Message :=
  match stream.hands worker with
  | { reading := id :: rest, accepted := none } =>
      match answer with
      | none => stream.setHand worker {}
      | some false => stream.setHand worker { reading := rest }
      | some true =>
          { stream.setHand worker { reading := rest, accepted := some id } with
            group := { stream.group with processed := id :: stream.group.processed } }
  | _ => stream

def acknowledge (worker : Nat) (reaches : Bool) (stream : EventStream Message) :
    EventStream Message :=
  match stream.hands worker with
  | { reading, accepted := some id } =>
      let done := stream.setHand worker { reading }
      if reaches then
        { done with
          group := { stream.group with
            pending := stream.group.pending.filter (fun entry => entry.1 ≠ id) }
          acknowledged := id :: stream.acknowledged }
      else done
  | _ => stream

def claim (consumer : StreamConsumer) (idle purged : Nat → Bool) (stream : EventStream Message) :
    EventStream Message :=
  let claimed := claimPending consumer idle stream.group
  { stream with
    group := { claimed with
      pending := claimed.pending.filter
        (fun entry => !(purged entry.1 && decide (entry.1 < stream.trimmed))) } }

def step (stream : EventStream Message) (event : StreamEvents Message) (trim : Nat) :
    EventStream Message :=
  match event with
  | .webhook request =>
      match request.stores with
      | none => stream
      | some message => stream.produce message (request.status = 202) trim
  | .read worker consumer => stream.read worker consumer
  | .handle worker answer => stream.handle worker answer
  | .acknowledge worker reaches => stream.acknowledge worker reaches
  | .claim consumer idle purged => stream.claim consumer idle purged
  | .crash worker => stream.setHand worker {}

def runFrom (stream : EventStream Message) (steps : List (StreamEvents Message × Nat)) :
    EventStream Message :=
  steps.foldl (fun stream taken => stream.step taken.1 taken.2) stream

def after (steps : List (StreamEvents Message × Nat)) : EventStream Message := runFrom {} steps

def untrimmed (events : List (StreamEvents Message)) : EventStream Message :=
  after (events.map fun event => (event, 0))

def oldestUnacknowledged (stream : EventStream Message) : Nat :=
  ((List.range stream.group.entries.length).takeWhile (· ∈ stream.acknowledged)).length

end EventStream

open EventStream

/-- A step keeps accepted events in the stream or with the processor, and trims only entries that
were acknowledged before. -/
structure KeepsEvents (before : EventStream Message) (after : EventStream Message) : Prop where
  kept : ∀ id ∈ after.answered, after.trimmed ≤ id ∨ id ∈ after.group.processed
  trimmed : ∀ id, before.trimmed ≤ id → id < after.trimmed → id ∈ before.acknowledged

/-- Whatever the server trims, every step of the schedule keeps the accepted events. -/
def NothingLost (events : List (StreamEvents Message)) : Prop :=
  ∀ steps : List (StreamEvents Message × Nat), steps.map Prod.fst = events →
    ∀ earlier taken, earlier ++ [taken] <+: steps →
      KeepsEvents (after earlier) (after (earlier ++ [taken]))

/-- When a request adds an entry, this entry and those from the oldest unacknowledged one on are no
more than the stream keeps. -/
def BacklogFits (events : List (StreamEvents Message)) : Prop :=
  ∀ earlier request, earlier ++ [StreamEvents.webhook request] <+: events →
    request.stores ≠ none →
      (untrimmed earlier).group.entries.length + 1 ≤
        (untrimmed earlier).oldestUnacknowledged + maxLength

section Oldest

variable {stream : EventStream Message}

theorem le_takeWhile_length_iff {α : Type} (keeps : α → Bool) (items : List α) (count : Nat) :
    count ≤ (items.takeWhile keeps).length ↔
      count ≤ items.length ∧ ∀ item ∈ items.take count, keeps item = true := by
  induction items generalizing count with
  | nil => simp
  | cons item rest ih =>
      cases count with
      | zero => simp
      | succ count =>
          cases keep : keeps item with
          | true => simp [keep, ih]
          | false => simp [keep]

theorem le_oldestUnacknowledged_iff (count : Nat) :
    count ≤ stream.oldestUnacknowledged ↔
      count ≤ stream.group.entries.length ∧ ∀ id < count, id ∈ stream.acknowledged := by
  rw [oldestUnacknowledged, le_takeWhile_length_iff, List.length_range, List.take_range]
  constructor
  · intro given
    rcases given with ⟨short, all⟩
    refine ⟨short, fun id before => ?_⟩
    have member : id ∈ List.range (min count stream.group.entries.length) := by
      rw [List.mem_range]
      omega
    simpa using all id member
  · intro given
    rcases given with ⟨short, all⟩
    refine ⟨short, fun id member => ?_⟩
    rw [List.mem_range] at member
    simpa using all id (by omega)

end Oldest

/-- What is in hand or acknowledged was delivered, what is acknowledged was accepted and is no
longer pending. -/
structure EventStream.Sound (stream : EventStream Message) : Prop where
  bounded : stream.group.delivered ≤ stream.group.entries.length
  reading : ∀ worker, ∀ id ∈ (stream.hands worker).reading, id < stream.group.delivered
  accepted : ∀ worker id, (stream.hands worker).accepted = some id →
    id < stream.group.delivered ∧ id ∈ stream.group.processed
  acknowledged : ∀ id ∈ stream.acknowledged,
    id < stream.group.delivered ∧ id ∈ stream.group.processed
  pending : ∀ id ∈ stream.group.pendingIds, id ∉ stream.acknowledged

section Steps

variable {stream : EventStream Message} {worker : Nat}

@[simp] theorem setHand_group (hand : Hand) : (stream.setHand worker hand).group = stream.group := rfl

@[simp] theorem setHand_acknowledged (hand : Hand) :
    (stream.setHand worker hand).acknowledged = stream.acknowledged := rfl

@[simp] theorem setHand_self (hand : Hand) : (stream.setHand worker hand).hands worker = hand :=
  Function.update_self _ _ _

theorem setHand_other {other : Nat} (differs : other ≠ worker) (hand : Hand) :
    (stream.setHand worker hand).hands other = stream.hands other :=
  Function.update_of_ne differs _ _

theorem EventStream.Sound.setHand (sound : stream.Sound) {hand : Hand}
    (reading : ∀ id ∈ hand.reading, id < stream.group.delivered)
    (accepted : ∀ id, hand.accepted = some id →
      id < stream.group.delivered ∧ id ∈ stream.group.processed) :
    (stream.setHand worker hand).Sound where
  bounded := sound.bounded
  reading := by
    intro other
    by_cases same : other = worker
    · subst same
      rw [setHand_self]
      exact reading
    · rw [setHand_other same]
      exact sound.reading other
  accepted := by
    intro other
    by_cases same : other = worker
    · subst same
      rw [setHand_self]
      exact accepted
    · rw [setHand_other same]
      exact sound.accepted other
  acknowledged := sound.acknowledged
  pending := sound.pending

theorem sound_produce (sound : stream.Sound) (message : Message) (answered : Bool) (trim : Nat) :
    (stream.produce message answered trim).Sound where
  bounded := by
    have bounded := sound.bounded
    simp only [produce, List.length_append, List.length_singleton]
    omega
  reading := sound.reading
  accepted := sound.accepted
  acknowledged := sound.acknowledged
  pending := sound.pending

theorem sound_deliver (sound : stream.Sound) (consumer : StreamConsumer) :
    EventStream.Sound { stream with
      group := stream.group.deliver consumer (stream.group.newEntries consumer) } where
  bounded := by
    have bounded := sound.bounded
    have length := newEntries_length consumer stream.group
    simp only [ConsumerGroup.deliver]
    omega
  reading := fun other id member => Nat.lt_add_right _ (sound.reading other id member)
  accepted := by
    intro other id member
    obtain ⟨delivered, processed⟩ := sound.accepted other id member
    exact ⟨Nat.lt_add_right _ delivered, processed⟩
  acknowledged := by
    intro id member
    obtain ⟨delivered, processed⟩ := sound.acknowledged id member
    exact ⟨Nat.lt_add_right _ delivered, processed⟩
  pending := by
    intro id member acknowledged
    simp only [ConsumerGroup.pendingIds, ConsumerGroup.deliver, List.map_append, List.mem_append,
      List.map_map] at member
    rcases member with old | new
    · exact sound.pending id old acknowledged
    · have fresh : id ∈ (stream.group.newEntries consumer).map Prod.fst := by simpa using new
      have later := (mem_newEntries_ids.mp fresh).1
      have earlier := (sound.acknowledged id acknowledged).1
      omega

theorem sound_read (sound : stream.Sound) (start : stream.trimmed = 0) (consumer : StreamConsumer) :
    (stream.read worker consumer).Sound := by
  have skipped : stream.skipTrimmed = stream.group := by simp [skipTrimmed, start]
  unfold EventStream.read
  split
  · dsimp only
    split
    · exact sound
    · rw [skipped]
      refine (sound_deliver sound consumer).setHand ?_ (by simp)
      intro id member
      have bound := (mem_newEntries_ids.mp member).2
      exact bound
  · exact sound

theorem sound_process (sound : stream.Sound) (id : Nat) :
    EventStream.Sound { stream with
      group := { stream.group with processed := id :: stream.group.processed } } where
  bounded := sound.bounded
  reading := sound.reading
  accepted := fun other own member =>
    ⟨(sound.accepted other own member).1, List.mem_cons_of_mem _ (sound.accepted other own member).2⟩
  acknowledged := fun own member =>
    ⟨(sound.acknowledged own member).1, List.mem_cons_of_mem _ (sound.acknowledged own member).2⟩
  pending := sound.pending

theorem sound_handle (sound : stream.Sound) (answer : Option Bool) :
    (stream.handle worker answer).Sound := by
  unfold EventStream.handle
  split
  · rename_i id rest inHand
    have reads : ∀ other ∈ rest, other < stream.group.delivered := by
      intro other member
      exact sound.reading worker other (by simp [inHand, member])
    have own : id < stream.group.delivered := sound.reading worker id (by simp [inHand])
    cases answer with
    | none => exact sound.setHand (by simp) (by simp)
    | some good =>
        cases good with
        | false => exact sound.setHand reads (by simp)
        | true =>
            refine (sound_process sound id).setHand reads ?_
            intro other same
            obtain rfl : id = other := Option.some.inj same
            exact ⟨own, List.mem_cons_self⟩
  · exact sound

theorem sound_acknowledge (sound : stream.Sound) (reaches : Bool) :
    (stream.acknowledge worker reaches).Sound := by
  unfold EventStream.acknowledge
  split
  · rename_i reading id inHand
    have reads : ∀ other ∈ reading, other < stream.group.delivered := by
      intro other member
      exact sound.reading worker other (by simp [inHand, member])
    have own := sound.accepted worker id (by simp [inHand])
    cases reaches with
    | false => exact sound.setHand reads (by simp)
    | true =>
        have acked : EventStream.Sound { stream with
            group := { stream.group with
              pending := stream.group.pending.filter (fun entry => entry.1 ≠ id) }
            acknowledged := id :: stream.acknowledged } := by
          constructor
          · exact sound.bounded
          · exact sound.reading
          · exact sound.accepted
          · intro other member
            rcases List.mem_cons.mp member with rfl | old
            · exact own
            · exact sound.acknowledged other old
          · intro other member
            obtain ⟨entry, listed, rfl⟩ := List.mem_map.mp member
            obtain ⟨old, differs⟩ := List.mem_filter.mp listed
            have fresh := sound.pending entry.1 (List.mem_map_of_mem old)
            simp only [List.mem_cons, not_or]
            exact ⟨by simpa using differs, fresh⟩
        exact acked.setHand reads (by simp)
  · exact sound

theorem sound_claim (sound : stream.Sound) (consumer : StreamConsumer) (idle purged : Nat → Bool) :
    (stream.claim consumer idle purged).Sound where
  bounded := sound.bounded
  reading := sound.reading
  accepted := sound.accepted
  acknowledged := sound.acknowledged
  pending := by
    intro id member
    obtain ⟨entry, listed, rfl⟩ := List.mem_map.mp member
    have claimed : entry.1 ∈ (claimEntries consumer idle 100 stream.group.pending).map Prod.fst :=
      List.mem_map_of_mem (List.mem_filter.mp listed).1
    rw [claimEntries_ids] at claimed
    exact sound.pending entry.1 claimed

theorem sound_step (sound : stream.Sound) (start : stream.trimmed = 0) (event : StreamEvents Message) :
    (stream.step event 0).Sound ∧ (stream.step event 0).trimmed = 0 := by
  cases event with
  | webhook request =>
      simp only [EventStream.step]
      cases request.stores with
      | none => exact ⟨sound, start⟩
      | some message => exact ⟨sound_produce sound _ _ _, by simp [produce, start]⟩
  | read worker consumer =>
      refine ⟨sound_read sound start consumer, ?_⟩
      simp only [EventStream.step, EventStream.read]
      split
      · split
        · exact start
        · exact start
      · exact start
  | handle worker answer =>
      refine ⟨sound_handle sound answer, ?_⟩
      simp only [EventStream.step, EventStream.handle]
      split
      · split
        · exact start
        · exact start
        · exact start
      · exact start
  | acknowledge worker reaches =>
      refine ⟨sound_acknowledge sound reaches, ?_⟩
      simp only [EventStream.step, EventStream.acknowledge]
      split
      · split
        · exact start
        · exact start
      · exact start
  | claim consumer idle purged => exact ⟨sound_claim sound consumer idle purged, start⟩
  | crash worker => exact ⟨sound.setHand (by simp) (by simp), start⟩

theorem untrimmed_concat (events : List (StreamEvents Message)) (event : StreamEvents Message) :
    untrimmed (events ++ [event]) = (untrimmed events).step event 0 := by
  simp [untrimmed, EventStream.after, runFrom]

theorem sound_untrimmed (events : List (StreamEvents Message)) :
    (untrimmed events).Sound ∧ (untrimmed events).trimmed = 0 := by
  induction events using List.reverseRecOn with
  | nil =>
      refine ⟨?_, rfl⟩
      constructor
      · exact le_refl _
      · exact fun worker id member => absurd member List.not_mem_nil
      · exact fun worker id member => nomatch member
      · exact fun id member => absurd member List.not_mem_nil
      · exact fun id member => absurd member List.not_mem_nil
  | append_singleton events event ih =>
      rw [untrimmed_concat]
      exact sound_step ih.1 ih.2 event

theorem oldest_mono {later : EventStream Message}
    (entries : stream.group.entries.length ≤ later.group.entries.length)
    (acknowledged : stream.acknowledged ⊆ later.acknowledged) :
    stream.oldestUnacknowledged ≤ later.oldestUnacknowledged := by
  obtain ⟨short, all⟩ := (le_oldestUnacknowledged_iff _).mp (le_refl stream.oldestUnacknowledged)
  exact (le_oldestUnacknowledged_iff _).mpr
    ⟨short.trans entries, fun id before => acknowledged (all id before)⟩

theorem step_grows (event : StreamEvents Message) (trim : Nat) :
    stream.group.entries.length ≤ (stream.step event trim).group.entries.length ∧
      stream.acknowledged ⊆ (stream.step event trim).acknowledged := by
  cases event with
  | webhook request =>
      simp only [EventStream.step]
      cases request.stores with
      | none => exact ⟨le_refl _, List.Subset.refl _⟩
      | some message => exact ⟨by simp [produce], List.Subset.refl _⟩
  | read worker consumer =>
      simp only [EventStream.step, EventStream.read]
      split
      · split
        · exact ⟨le_refl _, List.Subset.refl _⟩
        · exact ⟨le_refl _, List.Subset.refl _⟩
      · exact ⟨le_refl _, List.Subset.refl _⟩
  | handle worker answer =>
      simp only [EventStream.step, EventStream.handle]
      split
      · split
        · exact ⟨le_refl _, List.Subset.refl _⟩
        · exact ⟨le_refl _, List.Subset.refl _⟩
        · exact ⟨le_refl _, List.Subset.refl _⟩
      · exact ⟨le_refl _, List.Subset.refl _⟩
  | acknowledge worker reaches =>
      simp only [EventStream.step, EventStream.acknowledge]
      split
      · split
        · exact ⟨le_refl _, List.subset_cons_self _ _⟩
        · exact ⟨le_refl _, List.Subset.refl _⟩
      · exact ⟨le_refl _, List.Subset.refl _⟩
  | claim consumer idle purged => exact ⟨le_refl _, List.Subset.refl _⟩
  | crash worker => exact ⟨le_refl _, List.Subset.refl _⟩

/-- The stream is the untrimmed one without entries that were all acknowledged. -/
structure TrimmedFrom (stream whole : EventStream Message) : Prop where
  same : stream = { whole with trimmed := stream.trimmed }
  acknowledged : stream.trimmed ≤ whole.oldestUnacknowledged

variable {whole : EventStream Message}

theorem TrimmedFrom.delivered (cut : TrimmedFrom stream whole) (sound : whole.Sound) :
    stream.trimmed ≤ whole.group.delivered := by
  by_contra beyond
  have before : whole.group.delivered < stream.trimmed := not_le.mp beyond
  have acked := ((le_oldestUnacknowledged_iff _).mp cut.acknowledged).2 _ before
  exact absurd (sound.acknowledged _ acked).1 (lt_irrefl _)

theorem trimmedFrom_other (cut : TrimmedFrom stream whole) (sound : whole.Sound)
    (start : whole.trimmed = 0) {event : StreamEvents Message}
    (other : ∀ request, event ≠ .webhook request) (trim : Nat) :
    stream.step event trim = { whole.step event 0 with trimmed := stream.trimmed } := by
  have delivered := cut.delivered sound
  obtain ⟨same, acknowledged⟩ := cut
  generalize stream.trimmed = trimmed at *
  subst same
  cases event with
  | webhook request => exact absurd rfl (other request)
  | read worker consumer =>
      have skipped : (EventStream.skipTrimmed { whole with trimmed }) = whole.skipTrimmed := by
        simp [skipTrimmed, start, delivered]
      simp only [EventStream.step, EventStream.read, skipped]
      split
      · split
        · rfl
        · rfl
      · rfl
  | handle worker answer =>
      simp only [EventStream.step, EventStream.handle]
      split
      · split <;> rfl
      · rfl
  | acknowledge worker reaches =>
      simp only [EventStream.step, EventStream.acknowledge]
      split
      · split <;> rfl
      · rfl
  | claim consumer idle purged =>
      -- no pending entry is trimmed
      have held : ∀ entry ∈ (claimPending consumer idle whole.group).pending, ¬ entry.1 < trimmed := by
        intro entry listed early
        have claimed : entry.1 ∈ (claimEntries consumer idle 100 whole.group.pending).map
            Prod.fst := List.mem_map_of_mem listed
        rw [claimEntries_ids] at claimed
        exact sound.pending entry.1 claimed
          (((le_oldestUnacknowledged_iff _).mp acknowledged).2 _ early)
      have all : ∀ bound, (∀ entry ∈ (claimPending consumer idle whole.group).pending,
          ¬ entry.1 < bound) → (claimPending consumer idle whole.group).pending.filter
            (fun entry => !(purged entry.1 && decide (entry.1 < bound))) =
          (claimPending consumer idle whole.group).pending := by
        intro bound late
        apply List.filter_eq_self.mpr
        intro entry listed
        simp [late entry listed]
      simp only [EventStream.step, EventStream.claim, start, all trimmed held,
        all 0 (fun entry _ => Nat.not_lt_zero _)]
  | crash worker => rfl

theorem trimmedFrom_request (cut : TrimmedFrom stream whole) {request : WebhookRequest Message}
    (fits : request.stores ≠ none → whole.group.entries.length + 1 ≤
      whole.oldestUnacknowledged + maxLength) (trim : Nat) :
    stream.step (.webhook request) trim =
        { whole.step (.webhook request) 0 with
          trimmed := (stream.step (.webhook request) trim).trimmed } ∧
      (stream.step (.webhook request) trim).trimmed ≤ whole.oldestUnacknowledged := by
  obtain ⟨same, acknowledged⟩ := cut
  generalize stream.trimmed = trimmed at *
  subst same
  simp only [EventStream.step]
  cases stores : request.stores with
  | none => exact ⟨rfl, acknowledged⟩
  | some message =>
      have room := fits (by simp [stores])
      refine ⟨rfl, ?_⟩
      simp only [produce, excess]
      omega

theorem trimmedFrom_step (cut : TrimmedFrom stream whole) (sound : whole.Sound)
    (start : whole.trimmed = 0) (event : StreamEvents Message)
    (fits : ∀ request, event = .webhook request → request.stores ≠ none →
      whole.group.entries.length + 1 ≤ whole.oldestUnacknowledged + maxLength) (trim : Nat) :
    TrimmedFrom (stream.step event trim) (whole.step event 0) ∧
      (stream.step event trim).trimmed ≤ whole.oldestUnacknowledged := by
  have grows : whole.oldestUnacknowledged ≤ (whole.step event 0).oldestUnacknowledged :=
    oldest_mono (step_grows event 0).1 (step_grows event 0).2
  by_cases request : ∃ request, event = .webhook request
  · obtain ⟨request, rfl⟩ := request
    obtain ⟨same, trimmed⟩ := trimmedFrom_request cut (fits request rfl) trim
    exact ⟨⟨same, trimmed.trans grows⟩, trimmed⟩
  · push Not at request
    have same := trimmedFrom_other cut sound start request trim
    have trimmed : (stream.step event trim).trimmed = stream.trimmed := by rw [same]
    rw [trimmed]
    exact ⟨⟨by rw [trimmed]; exact same, by rw [trimmed]; exact cut.acknowledged.trans grows⟩,
      cut.acknowledged⟩

theorem keepsEvents_of_trimmedFrom {next nextWhole : EventStream Message}
    (cut : TrimmedFrom stream whole) (later : TrimmedFrom next nextWhole) (sound : nextWhole.Sound)
    (trimmed : next.trimmed ≤ whole.oldestUnacknowledged) : KeepsEvents stream next where
  kept := by
    intro id _
    by_cases early : id < next.trimmed
    · have acked := ((le_oldestUnacknowledged_iff _).mp later.acknowledged).2 id early
      have processed := (sound.acknowledged id acked).2
      rw [later.same]
      exact Or.inr processed
    · exact Or.inl (not_lt.mp early)
  trimmed := by
    intro id _ early
    have acked := ((le_oldestUnacknowledged_iff _).mp trimmed).2 id early
    rw [cut.same]
    exact acked

end Steps

section Schedules

theorem after_concat (steps : List (StreamEvents Message × Nat))
    (taken : StreamEvents Message × Nat) :
    after (steps ++ [taken]) = (after steps).step taken.1 taken.2 := by
  simp [EventStream.after, runFrom]

theorem trimmedFrom_after {events : List (StreamEvents Message)} (fits : BacklogFits events)
    (steps : List (StreamEvents Message × Nat)) (scheduled : steps.map Prod.fst <+: events) :
    TrimmedFrom (after steps) (untrimmed (steps.map Prod.fst)) := by
  induction steps using List.reverseRecOn with
  | nil => exact ⟨rfl, Nat.zero_le _⟩
  | append_singleton steps taken ih =>
      rw [List.map_append, List.map_singleton] at scheduled ⊢
      have earlier := (List.prefix_append _ _).trans scheduled
      obtain ⟨sound, start⟩ := sound_untrimmed (steps.map Prod.fst)
      rw [after_concat, untrimmed_concat]
      refine (trimmedFrom_step (ih earlier) sound start taken.1 ?_ taken.2).1
      intro request here stores
      rw [here] at scheduled
      exact fits _ request scheduled stores

/-- Whatever the server trims, no step of a schedule loses an accepted event or trims an entry that
is not acknowledged, exactly when no request comes while the entries from the oldest unacknowledged
one on fill the stream. -/
theorem nothing_lost_iff (events : List (StreamEvents Message)) :
    NothingLost events ↔ BacklogFits events := by
  constructor
  · intro kept earlier request scheduled stores
    by_contra full
    obtain ⟨rest, whole⟩ := scheduled
    let room := (untrimmed earlier).group.entries.length + 1
    let steps := earlier.map (fun event => (event, 0)) ++ [(StreamEvents.webhook request, room)] ++
      rest.map (fun event => (event, 0))
    have following : steps.map Prod.fst = events := by
      simp [steps, ← whole, Function.comp_def]
    have kept := (kept steps following (earlier.map fun event => (event, 0))
      (StreamEvents.webhook request, room) (List.prefix_append _ _)).trimmed
    obtain ⟨-, start⟩ := sound_untrimmed earlier
    have before : after (earlier.map fun event => (event, 0)) = untrimmed earlier := rfl
    obtain ⟨message, stored⟩ := Option.ne_none_iff_exists'.mp stores
    have trimmed : (after (earlier.map (fun event => (event, 0)) ++
        [(StreamEvents.webhook request, room)])).trimmed = room - maxLength := by
      rw [after_concat, before]
      simp only [EventStream.step, stored, produce, excess, start]
      omega
    rw [trimmed, before, start] at kept
    -- all entries up to the oldest unacknowledged one would have to be acknowledged
    have more : room - maxLength ≤ (untrimmed earlier).oldestUnacknowledged := by
      refine (le_oldestUnacknowledged_iff _).mpr ⟨?_, fun id early => kept id (Nat.zero_le _) early⟩
      have positive : 0 < maxLength := by decide
      omega
    omega
  · intro fits steps scheduled earlier taken within
    have reached : (earlier ++ [taken]).map Prod.fst <+: events := by
      rw [← scheduled]
      exact within.map _
    have before : earlier.map Prod.fst <+: events :=
      ((List.prefix_append earlier [taken]).map Prod.fst).trans reached
    have cut := trimmedFrom_after fits earlier before
    have later := trimmedFrom_after fits (earlier ++ [taken]) reached
    obtain ⟨sound, start⟩ := sound_untrimmed (earlier.map Prod.fst)
    have soundLater := (sound_untrimmed ((earlier ++ [taken]).map Prod.fst)).1
    rw [List.map_append, List.map_singleton] at reached
    have trimmed := (trimmedFrom_step cut sound start taken.1
      (fun request here stores => fits _ request (here ▸ reached) stores) taken.2).2
    rw [← after_concat] at trimmed
    exact keepsEvents_of_trimmedFrom cut later soundLater trimmed

def pushRequest : WebhookRequest String := { body := .event "push" }

theorem push_step (stream : EventStream String) (trim : Nat) :
    stream.step (.webhook pushRequest) trim = stream.produce "push" true trim := rfl

theorem after_requests (count : Nat) :
    let stream := after (List.replicate count (StreamEvents.webhook pushRequest, 0))
    stream.group.entries.length = count ∧ stream.trimmed = 0 ∧ stream.group.processed = [] ∧
      ∀ id < count, id ∈ stream.answered := by
  induction count with
  | zero => exact ⟨rfl, rfl, rfl, fun id before => absurd before (Nat.not_lt_zero id)⟩
  | succ count ih =>
      obtain ⟨length, trimmed, processed, answered⟩ := ih
      rw [List.replicate_succ', after_concat, push_step]
      refine ⟨by simp [produce, length], by simp [produce, trimmed], processed, ?_⟩
      intro id before
      simp only [produce, if_true, length, List.mem_cons]
      rcases Nat.lt_succ_iff_lt_or_eq.mp before with early | rfl
      · exact Or.inr (answered id early)
      · exact Or.inl rfl

theorem full_loses_oldest {stream : EventStream Message} (message : Message)
    (full : stream.group.entries.length = maxLength) (whole : stream.trimmed = 0)
    (unread : stream.group.processed = []) (answered : 0 ∈ stream.answered) :
    ¬ KeepsEvents stream (stream.produce message true 1) := by
  intro keeps
  have overflow : stream.excess = 1 := by
    rw [excess, full, whole, Nat.sub_zero, Nat.add_sub_cancel_left]
  have cut : (stream.produce message true 1).trimmed = 1 := by
    simp [produce, whole, overflow]
  rcases keeps.kept 0 (List.mem_cons_of_mem _ answered) with stored | accepted
  · rw [cut] at stored
    exact absurd stored (by decide)
  · simp [produce, unread] at accepted

/-- With a backlog of 10000 events the next request trims the oldest, which nobody has read. -/
theorem backlog_loses_event :
    ¬ NothingLost (List.replicate (maxLength + 1) (StreamEvents.webhook pushRequest)) := by
  intro kept
  have following : (List.replicate maxLength (StreamEvents.webhook pushRequest, 0) ++
      [(StreamEvents.webhook pushRequest, 1)]).map Prod.fst =
        List.replicate (maxLength + 1) (StreamEvents.webhook pushRequest) := by
    rw [List.map_append, List.map_replicate, List.replicate_succ']
    rfl
  obtain ⟨length, trimmed, processed, answered⟩ := after_requests maxLength
  have step := kept _ following _ _ List.prefix_rfl
  rw [after_concat, push_step] at step
  exact full_loses_oldest "push" length trimmed processed (answered 0 (by decide)) step

end Schedules

end RagSystem.Etl
