import Mathlib.Tactic.Linarith
import RagSystem.Shared.DeadLetterQueue
import RagSystem.Transition.Run

/-! What became of every message of the dead letter queues, and what the table has of it. -/

namespace RagSystem.Dlq

open Transition

inductive Fate
  | handled
  | acked
  | cleared
  deriving DecidableEq, Repr

/-- The account of a message: its limit, how often it has been nacked since it was added or last
requeued, and the deadlines of the retries that this allowed. -/
structure Entry (π : Type) where
  id : Nat
  queue : String
  payload : π
  limit : Int
  nacks : Nat := 0
  deadlines : List ℚ := []
  fate : Option Fate := none
  deriving DecidableEq, Repr

abbrev Ledger (π : Type) := List (Entry π)

variable {π : Type}

namespace Entry

def isAt (queue : Queue) (id : Nat) (entry : Entry π) : Bool :=
  entry.id = id ∧ entry.queue = queue.queueName ∧ entry.fate = none

def isDead (entry : Entry π) : Bool := max 1 entry.limit ≤ entry.nacks

def status (entry : Entry π) : Status := if entry.isDead then .dead else .pending

/-- The nack of the message at `now` is its `nacks + 1`-th retry. -/
def nacked (queue : Queue) (now : ℚ) (entry : Entry π) : Entry π :=
  { entry with
    nacks := entry.nacks + 1
    deadlines := if entry.nacks + 1 < entry.limit then
        entry.deadlines ++ [now + queue.backoffBase ^ (entry.nacks + 1)]
      else entry.deadlines }

end Entry

def Act.onEntry (act : Act π) (entry : Entry π) : Entry π :=
  match act with
  | .call (.add ..) => entry
  | .call (.ack queue id) => if entry.isAt queue id then { entry with fate := some .acked } else entry
  | .handled queue id => if entry.isAt queue id then { entry with fate := some .handled } else entry
  | .call (.nack queue id _ now) => if entry.isAt queue id then entry.nacked queue now else entry
  | .failed queue id _ now => if entry.isAt queue id then entry.nacked queue now else entry
  | .call (.clear queue status) =>
      if selects queue status entry.queue entry.status ∧ entry.fate = none then
        { entry with fate := some .cleared }
      else entry
  | .call (.requeue queue id _) =>
      if entry.isAt queue id ∧ entry.isDead then { entry with nacks := 0, deadlines := [] }
      else entry

def Act.opened (id : Nat) : Act π → List (Entry π)
  | .call (.add queue payload _ _ maxRetries _) =>
      [{ id, queue := queue.queueName, payload, limit := maxRetries.getD queue.maxRetries }]
  | _ => []

def Ledger.apply (ledger : Ledger π) (act : Act π) : Ledger π :=
  ledger.map act.onEntry ++ act.opened (ledger.length + 1)

/-- What the table and the ledger both say of a stored message. -/
structure View (π : Type) where
  id : Nat
  queue : String
  payload : π
  limit : Int
  nacks : Nat
  status : Status

def Row.view (row : Row π) : View π :=
  ⟨row.id, row.queue, row.payload, row.maxRetries, row.retryCount, row.status⟩

def Entry.view (entry : Entry π) : View π :=
  ⟨entry.id, entry.queue, entry.payload, entry.limit, entry.nacks, entry.status⟩

def Ledger.stored (ledger : Ledger π) : List (Entry π) := ledger.filter (·.fate = none)

/-- What an act makes of a stored message; `none` where it removes it. -/
def Act.change (act : Act π) (view : View π) : Option (View π) :=
  let removed (queue : Queue) (id : Nat) :=
    if view.id = id ∧ view.queue = queue.queueName then none else some view
  let nacked (queue : Queue) (id : Nat) :=
    if view.id = id ∧ view.queue = queue.queueName then
      some { view with
        nacks := view.nacks + 1
        status := if view.limit ≤ view.nacks + 1 then .dead else .pending }
    else some view
  match act with
  | .call (.add ..) => some view
  | .call (.ack queue id) => removed queue id
  | .handled queue id => removed queue id
  | .call (.nack queue id _ _) => nacked queue id
  | .failed queue id _ _ => nacked queue id
  | .call (.clear queue status) =>
      if selects queue status view.queue view.status then none else some view
  | .call (.requeue queue id _) =>
      if view.id = id ∧ view.queue = queue.queueName ∧ view.status = .dead then
        some { view with nacks := 0, status := .pending }
      else some view

def Act.added (id : Nat) : Act π → List (View π)
  | .call (.add queue payload _ _ maxRetries _) =>
      [⟨id, queue.queueName, payload, maxRetries.getD queue.maxRetries, 0, .pending⟩]
  | _ => []

section Views

theorem map_view_filterMap {α : Type} {view : α → View π} {step : α → Option α}
    {change : View π → Option (View π)} {items : List α}
    (shown : ∀ item ∈ items, change (view item) = (step item).map view) :
    (items.filterMap step).map view = (items.map view).filterMap change := by
  rw [List.map_filterMap, List.filterMap_map]
  apply List.filterMap_congr
  intro item member
  simp [shown item member]

theorem map_view_map {α : Type} (view : α → View π) (step : α → α)
    {change : View π → Option (View π)} {items : List α}
    (shown : ∀ item ∈ items, change (view item) = some (view (step item))) :
    (items.map step).map view = (items.map view).filterMap change := by
  rw [List.map_map, List.filterMap_map, ← List.filterMap_eq_map]
  apply List.filterMap_congr
  intro item member
  simp [shown item member]

theorem map_view_filter {α : Type} {view : α → View π} {keep : α → Bool}
    {change : View π → Option (View π)} {items : List α}
    (shown : ∀ item ∈ items, change (view item) = if keep item then some (view item) else none) :
    (items.filter keep).map view = (items.map view).filterMap change := by
  rw [← List.filterMap_eq_filter]
  apply map_view_filterMap
  intro item member
  rw [shown item member]
  cases kept : keep item <;> simp [Option.guard, kept]

theorem map_view_stored {ledger : Ledger π} {step : Entry π → Entry π}
    {change : View π → Option (View π)} (gone : ∀ entry, entry.fate ≠ none → (step entry).fate ≠ none)
    (shown : ∀ entry : Entry π, entry.fate = none →
      change entry.view = if (step entry).fate = none then some (step entry).view else none) :
    (Ledger.stored (ledger.map step)).map Entry.view =
      (ledger.stored.map Entry.view).filterMap change := by
  induction ledger with
  | nil => rfl
  | cons entry rest ih =>
      unfold Ledger.stored at ih ⊢
      by_cases here : entry.fate = none
      · have effect := shown entry here
        by_cases kept : (step entry).fate = none
        · simpa [here, kept, effect] using ih
        · simpa [here, kept, effect] using ih
      · have left := gone entry here
        simpa [here, left] using ih

end Views

/-- The table stores the messages of the ledger that have not left their queue, with the status
that the ledger gives them. -/
structure Accounts (table : Table π) (ledger : Ledger π) : Prop where
  seq : table.seq = ledger.length
  ids : ledger.map Entry.id = List.range' 1 ledger.length
  rows : table.rows.map Row.view = ledger.stored.map Entry.view

theorem rows_view_nack {table : Table π} {queue : Queue} {id : Nat} (error : String) (now : ℚ)
    {change : View π → Option (View π)} (unique : (table.rows.map Row.id).Nodup)
    (shown : ∀ view, change view = if view.id = id ∧ view.queue = queue.queueName then
      some { view with
        nacks := view.nacks + 1
        status := if view.limit ≤ view.nacks + 1 then .dead else .pending } else some view) :
    (nack queue id error now table).2.rows.map Row.view =
      (table.rows.map Row.view).filterMap change := by
  unfold nack
  cases found : table.rows.find? (Row.isAt queue id) with
  | none =>
      have missed : ∀ row ∈ table.rows, ¬ (row.id = id ∧ row.queue = queue.queueName) := by
        intro row member
        simpa [Row.isAt] using List.find?_eq_none.mp found row member
      have kept : (table.rows.map (fun row => row)).map Row.view =
          (table.rows.map Row.view).filterMap change := by
        apply map_view_map
        intro row member
        rw [shown]
        exact if_neg (missed row member)
      simpa using kept
  | some row =>
      have known := List.mem_of_find?_eq_some found
      obtain ⟨rfl, queued⟩ : row.id = id ∧ row.queue = queue.queueName := by
        simpa [Row.isAt] using List.find?_some found
      apply map_view_map
      intro other member
      rw [shown]
      by_cases same : other.id = row.id
      · obtain rfl := List.inj_on_of_nodup_map unique member known same
        have dies : ((other.retryCount + 1 : Nat) : Int) = other.retryCount + 1 := by simp
        simp [Row.view, queued, dies]
      · simp [Row.view, same]

theorem rows_view_perform {table : Table π} (unique : (table.rows.map Row.id).Nodup)
    (act : Act π) :
    (act.perform table).rows.map Row.view =
      (table.rows.map Row.view).filterMap act.change ++ act.added (table.seq + 1) := by
  have acked : ∀ (queue : Queue) (id : Nat) (change : View π → Option (View π)),
      (∀ view, change view =
        if view.id = id ∧ view.queue = queue.queueName then none else some view) →
      (ack queue id table).2.rows.map Row.view =
        (table.rows.map Row.view).filterMap change := by
    intro queue id change shown
    apply map_view_filter
    intro row _
    rw [shown]
    by_cases here : row.id = id ∧ row.queue = queue.queueName
    · simp [Row.view, Row.isAt, here]
    · simp [Row.view, Row.isAt, here]
  cases act with
  | handled queue id =>
      simp only [Act.added, List.append_nil]
      exact acked queue id _ (fun _ => rfl)
  | failed queue id error now =>
      simp only [Act.added, List.append_nil]
      exact rows_view_nack error now unique (fun _ => rfl)
  | call made =>
      cases made with
      | add queue payload error metadata maxRetries now =>
          have same : (table.rows.map Row.view).filterMap
              (Act.call (.add queue payload error metadata maxRetries now)).change =
              table.rows.map Row.view := List.filterMap_some
          rw [same]
          simp [Act.perform, Call.perform, add, Act.added, Row.view]
      | ack queue id =>
          simp only [Act.added, List.append_nil]
          exact acked queue id _ (fun _ => rfl)
      | nack queue id error now =>
          simp only [Act.added, List.append_nil]
          exact rows_view_nack error now unique (fun _ => rfl)
      | clear queue status =>
          simp only [Act.added, List.append_nil]
          apply map_view_filter
          intro row _
          cases here : selects queue status row.queue row.status <;>
            simp [Act.change, Row.view, here]
      | requeue queue id now =>
          simp only [Act.added, List.append_nil]
          apply map_view_map
          intro row _
          by_cases here : row.id = id ∧ row.queue = queue.queueName ∧ row.status = .dead
          · simp [Act.change, Row.view, Row.isAt, here]
          · have apart : ¬ ((row.id = id ∧ row.queue = queue.queueName) ∧ row.status = .dead) :=
              fun both => here ⟨both.1.1, both.1.2, both.2⟩
            simp [Act.change, Row.view, Row.isAt, here, apart]

namespace Act

theorem onEntry_id (act : Act π) (entry : Entry π) : (act.onEntry entry).id = entry.id := by
  unfold onEntry
  split <;> (try split) <;> rfl

theorem onEntry_fate (act : Act π) {entry : Entry π} (left : entry.fate ≠ none) :
    (act.onEntry entry).fate ≠ none := by
  unfold onEntry
  split <;> simp [Entry.isAt, left]

theorem change_view (act : Act π) {entry : Entry π} (stored : entry.fate = none) :
    act.change entry.view =
      if (act.onEntry entry).fate = none then some (act.onEntry entry).view else none := by
  have acked : ∀ (queue : Queue) (id : Nat) (fate : Fate),
      (if entry.view.id = id ∧ entry.view.queue = queue.queueName then none
        else some entry.view) =
      if (if entry.isAt queue id then { entry with fate := some fate } else entry).fate = none then
        some (if entry.isAt queue id then { entry with fate := some fate } else entry).view
      else none := by
    intro queue id fate
    by_cases here : entry.id = id ∧ entry.queue = queue.queueName
    · simp [Entry.view, Entry.isAt, here, stored]
    · simp [Entry.view, Entry.isAt, here, stored]
  have nacked : ∀ (queue : Queue) (id : Nat) (now : ℚ),
      (if entry.view.id = id ∧ entry.view.queue = queue.queueName then
        some { entry.view with
          nacks := entry.view.nacks + 1
          status := if entry.view.limit ≤ entry.view.nacks + 1 then .dead else .pending }
      else some entry.view) =
      if (if entry.isAt queue id then entry.nacked queue now else entry).fate = none then
        some (if entry.isAt queue id then entry.nacked queue now else entry).view
      else none := by
    intro queue id now
    by_cases here : entry.id = id ∧ entry.queue = queue.queueName
    · simp [Entry.view, Entry.isAt, Entry.nacked, Entry.status, Entry.isDead, here, stored]
    · simp [Entry.view, Entry.isAt, here, stored]
  cases act with
  | handled queue id => exact acked queue id _
  | failed queue id error now => exact nacked queue id now
  | call made =>
      cases made with
      | add queue payload error metadata maxRetries now => simp [change, onEntry, stored]
      | ack queue id => exact acked queue id _
      | nack queue id error now => exact nacked queue id now
      | clear queue status =>
          cases here : selects queue status entry.queue entry.status <;>
            simp [change, onEntry, Entry.view, here, stored]
      | requeue queue id now =>
          by_cases here : entry.id = id ∧ entry.queue = queue.queueName
          · cases dead : entry.isDead with
            | false => simp [change, onEntry, Entry.view, Entry.isAt, Entry.status, here, stored, dead]
            | true =>
                have fresh : ¬ max 1 entry.limit ≤ 0 := by omega
                simp [change, onEntry, Entry.view, Entry.isAt, Entry.status, here, stored, dead]
                simp [Entry.isDead, fresh]
          · have other : ¬ (entry.id = id ∧ entry.queue = queue.queueName ∧
                entry.status = .dead) := fun both => here ⟨both.1, both.2.1⟩
            simp [change, onEntry, Entry.view, Entry.isAt, here, other, stored]

theorem view_opened (act : Act π) (id : Nat) :
    (Ledger.stored (act.opened id)).map Entry.view = act.added id := by
  unfold opened added
  split
  · have fresh : ∀ limit : Int, ¬ max 1 limit ≤ 0 := by
      intro limit
      omega
    simp [Ledger.stored, Entry.view, Entry.status, Entry.isDead, fresh]
  · rfl

end Act

namespace Ledger

theorem view_stored_apply (ledger : Ledger π) (act : Act π) :
    (ledger.apply act).stored.map Entry.view =
      (ledger.stored.map Entry.view).filterMap act.change ++ act.added (ledger.length + 1) := by
  have parts : (ledger.apply act).stored =
      Ledger.stored (ledger.map act.onEntry) ++ Ledger.stored (act.opened (ledger.length + 1)) := by
    simp [stored, apply]
  rw [parts, List.map_append, act.view_opened,
    map_view_stored (fun _ left => act.onEntry_fate left) (fun _ stored => act.change_view stored)]

theorem length_apply (ledger : Ledger π) (act : Act π) :
    (ledger.apply act).length = ledger.length + (act.added 0).length := by
  have one : (act.opened (ledger.length + 1)).length = (act.added 0).length := by
    unfold Act.opened Act.added
    split <;> rfl
  simp [apply, one]

theorem ids_apply {ledger : Ledger π} (numbered : ledger.map Entry.id = List.range' 1 ledger.length)
    (act : Act π) :
    (ledger.apply act).map Entry.id = List.range' 1 (ledger.apply act).length := by
  have kept : (ledger.map act.onEntry).map Entry.id = ledger.map Entry.id := by
    rw [List.map_map]
    apply List.map_congr_left
    intro entry _
    exact act.onEntry_id entry
  unfold apply
  rw [List.map_append, kept, numbered, List.length_append, List.length_map]
  unfold Act.opened
  split
  · simp [List.range'_1_concat, Nat.add_comm 1]
  · simp

end Ledger

theorem seq_perform (table : Table π) (act : Act π) :
    (act.perform table).seq = table.seq + (act.added 0).length := by
  have nacked : ∀ queue id error now, (nack queue id error now table).2.seq = table.seq := by
    intro queue id error now
    unfold nack
    split <;> rfl
  cases act with
  | handled queue id => rfl
  | failed queue id error now => exact nacked queue id error now
  | call made =>
      cases made with
      | nack queue id error now => exact nacked queue id error now
      | _ => rfl

namespace Accounts

variable {table : Table π} {ledger : Ledger π}

theorem unique (accounts : Accounts table ledger) : (table.rows.map Row.id).Nodup := by
  have ids : table.rows.map Row.id = (table.rows.map Row.view).map View.id := by
    simp [Row.view, Function.comp_def]
  have numbers : (ledger.map Entry.id).Nodup := by
    rw [accounts.ids]
    exact List.nodup_range'
  rw [ids, accounts.rows, List.map_map]
  exact numbers.sublist (List.filter_sublist.map _)

theorem perform (accounts : Accounts table ledger) (act : Act π) :
    Accounts (act.perform table) (ledger.apply act) where
  seq := by rw [seq_perform, Ledger.length_apply, accounts.seq]
  ids := Ledger.ids_apply accounts.ids act
  rows := by
    rw [rows_view_perform accounts.unique, Ledger.view_stored_apply, accounts.rows, accounts.seq]

theorem performAll (accounts : Accounts table ledger) (acts : List (Act π)) :
    Accounts (acts.foldl Act.perform table) (acts.foldl Ledger.apply ledger) := by
  induction acts generalizing table ledger with
  | nil => exact accounts
  | cons act rest ih => exact ih (accounts.perform act)

end Accounts

theorem accounts_empty : Accounts ({} : Table π) [] := ⟨rfl, rfl, rfl⟩

end RagSystem.Dlq
