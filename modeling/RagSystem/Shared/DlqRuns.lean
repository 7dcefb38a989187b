import RagSystem.Shared.DlqLedger

/-! Runs of the dead letter queues: what is conserved, which messages are handed out, and when. -/

namespace RagSystem.Dlq

open Transition

inductive Op (π : Type)
  | call (made : Call π)
  | retry (queue : Queue) (handler : Nat → Behaviour π)
  | process (queue : Queue) (now : ℚ)

/-- The table and the account of every message that was ever added. -/
structure State (π : Type) where
  table : Table π := {}
  ledger : Ledger π := []

variable {π : Type}

def Op.acts (table : Table π) : Op π → List (Act π)
  | .call made => [.call made]
  | .retry queue handler => retryActs queue handler (pendingRows queue table)
  | .process .. => []

def Op.perform (table : Table π) : Op π → Table π
  | .call made => made.perform table
  | .retry queue handler => (Dlq.retry queue handler table).2
  | .process .. => table

def step (state : State π) (op : Op π) : Option (State π) :=
  some ⟨op.perform state.table, (op.acts state.table).foldl Ledger.apply state.ledger⟩

theorem perform_eq_acts (table : Table π) (op : Op π) :
    op.perform table = (op.acts table).foldl Act.perform table := by
  cases op <;> rfl

def Sound (state : State π) : Prop := Accounts state.table state.ledger

theorem sound_step {state next : State π} {op : Op π} (sound : Sound state)
    (stepped : step state op = some next) : Sound next := by
  obtain rfl := Option.some.inj stepped
  unfold Sound
  rw [perform_eq_acts]
  exact Accounts.performAll sound _

theorem sound_of_run {events : List (Event (State π) (Op π))} {last : State π}
    (run : Run step {} events last) : Sound last := by
  have initial : Sound ({} : State π) := accounts_empty
  exact run.invariant_always Sound initial (fun _ _ _ sound stepped => sound_step sound stepped)

/-- Every message that was added has left its queue, or is stored there with its payload, and dead
exactly if it was nacked as often as its limit allows since it was added or last requeued. -/
def Conserved (state : State π) : Prop :=
  ∀ entry ∈ state.ledger,
    (entry.fate ≠ none ∧ ∀ row ∈ state.table.rows, row.id ≠ entry.id) ∨
    (entry.fate = none ∧ ∃ row ∈ state.table.rows, row.id = entry.id ∧ row.queue = entry.queue ∧
      row.payload = entry.payload ∧ (row.status = .dead ↔ max 1 entry.limit ≤ entry.nacks))

section Rows

variable {table : Table π} {ledger : Ledger π}

theorem entry_ext (accounts : Accounts table ledger) {first second : Entry π}
    (known : first ∈ ledger) (other : second ∈ ledger) (same : first.id = second.id) :
    first = second := by
  have numbers : (ledger.map Entry.id).Nodup := by
    rw [accounts.ids]
    exact List.nodup_range'
  exact List.inj_on_of_nodup_map numbers known other same

theorem row_of_entry (accounts : Accounts table ledger) {entry : Entry π} (known : entry ∈ ledger)
    (stored : entry.fate = none) : ∃ row ∈ table.rows, row.view = entry.view := by
  have listed : entry.view ∈ table.rows.map Row.view := by
    rw [accounts.rows]
    exact List.mem_map_of_mem (List.mem_filter.mpr ⟨known, by simpa using stored⟩)
  exact List.mem_map.mp listed

theorem entry_of_row (accounts : Accounts table ledger) {row : Row π} (member : row ∈ table.rows) :
    ∃ entry ∈ ledger, entry.fate = none ∧ entry.view = row.view := by
  have listed : row.view ∈ ledger.stored.map Entry.view := by
    rw [← accounts.rows]
    exact List.mem_map_of_mem member
  obtain ⟨entry, inside, same⟩ := List.mem_map.mp listed
  obtain ⟨known, stored⟩ := List.mem_filter.mp inside
  exact ⟨entry, known, by simpa using stored, same⟩

end Rows

theorem Entry.status_eq_dead (entry : Entry π) : entry.status = .dead ↔ entry.isDead = true := by
  unfold Entry.status
  cases entry.isDead <;> simp

theorem conserved_of_sound {state : State π} (sound : Sound state) : Conserved state := by
  intro entry known
  by_cases stored : entry.fate = none
  · right
    obtain ⟨row, member, same⟩ := row_of_entry sound known stored
    simp only [Row.view, Entry.view, View.mk.injEq] at same
    refine ⟨stored, row, member, same.1, same.2.1, same.2.2.1, ?_⟩
    rw [same.2.2.2.2.2, Entry.status_eq_dead, Entry.isDead]
    simp
  · left
    refine ⟨stored, ?_⟩
    intro row member same
    obtain ⟨other, present, kept, equal⟩ := entry_of_row sound member
    simp only [Row.view, Entry.view, View.mk.injEq] at equal
    have one := entry_ext sound present known (equal.1.trans same)
    exact stored (one ▸ kept)

def newlyDead (before after : Ledger π) : Nat :=
  (before.zip after).countP (fun pair => !pair.1.isDead && pair.2.isDead)

def deaths : Ledger π → List (Act π) → Nat
  | _, [] => 0
  | ledger, act :: rest => newlyDead ledger (ledger.apply act) + deaths (ledger.apply act) rest

/-- No message is dead when `retry` hands it to the handler. -/
def HandsLive (event : Event (State π) (Op π)) : Prop :=
  ∀ queue handler, event.action = .retry queue handler → ∀ first (row : Row π) rest,
    pendingRows queue event.before.table = first ++ row :: rest →
    ∀ entry ∈ (retryActs queue handler first).foldl Ledger.apply event.before.ledger,
      entry.id = row.id → entry.fate = none → entry.isDead = false

/-- The dead count that `retry` returns is the number of messages that became dead in the call. -/
def CountsDead (event : Event (State π) (Op π)) : Prop :=
  ∀ queue handler, event.action = .retry queue handler →
    (retry queue handler event.before.table).1.dead =
      deaths event.before.ledger (retryActs queue handler (pendingRows queue event.before.table))

def Act.nacks (act : Act π) (row : Row π) : Bool :=
  match act with
  | .call (.nack queue id _ _) => row.isAt queue id
  | .failed queue id _ _ => row.isAt queue id
  | _ => false

/-- In the course of a `retry`, no pending message is nacked that has no retry left. -/
def Spared (event : Event (State π) (Op π)) : Prop :=
  ∀ queue handler, event.action = .retry queue handler →
    ∀ (first : List (Act π)) (act : Act π) (rest : List (Act π)),
    retryActs queue handler (pendingRows queue event.before.table) = first ++ act :: rest →
    ∀ row ∈ (first.foldl Act.perform event.before.table).rows,
      act.nacks row = true → row.status = .pending → (row.retryCount : Int) + 1 < row.maxRetries

theorem zip_map_append (ledger : Ledger π) (change : Entry π → Entry π) (added : Ledger π) :
    ledger.zip (ledger.map change ++ added) = ledger.map (fun entry => (entry, change entry)) := by
  induction ledger with
  | nil => simp
  | cons entry rest ih => simpa using ih

theorem newlyDead_apply_eq_zero {ledger : Ledger π} {act : Act π} :
    newlyDead ledger (ledger.apply act) = 0 ↔
      ∀ entry ∈ ledger, entry.isDead = false → (act.onEntry entry).isDead = false := by
  unfold newlyDead Ledger.apply
  rw [zip_map_append, List.countP_eq_zero]
  simp only [List.forall_mem_map]
  apply forall₂_congr
  intro entry _
  cases entry.isDead <;> simp

theorem onEntry_isDead (act : Act π) {entry : Entry π} {row : Row π} (same : row.view = entry.view)
    (stored : entry.fate = none) (alive : entry.isDead = false) :
    (act.onEntry entry).isDead = false ↔
      (act.nacks row = true → (row.retryCount : Int) + 1 < row.maxRetries) := by
  simp only [Row.view, Entry.view, View.mk.injEq] at same
  obtain ⟨ids, queues, -, limits, counts, -⟩ := same
  have nacked : ∀ (queue : Queue) (id : Nat) (now : ℚ),
      (if entry.isAt queue id then entry.nacked queue now else entry).isDead = false ↔
        (row.isAt queue id = true → (row.retryCount : Int) + 1 < row.maxRetries) := by
    intro queue id now
    by_cases here : entry.id = id ∧ entry.queue = queue.queueName
    · have dies : (entry.nacked queue now).isDead = false ↔ entry.nacks + 1 < entry.limit := by
        simp [Entry.isDead, Entry.nacked]
      simp [Entry.isAt, Row.isAt, here, stored, dies, ids, queues, limits, counts]
    · simp [Entry.isAt, Row.isAt, here, stored, ids, queues, alive]
  cases act with
  | handled queue id =>
      have kept : (Act.onEntry (.handled queue id) entry).isDead = entry.isDead := by
        simp only [Act.onEntry]
        split <;> rfl
      simp [kept, alive, Act.nacks]
  | failed queue id error now => exact nacked queue id now
  | call made =>
      cases made with
      | nack queue id error now => exact nacked queue id now
      | add queue payload error metadata maxRetries now => simp [Act.onEntry, alive, Act.nacks]
      | ack queue id =>
          have kept : (Act.onEntry (.call (.ack queue id)) entry).isDead = entry.isDead := by
            simp only [Act.onEntry]
            split <;> rfl
          simp [kept, alive, Act.nacks]
      | clear queue status =>
          have kept : (Act.onEntry (.call (.clear queue status)) entry).isDead = entry.isDead := by
            simp only [Act.onEntry]
            split <;> rfl
          simp [kept, alive, Act.nacks]
      | requeue queue id now => simp [Act.onEntry, alive, Act.nacks]

theorem onEntry_of_gone (act : Act π) {entry : Entry π} (gone : entry.fate ≠ none) :
    act.onEntry entry = entry := by
  unfold Act.onEntry
  split <;> simp [Entry.isAt, gone]

section Deaths

variable {table : Table π} {ledger : Ledger π}

theorem newlyDead_eq_zero_iff (accounts : Accounts table ledger) (act : Act π) :
    newlyDead ledger (ledger.apply act) = 0 ↔ ∀ row ∈ table.rows, act.nacks row = true →
      row.status = .pending → (row.retryCount : Int) + 1 < row.maxRetries := by
  rw [newlyDead_apply_eq_zero]
  constructor
  · intro alive row member nacked pending
    obtain ⟨entry, known, stored, same⟩ := entry_of_row accounts member
    have status : entry.status = row.status := congrArg View.status same
    have living : entry.isDead = false := by
      by_contra dead
      have died := entry.status_eq_dead.mpr (by simpa using dead)
      rw [status, pending] at died
      cases died
    exact (onEntry_isDead act same.symm stored living).mp (alive entry known living) nacked
  · intro spared entry known living
    by_cases stored : entry.fate = none
    · obtain ⟨row, member, same⟩ := row_of_entry accounts known stored
      have pending : row.status = .pending := by
        have status : row.status = entry.status := congrArg View.status same
        rw [status, Entry.status, living]
        rfl
      exact (onEntry_isDead act same stored living).mpr
        (fun nacked => spared row member nacked pending)
    · rw [onEntry_of_gone act stored]
      exact living

theorem forall_split_cons {α : Type} {holds : List α → α → Prop} {head : α} {tail : List α} :
    (∀ first item rest, head :: tail = first ++ item :: rest → holds first item) ↔
      holds [] head ∧
        ∀ first item rest, tail = first ++ item :: rest → holds (head :: first) item := by
  constructor
  · intro all
    refine ⟨all [] head tail rfl, ?_⟩
    intro first item rest given
    rcases given with rfl
    exact all (head :: first) item rest rfl
  · intro given first item rest shape
    rcases given with ⟨here, later⟩
    cases first with
    | nil =>
        obtain ⟨rfl, -⟩ := List.cons.inj shape
        exact here
    | cons other first =>
        obtain ⟨rfl, equal⟩ := List.cons.inj shape
        exact later first item rest equal

theorem deaths_eq_zero_iff (accounts : Accounts table ledger) (acts : List (Act π)) :
    deaths ledger acts = 0 ↔
      ∀ (first : List (Act π)) (act : Act π) (rest : List (Act π)), acts = first ++ act :: rest →
      ∀ row ∈ (first.foldl Act.perform table).rows, act.nacks row = true →
        row.status = .pending → (row.retryCount : Int) + 1 < row.maxRetries := by
  induction acts generalizing table ledger with
  | nil => simp [deaths]
  | cons act rest ih =>
      rw [forall_split_cons, deaths, Nat.add_eq_zero_iff, newlyDead_eq_zero_iff accounts,
        ih (accounts.perform act)]
      rfl

theorem deaths_append (ledger : Ledger π) (first second : List (Act π)) :
    deaths ledger (first ++ second) =
      deaths ledger first + deaths (first.foldl Ledger.apply ledger) second := by
  induction first generalizing ledger with
  | nil => simp [deaths]
  | cons act rest ih => simp [deaths, ih, Nat.add_assoc]

theorem opened_alive (act : Act π) {id : Nat} {entry : Entry π} (fresh : entry ∈ act.opened id) :
    entry.isDead = false := by
  unfold Act.opened at fresh
  split at fresh
  · obtain rfl := List.mem_singleton.mp fresh
    simp [Entry.isDead]
  · cases fresh

theorem alive_foldl {id : Nat} {acts : List (Act π)} (none : deaths ledger acts = 0)
    (alive : ∀ entry ∈ ledger, entry.id = id → entry.isDead = false) :
    ∀ entry ∈ acts.foldl Ledger.apply ledger, entry.id = id → entry.isDead = false := by
  induction acts generalizing ledger with
  | nil => exact alive
  | cons act rest ih =>
      obtain ⟨here, later⟩ := Nat.add_eq_zero_iff.mp none
      apply ih later
      intro entry member same
      rcases List.mem_append.mp member with old | fresh
      · obtain ⟨before, known, rfl⟩ := List.mem_map.mp old
        rw [act.onEntry_id] at same
        exact newlyDead_apply_eq_zero.mp here before known (alive before known same)
      · exact opened_alive act fresh

theorem alive_of_pending (accounts : Accounts table ledger) {queue : Queue} {row : Row π}
    (pending : row ∈ pendingRows queue table) :
    ∀ entry ∈ ledger, entry.id = row.id → entry.isDead = false := by
  obtain ⟨member, -, status⟩ := mem_pendingRows.mp pending
  obtain ⟨entry, known, -, same⟩ := entry_of_row accounts member
  intro other present equal
  have ids : entry.id = row.id := congrArg View.id same
  obtain rfl := entry_ext accounts present known (equal.trans ids.symm)
  by_contra dead
  have died := other.status_eq_dead.mpr (by simpa using dead)
  have agreed : other.status = row.status := congrArg View.status same
  rw [agreed, status] at died
  cases died

end Deaths

theorem countsDead_iff {event : Event (State π) (Op π)} (sound : Sound event.before) :
    CountsDead event ↔ Spared event := by
  apply forall₃_congr
  intro queue handler _
  rw [← deaths_eq_zero_iff sound]
  exact eq_comm

theorem handsLive_of_spared {event : Event (State π) (Op π)} (sound : Sound event.before)
    (spared : Spared event) : HandsLive event := by
  intro queue handler retried first row rest shape entry member same _
  have none := (deaths_eq_zero_iff sound _).mpr (spared queue handler retried)
  have parts : retryActs queue handler (first ++ row :: rest) =
      retryActs queue handler first ++ retryActs queue handler (row :: rest) :=
    List.flatMap_append
  rw [shape, parts, deaths_append] at none
  have pending : row ∈ pendingRows queue event.before.table := by
    rw [shape]
    simp
  exact alive_foldl (Nat.add_eq_zero_iff.mp none).1 (alive_of_pending sound pending) entry member
    same

/-- Every message is conserved in every run; no dead message is handed out and the dead counts
returned are right exactly if no call of `retry` nacks a message that has no retry left. -/
theorem dlq_conservation_iff {events : List (Event (State π) (Op π))} {last : State π}
    (run : Run step {} events last) :
    (∀ event ∈ events, Conserved event.after) ∧
      ((∀ event ∈ events, Conserved event.after ∧ HandsLive event ∧ CountsDead event) ↔
        ∀ event ∈ events, Spared event) := by
  have before : ∀ event ∈ events, Sound event.before ∧ Sound event.after := by
    intro event member
    obtain ⟨stepped, earlier, -, reached⟩ := run.event_of_mem member
    have sound := sound_of_run reached
    exact ⟨sound, sound_step sound stepped⟩
  have conserved : ∀ event ∈ events, Conserved event.after :=
    fun event member => conserved_of_sound (before event member).2
  refine ⟨conserved, ?_⟩
  constructor
  · intro kept event member
    exact (countsDead_iff (before event member).1).mp (kept event member).2.2
  · intro spared event member
    exact ⟨conserved event member,
      handsLive_of_spared (before event member).1 (spared event member),
      (countsDead_iff (before event member).1).mpr (spared event member)⟩

section Samples

def recorded (ops : List (Op Unit)) : List (Event (State Unit) (Op Unit)) :=
  (record step {} ops).getD []

theorem recorded_run {ops : List (Op Unit)} (taken : (record step {} ops).isSome = true) :
    Run step {} (recorded ops) (final {} (recorded ops)) :=
  run_of_isSome taken

/-- A message with the given limit, then a `retry` of its queue. -/
def addAndRetry (maxRetries : Int) (raises : Option String) : List (Op Unit) :=
  [.call (.add {} () "timeout" none (some maxRetries) 0),
    .retry {} (fun _ => { startedAt := 5, raises, endedAt := 6 })]

theorem dlq_conservation_on_success :
    let events := recorded (addAndRetry 3 none)
    (∀ event ∈ events, Conserved event.after) ∧
      ((∀ event ∈ events, Conserved event.after ∧ HandsLive event ∧ CountsDead event) ↔
        ∀ event ∈ events, Spared event) :=
  dlq_conservation_iff (recorded_run rfl)

/-- The message dies in the call, which returns a dead count of zero. -/
theorem retry_reports_no_dead :
    let events := recorded (addAndRetry 1 (some "timeout"))
    Run step {} events (final {} events) ∧
      ¬ ∀ event ∈ events, Conserved event.after ∧ HandsLive event ∧ CountsDead event := by
  refine ⟨recorded_run rfl, ?_⟩
  intro kept
  have shape : ∃ event ∈ recorded (addAndRetry 1 (some "timeout")), ∃ queue handler,
      event.action = .retry queue handler ∧
        (retry queue handler event.before.table).1.dead = 0 ∧
        deaths event.before.ledger
          (retryActs queue handler (pendingRows queue event.before.table)) = 1 := by
    refine ⟨_, List.mem_cons_of_mem _ (List.mem_singleton_self _), _, _, rfl, rfl, ?_⟩
    decide +kernel
  obtain ⟨event, member, queue, handler, retried, reported, died⟩ := shape
  have counted := (kept event member).2.2 queue handler retried
  rw [reported, died] at counted
  cases counted

end Samples

/-- No message is returned or handed out before the deadline of any retry that it was given. -/
structure HonoursBackoff (event : Event (State π) (Op π)) : Prop where
  processed : ∀ queue now, event.action = .process queue now →
    ∀ row ∈ process queue event.before.table, ∀ entry ∈ event.before.ledger, entry.id = row.id →
      ∀ deadline ∈ entry.deadlines, deadline ≤ now
  retried : ∀ queue handler, event.action = .retry queue handler → ∀ first row rest,
    pendingRows queue event.before.table = first ++ row :: rest →
    ∀ entry ∈ (retryActs queue handler first).foldl Ledger.apply event.before.ledger,
      entry.id = row.id → ∀ deadline ∈ entry.deadlines, deadline ≤ (handler row.id).startedAt

def Entry.isPendingIn (queue : Queue) (entry : Entry π) : Prop :=
  entry.queue = queue.queueName ∧ entry.fate = none ∧ entry.isDead = false

/-- The ledger when `retry` comes to the message `id`. -/
def ledgerAtTurn (queue : Queue) (handler : Nat → Behaviour π) (state : State π) (id : Nat) :
    Ledger π :=
  (retryActs queue handler
    ((pendingRows queue state.table).takeWhile (fun row => row.id ≠ id))).foldl Ledger.apply
      state.ledger

/-- Every pending message of the queue is past its deadlines when `process` is called and when
`retry` comes to it. -/
structure Rested (event : Event (State π) (Op π)) : Prop where
  processed : ∀ queue now, event.action = .process queue now →
    ∀ entry ∈ event.before.ledger, entry.isPendingIn queue →
      ∀ deadline ∈ entry.deadlines, deadline ≤ now
  retried : ∀ queue handler, event.action = .retry queue handler →
    ∀ entry ∈ event.before.ledger, entry.isPendingIn queue →
      ∀ account ∈ ledgerAtTurn queue handler event.before entry.id, account.id = entry.id →
        ∀ deadline ∈ account.deadlines, deadline ≤ (handler entry.id).startedAt

section Pending

variable {table : Table π} {ledger : Ledger π} {queue : Queue}

theorem row_of_pending (accounts : Accounts table ledger) {entry : Entry π} (known : entry ∈ ledger)
    (pending : entry.isPendingIn queue) : ∃ row ∈ pendingRows queue table, row.id = entry.id := by
  obtain ⟨queued, stored, alive⟩ := pending
  obtain ⟨row, member, same⟩ := row_of_entry accounts known stored
  have status : row.status = entry.status := congrArg View.status same
  have inQueue : row.queue = entry.queue := congrArg View.queue same
  refine ⟨row, mem_pendingRows.mpr ⟨member, inQueue.trans queued, ?_⟩, congrArg View.id same⟩
  rw [status, Entry.status, alive]
  rfl

theorem pending_of_row (accounts : Accounts table ledger) {row : Row π}
    (pending : row ∈ pendingRows queue table) :
    ∃ entry ∈ ledger, entry.isPendingIn queue ∧ entry.id = row.id := by
  obtain ⟨member, queued, -⟩ := mem_pendingRows.mp pending
  obtain ⟨entry, known, stored, same⟩ := entry_of_row accounts member
  have ids : entry.id = row.id := congrArg View.id same
  have inQueue : entry.queue = row.queue := congrArg View.queue same
  exact ⟨entry, known, ⟨inQueue.trans queued, stored, alive_of_pending accounts pending entry known
    ids⟩, ids⟩

theorem pendingRows_ids_nodup (accounts : Accounts table ledger) (queue : Queue) :
    ((pendingRows queue table).map Row.id).Nodup := by
  have sorted := (List.perm_insertionSort
    (fun first second : Row π => first.createdAt ≤ second.createdAt)
    (table.rows.filter (fun row => row.queue = queue.queueName ∧ row.status = .pending))).map Row.id
  exact sorted.nodup_iff.mpr (accounts.unique.sublist (List.filter_sublist.map Row.id))

theorem takeWhile_of_split {first rest : List (Row π)} {row : Row π}
    (distinct : ((first ++ row :: rest).map Row.id).Nodup) :
    (first ++ row :: rest).takeWhile (fun other => other.id ≠ row.id) = first := by
  have apart : ∀ other ∈ first, other.id ≠ row.id := by
    intro other member same
    rw [List.map_append, List.nodup_append] at distinct
    exact distinct.2.2 other.id (List.mem_map_of_mem member) row.id (by simp) same
  rw [List.takeWhile_append_of_pos (by simpa using apart)]
  simp

end Pending

theorem honoursBackoff_iff {event : Event (State π) (Op π)} (sound : Sound event.before) :
    HonoursBackoff event ↔ Rested event := by
  constructor
  · intro honoured
    constructor
    · intro queue now asked entry known pending
      obtain ⟨row, listed, same⟩ := row_of_pending sound known pending
      exact honoured.processed queue now asked row listed entry known same.symm
    · intro queue handler asked entry known pending account later equal
      obtain ⟨row, listed, same⟩ := row_of_pending sound known pending
      obtain ⟨first, rest, shape⟩ := List.append_of_mem listed
      have distinct := pendingRows_ids_nodup sound queue
      rw [shape] at distinct
      have turn := takeWhile_of_split distinct
      rw [ledgerAtTurn, shape, ← same, turn] at later
      rw [← same]
      exact honoured.retried queue handler asked first row rest shape account later
        (equal.trans same.symm)
  · intro rested
    constructor
    · intro queue now asked row listed entry known same
      obtain ⟨other, present, pending, equal⟩ := pending_of_row sound listed
      obtain rfl := entry_ext sound known present (same.trans equal.symm)
      exact rested.processed queue now asked entry known pending
    · intro queue handler asked first row rest shape account later equal
      have listed : row ∈ pendingRows queue event.before.table := by
        rw [shape]
        simp
      obtain ⟨entry, known, pending, same⟩ := pending_of_row sound listed
      have distinct := pendingRows_ids_nodup sound queue
      rw [shape] at distinct
      have turn := takeWhile_of_split distinct
      rw [← same]
      refine rested.retried queue handler asked entry known pending account ?_
        (equal.trans same.symm)
      rw [ledgerAtTurn, shape, same, turn]
      exact later

/-- In every run the backoff is honoured exactly if `process` and `retry` only ever come to pending
messages that are past their deadlines. -/
theorem dlq_backoff_iff {events : List (Event (State π) (Op π))} {last : State π}
    (run : Run step {} events last) :
    (∀ event ∈ events, HonoursBackoff event) ↔ ∀ event ∈ events, Rested event := by
  apply forall₂_congr
  intro event member
  obtain ⟨-, earlier, -, reached⟩ := run.event_of_mem member
  exact honoursBackoff_iff (sound_of_run reached)

/-- A message that is nacked for the first time at `0`, then a look at the queue. -/
def nackAndProcess (now : ℚ) : List (Op Unit) :=
  [.call (.add {} () "timeout" none none 0), .call (.nack {} 1 "timeout" 0), .process {} now]

theorem dlq_backoff_after_deadline :
    let events := recorded (nackAndProcess 2)
    (∀ event ∈ events, HonoursBackoff event) ↔ ∀ event ∈ events, Rested event :=
  dlq_backoff_iff (recorded_run rfl)

/-- One second after the nack the message is returned, a second early. -/
theorem process_ignores_backoff :
    let events := recorded (nackAndProcess 1)
    Run step {} events (final {} events) ∧ ¬ ∀ event ∈ events, HonoursBackoff event := by
  refine ⟨recorded_run rfl, ?_⟩
  intro honoured
  have shape : ∃ event ∈ recorded (nackAndProcess 1), ∃ row ∈ process {} event.before.table,
      ∃ entry ∈ event.before.ledger, event.action = .process {} 1 ∧ entry.id = row.id ∧
        (2 : ℚ) ∈ entry.deadlines := by
    refine ⟨_, List.mem_cons_of_mem _ (List.mem_cons_of_mem _ (List.mem_singleton_self _)), _,
      List.mem_singleton_self _, _, List.mem_singleton_self _, rfl, rfl, ?_⟩
    decide +kernel
  obtain ⟨event, member, row, listed, entry, known, asked, same, given⟩ := shape
  have early := (honoured event member).processed {} 1 asked row listed entry known same 2 given
  revert early
  decide +kernel

end RagSystem.Dlq
