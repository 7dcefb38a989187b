import Mathlib.Algebra.Order.Field.Rat
import Mathlib.Data.List.Sort

/-! The dead letter queue of `proxy/app/shared/dlq.py`: the table the queues share, and the
operations on it. The type `π` of payloads and metadata stands for what `json.dumps` writes and
`json.loads` reads back. -/

namespace RagSystem.Dlq

/-- One `DeadLetterQueue` object. -/
structure Queue where
  queueName : String := "default"
  maxRetries : Int := 3
  backoffBase : ℚ := 2
  deriving DecidableEq, Repr

inductive Status
  | pending
  | dead
  deriving DecidableEq, Repr

def Status.text : Status → String
  | .pending => "pending"
  | .dead => "dead"

/-- A row of `dlq_messages`. -/
structure Row (π : Type) where
  id : Nat
  queue : String
  payload : π
  error : String
  retryCount : Nat := 0
  maxRetries : Int
  status : Status := .pending
  createdAt : ℚ
  lastErrorAt : ℚ
  nextRetryAt : ℚ
  metadata : Option π
  deriving DecidableEq, Repr

/-- The rows in the order of their ids, and the last id that was given out: the key is
`AUTOINCREMENT`, so that no id is used again. -/
structure Table (π : Type) where
  rows : List (Row π) := []
  seq : Nat := 0
  deriving DecidableEq, Repr

variable {π : Type}

/-- `WHERE id = ? AND queue = ?` -/
def Row.isAt (queue : Queue) (id : Nat) (row : Row π) : Bool :=
  row.id = id ∧ row.queue = queue.queueName

def add (queue : Queue) (payload : π) (error : String) (metadata : Option π)
    (maxRetries : Option Int) (now : ℚ) (table : Table π) : Nat × Table π :=
  let id := table.seq + 1
  (id, {
    seq := id
    rows := table.rows ++ [{
      id, queue := queue.queueName, payload, error, metadata
      maxRetries := maxRetries.getD queue.maxRetries
      createdAt := now, lastErrorAt := now, nextRetryAt := now }] })

def get (queue : Queue) (id : Nat) (table : Table π) : Option (Row π) :=
  table.rows.find? (Row.isAt queue id)

def ack (queue : Queue) (id : Nat) (table : Table π) : Bool × Table π :=
  let kept := table.rows.filter (fun row => !row.isAt queue id)
  (kept.length < table.rows.length, { table with rows := kept })

def nack (queue : Queue) (id : Nat) (error : String) (now : ℚ) (table : Table π) :
    Bool × Table π :=
  match table.rows.find? (Row.isAt queue id) with
  | none => (false, table)
  | some row =>
      let retryCount := row.retryCount + 1
      let dies : Bool := row.maxRetries ≤ retryCount
      -- the update selects by the id alone
      (true, { table with rows := table.rows.map (fun other =>
        if other.id = id then { other with
          retryCount
          status := if dies then .dead else .pending
          lastErrorAt := now
          nextRetryAt := if dies then 0 else now + queue.backoffBase ^ retryCount
          error := if error ≠ "" then error else other.error }
        else other) })

/-- `WHERE queue = ?`, and `AND status = ?` where a status is given. -/
def selects (queue : Queue) (status : Option String) (name : String) (stored : Status) : Bool :=
  name = queue.queueName ∧ ∀ text ∈ status, stored.text = text

def clear (queue : Queue) (status : Option String) (table : Table π) : Nat × Table π :=
  let kept := table.rows.filter (fun row => !selects queue status row.queue row.status)
  (table.rows.length - kept.length, { table with rows := kept })

def requeue (queue : Queue) (id : Nat) (now : ℚ) (table : Table π) : Bool × Table π :=
  (table.rows.any (fun row => row.isAt queue id ∧ row.status = .dead),
    { table with rows := table.rows.map (fun row =>
      if row.isAt queue id ∧ row.status = .dead then
        { row with status := .pending, retryCount := 0, nextRetryAt := now }
      else row) })

/-- The query of `retry` and of `process`: all pending messages of the queue, the oldest first. -/
def pendingRows (queue : Queue) (table : Table π) : List (Row π) :=
  (table.rows.filter (fun row => row.queue = queue.queueName ∧ row.status = .pending)).insertionSort
    (fun first second => first.createdAt ≤ second.createdAt)

theorem mem_pendingRows {queue : Queue} {table : Table π} {row : Row π} :
    row ∈ pendingRows queue table ↔
      row ∈ table.rows ∧ row.queue = queue.queueName ∧ row.status = .pending := by
  simp [pendingRows, List.mem_insertionSort]

/-- `process` reads and changes nothing. -/
def process (queue : Queue) (table : Table π) : List (Row π) := pendingRows queue table

inductive Call (π : Type)
  | add (queue : Queue) (payload : π) (error : String) (metadata : Option π)
      (maxRetries : Option Int) (now : ℚ)
  | ack (queue : Queue) (id : Nat)
  | nack (queue : Queue) (id : Nat) (error : String) (now : ℚ)
  | clear (queue : Queue) (status : Option String)
  | requeue (queue : Queue) (id : Nat) (now : ℚ)

/-- What a handler does with a message it is given: the calls that are made on the table from when
it starts until it ends, and the text of the exception if it raises one. -/
structure Behaviour (π : Type) where
  startedAt : ℚ
  during : List (Call π) := []
  raises : Option String := none
  endedAt : ℚ

/-- A change of the table: a call, or the `ack` and the `nack` that `retry` makes after a
handler. -/
inductive Act (π : Type)
  | call (made : Call π)
  | handled (queue : Queue) (id : Nat)
  | failed (queue : Queue) (id : Nat) (error : String) (now : ℚ)

def Call.perform (table : Table π) : Call π → Table π
  | .add queue payload error metadata maxRetries now =>
      (Dlq.add queue payload error metadata maxRetries now table).2
  | .ack queue id => (Dlq.ack queue id table).2
  | .nack queue id error now => (Dlq.nack queue id error now table).2
  | .clear queue status => (Dlq.clear queue status table).2
  | .requeue queue id now => (Dlq.requeue queue id now table).2

def Act.perform (table : Table π) : Act π → Table π
  | .call made => made.perform table
  | .handled queue id => (Dlq.ack queue id table).2
  | .failed queue id error now => (Dlq.nack queue id error now table).2

/-- The changes made while `retry` hands one message of its snapshot to the handler. -/
def turnActs (queue : Queue) (handler : Nat → Behaviour π) (row : Row π) : List (Act π) :=
  (handler row.id).during.map Act.call ++
    [match (handler row.id).raises with
      | none => Act.handled queue row.id
      | some text => Act.failed queue row.id text (handler row.id).endedAt]

def retryActs (queue : Queue) (handler : Nat → Behaviour π) (rows : List (Row π)) :
    List (Act π) :=
  rows.flatMap (turnActs queue handler)

structure RetryStats where
  processed : Nat := 0
  failed : Nat := 0
  dead : Nat := 0
  total : Nat
  deriving DecidableEq, Repr

/-- `retry`: the handler is given every message of the snapshot taken at the start. -/
def retry (queue : Queue) (handler : Nat → Behaviour π) (table : Table π) :
    RetryStats × Table π :=
  let rows := pendingRows queue table
  -- no branch of the loop adds to the dead ones
  ({ processed := rows.countP (fun row => (handler row.id).raises = none)
     failed := rows.countP (fun row => (handler row.id).raises ≠ none)
     total := rows.length },
    (retryActs queue handler rows).foldl Act.perform table)

end RagSystem.Dlq
