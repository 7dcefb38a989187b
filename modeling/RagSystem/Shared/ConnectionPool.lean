import Mathlib.Data.Finset.Card
import RagSystem.Transition.Interleaving

/-! The connection pool (`proxy/app/shared/connection_pool.py`). The turns of a task end where it
waits: for the lock, for a connection to open or for one to close. The synchronous calls wait for
nothing, and take no lock. -/

namespace RagSystem.ConnectionPool

open Transition

abbrev Connection := Nat

structure PoolConfig where
  maxConnections : Nat := 20
  maxKeepalive : Nat := 5
  hasFactory : Bool := true

structure Pooled where
  /-- Without a factory a synchronous call leaves `None` in the list. -/
  connections : List (Option Connection) := []
  /-- The one that was put back last comes first. -/
  available : List Connection := []
  inUse : Finset Connection := ∅
  closed : Bool := false
  locked : Bool := false
  /-- The connections that the pool has called the closing of, whatever that did to them. -/
  shut : Finset Connection := ∅
  created : Nat := 0
  deriving DecidableEq

inductive AcquireError
  | poolClosed
  | exhausted
  | factory
  /-- The `RuntimeError` of a pool without a factory. -/
  | noFactory
  /-- The `ValueError` of `list.remove`. -/
  | notInList
  deriving DecidableEq, Repr

def AcquireError.expected : AcquireError → Bool
  | .poolClosed => true
  | .exhausted => true
  | .factory => true
  | .noFactory => false
  | .notInList => false

/-- What a turn meets: which connections `_is_valid` holds for, and whether the factory fails. -/
structure Input where
  valid : Connection → Bool := fun _ => true
  factoryFails : Bool := false

section Calls

variable (config : PoolConfig) (input : Input)

/-- `_close_connection` and `_close_connection_sync`. -/
def Pooled.closeConnection (pool : Pooled) (conn : Connection) : Pooled :=
  { pool with shut := insert conn pool.shut }

/-- `if conn in self._connections: self._connections.remove(conn)`. -/
def Pooled.remove (pool : Pooled) (conn : Connection) : Pooled :=
  { pool with connections := pool.connections.erase (some conn) }

def Pooled.handOut (pool : Pooled) (conn : Connection) : Pooled :=
  { pool with inUse := insert conn pool.inUse }

def Pooled.create (pool : Pooled) : Pooled :=
  { pool with
    connections := pool.connections ++ [some pool.created]
    inUse := insert pool.created pool.inUse
    created := pool.created + 1 }

def Pooled.room (pool : Pooled) : Bool := pool.connections.length < config.maxConnections

def Pooled.keeps (pool : Pooled) (conn : Connection) : Bool :=
  input.valid conn ∧ pool.available.length < config.maxKeepalive

def Pooled.putBack (pool : Pooled) (conn : Connection) : Pooled :=
  { pool with available := conn :: pool.available }

def Pooled.discard (pool : Pooled) (conn : Connection) : Pooled :=
  { pool with inUse := pool.inUse.erase conn }

/-! `acquire`. -/

inductive BlockPhase
  | waiting
  /-- An idle connection that was found invalid is being closed. -/
  | discarding (candidate : Connection)
  | creating
  | holding (conn : Connection)
  /-- The connection is being closed after use. -/
  | returning (conn : Connection)
  | left
  | failed (error : AcquireError)
  deriving DecidableEq, Repr

def takeIdle (pool : Pooled) : Pooled × BlockPhase :=
  match pool.available with
  | candidate :: rest =>
      let popped := { pool with available := rest }
      if input.valid candidate then
        ({ popped.handOut candidate with locked := false }, .holding candidate)
      else ({ popped.closeConnection candidate with locked := true }, .discarding candidate)
  | [] =>
      if pool.room config then
        if config.hasFactory then ({ pool with locked := true }, .creating)
        else ({ pool with locked := false }, .failed .noFactory)
      else ({ pool with locked := false }, .failed .exhausted)

def blockTurn (pool : Pooled) : BlockPhase → Option (Pooled × BlockPhase)
  | .waiting =>
      if pool.locked then none
      else if pool.closed then some (pool, .failed .poolClosed)
      else some (takeIdle config input pool)
  | .discarding candidate =>
      if some candidate ∈ pool.connections then
        some (takeIdle config input (pool.remove candidate))
      else some ({ pool with locked := false }, .failed .notInList)
  | .creating =>
      if input.factoryFails then some ({ pool with locked := false }, .failed .factory)
      else some ({ pool.create with locked := false }, .holding pool.created)
  | .holding conn =>
      if pool.locked then none
      else
        let back := pool.discard conn
        if back.keeps config input conn then some (back.putBack conn, .left)
        else some ({ back.closeConnection conn with locked := true }, .returning conn)
  | .returning conn => some ({ pool.remove conn with locked := false }, .left)
  | .left => none
  | .failed _ => none

/-! `acquire_sync` and `release_sync`: one caller, that may release more than once. -/

inductive TicketPhase
  | calling
  | holding (conn : Connection)
  | released (conn : Connection)
  | failed (error : AcquireError)
  deriving DecidableEq, Repr

inductive Swept
  | found (conn : Connection)
  | empty
  | notInList
  deriving DecidableEq, Repr

def sweep : List Connection → Pooled → Pooled × Swept
  | [], pool => ({ pool with available := [] }, .empty)
  | candidate :: rest, pool =>
      let popped := { pool with available := rest }
      if input.valid candidate then (popped, .found candidate)
      else if some candidate ∈ pool.connections then
        sweep rest ((popped.closeConnection candidate).remove candidate)
      else (popped.closeConnection candidate, .notInList)

def acquireSync (pool : Pooled) : Pooled × TicketPhase :=
  if pool.closed then (pool, .failed .poolClosed)
  else
    match sweep input pool.available pool with
    | (swept, .found conn) => (swept.handOut conn, .holding conn)
    | (swept, .notInList) => (swept, .failed .notInList)
    | (swept, .empty) =>
        if swept.room config then
          if config.hasFactory then
            if input.factoryFails then (swept, .failed .factory)
            else (swept.create, .holding swept.created)
          else
            ({ swept with connections := swept.connections ++ [none] }, .failed .exhausted)
        else (swept, .failed .exhausted)

def releaseSync (pool : Pooled) (conn : Connection) : Pooled :=
  let back := pool.discard conn
  if back.keeps config input conn then back.putBack conn
  else (back.closeConnection conn).remove conn

def ticketTurn (pool : Pooled) : TicketPhase → Option (Pooled × TicketPhase)
  | .calling => some (acquireSync config input pool)
  | .holding conn => some (releaseSync config input pool conn, .released conn)
  | .released conn => some (releaseSync config input pool conn, .released conn)
  | .failed _ => none

/-! `drain`, `close`, `close_sync` and `health_check`. -/

inductive SweepPhase
  | waiting
  | closing (rest : List (Option Connection))
  | finished
  deriving DecidableEq, Repr

/-- The loop of `drain` over its copy of the list. `None` has nothing to wait for. -/
def drainRest : List (Option Connection) → Pooled → Pooled × SweepPhase
  | [], pool => ({ pool with connections := [], available := [], locked := false }, .finished)
  | none :: rest, pool => drainRest rest pool
  | some conn :: rest, pool => ({ pool.closeConnection conn with locked := true }, .closing rest)

def drainTurn (pool : Pooled) : SweepPhase → Option (Pooled × SweepPhase)
  | .waiting => if pool.locked then none else some (drainRest pool.connections pool)
  | .closing rest => some (drainRest rest pool)
  | .finished => none

inductive ClosePhase
  | waiting
  | closing (index : Nat)
  | finished
  deriving DecidableEq, Repr

/-- The loop of `close` over the list itself, from an index on. -/
def closeRest : List (Option Connection) → Nat → Pooled → Pooled × ClosePhase
  | [], _, pool =>
      ({ pool with connections := [], available := [], inUse := ∅, locked := false }, .finished)
  | none :: rest, index, pool => closeRest rest (index + 1) pool
  | some conn :: _, index, pool =>
      ({ pool.closeConnection conn with locked := true }, .closing (index + 1))

def closeTurn (pool : Pooled) : ClosePhase → Option (Pooled × ClosePhase)
  | .waiting =>
      if pool.locked then none
      else some (closeRest pool.connections 0 { pool with closed := true })
  | .closing index => some (closeRest (pool.connections.drop index) index pool)
  | .finished => none

def Pooled.closeSync (pool : Pooled) : Pooled :=
  { pool with
    closed := true
    shut := pool.shut ∪ (pool.connections.filterMap id).toFinset
    connections := []
    available := []
    inUse := ∅ }

inductive CheckPhase
  | starting
  | removing (conn : Connection) (rest : List Connection)
  | finished (healthy : Bool)
  deriving DecidableEq, Repr

/-- `self._available.remove(conn)`: the one that was put back first. -/
def removeFirst (conn : Connection) (available : List Connection) : List Connection :=
  (available.reverse.erase conn).reverse

/-- The loop of `health_check` over its copy of the idle connections. -/
def checkRest : List Connection → Pooled → Pooled × CheckPhase
  | [], pool => (pool, .finished true)
  | conn :: rest, pool =>
      if input.valid conn then checkRest rest pool
      else if conn ∈ pool.available then
        let kept := { pool with available := removeFirst conn pool.available }
        (kept.closeConnection conn, .removing conn rest)
      else (pool, .finished false)

def checkTurn (pool : Pooled) : CheckPhase → Option (Pooled × CheckPhase)
  | .starting =>
      if pool.closed then some (pool, .finished false)
      else some (checkRest input pool.available.reverse pool)
  | .removing conn rest => some (checkRest input rest (pool.remove conn))
  | .finished _ => none

end Calls

inductive Task
  | block (phase : BlockPhase)
  | ticket (phase : TicketPhase)
  | drain (phase : SweepPhase)
  | close (phase : ClosePhase)
  | closeSync (finished : Bool)
  | healthCheck (phase : CheckPhase)
  deriving DecidableEq

inductive Operation
  | acquire
  | acquireSync
  | drain
  | close
  | closeSync
  | healthCheck
  deriving DecidableEq, Repr

def Operation.task : Operation → Task
  | .acquire => .block .waiting
  | .acquireSync => .ticket .calling
  | .drain => .drain .waiting
  | .close => .close .waiting
  | .closeSync => .closeSync false
  | .healthCheck => .healthCheck .starting

def Task.turn (config : PoolConfig) (input : Input) (task : Task) (pool : Pooled) :
    Option (Pooled × Task) :=
  match task with
  | .block phase =>
      (blockTurn config input pool phase).map fun result => (result.1, .block result.2)
  | .ticket phase =>
      (ticketTurn config input pool phase).map fun result => (result.1, .ticket result.2)
  | .drain phase => (drainTurn pool phase).map fun result => (result.1, .drain result.2)
  | .close phase => (closeTurn pool phase).map fun result => (result.1, .close result.2)
  | .closeSync finished => if finished then none else some (pool.closeSync, .closeSync true)
  | .healthCheck phase =>
      (checkTurn input pool phase).map fun result => (result.1, .healthCheck result.2)

def poolStep (config : PoolConfig) :
    Pool Pooled Task → Move Operation Input → Option (Pool Pooled Task) :=
  interleave Operation.task (Task.turn config)

def Task.held? : Task → Option Connection
  | .block (.holding conn) => some conn
  | .ticket (.holding conn) => some conn
  | _ => none

def Task.error? : Task → Option AcquireError
  | .block (.failed error) => some error
  | .ticket (.failed error) => some error
  | _ => none

def Task.known : Task → List Connection
  | .block (.discarding conn) => [conn]
  | .block (.holding conn) => [conn]
  | .block (.returning conn) => [conn]
  | .ticket (.holding conn) => [conn]
  | .ticket (.released conn) => [conn]
  | .drain (.closing rest) => rest.filterMap id
  | .healthCheck (.removing conn rest) => conn :: rest
  | _ => []

end RagSystem.ConnectionPool
