import RagSystem.Etl.WalBackends
import RagSystem.Etl.WalSlots
import RagSystem.Transition.Interleaving

/-! Updates of one write-ahead log by concurrent callers: reading, writing and the lock file are
separate turns, and others may have theirs in between. -/

namespace RagSystem.Etl.Wal

open Transition

/-- A caller inside the lock knows which lock file it holds; without locking it holds none. -/
inductive Phase
  | started
  | prepared (updates : Checkpoint)
  | entered (updates : Checkpoint) (lock : Option Nat)
  | loaded (updates : Checkpoint) (lock : Option Nat) (data : Document)
  | written (lock : Option Nat)
  | finished
  | raised
  deriving Repr

structure Task where
  update : Update
  now : Rat
  phase : Phase := .started
  deriving Repr

/-- The store, and the lock file that stands at the path: which one it is, and whether it is held. -/
structure Log (σ : Type) where
  store : σ
  held : Bool := false
  lockFile : Nat := 0

/-- What a turn meets: a reading may fail, and the lock file may look stale. -/
structure Input (ω : Type) where
  choice : ω
  readFails : Bool := false
  stale : Bool := false

section Turns

variable {σ ω : Type} (formats : Formats) (backend : Backend σ ω) (locking : Bool)

/-- `_read_wal`: a failed reading is an empty log. -/
def readWal (input : Input ω) (store : σ) : Document :=
  if input.readFails then ∅ else backend.read input.choice store

def Log.release (log : Log σ) : Option Nat → Log σ
  | some file => if file = log.lockFile then { log with held := false } else log
  | none => log

/-- Only the hash state reads before it enters. A stale lock file is removed and a new one made,
whoever may hold the old one. -/
def Task.turn (input : Input ω) (task : Task) (log : Log σ) : Option (Log σ × Phase) :=
  match task.phase with
  | .started =>
      match task.update.updates formats (readWal backend input log.store) with
      | none => some (log, .raised)
      | some updates => some (log, .prepared updates)
  | .prepared updates =>
      if locking then
        if log.held ∧ ¬ input.stale then none
        else
          let file := if input.stale then log.lockFile + 1 else log.lockFile
          some ({ log with held := true, lockFile := file }, .entered updates (some file))
      else some (log, .entered updates none)
  | .entered updates lock => some (log, .loaded updates lock (readWal backend input log.store))
  | .loaded updates lock data =>
      some ({ log with
        store := backend.write
          (merge task.update.pipeline (stamp formats task.now updates) data) log.store },
        .written lock)
  | .written lock => some (log.release lock, .finished)
  | .finished => none
  | .raised => none

def walStep : Pool (Log σ) Task → Move (Update × Rat) (Input ω) → Option (Pool (Log σ) Task) :=
  interleave (fun call => ⟨call.1, call.2, .started⟩)
    (fun input task log => (task.turn formats backend locking input log).map (fun result =>
      (result.1, { task with phase := result.2 })))

variable {formats backend locking}

theorem walStep_single (input : Input ω) {task : Task} {log after : Log σ} {phase : Phase}
    (turns : task.turn formats backend locking input log = some (after, phase)) :
    walStep formats backend locking ⟨log, [task]⟩ (.advance 0 input) =
      some ⟨after, [{ task with phase := phase }]⟩ := by
  simp [walStep, interleave, turns]

end Turns

abbrev WalEvent (σ ω : Type) := Event (Pool (Log σ) Task) (Move (Update × Rat) (Input ω))

def Phase.data? : Phase → Option Document
  | .loaded _ _ data => some data
  | _ => none

def Phase.updates? : Phase → Option Checkpoint
  | .prepared updates => some updates
  | .entered updates _ => some updates
  | .loaded updates _ _ => some updates
  | _ => none

def Phase.inside : Phase → Bool
  | .entered _ _ => true
  | .loaded _ _ _ => true
  | .written _ => true
  | _ => false

def Phase.lock? : Phase → Option Nat
  | .entered _ lock => lock
  | .loaded _ lock _ => lock
  | .written lock => lock
  | _ => none

section Fairness

variable {σ ω : Type} (formats : Formats) (backend : Backend σ ω) (locking : Bool)

def viewOf (pool : Pool (Log σ) Task) : String → Option Checkpoint :=
  backend.view pool.shared.store

/-- The write of `task` leaves alone what `other` has read and is going to write back. -/
structure Undisturbed (task other : Task) : Prop where
  document : locking = false → (other.phase.data?).isSome = true → ∀ slot,
    task.update.owns formats task.now slot = true →
      other.update.owns formats other.now slot = true
  hashes : (other.phase.updates?).isSome = true → ∀ pipeline docId,
    other.update.target? = some (pipeline, docId) → ∀ another, another ≠ docId →
      task.update.owns formats task.now ⟨pipeline, .hash another⟩ = false

/-- The turn of the task at the index can lose nothing: a reading that fails had nothing to read,
no lock is taken from its holder, and nothing is written that another task has read before. -/
structure Orderly (pool : Pool (Log σ) Task) (index : Nat) (input : Input ω) (task : Task) :
    Prop where
  hashRead : task.phase = .started → input.readFails = true → ∀ pipeline docId,
    task.update.target? = some (pipeline, docId) → ∀ another, another ≠ docId →
      slotValue (viewOf backend pool) ⟨pipeline, .hash another⟩ = none
  read : ∀ updates lock, task.phase = .entered updates lock → input.readFails = true →
    ∀ name, viewOf backend pool name = none
  lock : ∀ updates, task.phase = .prepared updates → input.stale = true → pool.shared.held = false
  write : (task.phase.data?).isSome = true → ∀ another other, another ≠ index →
    pool.tasks[another]? = some other → Undisturbed formats locking task other

def OrderlyEvent (event : WalEvent σ ω) : Prop :=
  ∀ index input, event.action = .advance index input → ∀ task,
    event.before.tasks[index]? = some task →
      Orderly formats backend locking event.before index input task

def Task.wrote (task : Task) (slot : Slot) : Option (Option Json) :=
  if slot.pipeline = task.update.pipeline then task.update.wrote formats task.now slot.part
  else none

def writer (event : WalEvent σ ω) : Option Task :=
  match event.action with
  | .advance index _ => (event.before.tasks[index]?).filter (fun task => task.phase.data?.isSome)
  | .spawn _ => none

def lastWritten (slot : Slot) (initial : Option Json) (tasks : List Task) : Option Json :=
  tasks.foldl (fun value task => (task.wrote formats slot).getD value) initial

/-- Every place has the value that was written there last, or the one it had. -/
def NoLostUpdate (start last : Pool (Log σ) Task) (events : List (WalEvent σ ω)) : Prop :=
  ∀ slot, slotValue (viewOf backend last) slot =
    lastWritten formats slot (slotValue (viewOf backend start) slot) (events.filterMap writer)

end Fairness

/-! What one turn does. -/

section Turned

variable {σ ω : Type} {formats : Formats} {backend : Backend σ ω} {locking : Bool}

inductive Turned (formats : Formats) (backend : Backend σ ω) (locking : Bool) (input : Input ω)
    (task : Task) (log : Log σ) : Log σ → Phase → Prop
  | raises (before : task.phase = .started) : Turned formats backend locking input task log log .raised
  | prepares (updates : Checkpoint) (before : task.phase = .started)
      (made : task.update.updates formats (readWal backend input log.store) = some updates) :
      Turned formats backend locking input task log log (.prepared updates)
  | locks (updates : Checkpoint) (file : Nat) (before : task.phase = .prepared updates)
      (locks : locking = true) (free : log.held = false ∨ input.stale = true) :
      Turned formats backend locking input task log
        { log with held := true, lockFile := file } (.entered updates (some file))
  | enters (updates : Checkpoint) (before : task.phase = .prepared updates)
      (unlocked : locking = false) :
      Turned formats backend locking input task log log (.entered updates none)
  | loads (updates : Checkpoint) (lock : Option Nat) (before : task.phase = .entered updates lock) :
      Turned formats backend locking input task log log
        (.loaded updates lock (readWal backend input log.store))
  | writes (updates : Checkpoint) (lock : Option Nat) (data : Document)
      (before : task.phase = .loaded updates lock data) :
      Turned formats backend locking input task log
        { log with
          store := backend.write
            (merge task.update.pipeline (stamp formats task.now updates) data) log.store }
        (.written lock)
  | releases (lock : Option Nat) (before : task.phase = .written lock) :
      Turned formats backend locking input task log (log.release lock) .finished

theorem turned_of_turn {input : Input ω} {task : Task} {log after : Log σ} {phase : Phase}
    (turns : task.turn formats backend locking input log = some (after, phase)) :
    Turned formats backend locking input task log after phase := by
  unfold Task.turn at turns
  split at turns
  · rename_i before
    split at turns
    · obtain ⟨rfl, rfl⟩ := Prod.mk.inj (Option.some.inj turns)
      exact .raises before
    · rename_i updates made
      obtain ⟨rfl, rfl⟩ := Prod.mk.inj (Option.some.inj turns)
      exact .prepares updates before made
  · rename_i updates before
    split at turns
    · rename_i locks
      split at turns
      · cases turns
      · rename_i free
        obtain ⟨rfl, rfl⟩ := Prod.mk.inj (Option.some.inj turns)
        refine .locks updates _ before locks ?_
        cases held : log.held with
        | false => exact Or.inl rfl
        | true => exact Or.inr (by simpa [held] using free)
    · rename_i unlocked
      obtain ⟨rfl, rfl⟩ := Prod.mk.inj (Option.some.inj turns)
      exact .enters updates before (by simpa using unlocked)
  · rename_i updates lock before
    obtain ⟨rfl, rfl⟩ := Prod.mk.inj (Option.some.inj turns)
    exact .loads updates lock before
  · rename_i updates lock data before
    obtain ⟨rfl, rfl⟩ := Prod.mk.inj (Option.some.inj turns)
    exact .writes updates lock data before
  · rename_i lock before
    obtain ⟨rfl, rfl⟩ := Prod.mk.inj (Option.some.inj turns)
    exact .releases lock before
  · cases turns
  · cases turns

theorem Log.release_store (log : Log σ) (lock : Option Nat) : (log.release lock).store = log.store := by
  unfold Log.release
  split
  · split <;> rfl
  · rfl

end Turned

/-! What a task has read agrees with the log wherever it will be written back. -/

section Reading

variable {formats : Formats} {view : String → Option Checkpoint} {task other : Task}

structure Loaded (formats : Formats) (view : String → Option Checkpoint) (task : Task)
    (data : Document) : Prop where
  same : ∀ slot, task.update.owns formats task.now slot = false →
    slotValue data.get? slot = slotValue view slot
  covers : ∀ name, (view name).isSome = true →
    name = task.update.pipeline ∨ (data.get? name).isSome = true
  inside : ∀ name, (data.get? name).isSome = true → (view name).isSome = true

structure TaskOk (formats : Formats) (view : String → Option Checkpoint) (task : Task) : Prop where
  prepared : ∀ updates, task.phase.updates? = some updates →
    Prepared formats task.now view task.update updates
  loaded : ∀ data, task.phase.data? = some data → Loaded formats view task data

theorem owns_iff (slot : Slot) :
    task.update.owns formats task.now slot = (task.wrote formats slot).isSome := by
  unfold Update.owns Task.wrote
  by_cases same : slot.pipeline = task.update.pipeline
  · simp [same]
  · simp [same]

theorem owns_updatedAt (formats : Formats) (task : Task) :
    task.update.owns formats task.now
      ⟨task.update.pipeline, .key "_updated_at" (by decide)⟩ = true := by
  rw [owns_iff]
  obtain ⟨update, now, phase⟩ := task
  cases update with
  | hashState pipeline docId chunkHash => simp [Task.wrote, Update.wrote]
  | _ => simp [Task.wrote, Update.wrote, Update.updates, written, get?_stamp]

variable {updates : Checkpoint} {data : Document}

theorem slotValue_write (prepared : Prepared formats task.now view task.update updates)
    (loaded : Loaded formats view task data) (slot : Slot) :
    slotValue (merge task.update.pipeline (stamp formats task.now updates) data).get? slot =
      (task.wrote formats slot).getD (slotValue view slot) := by
  rw [slotValue_merge]
  unfold Task.wrote
  split
  · rename_i same
    obtain ⟨pipeline, part⟩ := slot
    obtain rfl : pipeline = task.update.pipeline := same
    cases own : task.update.wrote formats task.now part with
    | some value =>
        rw [prepared.wrote part value own]
        rfl
    | none =>
        have free : task.update.owns formats task.now ⟨task.update.pipeline, part⟩ = false := by
          simp [Update.owns, own]
        dsimp only
        cases back : written (stamp formats task.now updates) part with
        | none => exact loaded.same _ free
        | some value => exact prepared.kept part own value back
  · rename_i other
    have free : task.update.owns formats task.now slot = false := by
      simp [Update.owns, other]
    exact loaded.same slot free

theorem isSome_merge (loaded : Loaded formats view task data) (name : String) :
    ((merge task.update.pipeline (stamp formats task.now updates) data).get? name).isSome = true ↔
      name = task.update.pipeline ∨ (view name).isSome = true := by
  rw [get?_merge]
  split
  · rename_i same
    simp [same]
  · rename_i differs
    constructor
    · intro held
      exact Or.inr (loaded.inside name held)
    · rintro (same | held)
      · exact absurd same differs
      · exact (loaded.covers name held).resolve_left differs

theorem TaskOk.undisturbed {later : String → Option Checkpoint} {locking : Bool}
    (known : TaskOk formats view other)
    (slots : ∀ slot, slotValue later slot =
      (task.wrote formats slot).getD (slotValue view slot))
    (names : ∀ name, (later name).isSome = true ↔
      name = task.update.pipeline ∨ (view name).isSome = true)
    (fair : Undisturbed formats locking task other)
    (unlocked : other.phase.data?.isSome = true → locking = false) :
    TaskOk formats later other := by
  have kept : ∀ slot, task.update.owns formats task.now slot = false →
      slotValue later slot = slotValue view slot := by
    intro slot free
    rw [owns_iff, Option.isSome_eq_false_iff, Option.isNone_iff_eq_none] at free
    rw [slots, free]
    rfl
  constructor
  · intro updates held
    have before := known.prepared updates held
    refine ⟨before.wrote, ?_, before.onlyHashes⟩
    intro part untouched value same
    obtain ⟨docId, another, target, rfl, differs⟩ :=
      before.onlyHashes part untouched (by rw [same]; rfl)
    rw [kept _ (fair.hashes (by rw [held]; rfl) _ docId target another differs)]
    exact before.kept _ untouched value same
  · intro data held
    have before := known.loaded data held
    have present : other.phase.data?.isSome = true := by
      rw [held]
      rfl
    have owned := fair.document (unlocked present) present
    refine ⟨?_, ?_, ?_⟩
    · intro slot free
      rw [before.same slot free]
      refine (kept slot ?_).symm
      cases owns : task.update.owns formats task.now slot with
      | false => rfl
      | true =>
          rw [owned slot owns] at free
          cases free
    · intro name there
      rcases (names name).mp there with same | old
      · have stamped := owned _ (owns_updatedAt formats task)
        simp only [Update.owns, Bool.and_eq_true, decide_eq_true_eq] at stamped
        exact Or.inl (same.trans stamped.1)
      · exact before.covers name old
    · intro name there
      exact (names name).mpr (Or.inr (before.inside name there))

end Reading

/-! The invariant of a pool, kept turn by turn. -/

section Pools

variable {σ ω : Type} {formats : Formats} {backend : Backend σ ω} {locking : Bool}
  {pool next : Pool (Log σ) Task} {input : Input ω} {task : Task} {index : Nat}

/-- Whoever is inside holds the lock file at the path, and nobody else is. -/
structure Exclusive (pool : Pool (Log σ) Task) : Prop where
  holds : ∀ task ∈ pool.tasks, task.phase.inside = true →
    pool.shared.held = true ∧ task.phase.lock? = some pool.shared.lockFile
  alone : ∀ (first second : Nat) (one other : Task), pool.tasks[first]? = some one →
    pool.tasks[second]? = some other → one.phase.inside = true → other.phase.inside = true →
      first = second

structure Sound (formats : Formats) (backend : Backend σ ω) (locking : Bool)
    (pool : Pool (Log σ) Task) : Prop where
  tasks : ∀ task ∈ pool.tasks, TaskOk formats (viewOf backend pool) task
  exclusive : locking = true → Exclusive pool

theorem inside_of_data {phase : Phase} (loaded : phase.data?.isSome = true) :
    phase.inside = true := by
  cases phase with
  | loaded updates lock data => rfl
  | _ => cases loaded

theorem taskOk_of_idle {view : String → Option Checkpoint} {task : Task}
    (updates : task.phase.updates? = none) (data : task.phase.data? = none) :
    TaskOk formats view task := by
  constructor
  · intro found held
    rw [updates] at held
    cases held
  · intro found held
    rw [data] at held
    cases held

theorem Exclusive.spawn (known : Exclusive pool) (update : Update) (now : Rat) :
    Exclusive ⟨pool.shared, pool.tasks ++ [⟨update, now, .started⟩]⟩ := by
  constructor
  · intro task member inside
    rcases List.mem_append.mp member with old | new
    · exact known.holds task old inside
    · obtain rfl := List.mem_singleton.mp new
      cases inside
  · intro first second one other oneFound otherFound oneInside otherInside
    rcases tasks_spawned oneFound with left | ⟨-, rfl⟩
    · rcases tasks_spawned otherFound with right | ⟨-, rfl⟩
      · exact known.alone first second one other left right oneInside otherInside
      · cases otherInside
    · cases oneInside

theorem Sound.spawn (known : Sound formats backend locking pool) (update : Update) (now : Rat) :
    Sound formats backend locking ⟨pool.shared, pool.tasks ++ [⟨update, now, .started⟩]⟩ := by
  constructor
  · intro task member
    rcases List.mem_append.mp member with old | new
    · exact known.tasks task old
    · obtain rfl := List.mem_singleton.mp new
      exact taskOk_of_idle rfl rfl
  · intro locks
    exact (known.exclusive locks).spawn update now

theorem Exclusive.stay {after : Log σ} {phase : Phase} (known : Exclusive pool)
    (found : pool.tasks[index]? = some task)
    (lock : after.held = pool.shared.held ∧ after.lockFile = pool.shared.lockFile)
    (stays : phase.inside = true → task.phase.inside = true ∧ phase.lock? = task.phase.lock?) :
    Exclusive ⟨after, pool.tasks.set index { task with phase := phase }⟩ := by
  have member := List.mem_of_getElem? found
  constructor
  · rw [lock.1, lock.2]
    intro moved inside within
    rcases List.mem_or_eq_of_mem_set inside with old | rfl
    · exact known.holds moved old within
    · obtain ⟨before, same⟩ := stays within
      rw [same]
      exact known.holds task member before
  · have before : ∀ (place : Nat) (moved : Task),
        (pool.tasks.set index { task with phase := phase })[place]? = some moved →
          moved.phase.inside = true →
            ∃ held, pool.tasks[place]? = some held ∧ held.phase.inside = true := by
      intro place moved here within
      rcases tasks_advanced here with ⟨rfl, rfl⟩ | ⟨-, old⟩
      · exact ⟨task, found, (stays within).1⟩
      · exact ⟨moved, old, within⟩
    intro first second one other oneFound otherFound oneInside otherInside
    obtain ⟨_, oneBefore, oneHeld⟩ := before first one oneFound oneInside
    obtain ⟨_, otherBefore, otherHeld⟩ := before second other otherFound otherInside
    exact known.alone first second _ _ oneBefore otherBefore oneHeld otherHeld

theorem exclusive_of_alone {after : Log σ} {phase : Phase}
    (alone : ∀ (another : Nat) (other : Task), another ≠ index → pool.tasks[another]? = some other →
      other.phase.inside = false)
    (own : phase.inside = true → after.held = true ∧ phase.lock? = some after.lockFile) :
    Exclusive ⟨after, pool.tasks.set index { task with phase := phase }⟩ := by
  have there : ∀ (place : Nat) (moved : Task),
      (pool.tasks.set index { task with phase := phase })[place]? = some moved →
        moved.phase.inside = true → place = index ∧ moved = { task with phase := phase } := by
    intro place moved here within
    rcases tasks_advanced here with moves | ⟨differs, old⟩
    · exact moves
    · rw [alone place moved differs old] at within
      cases within
  constructor
  · intro moved inside within
    obtain ⟨place, here⟩ := List.mem_iff_getElem?.mp inside
    obtain ⟨-, rfl⟩ := there place moved here within
    exact own within
  · intro first second one other oneFound otherFound oneInside otherInside
    rw [(there first one oneFound oneInside).1, (there second other otherFound otherInside).1]

theorem Exclusive.others (known : Exclusive pool) (found : pool.tasks[index]? = some task)
    (within : task.phase.inside = true) (another : Nat) (other : Task) (differs : another ≠ index)
    (here : pool.tasks[another]? = some other) : other.phase.inside = false := by
  cases inside : other.phase.inside with
  | false => rfl
  | true => exact absurd (known.alone another index other task here found inside within) differs

theorem Exclusive.turn {after : Log σ} {phase : Phase} (known : Exclusive pool)
    (found : pool.tasks[index]? = some task)
    (turned : Turned formats backend true input task pool.shared after phase)
    (lock : ∀ updates, task.phase = .prepared updates → input.stale = true →
      pool.shared.held = false) :
    Exclusive ⟨after, pool.tasks.set index { task with phase := phase }⟩ := by
  cases turned with
  | raises before => exact known.stay found ⟨rfl, rfl⟩ (by simp [Phase.inside])
  | prepares updates before made => exact known.stay found ⟨rfl, rfl⟩ (by simp [Phase.inside])
  | locks updates file before locks free =>
      have unheld : pool.shared.held = false := free.elim id (lock updates before)
      refine exclusive_of_alone ?_ (fun _ => ⟨rfl, rfl⟩)
      intro another other differs here
      cases inside : other.phase.inside with
      | false => rfl
      | true =>
          have held := (known.holds other (List.mem_of_getElem? here) inside).1
          rw [unheld] at held
          cases held
  | enters updates before unlocked => cases unlocked
  | loads updates lock before =>
      exact known.stay found ⟨rfl, rfl⟩ (by simp [before, Phase.inside, Phase.lock?])
  | writes updates lock data before =>
      exact known.stay found ⟨rfl, rfl⟩ (by simp [before, Phase.inside, Phase.lock?])
  | releases lock before =>
      refine exclusive_of_alone ?_ (by simp [Phase.inside])
      exact known.others found (by rw [before]; rfl)

theorem get?_readWal {store : σ}
    (fair : input.readFails = true → ∀ name, backend.view store name = none) :
    (readWal backend input store).get? = backend.view store := by
  funext name
  unfold readWal
  split
  · rename_i fails
    rw [fair fails]
    rfl
  · exact backend.read_spec input.choice store name

theorem TaskOk.turned {after : Log σ} {phase : Phase}
    (known : TaskOk formats (viewOf backend pool) task)
    (turned : Turned formats backend locking input task pool.shared after phase)
    (quiet : task.phase.data? = none)
    (fair : Orderly formats backend locking pool index input task) :
    TaskOk formats (backend.view after.store) { task with phase := phase } := by
  cases turned with
  | raises before => exact taskOk_of_idle rfl rfl
  | prepares updates before made =>
      constructor
      · rintro _ ⟨rfl⟩
        refine prepared_updates made ?_
        intro pipeline docId target another differs
        by_cases fails : input.readFails = true
        · rw [readWal, if_pos fails]
          exact (fair.hashRead before fails pipeline docId target another differs).symm
        · rw [get?_readWal (fun failing => absurd failing fails)]
      · rintro _ ⟨⟩
  | locks updates file before locks free =>
      constructor
      · rintro _ ⟨rfl⟩
        exact known.prepared updates (by rw [before]; rfl)
      · rintro _ ⟨⟩
  | enters updates before unlocked =>
      constructor
      · rintro _ ⟨rfl⟩
        exact known.prepared updates (by rw [before]; rfl)
      · rintro _ ⟨⟩
  | loads updates lock before =>
      have shown := get?_readWal (fair.read updates lock before)
      constructor
      · rintro _ ⟨rfl⟩
        exact known.prepared updates (by rw [before]; rfl)
      · rintro _ ⟨rfl⟩
        constructor
        · intro slot free
          rw [shown]
        · intro name held
          rw [shown]
          exact Or.inr held
        · intro name held
          rw [shown] at held
          exact held
  | writes updates lock data before =>
      rw [before] at quiet
      cases quiet
  | releases lock before => exact taskOk_of_idle rfl rfl

theorem turned_store {log after : Log σ} {phase : Phase}
    (turned : Turned formats backend locking input task log after phase)
    (quiet : task.phase.data? = none) : after.store = log.store := by
  cases turned with
  | writes updates lock data before =>
      rw [before] at quiet
      cases quiet
  | releases lock before => exact Log.release_store log lock
  | _ => rfl

theorem TaskOk.view_write {updates : Checkpoint} {lock : Option Nat} {data : Document} {store : σ}
    (known : TaskOk formats (backend.view store) task)
    (before : task.phase = .loaded updates lock data) :
    backend.view (backend.write
        (merge task.update.pipeline (stamp formats task.now updates) data) store) =
      (merge task.update.pipeline (stamp formats task.now updates) data).get? := by
  funext name
  refine backend.write_spec _ store ?_ name
  intro name held
  rw [isSome_merge (known.loaded data (by rw [before]; rfl))]
  exact Or.inr held

theorem Sound.exclusive_turn {after : Log σ} {phase : Phase}
    (known : Sound formats backend locking pool) (found : pool.tasks[index]? = some task)
    (turned : Turned formats backend locking input task pool.shared after phase)
    (fair : Orderly formats backend locking pool index input task) (locks : locking = true) :
    Exclusive ⟨after, pool.tasks.set index { task with phase := phase }⟩ := by
  subst locks
  exact (known.exclusive rfl).turn found turned fair.lock

theorem Sound.quiet {after : Log σ} {phase : Phase} (known : Sound formats backend locking pool)
    (found : pool.tasks[index]? = some task)
    (turned : Turned formats backend locking input task pool.shared after phase)
    (fair : Orderly formats backend locking pool index input task)
    (quiet : task.phase.data? = none) :
    Sound formats backend locking ⟨after, pool.tasks.set index { task with phase := phase }⟩ := by
  have own := (known.tasks task (List.mem_of_getElem? found)).turned turned quiet fair
  have same : viewOf backend ⟨after, pool.tasks.set index { task with phase := phase }⟩ =
      viewOf backend pool := by
    unfold viewOf
    rw [turned_store turned quiet]
  refine ⟨?_, known.exclusive_turn found turned fair⟩
  intro moved inside
  rcases List.mem_or_eq_of_mem_set inside with old | rfl
  · rw [same]
    exact known.tasks moved old
  · exact own

theorem Sound.writing {after : Log σ} {phase : Phase} (known : Sound formats backend locking pool)
    (found : pool.tasks[index]? = some task)
    (turned : Turned formats backend locking input task pool.shared after phase)
    (fair : Orderly formats backend locking pool index input task)
    (loaded : task.phase.data?.isSome = true) :
    Sound formats backend locking ⟨after, pool.tasks.set index { task with phase := phase }⟩ ∧
      ∀ slot, slotValue (backend.view after.store) slot =
        (task.wrote formats slot).getD (slotValue (viewOf backend pool) slot) := by
  have exclusive := known.exclusive_turn found turned fair
  have within := inside_of_data loaded
  have own := known.tasks task (List.mem_of_getElem? found)
  cases turned with
  | writes updates lock data before =>
      have read := own.loaded data (by rw [before]; rfl)
      have prepared := own.prepared updates (by rw [before]; rfl)
      have shown := own.view_write before
      have slots := slotValue_write prepared read
      refine ⟨⟨?_, exclusive⟩, ?_⟩
      · intro moved inside
        obtain ⟨place, here⟩ := List.mem_iff_getElem?.mp inside
        rcases tasks_advanced here with ⟨rfl, rfl⟩ | ⟨differs, old⟩
        · exact taskOk_of_idle rfl rfl
        · unfold viewOf
          rw [shown]
          refine (known.tasks moved (List.mem_of_getElem? old)).undisturbed slots
            (isSome_merge read) (fair.write loaded place moved differs old) ?_
          intro reading
          cases locks : locking with
          | false => rfl
          | true =>
              have off := (known.exclusive locks).others found within place moved differs old
              rw [inside_of_data reading] at off
              cases off
      · rw [shown]
        exact slots
  | raises before => simp [before, Phase.data?] at loaded
  | prepares updates before made => simp [before, Phase.data?] at loaded
  | locks updates file before locks free => simp [before, Phase.data?] at loaded
  | enters updates before unlocked => simp [before, Phase.data?] at loaded
  | loads updates lock before => simp [before, Phase.data?] at loaded
  | releases lock before => simp [before, Phase.data?] at loaded

theorem NoLostUpdate.snoc {start : Pool (Log σ) Task} {events : List (WalEvent σ ω)}
    {event : WalEvent σ ω} (lossless : NoLostUpdate formats backend start pool events)
    (slots : ∀ slot, slotValue (viewOf backend next) slot =
      ((writer event).bind (fun task => task.wrote formats slot)).getD
        (slotValue (viewOf backend pool) slot)) :
    NoLostUpdate formats backend start next (events ++ [event]) := by
  intro slot
  rw [slots, lossless slot, List.filterMap_append]
  cases writes : writer event with
  | none => simp [writes, lastWritten]
  | some task => simp [writes, lastWritten]

/-- In a run whose turns are all orderly no update is lost: every place has the value written
there last, and places that nobody writes keep theirs. -/
theorem no_update_lost {start : Log σ} {last : Pool (Log σ) Task} {events : List (WalEvent σ ω)}
    (run : Run (walStep formats backend locking) ⟨start, []⟩ events last)
    (fair : ∀ event ∈ events, OrderlyEvent formats backend locking event) :
    NoLostUpdate formats backend ⟨start, []⟩ last events := by
  have kept : Sound formats backend locking last ∧
      NoLostUpdate formats backend ⟨start, []⟩ last events := by
    refine Run.history_induction (OrderlyEvent formats backend locking)
      (fun events pool => Sound formats backend locking pool ∧
        NoLostUpdate formats backend ⟨start, []⟩ pool events) ?_ ?_ run fair
    · refine ⟨⟨by simp, fun _ => ⟨by simp, by simp⟩⟩, ?_⟩
      intro slot
      rfl
    · intro events pool move next _ known stepped orderly
      obtain ⟨sound, lossless⟩ := known
      cases move with
      | spawn call =>
          obtain rfl := interleave_spawn stepped
          exact ⟨sound.spawn call.1 call.2, lossless.snoc (fun _ => rfl)⟩
      | advance index input =>
          obtain ⟨task, shared, later, found, took, rfl⟩ := interleave_advance stepped
          obtain ⟨⟨after, phase⟩, turns, equal⟩ := Option.map_eq_some_iff.mp took
          obtain ⟨rfl, rfl⟩ := Prod.mk.inj equal
          have turned := turned_of_turn turns
          have fairTurn := orderly index input rfl task found
          cases loaded : task.phase.data?.isSome with
          | false =>
              have quiet : task.phase.data? = none := by simpa using loaded
              refine ⟨sound.quiet found turned fairTurn quiet, lossless.snoc ?_⟩
              intro slot
              simp [writer, found, Option.filter_some, quiet, viewOf, turned_store turned quiet]
          | true =>
              obtain ⟨still, slots⟩ := sound.writing found turned fairTurn loaded
              refine ⟨still, lossless.snoc ?_⟩
              intro slot
              simp only [writer, found, Option.filter_some, loaded, if_true, Option.bind_some]
              exact slots slot
  exact kept.2

end Pools

/-! Runs on a file with locking, all at the first second. -/

abbrev FilePool := Pool (Log Document) Task

abbrev FileMove := Move (Update × Rat) (Input Unit)

def fileEvents (moves : List FileMove) : List (WalEvent Document Unit) :=
  (record (walStep Formats.plain fileBackend true) ⟨⟨∅, false, 0⟩, []⟩ moves).getD []

theorem fileEvents_run (moves : List FileMove)
    (recorded : (record (walStep Formats.plain fileBackend true) ⟨⟨∅, false, 0⟩, []⟩
      moves).isSome = true) :
    Run (walStep Formats.plain fileBackend true) ⟨⟨∅, false, 0⟩, []⟩ (fileEvents moves)
      (final ⟨⟨∅, false, 0⟩, []⟩ (fileEvents moves)) :=
  run_of_isSome recorded

def setHashOf (docId : String) : Update := .hashState "indexing" docId "h"

def turns (count index : Nat) : List FileMove := List.replicate count (.advance index ⟨(), false, false⟩)

def undisturbedTurn (event : WalEvent Document Unit) : Bool :=
  match event.action with
  | .spawn _ => true
  | .advance index input =>
      !input.readFails && !input.stale &&
        event.before.tasks.zipIdx.all (fun entry =>
          entry.2 == index || (entry.1.phase.updates?.isNone && entry.1.phase.data?.isNone))

theorem orderly_of_undisturbedTurn {event : WalEvent Document Unit}
    (quiet : undisturbedTurn event = true) :
    OrderlyEvent Formats.plain fileBackend true event := by
  rintro index input moves task found
  simp only [undisturbedTurn, moves, Bool.and_eq_true, Bool.not_eq_true', List.all_eq_true] at quiet
  obtain ⟨⟨reads, fresh⟩, others⟩ := quiet
  constructor
  · intro _ fails
    rw [reads] at fails
    cases fails
  · intro _ _ _ fails
    rw [reads] at fails
    cases fails
  · intro _ _ stale
    rw [fresh] at stale
    cases stale
  · intro _ another other differs here
    have idle := others (other, another) (List.mem_zipIdx_iff_getElem?.mpr here)
    simp only [Bool.or_eq_true, beq_iff_eq, differs, false_or, Bool.and_eq_true,
      Option.isNone_iff_eq_none] at idle
    constructor
    · intro unlocked
      cases unlocked
    · rw [idle.1]
      rintro ⟨⟩

def oneByOne : List FileMove :=
  .spawn (setHashOf "a", 0) :: .spawn (setHashOf "b", 0) :: (turns 5 0 ++ turns 5 1)

theorem no_update_lost_one_by_one :
    NoLostUpdate Formats.plain fileBackend ⟨⟨∅, false, 0⟩, []⟩
      (final ⟨⟨∅, false, 0⟩, []⟩ (fileEvents oneByOne)) (fileEvents oneByOne) :=
  no_update_lost (fileEvents_run _ (by decide +kernel))
    (fun event member => orderly_of_undisturbedTurn
      (List.all_eq_true.mp (by decide +kernel : (fileEvents oneByOne).all undisturbedTurn = true)
        event member))

def overlapping : List FileMove :=
  .spawn (setHashOf "a", 0) :: .spawn (setHashOf "b", 0) ::
    (turns 1 0 ++ turns 1 1 ++ turns 4 0 ++ turns 4 1)

/-- The first hash is gone although the lock was taken for each write and nothing failed. -/
theorem hash_update_lost :
    ¬ ∀ last events, Run (walStep Formats.plain fileBackend true) ⟨⟨∅, false, 0⟩, []⟩ events last →
      (∀ event ∈ events, ∀ index input, event.action = .advance index input →
        input.readFails = false ∧ input.stale = false) →
      NoLostUpdate Formats.plain fileBackend ⟨⟨∅, false, 0⟩, []⟩ last events := by
  intro lossless
  have run := fileEvents_run overlapping (by decide +kernel)
  have calm : ∀ event ∈ fileEvents overlapping, ∀ index input,
      event.action = .advance index input → input.readFails = false ∧ input.stale = false := by
    have checked : (fileEvents overlapping).all (fun event =>
        match event.action with
        | .advance _ input => !input.readFails && !input.stale
        | .spawn _ => true) = true := by
      decide +kernel
    intro event member index input moves
    have fine := List.all_eq_true.mp checked event member
    rw [moves] at fine
    simpa using fine
  have kept := lossless _ _ run calm ⟨"indexing", .hash "a"⟩
  have gone : (slotValue (viewOf fileBackend (final ⟨⟨∅, false, 0⟩, []⟩ (fileEvents overlapping)))
      ⟨"indexing", .hash "a"⟩).isNone = true := by
    decide +kernel
  have due : (lastWritten Formats.plain ⟨"indexing", .hash "a"⟩
      (slotValue (viewOf fileBackend ⟨⟨∅, false, 0⟩, []⟩) ⟨"indexing", .hash "a"⟩)
      ((fileEvents overlapping).filterMap writer)).isSome = true := by
    decide +kernel
  rw [kept, Option.isNone_iff_eq_none] at gone
  rw [gone] at due
  cases due

end RagSystem.Etl.Wal
