import Mathlib.Data.List.TakeWhile
import RagSystem.Shared.PoolForm

/-! The connection pool in any order of calls: who holds which connection, which ones are idle, and
how many are open. -/

namespace RagSystem.ConnectionPool

open Transition

def heldBy (tasks : List Task) : List Connection := tasks.filterMap Task.held?

def openConnections (pool : Pooled) (held : List Connection) : Finset Connection :=
  (pool.available ++ held).toFinset \ pool.shut

structure Sound (config : PoolConfig) (pool : Pooled) (held : List Connection) : Prop where
  /-- No connection is held by two users. -/
  apart : held.Nodup
  idle : ∀ conn ∈ pool.available,
    some conn ∈ pool.connections ∧ conn ∉ pool.inUse ∧ conn ∉ held
  few : (openConnections pool held).card ≤ config.maxConnections

structure SoundState (config : PoolConfig) (state : Pool Pooled Task) : Prop where
  sound : Sound config state.shared (heldBy state.tasks)
  errors : ∀ task ∈ state.tasks, ∀ error, task.error? = some error → error.expected = true

abbrev PoolEvent := Event (Pool Pooled Task) (Move Operation Input)

def handedOut (event : PoolEvent) : Option Connection :=
  match event.action with
  | .spawn _ => none
  | .advance index _ =>
      match (event.before.tasks[index]?).bind Task.held?,
        (event.after.tasks[index]?).bind Task.held? with
      | none, some conn => some conn
      | _, _ => none

/-- The event leaves a sound state, and hands out no connection that the pool has closed. -/
structure RightEvent (config : PoolConfig) (event : PoolEvent) : Prop where
  state : SoundState config event.after
  handedOut : ∀ conn, handedOut event = some conn → conn ∉ event.after.shared.shut

/-! When a turn goes well. -/

section Well

variable (config : PoolConfig) (input : Input) (pool : Pooled)

/-- The connection that `acquire` takes is idle once, and was not closed. Without one it needs a
factory, if there is room for another. -/
def TakesWell : Prop :=
  match pool.available with
  | candidate :: rest =>
      input.valid candidate = true → candidate ∉ rest ∧ candidate ∉ pool.shut
  | [] => pool.room config = true → config.hasFactory = true

variable (others : List Connection)

/-- `others` are the connections that other tasks hold. -/
def BlockWell : BlockPhase → Prop
  | .waiting => pool.closed = false → TakesWell config input pool
  | .discarding candidate =>
      some candidate ∈ pool.connections ∧ candidate ∉ pool.available.tail ∧
        TakesWell config input (pool.remove candidate)
  | .creating =>
      input.factoryFails = false → (openConnections pool others).card < config.maxConnections
  | .holding conn =>
      (pool.discard conn).keeps config input conn = true → some conn ∈ pool.connections
  | .returning conn => conn ∉ pool.available
  | .left => True
  | .failed _ => True

/-- The idle connections that `acquire_sync` closes on its way. -/
def refused : List Connection := pool.available.takeWhile fun conn => !input.valid conn

def SweepsWell : Prop :=
  (refused input pool).Nodup ∧
    match pool.available.dropWhile fun conn => !input.valid conn with
    | found :: rest =>
        found ∉ rest ∧ found ∉ pool.shut ∧ ∀ conn ∈ refused input pool, conn ∉ rest
    | [] =>
        pool.connections.length - (refused input pool).length < config.maxConnections →
          config.hasFactory = true → input.factoryFails = false →
            (openConnections { pool with available := [] } others).card < config.maxConnections

/-- A connection that is released again is still in the list and with nobody else, where it is
kept, and not idle, where it is closed. -/
def TicketWell : TicketPhase → Prop
  | .calling => pool.closed = false → SweepsWell config input pool others
  | .holding conn =>
      (pool.discard conn).keeps config input conn = true → some conn ∈ pool.connections
  | .released conn =>
      if (pool.discard conn).keeps config input conn then
        some conn ∈ pool.connections ∧ conn ∉ others
      else conn ∉ pool.available
  | .failed _ => True

/-- A connection that the check takes out of the list is not idle, unless this turn takes the last
of it. -/
def CheckWell : CheckPhase → Prop
  | .removing conn rest =>
      conn ∈ pool.available →
        rest.find? (fun other => !input.valid other) = some conn ∧ pool.available.count conn = 1
  | _ => True

def TurnWell : Task → Prop
  | .block phase => BlockWell config input pool others phase
  | .ticket phase => TicketWell config input pool others phase
  | .healthCheck phase => CheckWell input pool phase
  | _ => True

end Well

/-- The turn of the event goes well, with the connections that the other tasks hold. -/
def GoesWell (config : PoolConfig) (event : PoolEvent) : Prop :=
  ∀ index input, event.action = .advance index input → ∀ task,
    event.before.tasks[index]? = some task →
      TurnWell config input event.before.shared (heldBy (event.before.tasks.eraseIdx index)) task

/-! What a change makes of a sound pool. -/

section Changes

variable {config : PoolConfig} {input : Input} {pool next : Pooled}
  {held later others : List Connection} {conn : Connection}

theorem card_open_le (idle : next.available ⊆ pool.available ++ held)
    (users : later ⊆ pool.available ++ held) (shut : pool.shut ⊆ next.shut) :
    (openConnections next later).card ≤ (openConnections pool held).card := by
  apply Finset.card_le_card
  intro conn member
  obtain ⟨known, unclosed⟩ := Finset.mem_sdiff.mp member
  refine Finset.mem_sdiff.mpr ⟨?_, fun closed => unclosed (shut closed)⟩
  rw [List.mem_toFinset] at known ⊢
  rcases List.mem_append.mp known with stays | user
  · exact idle stays
  · exact users user

theorem sound_fewer_iff (next : Pooled) (sound : Sound config pool held)
    (idle : next.available ⊆ pool.available) (unused : next.inUse ⊆ pool.inUse)
    (users : later.Sublist held)
    (shut : pool.shut ⊆ next.shut) :
    Sound config next later ↔ ∀ conn ∈ next.available, some conn ∈ next.connections := by
  constructor
  · exact fun after conn member => (after.idle conn member).1
  · intro listed
    refine ⟨sound.apart.sublist users, ?_, ?_⟩
    · intro conn member
      obtain ⟨-, free, alone⟩ := sound.idle conn (idle member)
      exact ⟨listed conn member, fun used => free (unused used), fun user =>
        alone (users.subset user)⟩
    · refine (card_open_le ?_ ?_ shut).trans sound.few
      · exact fun conn member => List.mem_append_left _ (idle member)
      · exact fun conn member => List.mem_append_right _ (users.subset member)

theorem sound_taken_iff (next : Pooled) (sound : Sound config pool others)
    (taken : conn ∈ pool.available) (idle : next.available ⊆ pool.available)
    (used : next.inUse = insert conn pool.inUse)
    (shut : pool.shut ⊆ next.shut) :
    Sound config next (conn :: others) ↔
      conn ∉ next.available ∧ ∀ other ∈ next.available, some other ∈ next.connections := by
  constructor
  · intro after
    refine ⟨fun member => (after.idle conn member).2.2 List.mem_cons_self, ?_⟩
    exact fun other member => (after.idle other member).1
  · intro good
    obtain ⟨gone, listed⟩ := good
    refine ⟨List.nodup_cons.mpr ⟨(sound.idle conn taken).2.2, sound.apart⟩, ?_, ?_⟩
    · intro other member
      obtain ⟨-, free, alone⟩ := sound.idle other (idle member)
      have differs : other ≠ conn := fun same => gone (same ▸ member)
      exact ⟨listed other member, by simp [used, differs, free], by simp [differs, alone]⟩
    · refine (card_open_le ?_ ?_ shut).trans sound.few
      · exact fun other member => List.mem_append_left _ (idle member)
      · intro other member
        rcases List.mem_cons.mp member with rfl | user
        · exact List.mem_append_left _ taken
        · exact List.mem_append_right _ user

theorem sound_putBack_iff (sound : Sound config pool held) (formed : Formed pool held)
    (users : others.Sublist held) :
    Sound config ((pool.discard conn).putBack conn) others ↔
      some conn ∈ pool.connections ∧ conn ∉ others := by
  constructor
  · intro after
    obtain ⟨listed, -, alone⟩ := after.idle conn List.mem_cons_self
    exact ⟨listed, alone⟩
  · intro good
    obtain ⟨listed, alone⟩ := good
    refine ⟨sound.apart.sublist users, ?_, ?_⟩
    · intro other member
      rcases List.mem_cons.mp member with rfl | stays
      · exact ⟨listed, by simp [Pooled.putBack, Pooled.discard], alone⟩
      · obtain ⟨known, free, unheld⟩ := sound.idle other stays
        exact ⟨known, fun used => free (Finset.mem_of_mem_erase used),
          fun user => unheld (users.subset user)⟩
    · apply le_trans ?_ sound.few
      apply Finset.card_le_card
      intro other member
      obtain ⟨known, unclosed⟩ := Finset.mem_sdiff.mp member
      refine Finset.mem_sdiff.mpr ⟨?_, unclosed⟩
      have back : other = conn ∨ other ∈ pool.available ∨ other ∈ others := by
        simpa [Pooled.putBack, Pooled.discard, or_assoc] using known
      rw [List.mem_toFinset, List.mem_append]
      rcases back with rfl | stays | user
      · rcases formed.traced other listed with idle | user | closed
        · exact Or.inl idle
        · exact Or.inr user
        · exact absurd closed unclosed
      · exact Or.inl stays
      · exact Or.inr (users.subset user)

theorem sound_create_iff (sound : Sound config pool others) (formed : Formed pool others) :
    Sound config pool.create (pool.created :: others) ↔
      (openConnections pool others).card < config.maxConnections := by
  have fresh : ∀ {known : List Connection}, (∀ conn ∈ known, conn < pool.created) →
      pool.created ∉ known := fun below member => absurd (below _ member) (lt_irrefl _)
  have unheld := fresh formed.users
  have unclosed : pool.created ∉ pool.shut := fun closed =>
    absurd (formed.shut _ closed) (lt_irrefl _)
  have absent := fresh formed.available
  have count : (openConnections pool.create (pool.created :: others)).card =
      (openConnections pool others).card + 1 := by
    have more : openConnections pool.create (pool.created :: others) =
        insert pool.created (openConnections pool others) := by
      ext conn
      by_cases new : conn = pool.created
      · subst new
        simp [openConnections, Pooled.create, unclosed]
      · simp [openConnections, Pooled.create, new]
    rw [more, Finset.card_insert_of_notMem]
    simp [openConnections, absent, unheld]
  constructor
  · intro after
    have few := after.few
    omega
  · intro room
    refine ⟨List.nodup_cons.mpr ⟨unheld, sound.apart⟩, ?_, by omega⟩
    intro conn member
    obtain ⟨listed, free, alone⟩ := sound.idle conn member
    have differs : conn ≠ pool.created := fun same => absent (same ▸ member)
    exact ⟨List.mem_append_left _ listed, by simp [Pooled.create, differs, free],
      by simp [differs, alone]⟩

end Changes

/-! A turn is right exactly if it goes well. -/

structure RightTurn (config : PoolConfig) (after : Pooled) (others : List Connection)
    (task later : Task) : Prop where
  sound : Sound config after (later.held?.toList ++ others)
  error : ∀ error, later.error? = some error → error.expected = true
  handedOut : ∀ conn, task.held? = none → later.held? = some conn → conn ∉ after.shut

section Turns

variable {config : PoolConfig} {input : Input} {pool next : Pooled} {others : List Connection}
  {task later : Task}

theorem rightTurn_of_sound (quiet : later.error? = none) (keeps : later.held? = none) :
    RightTurn config next others task later ↔ Sound config next others := by
  constructor
  · intro right
    simpa [keeps] using right.sound
  · intro sound
    exact ⟨by simpa [keeps] using sound, by simp [quiet], by simp [keeps]⟩

theorem takeIdle_right_iff (input : Input) (task : Task) (sound : Sound config pool others)
    (empty : task.held? = none) (connections : List (Option Connection)) :
    RightTurn config (takeIdle config input { pool with connections }).1 others task
        (.block (takeIdle config input { pool with connections }).2) ↔
      (∀ conn ∈ pool.available.tail, some conn ∈ connections) ∧
        TakesWell config input { pool with connections } := by
  cases top : pool.available with
  | cons candidate rest =>
      have idle : rest ⊆ pool.available := top ▸ List.subset_cons_self _ _
      cases good : input.valid candidate with
      | true =>
        have taken := sound_taken_iff { pool with
            connections, available := rest, inUse := insert candidate pool.inUse, locked := false }
          sound (top ▸ List.mem_cons_self) idle rfl (Finset.Subset.refl _)
        simp only [takeIdle, good, if_true, TakesWell, List.tail_cons, forall_const]
        constructor
        · intro right
          obtain ⟨gone, listed⟩ := taken.mp right.sound
          exact ⟨listed, gone, right.handedOut candidate empty rfl⟩
        · intro well
          obtain ⟨listed, gone, unclosed⟩ := well
          refine ⟨taken.mpr ⟨gone, listed⟩, by simp [Task.error?], ?_⟩
          intro conn _ held
          obtain rfl := Option.some.inj held
          exact unclosed
      | false =>
        have refused := sound_fewer_iff { pool with
            connections, available := rest, shut := insert candidate pool.shut, locked := true }
          sound idle (Finset.Subset.refl _) (List.Sublist.refl _) (Finset.subset_insert _ _)
        simp only [takeIdle, good, Bool.false_eq_true, if_false, TakesWell, List.tail_cons,
          IsEmpty.forall_iff, and_true]
        exact (rightTurn_of_sound rfl rfl).trans refused
  | nil =>
      have kept : ∀ locked, Sound config { pool with connections, available := [], locked } others :=
        fun locked => (sound_fewer_iff { pool with connections, available := [], locked }
          sound (List.nil_subset _) (Finset.Subset.refl _) (List.Sublist.refl _)
          (Finset.Subset.refl _)).mpr (by simp)
      simp only [takeIdle, TakesWell, List.tail_nil, List.not_mem_nil, IsEmpty.forall_iff,
        implies_true, true_and]
      split
      · rename_i room
        split
        · rename_i made
          exact iff_of_true ((rightTurn_of_sound rfl rfl).mpr (kept true)) (fun _ => made)
        · rename_i unmade
          refine iff_of_false ?_ (fun well => unmade (well room))
          intro right
          exact absurd (right.error .noFactory rfl) (by decide)
      · rename_i full
        refine iff_of_true ⟨kept false, ?_, by simp [Task.held?]⟩ (fun room => absurd room full)
        intro error failed
        obtain rfl := Option.some.inj failed
        rfl

theorem waiting_right_iff {after : BlockPhase}
    (sound : Sound config pool ((Task.block .waiting).held?.toList ++ others))
    (turned : blockTurn config input pool .waiting = some (next, after)) :
    RightTurn config next others (.block .waiting) (.block after) ↔
      BlockWell config input pool others .waiting := by
  simp only [blockTurn] at turned
  split at turned
  · cases turned
  · split at turned
    · rename_i closed
      obtain ⟨rfl, rfl⟩ := Prod.mk.inj (Option.some.inj turned)
      refine iff_of_true ⟨sound, ?_, by simp [Task.held?]⟩ (by simp [BlockWell, closed])
      intro error failed
      obtain rfl := Option.some.inj failed
      rfl
    · rename_i opened
      have listed : ∀ conn ∈ pool.available.tail, some conn ∈ pool.connections :=
        fun conn member => (sound.idle conn (List.mem_of_mem_tail member)).1
      have right := takeIdle_right_iff input (.block .waiting) sound rfl
        pool.connections
      rw [Option.some.inj turned] at right
      refine right.trans ⟨fun well _ => well.2, ?_⟩
      exact fun well => ⟨listed, well (by simpa using opened)⟩

theorem discarding_right_iff {candidate : Connection} {after : BlockPhase}
    (fits : Fits pool others (.block (.discarding candidate)))
    (sound : Sound config pool ((Task.block (.discarding candidate)).held?.toList ++ others))
    (turned : blockTurn config input pool (.discarding candidate) = some (next, after)) :
    RightTurn config next others (.block (.discarding candidate)) (.block after) ↔
      BlockWell config input pool others (.discarding candidate) := by
  have formed := fits.formed
  simp only [blockTurn] at turned
  split at turned
  · rename_i listed
    have right := takeIdle_right_iff input (.block (.discarding candidate))
      sound rfl (pool.connections.erase (some candidate))
    have ended : takeIdle config input { pool with
        connections := pool.connections.erase (some candidate) } = (next, after) :=
      Option.some.inj turned
    rw [ended] at right
    refine right.trans ?_
    have left : (∀ conn ∈ pool.available.tail,
        some conn ∈ pool.connections.erase (some candidate)) ↔
          candidate ∉ pool.available.tail := by
      constructor
      · exact fun all member => not_mem_erase formed.once candidate (all candidate member)
      · intro gone conn member
        rw [mem_erase_iff formed.once]
        exact ⟨fun same => gone (same ▸ member),
          (sound.idle conn (List.mem_of_mem_tail member)).1⟩
    rw [left]
    exact ⟨fun well => ⟨listed, well⟩, fun well => well.2⟩
  · rename_i missing
    obtain ⟨rfl, rfl⟩ := Prod.mk.inj (Option.some.inj turned)
    refine iff_of_false ?_ (fun well => missing well.1)
    intro right
    exact absurd (right.error .notInList rfl) (by decide)

theorem creating_right_iff {after : BlockPhase} (fits : Fits pool others (.block .creating))
    (sound : Sound config pool ((Task.block .creating).held?.toList ++ others))
    (turned : blockTurn config input pool .creating = some (next, after)) :
    RightTurn config next others (.block .creating) (.block after) ↔
      BlockWell config input pool others .creating := by
  have formed := fits.formed
  have flags : ∀ locked, Sound config { pool with locked }
      ((Task.block .creating).held?.toList ++ others) :=
    fun locked => ⟨sound.apart, sound.idle, sound.few⟩
  simp only [blockTurn] at turned
  split at turned
  · rename_i fails
    obtain ⟨rfl, rfl⟩ := Prod.mk.inj (Option.some.inj turned)
    refine iff_of_true ⟨flags false, ?_, by simp [Task.held?]⟩ (by simp [BlockWell, fails])
    intro error failed
    obtain rfl := Option.some.inj failed
    rfl
  · rename_i made
    obtain ⟨rfl, rfl⟩ := Prod.mk.inj (Option.some.inj turned)
    have created := sound_create_iff sound formed
    have well : BlockWell config input pool others .creating ↔
        (openConnections pool others).card < config.maxConnections := by
      simp [BlockWell, made]
    rw [well]
    refine Iff.trans ?_ created
    constructor
    · exact fun right => ⟨right.sound.apart, right.sound.idle, right.sound.few⟩
    · intro more
      refine ⟨⟨more.apart, more.idle, more.few⟩, by simp [Task.error?], ?_⟩
      intro conn _ held closed
      obtain rfl := Option.some.inj held
      exact absurd (formed.shut _ closed) (lt_irrefl _)

theorem holding_right_iff {conn : Connection} {after : BlockPhase}
    (fits : Fits pool others (.block (.holding conn)))
    (sound : Sound config pool ((Task.block (.holding conn)).held?.toList ++ others))
    (turned : blockTurn config input pool (.holding conn) = some (next, after)) :
    RightTurn config next others (.block (.holding conn)) (.block after) ↔
      BlockWell config input pool others (.holding conn) := by
  have formed := fits.formed
  have users : others.Sublist (conn :: others) := List.sublist_cons_self _ _
  simp only [blockTurn] at turned
  split at turned
  · cases turned
  · split at turned
    · rename_i keeps
      obtain ⟨rfl, rfl⟩ := Prod.mk.inj (Option.some.inj turned)
      have alone : conn ∉ others := (List.nodup_cons.mp sound.apart).1
      rw [rightTurn_of_sound rfl rfl, sound_putBack_iff sound formed users]
      simp [BlockWell, keeps, alone]
    · rename_i drops
      obtain ⟨rfl, rfl⟩ := Prod.mk.inj (Option.some.inj turned)
      have kept := sound_fewer_iff { (pool.discard conn).closeConnection conn with
          locked := true } sound (List.Subset.refl _) (Finset.erase_subset _ _) users
        (Finset.subset_insert _ _)
      rw [rightTurn_of_sound rfl rfl, kept]
      refine iff_of_true (fun other member => (sound.idle other member).1) ?_
      exact fun keeps => absurd keeps drops

theorem returning_right_iff {conn : Connection} {after : BlockPhase}
    (fits : Fits pool others (.block (.returning conn)))
    (sound : Sound config pool ((Task.block (.returning conn)).held?.toList ++ others))
    (turned : blockTurn config input pool (.returning conn) = some (next, after)) :
    RightTurn config next others (.block (.returning conn)) (.block after) ↔
      BlockWell config input pool others (.returning conn) := by
  have formed := fits.formed
  obtain ⟨rfl, rfl⟩ := Prod.mk.inj (Option.some.inj turned)
  have kept := sound_fewer_iff { pool.remove conn with locked := false } sound
    (List.Subset.refl _) (Finset.Subset.refl _) (List.Sublist.refl _) (Finset.Subset.refl _)
  rw [rightTurn_of_sound rfl rfl]
  refine kept.trans ?_
  constructor
  · exact fun all member => not_mem_erase formed.once conn (all conn member)
  · intro gone other member
    exact (mem_erase_iff formed.once conn other).mpr
      ⟨fun same => gone (same ▸ member), (sound.idle other member).1⟩

theorem block_right_iff {phase after : BlockPhase} (fits : Fits pool others (.block phase))
    (sound : Sound config pool ((Task.block phase).held?.toList ++ others))
    (turned : blockTurn config input pool phase = some (next, after)) :
    RightTurn config next others (.block phase) (.block after) ↔
      BlockWell config input pool others phase := by
  cases phase with
  | waiting => exact waiting_right_iff sound turned
  | discarding candidate => exact discarding_right_iff fits sound turned
  | creating => exact creating_right_iff fits sound turned
  | holding conn => exact holding_right_iff fits sound turned
  | returning conn => exact returning_right_iff fits sound turned
  | left => cases turned
  | failed error => cases turned

/-- The pool after the loop of `acquire_sync` has closed connections. -/
def Pooled.without : List Connection → Pooled → Pooled
  | [], pool => pool
  | conn :: rest, pool => Pooled.without rest ((pool.closeConnection conn).remove conn)

theorem count_remove_le (once : ∀ conn, pool.connections.count (some conn) ≤ 1)
    (removed conn : Connection) :
    ((pool.closeConnection removed).remove removed).connections.count (some conn) ≤ 1 :=
  (List.erase_sublist.count_le (some conn)).trans (once conn)

theorem without_same (pool : Pooled) (closing : List Connection) :
    (Pooled.without closing pool).available = pool.available ∧
      (Pooled.without closing pool).inUse = pool.inUse ∧
      (Pooled.without closing pool).created = pool.created := by
  induction closing generalizing pool with
  | nil => exact ⟨rfl, rfl, rfl⟩
  | cons conn rest ih => exact ih _

theorem mem_shut_without (closing : List Connection) (conn : Connection) :
    conn ∈ (Pooled.without closing pool).shut ↔ conn ∈ closing ∨ conn ∈ pool.shut := by
  induction closing generalizing pool with
  | nil => simp [Pooled.without]
  | cons first rest ih =>
      rw [Pooled.without, ih]
      simp only [Pooled.closeConnection, Pooled.remove, Finset.mem_insert, List.mem_cons]
      tauto

theorem mem_connections_without (once : ∀ conn, pool.connections.count (some conn) ≤ 1)
    (closing : List Connection) (conn : Connection) :
    some conn ∈ (Pooled.without closing pool).connections ↔
      conn ∉ closing ∧ some conn ∈ pool.connections := by
  induction closing generalizing pool with
  | nil => simp [Pooled.without]
  | cons first rest ih =>
      rw [Pooled.without, ih (count_remove_le once first)]
      have left : some conn ∈ ((pool.closeConnection first).remove first).connections ↔
          conn ≠ first ∧ some conn ∈ pool.connections := mem_erase_iff once first conn
      rw [left, List.mem_cons]
      tauto

theorem sweep_append (input : Input) (once : ∀ conn, pool.connections.count (some conn) ≤ 1)
    (closing idle : List Connection) (invalid : ∀ conn ∈ closing, input.valid conn = false) :
    if closing.Nodup ∧ ∀ conn ∈ closing, some conn ∈ pool.connections then
      sweep input (closing ++ idle) pool = sweep input idle (Pooled.without closing pool)
    else (sweep input (closing ++ idle) pool).2 = .notInList := by
  have forgets : ∀ (idle rest : List Connection) (pool : Pooled),
      sweep input idle { pool with available := rest } = sweep input idle pool := by
    intro idle rest pool
    cases idle with
    | nil => rfl
    | cons conn idle => rfl
  induction closing generalizing pool with
  | nil => simp [Pooled.without]
  | cons first rest ih =>
      have refuses : input.valid first = false := invalid first List.mem_cons_self
      by_cases here : some first ∈ pool.connections
      · have onward : sweep input (first :: rest ++ idle) pool =
            sweep input (rest ++ idle) ((pool.closeConnection first).remove first) := by
          rw [List.cons_append, sweep, if_neg (by simp [refuses]), if_pos here]
          exact forgets (rest ++ idle) (rest ++ idle) ((pool.closeConnection first).remove first)
        have left : ∀ conn, some conn ∈ ((pool.closeConnection first).remove first).connections ↔
            conn ≠ first ∧ some conn ∈ pool.connections := mem_erase_iff once first
        have same : (rest.Nodup ∧ ∀ conn ∈ rest,
            some conn ∈ ((pool.closeConnection first).remove first).connections) ↔
            (first :: rest).Nodup ∧ ∀ conn ∈ first :: rest, some conn ∈ pool.connections := by
          simp only [left, List.nodup_cons, List.mem_cons, forall_eq_or_imp, here, true_and]
          constructor
          · intro known
            obtain ⟨nodup, all⟩ := known
            exact ⟨⟨fun again => (all first again).1 rfl, nodup⟩, fun conn member =>
              (all conn member).2⟩
          · intro known
            obtain ⟨⟨fresh, nodup⟩, all⟩ := known
            exact ⟨nodup, fun conn member => ⟨fun again => fresh (again ▸ member),
              all conn member⟩⟩
        rw [onward, ← ite_cond_congr (propext same)]
        exact ih (count_remove_le once first)
          (fun conn member => invalid conn (List.mem_cons_of_mem _ member))
      · rw [if_neg (fun known => here (known.2 first List.mem_cons_self)), List.cons_append, sweep,
          if_neg (by simp [refuses]), if_neg here]

theorem length_without (closing : List Connection) (nodup : closing.Nodup)
    (once : ∀ conn, pool.connections.count (some conn) ≤ 1)
    (listed : ∀ conn ∈ closing, some conn ∈ pool.connections) :
    (Pooled.without closing pool).connections.length = pool.connections.length - closing.length := by
  induction closing generalizing pool with
  | nil => rfl
  | cons first rest ih =>
      obtain ⟨fresh, others⟩ := List.nodup_cons.mp nodup
      have step : Pooled.without (first :: rest) pool =
          Pooled.without rest ((pool.closeConnection first).remove first) := rfl
      have here := listed first List.mem_cons_self
      have shorter : ((pool.closeConnection first).remove first).connections.length =
          pool.connections.length - 1 := List.length_erase_of_mem here
      rw [step, ih others (count_remove_le once first), shorter, List.length_cons]
      · omega
      · intro conn member
        exact (mem_erase_iff once first conn).mpr ⟨fun same => fresh (same ▸ member),
          listed conn (List.mem_cons_of_mem _ member)⟩

theorem refused_append (input : Input) (pool : Pooled) :
    pool.available = refused input pool ++ pool.available.dropWhile fun conn => !input.valid conn :=
  List.takeWhile_append_dropWhile.symm

theorem refused_invalid {conn : Connection} (member : conn ∈ refused input pool) :
    input.valid conn = false ∧ conn ∈ pool.available :=
  ⟨by simpa using List.mem_takeWhile_imp member, List.takeWhile_subset _ member⟩

theorem found_right_iff (sound : Sound config pool others) (formed : Formed pool others)
    (empty : task.held? = none) {found : Connection} {rest : List Connection}
    (valid : input.valid found = true)
    (split : pool.available = refused input pool ++ found :: rest) :
    RightTurn config ({ Pooled.without (refused input pool) pool with
        available := rest }.handOut found) others task (.ticket (.holding found)) ↔
      found ∉ rest ∧ found ∉ pool.shut ∧ ∀ conn ∈ refused input pool, conn ∉ rest := by
  obtain ⟨-, inUse, -⟩ := without_same pool (refused input pool)
  have idle : rest ⊆ pool.available := by
    intro conn member
    rw [split]
    exact List.mem_append_right _ (List.mem_cons_of_mem _ member)
  have here : found ∈ pool.available := by
    rw [split]
    exact List.mem_append_right _ List.mem_cons_self
  have taken := sound_taken_iff ({ Pooled.without (refused input pool) pool with
      available := rest }.handOut found) sound here idle
    (by simp only [Pooled.handOut]; rw [inUse])
    (fun conn closed => (mem_shut_without _ _).mpr (Or.inr closed))
  have listed : (∀ conn ∈ rest, some conn ∈ (Pooled.without (refused input pool) pool).connections) ↔
      ∀ conn ∈ refused input pool, conn ∉ rest := by
    constructor
    · intro all conn closed member
      exact ((mem_connections_without formed.once _ conn).mp (all conn member)).1 closed
    · intro apart conn member
      exact (mem_connections_without formed.once _ conn).mpr
        ⟨fun closed => apart conn closed member, (sound.idle conn (idle member)).1⟩
  constructor
  · intro right
    obtain ⟨gone, all⟩ := taken.mp right.sound
    have unclosed := right.handedOut found empty rfl
    exact ⟨gone, fun closed => unclosed ((mem_shut_without _ _).mpr (Or.inr closed)), listed.mp all⟩
  · intro well
    obtain ⟨gone, unclosed, apart⟩ := well
    refine ⟨taken.mpr ⟨gone, listed.mpr apart⟩, by simp [Task.error?], ?_⟩
    intro conn _ held closed
    obtain rfl := Option.some.inj held
    rcases (mem_shut_without _ _).mp closed with refuses | before
    · rw [(refused_invalid refuses).1] at valid
      cases valid
    · exact unclosed before

theorem empty_right_iff (sound : Sound config pool others) (formed : Formed pool others)
    (nodup : (refused input pool).Nodup) {swept : Pooled}
    (ended : swept = { Pooled.without (refused input pool) pool with available := [] })
    (kept : Formed swept others) {after : TicketPhase}
    (called : (if swept.room config then
        if config.hasFactory then
          if input.factoryFails then (swept, .failed .factory)
          else (swept.create, .holding swept.created)
        else ({ swept with connections := swept.connections ++ [none] }, .failed .exhausted)
      else (swept, .failed .exhausted)) = (next, after)) :
    RightTurn config next others task (.ticket after) ↔
      (pool.connections.length - (refused input pool).length < config.maxConnections →
        config.hasFactory = true → input.factoryFails = false →
          (openConnections { pool with available := [] } others).card < config.maxConnections) := by
  have room : swept.room config = true ↔
      pool.connections.length - (refused input pool).length < config.maxConnections := by
    have length := length_without _ nodup formed.once
      (fun conn member => (sound.idle conn (refused_invalid member).2).1)
    subst ended
    simp [Pooled.room, length]
  have still : ∀ connections, Sound config { swept with connections } others := by
    intro connections
    obtain ⟨-, inUse, -⟩ := without_same pool (refused input pool)
    subst ended
    refine (sound_fewer_iff { Pooled.without (refused input pool) pool with
      available := [], connections } sound (List.nil_subset _) inUse.subset (List.Sublist.refl _)
      (fun conn closed => (mem_shut_without _ _).mpr (Or.inr closed))).mpr (by simp)
  have count : openConnections swept others =
      openConnections { pool with available := [] } others := by
    ext conn
    subst ended
    simp only [openConnections, List.nil_append, Finset.mem_sdiff, List.mem_toFinset,
      mem_shut_without, not_or]
    constructor
    · exact fun member => ⟨member.1, member.2.2⟩
    · intro member
      obtain ⟨user, unclosed⟩ := member
      exact ⟨user, fun closed => (sound.idle conn (refused_invalid closed).2).2.2 user, unclosed⟩
  have fails : ∀ {pool : Pooled} {error : AcquireError}, Sound config pool others →
      error.expected = true → RightTurn config pool others task (.ticket (.failed error)) := by
    intro pool error fine expected
    refine ⟨fine, ?_, by simp [Task.held?]⟩
    intro other failed
    obtain rfl := Option.some.inj failed
    exact expected
  split at called
  · rename_i there
    split at called
    · rename_i made
      split at called
      · rename_i broken
        obtain ⟨rfl, rfl⟩ := Prod.mk.inj called
        exact iff_of_true (fails (still _) rfl) (by simp [broken])
      · rename_i works
        obtain ⟨rfl, rfl⟩ := Prod.mk.inj called
        have created := sound_create_iff (still swept.connections) kept
        simp only [room.mp there, made, works, forall_const]
        rw [← count]
        refine Iff.trans ?_ created
        constructor
        · exact fun right => right.sound
        · intro more
          refine ⟨more, by simp [Task.error?], ?_⟩
          intro conn _ held closed
          obtain rfl := Option.some.inj held
          exact absurd (kept.shut _ closed) (lt_irrefl _)
    · rename_i unmade
      obtain ⟨rfl, rfl⟩ := Prod.mk.inj called
      exact iff_of_true (fails (still _) rfl) (fun _ made => absurd made unmade)
  · rename_i full
    obtain ⟨rfl, rfl⟩ := Prod.mk.inj called
    exact iff_of_true (fails (still _) rfl) (fun free => absurd (room.mpr free) full)

theorem sweep_right_iff (sound : Sound config pool others) (formed : Formed pool others)
    {after : TicketPhase}
    (called : (match sweep input pool.available pool with
      | (swept, .found conn) => (swept.handOut conn, .holding conn)
      | (swept, .notInList) => (swept, .failed .notInList)
      | (swept, .empty) =>
          if swept.room config then
            if config.hasFactory then
              if input.factoryFails then (swept, .failed .factory)
              else (swept.create, .holding swept.created)
            else
              ({ swept with connections := swept.connections ++ [none] }, .failed .exhausted)
          else (swept, .failed .exhausted)) = (next, after)) :
    RightTurn config next others (.ticket .calling) (.ticket after) ↔
      SweepsWell config input pool others := by
  have listed : ∀ conn ∈ refused input pool, some conn ∈ pool.connections :=
    fun conn member => (sound.idle conn (refused_invalid member).2).1
  have passes := sweep_append input formed.once (refused input pool)
    (pool.available.dropWhile fun conn => !input.valid conn)
    (fun conn member => (refused_invalid member).1)
  rw [← refused_append input pool] at passes
  by_cases nodup : (refused input pool).Nodup
  · rw [if_pos ⟨nodup, listed⟩] at passes
    unfold SweepsWell
    cases left : pool.available.dropWhile fun conn => !input.valid conn with
    | cons found rest =>
        have valid : input.valid found = true := by
          have head := List.head?_dropWhile_not (fun conn => !input.valid conn) pool.available
          simpa [left] using head
        have split := refused_append input pool
        rw [left] at passes split
        have ended : sweep input pool.available pool =
            ({ Pooled.without (refused input pool) pool with available := rest }, .found found) := by
          rw [passes, sweep, if_pos valid]
        rw [ended] at called
        obtain ⟨rfl, rfl⟩ := Prod.mk.inj called
        simp only [nodup, true_and]
        exact found_right_iff sound formed rfl valid split
    | nil =>
        rw [left] at passes
        have ended : sweep input pool.available pool =
            ({ Pooled.without (refused input pool) pool with available := [] }, .empty) := passes
        have kept := (formed_sweep formed rfl ended).2 (by simp)
        rw [ended] at called
        simp only [nodup, true_and]
        exact empty_right_iff sound formed nodup rfl kept called
  · rw [if_neg (fun known => nodup known.1)] at passes
    refine iff_of_false ?_ (fun well => nodup well.1)
    intro right
    obtain ⟨swept, same⟩ : ∃ swept, sweep input pool.available pool = (swept, .notInList) :=
      ⟨_, Prod.ext rfl passes⟩
    rw [same] at called
    obtain ⟨rfl, rfl⟩ := Prod.mk.inj called
    exact absurd (right.error .notInList rfl) (by decide)

theorem ticket_right_iff {phase after : TicketPhase} (fits : Fits pool others (.ticket phase))
    (sound : Sound config pool ((Task.ticket phase).held?.toList ++ others))
    (turned : ticketTurn config input pool phase = some (next, after)) :
    RightTurn config next others (.ticket phase) (.ticket after) ↔
      TicketWell config input pool others phase := by
  have formed := fits.formed
  cases phase with
  | calling =>
      have called : acquireSync config input pool = (next, after) := Option.some.inj turned
      unfold acquireSync at called
      split at called
      · rename_i closed
        obtain ⟨rfl, rfl⟩ := Prod.mk.inj called
        refine iff_of_true ⟨sound, ?_, by simp [Task.held?]⟩ (by simp [TicketWell, closed])
        intro error failed
        obtain rfl := Option.some.inj failed
        rfl
      · rename_i opened
        have well : TicketWell config input pool others .calling ↔
            SweepsWell config input pool others :=
          ⟨fun known => known (by simpa using opened), fun known _ => known⟩
        rw [well]
        exact sweep_right_iff sound formed called
  | holding conn =>
      obtain ⟨rfl, rfl⟩ := Prod.mk.inj (Option.some.inj turned)
      have users : others.Sublist (conn :: others) := List.sublist_cons_self _ _
      have alone : conn ∉ others := (List.nodup_cons.mp sound.apart).1
      rw [rightTurn_of_sound rfl rfl]
      simp only [releaseSync, TicketWell]
      split
      · rename_i keeps
        rw [sound_putBack_iff sound formed users]
        simp [keeps, alone]
      · rename_i drops
        have kept := sound_fewer_iff (((pool.discard conn).closeConnection conn).remove conn)
          sound (List.Subset.refl _) (Finset.erase_subset _ _) users (Finset.subset_insert _ _)
        refine kept.trans (iff_of_true ?_ (fun keeps => absurd keeps drops))
        intro other member
        obtain ⟨listed, -, unheld⟩ := sound.idle other member
        exact (mem_erase_iff formed.once conn other).mpr
          ⟨fun same => unheld (same ▸ List.mem_cons_self), listed⟩
  | released conn =>
      obtain ⟨rfl, rfl⟩ := Prod.mk.inj (Option.some.inj turned)
      rw [rightTurn_of_sound rfl rfl]
      simp only [releaseSync, TicketWell]
      split
      · exact sound_putBack_iff sound formed (List.Sublist.refl _)
      · have kept := sound_fewer_iff (((pool.discard conn).closeConnection conn).remove conn)
          sound (List.Subset.refl _) (Finset.erase_subset _ _) (List.Sublist.refl _)
          (Finset.subset_insert _ _)
        refine kept.trans ⟨?_, ?_⟩
        · exact fun all member => not_mem_erase formed.once conn (all conn member)
        · intro gone other member
          exact (mem_erase_iff formed.once conn other).mpr
            ⟨fun same => gone (same ▸ member), (sound.idle other member).1⟩
  | failed error => cases turned

theorem sound_drainRest (sound : Sound config pool others) (rest : List (Option Connection)) :
    Sound config (drainRest rest pool).1 others := by
  induction rest with
  | nil =>
      exact (sound_fewer_iff { pool with connections := [], available := [], locked := false } sound
        (List.nil_subset _) (Finset.Subset.refl _) (List.Sublist.refl _)
        (Finset.Subset.refl _)).mpr (by simp)
  | cons first rest ih =>
      cases first with
      | none => exact ih
      | some conn =>
          exact (sound_fewer_iff { pool.closeConnection conn with locked := true } sound
            (List.Subset.refl _) (Finset.Subset.refl _) (List.Sublist.refl _)
            (Finset.subset_insert _ _)).mpr (fun other member => (sound.idle other member).1)

theorem sound_drain {phase after : SweepPhase} (sound : Sound config pool others)
    (turned : drainTurn pool phase = some (next, after)) : Sound config next others := by
  have kept := sound_drainRest sound
  cases phase with
  | waiting =>
      simp only [drainTurn] at turned
      split at turned
      · cases turned
      · have ended := kept pool.connections
        rw [Option.some.inj turned] at ended
        exact ended
  | closing rest =>
      have ended := kept rest
      rw [Option.some.inj turned] at ended
      exact ended
  | finished => cases turned

theorem sound_closeRest (sound : Sound config pool others) (rest : List (Option Connection))
    (index : Nat) : Sound config (closeRest rest index pool).1 others := by
  induction rest generalizing index with
  | nil =>
      exact (sound_fewer_iff
        { pool with connections := [], available := [], inUse := ∅, locked := false } sound
        (List.nil_subset _) (Finset.empty_subset _) (List.Sublist.refl _)
        (Finset.Subset.refl _)).mpr (by simp)
  | cons first rest ih =>
      cases first with
      | none => exact ih (index + 1)
      | some conn =>
          exact (sound_fewer_iff { pool.closeConnection conn with locked := true } sound
            (List.Subset.refl _) (Finset.Subset.refl _) (List.Sublist.refl _)
            (Finset.subset_insert _ _)).mpr (fun other member => (sound.idle other member).1)

theorem sound_close {phase after : ClosePhase} (sound : Sound config pool others)
    (turned : closeTurn pool phase = some (next, after)) : Sound config next others := by
  cases phase with
  | waiting =>
      simp only [closeTurn] at turned
      split at turned
      · cases turned
      · have marked : Sound config { pool with closed := true } others :=
          ⟨sound.apart, sound.idle, sound.few⟩
        have ended := sound_closeRest marked pool.connections 0
        rw [Option.some.inj turned] at ended
        exact ended
  | closing index =>
      have ended := sound_closeRest sound (pool.connections.drop index) index
      rw [Option.some.inj turned] at ended
      exact ended
  | finished => cases turned

theorem sound_closeSync (sound : Sound config pool others) : Sound config pool.closeSync others :=
  (sound_fewer_iff pool.closeSync sound (List.nil_subset _) (Finset.empty_subset _)
    (List.Sublist.refl _) Finset.subset_union_left).mpr (by simp [Pooled.closeSync])

theorem available_checkRest (input : Input) (pool : Pooled) (rest : List Connection) :
    (checkRest input rest pool).1.available =
        (match rest.find? fun conn => !input.valid conn with
          | some conn => removeFirst conn pool.available
          | none => pool.available) ∧
      (checkRest input rest pool).1.connections = pool.connections ∧
      (checkRest input rest pool).1.inUse = pool.inUse ∧
      pool.shut ⊆ (checkRest input rest pool).1.shut := by
  induction rest with
  | nil => exact ⟨rfl, rfl, rfl, Finset.Subset.refl _⟩
  | cons conn rest ih =>
      simp only [checkRest, List.find?_cons]
      cases valid : input.valid conn with
      | true => exact ih
      | false =>
          simp only [Bool.false_eq_true, if_false, Bool.not_false]
          split
          · exact ⟨rfl, rfl, rfl, Finset.subset_insert _ _⟩
          · rename_i gone
            refine ⟨?_, rfl, rfl, Finset.Subset.refl _⟩
            have missing : conn ∉ pool.available.reverse := by simpa using gone
            rw [removeFirst, List.erase_of_not_mem missing, List.reverse_reverse]

theorem check_right_iff {phase after : CheckPhase} (formed : Formed pool others)
    (sound : Sound config pool others) (turned : checkTurn input pool phase = some (next, after)) :
    Sound config next others ↔ CheckWell input pool phase := by
  have fewer : ∀ (rest : List Connection) (connections : List (Option Connection)),
      checkRest input rest { pool with connections } = (next, after) →
      (Sound config next others ↔ ∀ conn ∈ next.available, some conn ∈ connections) := by
    intro rest connections ended
    obtain ⟨idle, listed, inUse, shut⟩ :=
      available_checkRest input { pool with connections } rest
    rw [ended] at idle listed inUse shut
    have same : next.connections = connections := listed
    rw [← same]
    refine sound_fewer_iff next sound ?_ inUse.subset (List.Sublist.refl _) shut
    have left : next.available = _ := idle
    rw [left]
    split
    · exact fun conn member => mem_removeFirst member
    · exact List.Subset.refl _
  cases phase with
  | starting =>
      simp only [checkTurn] at turned
      split at turned
      · obtain ⟨rfl, rfl⟩ := Prod.mk.inj (Option.some.inj turned)
        exact iff_of_true sound trivial
      · have ended := Option.some.inj turned
        obtain ⟨idle, -, -, -⟩ := available_checkRest input pool
          pool.available.reverse
        rw [ended] at idle
        refine iff_of_true ((fewer _ pool.connections ended).mpr ?_) trivial
        intro conn member
        rw [idle] at member
        split at member
        · exact (sound.idle conn (mem_removeFirst member)).1
        · exact (sound.idle conn member).1
  | removing conn rest =>
      have ended : checkRest input rest { pool with
          connections := pool.connections.erase (some conn) } = (next, after) :=
        Option.some.inj turned
      obtain ⟨idle, -, -, -⟩ := available_checkRest input { pool with
        connections := pool.connections.erase (some conn) } rest
      rw [ended] at idle
      have gone : (∀ other ∈ next.available, some other ∈ pool.connections.erase (some conn)) ↔
          conn ∉ next.available := by
        constructor
        · exact fun all member => not_mem_erase formed.once conn (all conn member)
        · intro absent other member
          refine (mem_erase_iff formed.once conn other).mpr ⟨fun same => absent (same ▸ member), ?_⟩
          rw [idle] at member
          split at member
          · exact (sound.idle other (mem_removeFirst member)).1
          · exact (sound.idle other member).1
      rw [fewer rest _ ended, gone, idle]
      simp only [CheckWell]
      by_cases there : conn ∈ pool.available
      · cases invalid : rest.find? fun other => !input.valid other with
        | none => simp [there]
        | some other =>
            by_cases same : other = conn
            · subst same
              simp [there, not_mem_removeFirst_iff there]
            · have differs : conn ≠ other := fun equal => same equal.symm
              simp [there, same, mem_removeFirst_of_ne differs]
      · refine iff_of_true ?_ (fun idle => absurd idle there)
        split
        · exact fun member => there (mem_removeFirst member)
        · exact there
  | finished healthy => cases turned

theorem turn_right_iff (fits : Fits pool others task)
    (sound : Sound config pool (task.held?.toList ++ others))
    (turned : task.turn config input pool = some (next, later)) :
    RightTurn config next others task later ↔ TurnWell config input pool others task := by
  cases task with
  | closeSync finished =>
      simp only [Task.turn] at turned
      split at turned
      · cases turned
      · obtain ⟨rfl, rfl⟩ := Prod.mk.inj (Option.some.inj turned)
        rw [rightTurn_of_sound rfl rfl]
        exact iff_of_true (sound_closeSync sound) trivial
  | block phase =>
      obtain ⟨⟨moved, after⟩, done, same⟩ := Option.map_eq_some_iff.mp turned
      obtain ⟨rfl, rfl⟩ := Prod.mk.inj same
      exact block_right_iff fits sound done
  | ticket phase =>
      obtain ⟨⟨moved, after⟩, done, same⟩ := Option.map_eq_some_iff.mp turned
      obtain ⟨rfl, rfl⟩ := Prod.mk.inj same
      exact ticket_right_iff fits sound done
  | drain phase =>
      obtain ⟨⟨moved, after⟩, done, same⟩ := Option.map_eq_some_iff.mp turned
      obtain ⟨rfl, rfl⟩ := Prod.mk.inj same
      rw [rightTurn_of_sound rfl rfl]
      exact iff_of_true (sound_drain sound done) trivial
  | close phase =>
      obtain ⟨⟨moved, after⟩, done, same⟩ := Option.map_eq_some_iff.mp turned
      obtain ⟨rfl, rfl⟩ := Prod.mk.inj same
      rw [rightTurn_of_sound rfl rfl]
      exact iff_of_true (sound_close sound done) trivial
  | healthCheck phase =>
      obtain ⟨⟨moved, after⟩, done, same⟩ := Option.map_eq_some_iff.mp turned
      obtain ⟨rfl, rfl⟩ := Prod.mk.inj same
      rw [rightTurn_of_sound rfl rfl]
      exact check_right_iff fits.formed sound done

end Turns

/-! Runs. -/

section Runs

variable {config : PoolConfig} {state next : Pool Pooled Task} {pool : Pooled}
  {first second : List Connection}

theorem Sound.perm (sound : Sound config pool first) (same : first.Perm second) :
    Sound config pool second where
  apart := same.nodup_iff.mp sound.apart
  idle := by
    intro conn member
    obtain ⟨listed, free, alone⟩ := sound.idle conn member
    exact ⟨listed, free, fun user => alone (same.mem_iff.mpr user)⟩
  few := by
    have equal : openConnections pool second = openConnections pool first := by
      ext conn
      simp [openConnections, same.mem_iff]
    rw [equal]
    exact sound.few

theorem Formed.perm (formed : Formed pool first) (same : first.Perm second) :
    Formed pool second where
  listed := formed.listed
  available := formed.available
  shut := formed.shut
  users := fun conn user => formed.users conn (same.mem_iff.mpr user)
  once := formed.once
  traced := by
    intro conn listed
    rw [← same.mem_iff]
    exact formed.traced conn listed

theorem heldBy_perm {tasks : List Task} {index : Nat} {task : Task}
    (found : tasks[index]? = some task) :
    (heldBy tasks).Perm (task.held?.toList ++ heldBy (tasks.eraseIdx index)) := by
  obtain ⟨bound, rfl⟩ := List.getElem?_eq_some_iff.mp found
  have split := (List.getElem_cons_eraseIdx_perm bound).symm.filterMap Task.held?
  refine split.trans (List.Perm.of_eq ?_)
  cases held : tasks[index].held? with
  | none => simp [heldBy, held]
  | some conn => simp [heldBy, held]

theorem heldBy_set {tasks : List Task} {index : Nat} {task : Task} (later : Task)
    (found : tasks[index]? = some task) :
    (heldBy (tasks.set index later)).Perm
      (later.held?.toList ++ heldBy (tasks.eraseIdx index)) := by
  obtain ⟨bound, rfl⟩ := List.getElem?_eq_some_iff.mp found
  have placed : (tasks.set index later)[index]? = some later := by simp [bound]
  have split := heldBy_perm placed
  rwa [List.eraseIdx_set_eq] at split

structure FormedState (state : Pool Pooled Task) : Prop where
  formed : Formed state.shared (heldBy state.tasks)
  known : ∀ task ∈ state.tasks, ∀ conn ∈ task.known, conn < state.shared.created

theorem FormedState.fits (formed : FormedState state) {index : Nat} {task : Task}
    (found : state.tasks[index]? = some task) :
    Fits state.shared (heldBy (state.tasks.eraseIdx index)) task :=
  ⟨formed.formed.perm (heldBy_perm found), formed.known task (List.mem_of_getElem? found)⟩

theorem held_spawned (operation : Operation) : operation.task.held? = none := by
  cases operation <;> rfl

theorem known_spawned (operation : Operation) : operation.task.known = [] := by
  cases operation <;> rfl

theorem error_spawned (operation : Operation) : operation.task.error? = none := by
  cases operation <;> rfl

theorem heldBy_spawned (tasks : List Task) (operation : Operation) :
    heldBy (tasks ++ [operation.task]) = heldBy tasks := by
  simp [heldBy, held_spawned]

theorem formedState_step (formed : FormedState state) {move : Move Operation Input}
    (stepped : poolStep config state move = some next) : FormedState next := by
  cases move with
  | spawn operation =>
      rw [interleave_spawn stepped]
      refine ⟨?_, ?_⟩
      · simpa [heldBy_spawned] using formed.formed
      · intro task member
        rcases List.mem_append.mp member with old | fresh
        · exact formed.known task old
        · rw [List.mem_singleton.mp fresh, known_spawned]
          simp
  | advance index input =>
      obtain ⟨task, shared, later, found, turned, rfl⟩ := interleave_advance stepped
      obtain ⟨fits, grown⟩ := fits_turn (formed.fits found) turned
      refine ⟨fits.formed.perm (heldBy_set later found).symm, ?_⟩
      intro other member conn mentioned
      rcases List.mem_or_eq_of_mem_set member with old | rfl
      · exact (formed.known other old conn mentioned).trans_le grown
      · exact fits.known conn mentioned

theorem event_right_iff (sound : SoundState config state) (formed : FormedState state)
    {move : Move Operation Input} (stepped : poolStep config state move = some next) :
    RightEvent config ⟨state, move, next⟩ ↔ GoesWell config ⟨state, move, next⟩ := by
  cases move with
  | spawn operation =>
      rw [interleave_spawn stepped]
      refine iff_of_true ⟨⟨?_, ?_⟩, by simp [handedOut]⟩ (fun index input spawned => ?_)
      · simpa [heldBy_spawned] using sound.sound
      · intro task member
        rcases List.mem_append.mp member with old | fresh
        · exact sound.errors task old
        · rw [List.mem_singleton.mp fresh, error_spawned]
          simp
      · cases spawned
  | advance index input =>
      obtain ⟨task, shared, later, found, turned, rfl⟩ := interleave_advance stepped
      have bound := (List.getElem?_eq_some_iff.mp found).1
      have well : GoesWell config
          ⟨state, .advance index input, ⟨shared, state.tasks.set index later⟩⟩ ↔
          TurnWell config input state.shared (heldBy (state.tasks.eraseIdx index)) task := by
        constructor
        · exact fun all => all index input rfl task found
        · intro known other given moved mover foundMover
          cases moved
          obtain rfl := Option.some.inj (found.symm.trans foundMover)
          exact known
      have out : handedOut ⟨state, .advance index input, ⟨shared, state.tasks.set index later⟩⟩ =
          match task.held?, later.held? with
          | none, some conn => some conn
          | _, _ => none := by
        have placed : (state.tasks.set index later)[index]? = some later := by simp [bound]
        simp only [handedOut, found, placed, Option.bind_some]
      rw [well, ← turn_right_iff (formed.fits found) (sound.sound.perm (heldBy_perm found)) turned]
      constructor
      · intro right
        refine ⟨right.state.sound.perm (heldBy_set later found), ?_, ?_⟩
        · exact right.state.errors later (List.mem_set bound later)
        · intro conn empty held
          exact right.handedOut conn (by rw [out, empty, held])
      · intro right
        refine ⟨⟨right.sound.perm (heldBy_set later found).symm, ?_⟩, ?_⟩
        · intro other member
          rcases List.mem_or_eq_of_mem_set member with old | rfl
          · exact sound.errors other old
          · exact right.error
        · intro conn handed
          rw [out] at handed
          split at handed
          · rename_i empty held
            exact right.handedOut conn empty (held.trans handed)
          · cases handed

/-- From a fresh pool on, every event leaves the pool sound and hands out no closed connection
exactly if every turn goes well. -/
theorem pool_sound_iff (config : PoolConfig) {events : List PoolEvent} {last : Pool Pooled Task}
    (run : Run (poolStep config) ⟨{}, []⟩ events last) :
    (∀ event ∈ events, RightEvent config event) ↔ ∀ event ∈ events, GoesWell config event := by
  have fresh : SoundState config ⟨{}, []⟩ ∧ FormedState ⟨{}, []⟩ := by
    refine ⟨⟨⟨List.nodup_nil, by simp, by simp [openConnections, heldBy]⟩, by simp⟩, ?_⟩
    exact ⟨⟨by simp, by simp, by simp, by simp [heldBy], by simp, by simp⟩, by simp⟩
  refine Run.forall_event_iff (fun state => SoundState config state ∧ FormedState state)
    (RightEvent config) (GoesWell config) fresh ?_ ?_ run
  · intro state move next known stepped
    exact event_right_iff known.1 known.2 stepped
  · intro state move next known stepped well
    have right := (event_right_iff known.1 known.2 stepped).mpr well
    exact ⟨right.state, formedState_step known.2 stepped⟩

/-- One caller takes a connection and gives it back. -/
theorem pool_sound_of_one_caller :
    let waiting : Pool Pooled Task := ⟨{}, [.block .waiting]⟩
    let creating : Pool Pooled Task := ⟨{ locked := true }, [.block .creating]⟩
    let holding : Pool Pooled Task :=
      ⟨{ connections := [some 0], inUse := {0}, created := 1 }, [.block (.holding 0)]⟩
    let left : Pool Pooled Task :=
      ⟨{ connections := [some 0], available := [0], created := 1 }, [.block .left]⟩
    ∀ event ∈ ([⟨⟨{}, []⟩, .spawn .acquire, waiting⟩, ⟨waiting, .advance 0 {}, creating⟩,
      ⟨creating, .advance 0 {}, holding⟩, ⟨holding, .advance 0 {}, left⟩] : List PoolEvent),
      RightEvent {} event := by
  intro waiting creating holding left
  have run : Run (poolStep {}) ⟨{}, []⟩ ([⟨⟨{}, []⟩, .spawn .acquire, waiting⟩,
      ⟨waiting, .advance 0 {}, creating⟩, ⟨creating, .advance 0 {}, holding⟩,
      ⟨holding, .advance 0 {}, left⟩] : List PoolEvent) left :=
    Run.cons rfl (Run.cons (by decide +kernel) (Run.cons (by decide +kernel)
      (Run.cons (by decide +kernel) Run.nil)))
  have single : ∀ {before after : Pool Pooled Task} (task : Task), before.tasks = [task] →
      TurnWell {} {} before.shared [] task → GoesWell {} ⟨before, .advance 0 {}, after⟩ := by
    intro before after task alone well index input moved mover found
    cases moved
    obtain rfl : task = mover := by simpa [alone] using found
    simpa [alone, heldBy] using well
  refine (pool_sound_iff {} run).mpr ?_
  simp only [List.forall_mem_cons, List.not_mem_nil, IsEmpty.forall_iff, implies_true, and_true]
  have spawned : GoesWell {} ⟨⟨{}, []⟩, .spawn .acquire, waiting⟩ := by
    intro index input moved
    cases moved
  have takes : GoesWell {} ⟨waiting, .advance 0 {}, creating⟩ :=
    single (.block .waiting) rfl (fun _ _ => rfl)
  have creates : GoesWell {} ⟨creating, .advance 0 {}, holding⟩ :=
    single (.block .creating) rfl (fun _ => by decide)
  have returns : GoesWell {} ⟨holding, .advance 0 {}, left⟩ :=
    single (.block (.holding 0)) rfl (fun _ => List.mem_cons_self)
  exact ⟨spawned, takes, creates, returns⟩

/-- A caller releases its connection twice, and two others get it. -/
theorem two_callers_get_one_connection :
    ¬ ∀ (config : PoolConfig) (events : List PoolEvent) (last : Pool Pooled Task),
      Run (poolStep config) ⟨{}, []⟩ events last → ∀ event ∈ events, RightEvent config event := by
  intro sound
  let moves : List (Move Operation Input) := [
    .spawn .acquireSync, .advance 0 {}, .advance 0 {}, .advance 0 {},
    .spawn .acquireSync, .advance 1 {}, .spawn .acquireSync, .advance 2 {}]
  let events := (record (poolStep {}) ⟨{}, []⟩ moves).getD []
  have run : Run (poolStep {}) ⟨{}, []⟩ events (final ⟨{}, []⟩ events) :=
    run_of_isSome (by decide +kernel)
  have shared : (events.any fun event => ¬ (heldBy event.after.tasks).Nodup) = true := by
    decide +kernel
  obtain ⟨event, member, twice⟩ := List.any_eq_true.mp shared
  have apart := (sound {} events _ run event member).state.sound.apart
  simp [apart] at twice

end Runs

end RagSystem.ConnectionPool
