import RagSystem.Shared.ConnectionPool

/-! What holds of the connection pool in any order of calls: connections are numbered, listed once,
and a listed one is idle, held or closed. -/

namespace RagSystem.ConnectionPool

structure Formed (pool : Pooled) (held : List Connection) : Prop where
  listed : ∀ conn, some conn ∈ pool.connections → conn < pool.created
  available : ∀ conn ∈ pool.available, conn < pool.created
  shut : ∀ conn ∈ pool.shut, conn < pool.created
  users : ∀ conn ∈ held, conn < pool.created
  once : ∀ conn, pool.connections.count (some conn) ≤ 1
  traced : ∀ conn, some conn ∈ pool.connections →
    conn ∈ pool.available ∨ conn ∈ held ∨ conn ∈ pool.shut

section Formed

variable {config : PoolConfig} {input : Input} {pool next : Pooled} {held later : List Connection}
  {conn : Connection} {rest : List Connection}

theorem not_mem_erase (once : ∀ conn, pool.connections.count (some conn) ≤ 1) (conn : Connection) :
    some conn ∉ pool.connections.erase (some conn) := by
  intro member
  have counted := List.count_erase_self (a := some conn) (l := pool.connections)
  have positive := List.count_pos_iff.mpr member
  have bound := once conn
  omega

theorem mem_erase_iff (once : ∀ conn, pool.connections.count (some conn) ≤ 1)
    (removed conn : Connection) :
    some conn ∈ pool.connections.erase (some removed) ↔
      conn ≠ removed ∧ some conn ∈ pool.connections := by
  by_cases same : conn = removed
  · subst same
    simp [not_mem_erase once]
  · have differs : some conn ≠ some removed := fun equal => same (Option.some.inj equal)
    simp [List.mem_erase_of_ne differs, same]

theorem Formed.change (formed : Formed pool held) (created : next.created = pool.created)
    (connections : next.connections.Sublist pool.connections)
    (available : ∀ conn ∈ next.available, conn < pool.created)
    (shut : ∀ conn ∈ next.shut, conn < pool.created) (users : ∀ conn ∈ later, conn < pool.created)
    (traced : ∀ conn, some conn ∈ next.connections →
      conn ∈ next.available ∨ conn ∈ later ∨ conn ∈ next.shut) : Formed next later where
  listed := fun conn member => created ▸ formed.listed conn (connections.subset member)
  available := fun conn member => created ▸ available conn member
  shut := fun conn member => created ▸ shut conn member
  users := fun conn member => created ▸ users conn member
  once := fun conn => (connections.count_le (some conn)).trans (formed.once conn)
  traced := traced

theorem Formed.shut_insert (formed : Formed pool held) (numbered : conn < pool.created) :
    ∀ other ∈ insert conn pool.shut, other < pool.created := by
  intro other member
  rcases Finset.mem_insert.mp member with rfl | closed
  · exact numbered
  · exact formed.shut other closed

theorem Formed.create (formed : Formed pool held) : Formed pool.create (pool.created :: held) where
  listed := by
    intro conn member
    simp only [Pooled.create, List.mem_append, List.mem_singleton, Option.some.injEq] at member ⊢
    rcases member with listed | rfl
    · exact Nat.lt_succ_of_lt (formed.listed conn listed)
    · exact Nat.lt_succ_self _
  available := fun conn member => Nat.lt_succ_of_lt (formed.available conn member)
  shut := fun conn member => Nat.lt_succ_of_lt (formed.shut conn member)
  users := by
    intro conn member
    rcases List.mem_cons.mp member with rfl | other
    · exact Nat.lt_succ_self _
    · exact Nat.lt_succ_of_lt (formed.users conn other)
  once := by
    intro conn
    have old := formed.once conn
    by_cases new : conn = pool.created
    · subst new
      have absent : pool.connections.count (some pool.created) = 0 :=
        List.count_eq_zero.mpr (fun listed => absurd (formed.listed _ listed) (lt_irrefl _))
      simp [Pooled.create, List.count_append, absent]
    · have differs : ¬ pool.created = conn := fun same => new same.symm
      simpa [Pooled.create, List.count_append, differs] using old
  traced := by
    intro conn member
    simp only [Pooled.create, List.mem_append, List.mem_singleton, Option.some.injEq] at member
    rcases member with listed | rfl
    · rcases formed.traced conn listed with idle | user | closed
      · exact Or.inl idle
      · exact Or.inr (Or.inl (List.mem_cons_of_mem _ user))
      · exact Or.inr (Or.inr closed)
    · exact Or.inr (Or.inl List.mem_cons_self)

theorem Formed.take (formed : Formed pool held) (top : pool.available = conn :: rest) :
    Formed ({ pool with available := rest }.handOut conn) (conn :: held) := by
  have idle : conn ∈ pool.available := top ▸ List.mem_cons_self
  refine formed.change rfl (List.Sublist.refl _) ?_ formed.shut ?_ ?_
  · exact fun other member => formed.available other (top ▸ List.mem_cons_of_mem _ member)
  · intro other member
    rcases List.mem_cons.mp member with rfl | user
    · exact formed.available _ idle
    · exact formed.users other user
  · intro other listed
    have known := formed.traced other listed
    rw [top] at known
    simp only [List.mem_cons] at known ⊢
    tauto

theorem Formed.refuse (formed : Formed pool held) (top : pool.available = conn :: rest) :
    Formed ({ pool with available := rest }.closeConnection conn) held := by
  have idle : conn ∈ pool.available := top ▸ List.mem_cons_self
  refine formed.change rfl (List.Sublist.refl _) ?_ (formed.shut_insert (formed.available _ idle))
    formed.users ?_
  · exact fun other member => formed.available other (top ▸ List.mem_cons_of_mem _ member)
  · intro other listed
    have known := formed.traced other listed
    rw [top] at known
    simp only [List.mem_cons] at known
    simp only [Pooled.closeConnection, Finset.mem_insert]
    tauto

theorem Formed.remove (formed : Formed pool held) (conn : Connection) :
    Formed (pool.remove conn) held :=
  formed.change rfl List.erase_sublist formed.available formed.shut formed.users
    (fun other listed => formed.traced other (List.mem_of_mem_erase listed))

theorem Formed.putBack (formed : Formed pool held) (numbered : conn < pool.created)
    (back : ∀ other ∈ held, other = conn ∨ other ∈ later) (fewer : later ⊆ held) :
    Formed ((pool.discard conn).putBack conn) later := by
  refine formed.change rfl (List.Sublist.refl _) ?_ formed.shut
    (fun other member => formed.users other (fewer member)) ?_
  · intro other member
    rcases List.mem_cons.mp member with rfl | idle
    · exact numbered
    · exact formed.available other idle
  · intro other listed
    have known := formed.traced other listed
    have returned := back other
    simp only [Pooled.putBack, Pooled.discard, List.mem_cons]
    tauto

theorem Formed.closeBack (formed : Formed pool held) (numbered : conn < pool.created)
    (back : ∀ other ∈ held, other = conn ∨ other ∈ later) (fewer : later ⊆ held) :
    Formed ((pool.discard conn).closeConnection conn) later := by
  refine formed.change rfl (List.Sublist.refl _) formed.available (formed.shut_insert numbered)
    (fun other member => formed.users other (fewer member)) ?_
  intro other listed
  have known := formed.traced other listed
  have returned := back other
  simp only [Pooled.closeConnection, Pooled.discard, Finset.mem_insert]
  tauto

theorem Formed.flags (formed : Formed pool held) (closed locked : Bool) :
    Formed { pool with closed, locked } held :=
  ⟨formed.listed, formed.available, formed.shut, formed.users, formed.once, formed.traced⟩

theorem Formed.listNone (formed : Formed pool held) :
    Formed { pool with connections := pool.connections ++ [none] } held where
  listed := fun conn member => formed.listed conn (by simpa using member)
  available := formed.available
  shut := formed.shut
  users := formed.users
  once := fun conn => by simpa [List.count_append] using formed.once conn
  traced := fun conn member => formed.traced conn (by simpa using member)

theorem Formed.closeListed (formed : Formed pool held) (numbered : conn < pool.created) :
    Formed (pool.closeConnection conn) held := by
  refine formed.change rfl (List.Sublist.refl _) formed.available (formed.shut_insert numbered)
    formed.users ?_
  intro other listed
  have known := formed.traced other listed
  simp only [Pooled.closeConnection, Finset.mem_insert]
  tauto

theorem mem_removeFirst {other : Connection} {available : List Connection}
    (member : other ∈ removeFirst conn available) : other ∈ available :=
  List.mem_reverse.mp (List.mem_of_mem_erase (List.mem_reverse.mp member))

theorem mem_removeFirst_of_ne {other : Connection} {available : List Connection}
    (differs : other ≠ conn) : other ∈ removeFirst conn available ↔ other ∈ available := by
  simp [removeFirst, List.mem_erase_of_ne differs]

theorem not_mem_removeFirst_iff {available : List Connection} (idle : conn ∈ available) :
    conn ∉ removeFirst conn available ↔ available.count conn = 1 := by
  have counted : (removeFirst conn available).count conn = available.count conn - 1 := by
    rw [removeFirst, List.count_reverse, List.count_erase_self, List.count_reverse]
  have positive := List.count_pos_iff.mpr idle
  rw [← List.count_eq_zero, counted]
  omega

end Formed

/-! Every turn keeps it. -/

section Kept

variable {config : PoolConfig} {input : Input} {pool next : Pooled} {others : List Connection}
  {task later : Task}

/-- The pool is formed with what the task and the others hold, and the task knows no other
connections. -/
structure Fits (pool : Pooled) (others : List Connection) (task : Task) : Prop where
  formed : Formed pool (task.held?.toList ++ others)
  known : ∀ conn ∈ task.known, conn < pool.created

theorem fits_takeIdle (config : PoolConfig) (input : Input) (formed : Formed pool others) :
    Fits (takeIdle config input pool).1 others (.block (takeIdle config input pool).2) ∧
      (takeIdle config input pool).1.created = pool.created := by
  unfold takeIdle
  split
  · rename_i candidate rest top
    have numbered := formed.available candidate (top ▸ List.mem_cons_self)
    have single : ∀ conn ∈ [candidate], conn < pool.created := by simpa using numbered
    split
    · exact ⟨⟨(formed.take top).flags _ _, single⟩, rfl⟩
    · exact ⟨⟨(formed.refuse top).flags _ _, single⟩, rfl⟩
  · have nothing : ∀ conn ∈ ([] : List Connection), conn < pool.created := by simp
    split
    · split
      · exact ⟨⟨formed.flags _ _, nothing⟩, rfl⟩
      · exact ⟨⟨formed.flags _ _, nothing⟩, rfl⟩
    · exact ⟨⟨formed.flags _ _, nothing⟩, rfl⟩

theorem fits_block {phase after : BlockPhase} (fits : Fits pool others (.block phase))
    (turned : blockTurn config input pool phase = some (next, after)) :
    Fits next others (.block after) ∧ pool.created ≤ next.created := by
  have formed := fits.formed
  have known := fits.known
  cases phase with
  | waiting =>
      simp only [blockTurn] at turned
      split at turned
      · cases turned
      · split at turned
        · obtain ⟨rfl, rfl⟩ := Prod.mk.inj (Option.some.inj turned)
          exact ⟨⟨formed, known⟩, le_refl _⟩
        · have taken : takeIdle config input pool = (next, after) := Option.some.inj turned
          have kept := fits_takeIdle config input formed
          rw [taken] at kept
          exact ⟨kept.1, kept.2.ge⟩
  | discarding candidate =>
      simp only [blockTurn] at turned
      split at turned
      · have taken : takeIdle config input (pool.remove candidate) = (next, after) :=
          Option.some.inj turned
        have kept := fits_takeIdle config input (formed.remove candidate)
        rw [taken] at kept
        exact ⟨kept.1, kept.2.ge⟩
      · obtain ⟨rfl, rfl⟩ := Prod.mk.inj (Option.some.inj turned)
        exact ⟨⟨formed.flags _ _, by simp [Task.known]⟩, le_refl _⟩
  | creating =>
      simp only [blockTurn] at turned
      split at turned
      · obtain ⟨rfl, rfl⟩ := Prod.mk.inj (Option.some.inj turned)
        exact ⟨⟨formed.flags _ _, known⟩, le_refl _⟩
      · obtain ⟨rfl, rfl⟩ := Prod.mk.inj (Option.some.inj turned)
        exact ⟨⟨formed.create.flags _ _, by simp [Task.known, Pooled.create]⟩, Nat.le_succ _⟩
  | holding conn =>
      have back : ∀ other ∈ conn :: others, other = conn ∨ other ∈ others :=
        fun other member => List.mem_cons.mp member
      have numbered := known conn List.mem_cons_self
      simp only [blockTurn] at turned
      split at turned
      · cases turned
      · split at turned
        · obtain ⟨rfl, rfl⟩ := Prod.mk.inj (Option.some.inj turned)
          exact ⟨⟨formed.putBack numbered back (List.subset_cons_self _ _),
            by simp [Task.known]⟩, le_refl _⟩
        · obtain ⟨rfl, rfl⟩ := Prod.mk.inj (Option.some.inj turned)
          exact ⟨⟨(formed.closeBack numbered back (List.subset_cons_self _ _)).flags _ _, known⟩,
            le_refl _⟩
  | returning conn =>
      obtain ⟨rfl, rfl⟩ := Prod.mk.inj (Option.some.inj turned)
      exact ⟨⟨(formed.remove conn).flags _ _, by simp [Task.known]⟩, le_refl _⟩
  | left => cases turned
  | failed error => cases turned

theorem created_sweep (idle : List Connection) :
    (sweep input idle pool).1.created = pool.created := by
  induction idle generalizing pool with
  | nil => rfl
  | cons candidate rest ih =>
      simp only [sweep]
      split
      · rfl
      · split
        · exact ih
        · rfl

theorem formed_sweep {idle : List Connection} (formed : Formed pool others)
    (all : pool.available = idle) {swept : Pooled} {found : Swept}
    (ended : sweep input idle pool = (swept, found)) :
    (∀ conn, found = .found conn → Formed (swept.handOut conn) (conn :: others)) ∧
      ((∀ conn, found ≠ .found conn) → Formed swept others) := by
  induction idle generalizing pool with
  | nil =>
      obtain ⟨rfl, rfl⟩ := Prod.mk.inj ended
      refine ⟨by simp, fun _ => ?_⟩
      rw [← all]
      exact formed
  | cons candidate rest ih =>
      simp only [sweep] at ended
      split at ended
      · obtain ⟨rfl, rfl⟩ := Prod.mk.inj ended
        refine ⟨?_, fun none => absurd rfl (none candidate)⟩
        intro conn same
        obtain rfl := Swept.found.inj same
        exact formed.take all
      · split at ended
        · exact ih ((formed.refuse all).remove candidate) rfl ended
        · obtain ⟨rfl, rfl⟩ := Prod.mk.inj ended
          exact ⟨by simp, fun _ => formed.refuse all⟩

theorem fits_acquireSync (config : PoolConfig) (input : Input) (formed : Formed pool others) :
    Fits (acquireSync config input pool).1 others
        (.ticket (acquireSync config input pool).2) ∧
      pool.created ≤ (acquireSync config input pool).1.created := by
  have nothing : ∀ (pool : Pooled), ∀ conn ∈ ([] : List Connection), conn < pool.created := by simp
  unfold acquireSync
  split
  · exact ⟨⟨formed, nothing _⟩, le_refl _⟩
  · have created : (sweep input pool.available pool).1.created = pool.created :=
      created_sweep pool.available
    split
    · rename_i swept conn ended
      rw [ended] at created
      have ours := (formed_sweep formed rfl ended).1 conn rfl
      have single : ∀ other ∈ [conn], other < (swept.handOut conn).created := by
        simpa using ours.users conn List.mem_cons_self
      exact ⟨⟨ours, single⟩, created.ge⟩
    · rename_i swept ended
      rw [ended] at created
      exact ⟨⟨(formed_sweep formed rfl ended).2 (by simp), nothing _⟩, created.ge⟩
    · rename_i swept ended
      rw [ended] at created
      have left := (formed_sweep formed rfl ended).2 (by simp)
      split
      · split
        · split
          · exact ⟨⟨left, nothing _⟩, created.ge⟩
          · refine ⟨⟨left.create, by simp [Task.known, Pooled.create]⟩, ?_⟩
            exact created.ge.trans (Nat.le_succ _)
        · exact ⟨⟨left.listNone, nothing _⟩, created.ge⟩
      · exact ⟨⟨left, nothing _⟩, created.ge⟩

theorem fits_ticket {phase after : TicketPhase} (fits : Fits pool others (.ticket phase))
    (turned : ticketTurn config input pool phase = some (next, after)) :
    Fits next others (.ticket after) ∧ pool.created ≤ next.created := by
  have released : ∀ {held conn}, Formed pool held → conn < pool.created →
      (∀ other ∈ held, other = conn ∨ other ∈ others) → others ⊆ held →
      Formed (releaseSync config input pool conn) others ∧
        (releaseSync config input pool conn).created = pool.created := by
    intro held conn formed numbered back fewer
    simp only [releaseSync]
    split
    · exact ⟨formed.putBack numbered back fewer, rfl⟩
    · exact ⟨(formed.closeBack numbered back fewer).remove conn, rfl⟩
  cases phase with
  | calling =>
      have called : acquireSync config input pool = (next, after) := Option.some.inj turned
      have kept := fits_acquireSync config input fits.formed
      rw [called] at kept
      exact kept
  | holding conn =>
      obtain ⟨rfl, rfl⟩ := Prod.mk.inj (Option.some.inj turned)
      have numbered := fits.known conn List.mem_cons_self
      obtain ⟨formed, created⟩ := released fits.formed numbered
        (fun other member => List.mem_cons.mp member) (List.subset_cons_self _ _)
      exact ⟨⟨formed, by simpa [Task.known, created] using numbered⟩, created.ge⟩
  | released conn =>
      obtain ⟨rfl, rfl⟩ := Prod.mk.inj (Option.some.inj turned)
      have numbered := fits.known conn List.mem_cons_self
      obtain ⟨formed, created⟩ := released fits.formed numbered
        (fun other member => Or.inr member) (List.Subset.refl _)
      exact ⟨⟨formed, by simpa [Task.known, created] using numbered⟩, created.ge⟩
  | failed error => cases turned

theorem fits_drainRest {rest : List (Option Connection)} (formed : Formed pool others)
    (known : ∀ conn ∈ rest.filterMap id, conn < pool.created) :
    Fits (drainRest rest pool).1 others (.drain (drainRest rest pool).2) ∧
      (drainRest rest pool).1.created = pool.created := by
  induction rest with
  | nil =>
      refine ⟨⟨?_, by simp [drainRest, Task.known]⟩, rfl⟩
      exact formed.change rfl (List.nil_sublist _) (by simp [drainRest]) formed.shut formed.users
        (by simp [drainRest])
  | cons first rest ih =>
      cases first with
      | none => exact ih (by simpa using known)
      | some conn =>
          simp only [List.filterMap_cons, id, List.mem_cons, forall_eq_or_imp] at known
          exact ⟨⟨(formed.closeListed known.1).flags _ _, known.2⟩, rfl⟩

theorem fits_drain {phase after : SweepPhase} (fits : Fits pool others (.drain phase))
    (turned : drainTurn pool phase = some (next, after)) :
    Fits next others (.drain after) ∧ pool.created ≤ next.created := by
  have kept : ∀ rest : List (Option Connection), (∀ conn ∈ rest.filterMap id, conn < pool.created) →
      drainRest rest pool = (next, after) →
      Fits next others (.drain after) ∧ pool.created ≤ next.created := by
    intro rest known ended
    have kept := fits_drainRest fits.formed known
    rw [ended] at kept
    exact ⟨kept.1, kept.2.ge⟩
  cases phase with
  | waiting =>
      simp only [drainTurn] at turned
      split at turned
      · cases turned
      · refine kept _ ?_ (Option.some.inj turned)
        intro conn member
        obtain ⟨entry, listed, rfl⟩ := List.mem_filterMap.mp member
        exact fits.formed.listed conn listed
  | closing rest => exact kept rest fits.known (Option.some.inj turned)
  | finished => cases turned

theorem fits_closeRest {rest : List (Option Connection)} (index : Nat) (formed : Formed pool others)
    (known : ∀ conn ∈ rest.filterMap id, conn < pool.created) :
    Fits (closeRest rest index pool).1 others (.close (closeRest rest index pool).2) ∧
      (closeRest rest index pool).1.created = pool.created := by
  induction rest generalizing index with
  | nil =>
      refine ⟨⟨?_, by simp [closeRest, Task.known]⟩, rfl⟩
      exact formed.change rfl (List.nil_sublist _) (by simp [closeRest]) formed.shut formed.users
        (by simp [closeRest])
  | cons first rest ih =>
      cases first with
      | none => exact ih (index + 1) (by simpa using known)
      | some conn =>
          simp only [List.filterMap_cons, id, List.mem_cons, forall_eq_or_imp] at known
          exact ⟨⟨(formed.closeListed known.1).flags _ _, by simp [closeRest, Task.known]⟩, rfl⟩

theorem fits_close {phase after : ClosePhase} (fits : Fits pool others (.close phase))
    (turned : closeTurn pool phase = some (next, after)) :
    Fits next others (.close after) ∧ pool.created ≤ next.created := by
  have kept : ∀ (rest : List (Option Connection)) (index : Nat) (closed : Bool),
      rest.Sublist pool.connections → closeRest rest index { pool with closed } = (next, after) →
      Fits next others (.close after) ∧ pool.created ≤ next.created := by
    intro rest index closed within ended
    have known : ∀ conn ∈ rest.filterMap id, conn < pool.created := by
      intro conn member
      obtain ⟨entry, listed, rfl⟩ := List.mem_filterMap.mp member
      exact fits.formed.listed conn (within.subset listed)
    have kept := fits_closeRest index (fits.formed.flags closed pool.locked) known
    rw [ended] at kept
    exact ⟨kept.1, kept.2.ge⟩
  cases phase with
  | waiting =>
      simp only [closeTurn] at turned
      split at turned
      · cases turned
      · exact kept _ _ true (List.Sublist.refl _) (Option.some.inj turned)
  | closing index =>
      exact kept _ _ pool.closed (List.drop_sublist _ _) (Option.some.inj turned)
  | finished => cases turned

theorem formed_closeSync (formed : Formed pool others) : Formed pool.closeSync others := by
  refine formed.change rfl (List.nil_sublist _) (by simp [Pooled.closeSync]) ?_ formed.users
    (by simp [Pooled.closeSync])
  intro conn member
  rcases Finset.mem_union.mp member with closed | listed
  · exact formed.shut conn closed
  · obtain ⟨entry, found, rfl⟩ := List.mem_filterMap.mp (List.mem_toFinset.mp listed)
    exact formed.listed conn found

theorem fits_checkRest (input : Input) {rest : List Connection} (formed : Formed pool others)
    (known : ∀ conn ∈ rest, conn < pool.created) :
    Fits (checkRest input rest pool).1 others (.healthCheck (checkRest input rest pool).2) ∧
      (checkRest input rest pool).1.created = pool.created := by
  induction rest with
  | nil => exact ⟨⟨formed, by simp [checkRest, Task.known]⟩, rfl⟩
  | cons conn rest ih =>
      simp only [checkRest]
      split
      · exact ih (fun other member => known other (List.mem_cons_of_mem _ member))
      · split
        · rename_i idle
          refine ⟨⟨?_, known⟩, rfl⟩
          refine formed.change rfl (List.Sublist.refl _)
            (fun other member => formed.available other (mem_removeFirst member))
            (formed.shut_insert (formed.available _ idle)) formed.users ?_
          intro other listed
          have traced := formed.traced other listed
          simp only [Pooled.closeConnection, Finset.mem_insert]
          by_cases same : other = conn
          · exact Or.inr (Or.inr (Or.inl same))
          · rw [mem_removeFirst_of_ne same]
            tauto
        · exact ⟨⟨formed, by simp [Task.known]⟩, rfl⟩

theorem fits_check {phase after : CheckPhase} (fits : Fits pool others (.healthCheck phase))
    (turned : checkTurn input pool phase = some (next, after)) :
    Fits next others (.healthCheck after) ∧ pool.created ≤ next.created := by
  cases phase with
  | starting =>
      simp only [checkTurn] at turned
      split at turned
      · obtain ⟨rfl, rfl⟩ := Prod.mk.inj (Option.some.inj turned)
        exact ⟨⟨fits.formed, by simp [Task.known]⟩, le_refl _⟩
      · have kept := fits_checkRest input fits.formed
          (fun conn member => fits.formed.available conn (List.mem_reverse.mp member))
        rw [Option.some.inj turned] at kept
        exact ⟨kept.1, kept.2.ge⟩
  | removing conn rest =>
      have kept := fits_checkRest input (fits.formed.remove conn)
        (fun other member => fits.known other (List.mem_cons_of_mem _ member))
      have ended : checkRest input rest (pool.remove conn) = (next, after) := Option.some.inj turned
      rw [ended] at kept
      exact ⟨kept.1, kept.2.ge⟩
  | finished healthy => cases turned

theorem fits_turn (fits : Fits pool others task)
    (turned : task.turn config input pool = some (next, later)) :
    Fits next others later ∧ pool.created ≤ next.created := by
  cases task with
  | closeSync finished =>
      simp only [Task.turn] at turned
      split at turned
      · cases turned
      · obtain ⟨rfl, rfl⟩ := Prod.mk.inj (Option.some.inj turned)
        exact ⟨⟨formed_closeSync fits.formed, by simp [Task.known]⟩, le_refl _⟩
  | block phase =>
      obtain ⟨⟨moved, after⟩, done, same⟩ := Option.map_eq_some_iff.mp turned
      obtain ⟨rfl, rfl⟩ := Prod.mk.inj same
      exact fits_block fits done
  | ticket phase =>
      obtain ⟨⟨moved, after⟩, done, same⟩ := Option.map_eq_some_iff.mp turned
      obtain ⟨rfl, rfl⟩ := Prod.mk.inj same
      exact fits_ticket fits done
  | drain phase =>
      obtain ⟨⟨moved, after⟩, done, same⟩ := Option.map_eq_some_iff.mp turned
      obtain ⟨rfl, rfl⟩ := Prod.mk.inj same
      exact fits_drain fits done
  | close phase =>
      obtain ⟨⟨moved, after⟩, done, same⟩ := Option.map_eq_some_iff.mp turned
      obtain ⟨rfl, rfl⟩ := Prod.mk.inj same
      exact fits_close fits done
  | healthCheck phase =>
      obtain ⟨⟨moved, after⟩, done, same⟩ := Option.map_eq_some_iff.mp turned
      obtain ⟨rfl, rfl⟩ := Prod.mk.inj same
      exact fits_check fits done

end Kept

end RagSystem.ConnectionPool
