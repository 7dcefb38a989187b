import Mathlib.Data.List.Nodup
import RagSystem.Auth.UserDb
import RagSystem.Transition.Interleaving

/-! The refresh token operations of `proxy/app/auth/user_db.py` as concurrent tasks: each awaited
SQL statement is one turn, and other tasks may have theirs before the next. -/

namespace RagSystem.UserDb

open Transition

/-- The `SELECT` of `consume_refresh_token`. -/
def selectRefreshToken (hash : String → String) (now : Rat) (rawToken : String) (db : Db) :
    Option RefreshToken :=
  db.refreshTokens.find? (fun token =>
    decide (token.tokenHash = hash rawToken) && !token.revoked && decide (now < token.expiresAt))

/-- Its `UPDATE`. -/
def markRevoked (tokenId : String) (db : Db) : Db :=
  { db with
    refreshTokens := db.refreshTokens.map (fun token =>
      if token.id = tokenId then { token with revoked := true } else token) }

theorem consumeRefreshToken_eq (hash : String → String) (now : Rat) (rawToken : String) (db : Db) :
    consumeRefreshToken hash now rawToken db =
      match selectRefreshToken hash now rawToken db with
      | none => (db, none)
      | some row => (markRevoked row.id db, getUser (markRevoked row.id db) row.userId) := rfl

inductive Operation
  | consume (rawToken : String)
  | store (userId rawToken tokenId : String)
  | revoke (userId : String)
  deriving DecidableEq, Repr

inductive Phase
  /-- The first statement. -/
  | started
  /-- `fetchone` of the row that the `SELECT` met. -/
  | selected (row : Option RefreshToken)
  /-- The `UPDATE` of the row. -/
  | fetched (row : RefreshToken)
  /-- `commit`. -/
  | updated (row : RefreshToken)
  /-- The `SELECT` of `get_user`. -/
  | committed (row : RefreshToken)
  /-- `fetchone` of the user. -/
  | queried (user : Option User)
  /-- `commit` of a storing or revoking task. -/
  | written
  | returned (user : Option User)
  | raised
  deriving DecidableEq, Repr

/-- `now` is read before the first statement is sent. -/
structure Task where
  operation : Operation
  now : Rat
  phase : Phase := .started
  deriving DecidableEq, Repr

section Turns

variable (hash : String → String) (cfg : Config)

def Task.turn (task : Task) (db : Db) : Option (Db × Phase) :=
  match task.operation, task.phase with
  | .consume rawToken, .started => some (db, .selected (selectRefreshToken hash task.now rawToken db))
  | .consume _, .selected none => some (db, .returned none)
  | .consume _, .selected (some row) => some (db, .fetched row)
  | .consume _, .fetched row => some (markRevoked row.id db, .updated row)
  | .consume _, .updated row => some (db, .committed row)
  | .consume _, .committed row => some (db, .queried (getUser db row.userId))
  | .consume _, .queried user => some (db, .returned user)
  | .store userId rawToken tokenId, .started =>
      match storeRefreshToken hash cfg task.now userId rawToken tokenId db with
      | none => some (db, .raised)
      | some db => some (db, .written)
  | .revoke userId, .started => some ((revokeUserTokens userId db).1, .written)
  | .store _ _ _, .written => some (db, .returned none)
  | .revoke _, .written => some (db, .returned none)
  | _, _ => none

def tokenStep : Pool Db Task → Move (Operation × Rat) Unit → Option (Pool Db Task) :=
  interleave (fun call => ⟨call.1, call.2, .started⟩)
    (fun _ task db => (task.turn hash cfg db).map (fun result =>
      (result.1, { task with phase := result.2 })))

end Turns

def Task.consumes (hash : String → String) (digest : String) (task : Task) : Bool :=
  match task.operation with
  | .consume rawToken => hash rawToken = digest
  | _ => false

/-- Between the `SELECT` that met a row and the `UPDATE` of it. -/
def Phase.undecided : Phase → Bool
  | .selected (some _) => true
  | .fetched _ => true
  | _ => false

/-- Past the `UPDATE`. -/
def Phase.spent : Phase → Bool
  | .updated _ => true
  | .committed _ => true
  | .queried _ => true
  | .returned (some _) => true
  | _ => false

def Phase.row? : Phase → Option RefreshToken
  | .selected row => row
  | .fetched row => some row
  | .updated row => some row
  | .committed row => some row
  | _ => none

def Phase.user? : Phase → Option User
  | .queried user => user
  | .returned user => user
  | _ => none

def Task.hasRevoked (userId : String) (task : Task) : Bool :=
  task.operation = .revoke userId ∧ task.phase ≠ .started

/-- What a turn does to the rows: some get revoked, or a row is added whose id is new. -/
inductive Rewrites (hash : String → String) (operation : Operation) (awaited : Phase)
    (before after : Db) : Prop
  | revoking (update : RefreshToken → RefreshToken)
      (rows : after.refreshTokens = before.refreshTokens.map update)
      (kept : ∀ row, (update row).id = row.id ∧ (update row).tokenHash = row.tokenHash ∧
        (update row).userId = row.userId ∧ (row.revoked = true → (update row).revoked = true))
  | storing (userId rawToken tokenId : String) (made : RefreshToken)
      (stores : operation = .store userId rawToken tokenId) (starts : awaited = .started)
      (rows : after.refreshTokens = before.refreshTokens ++ [made])
      (digest : made.tokenHash = hash rawToken) (owner : made.userId = userId)
      (fresh : ∀ row ∈ before.refreshTokens, row.id ≠ made.id)

section Turn

variable {hash : String → String} {cfg : Config} {task : Task} {db after : Db} {phase : Phase}

theorem Rewrites.same (operation : Operation) (awaited : Phase) (db : Db) :
    Rewrites hash operation awaited db db :=
  .revoking id (by simp) (by simp)

theorem markRevoked_rewrites (operation : Operation) (awaited : Phase) (tokenId : String) (db : Db) :
    Rewrites hash operation awaited db (markRevoked tokenId db) := by
  refine .revoking _ rfl ?_
  intro row
  split <;> simp

theorem revokeUserTokens_rewrites (operation : Operation) (awaited : Phase) (userId : String)
    (db : Db) : Rewrites hash operation awaited db (revokeUserTokens userId db).1 := by
  refine .revoking _ rfl ?_
  intro row
  dsimp only
  split <;> simp

theorem storeRefreshToken_rewrites {now : Rat} {userId rawToken tokenId : String}
    (stored : storeRefreshToken hash cfg now userId rawToken tokenId db = some after) :
    Rewrites hash (.store userId rawToken tokenId) .started db after := by
  unfold storeRefreshToken at stored
  split at stored
  · rename_i allowed
    obtain rfl := Option.some.inj stored
    refine .storing userId rawToken tokenId _ rfl rfl rfl rfl rfl ?_
    simpa using allowed.2
  · cases stored

inductive Turns (hash : String → String) (cfg : Config) (now : Rat) (db : Db) :
    Operation → Phase → Db → Phase → Prop
  | select (rawToken : String) : Turns hash cfg now db (.consume rawToken) .started db
      (.selected (selectRefreshToken hash now rawToken db))
  | miss (rawToken : String) :
      Turns hash cfg now db (.consume rawToken) (.selected none) db (.returned none)
  | fetch (rawToken : String) (row : RefreshToken) :
      Turns hash cfg now db (.consume rawToken) (.selected (some row)) db (.fetched row)
  | update (rawToken : String) (row : RefreshToken) : Turns hash cfg now db (.consume rawToken)
      (.fetched row) (markRevoked row.id db) (.updated row)
  | commit (rawToken : String) (row : RefreshToken) :
      Turns hash cfg now db (.consume rawToken) (.updated row) db (.committed row)
  | query (rawToken : String) (row : RefreshToken) : Turns hash cfg now db (.consume rawToken)
      (.committed row) db (.queried (getUser db row.userId))
  | answer (rawToken : String) (user : Option User) :
      Turns hash cfg now db (.consume rawToken) (.queried user) db (.returned user)
  | refuse (userId rawToken tokenId : String) :
      Turns hash cfg now db (.store userId rawToken tokenId) .started db .raised
  | insert (userId rawToken tokenId : String) (after : Db)
      (stored : storeRefreshToken hash cfg now userId rawToken tokenId db = some after) :
      Turns hash cfg now db (.store userId rawToken tokenId) .started after .written
  | stored (userId rawToken tokenId : String) :
      Turns hash cfg now db (.store userId rawToken tokenId) .written db (.returned none)
  | revoke (userId : String) : Turns hash cfg now db (.revoke userId) .started
      (revokeUserTokens userId db).1 .written
  | revoked (userId : String) :
      Turns hash cfg now db (.revoke userId) .written db (.returned none)

theorem turns_of_turn (turned : task.turn hash cfg db = some (after, phase)) :
    Turns hash cfg task.now db task.operation task.phase after phase := by
  obtain ⟨operation, now, awaited⟩ := task
  unfold Task.turn at turned
  dsimp only at turned ⊢
  split at turned
  case h_8 =>
    split at turned
    · obtain ⟨rfl, rfl⟩ := Prod.mk.inj (Option.some.inj turned)
      exact .refuse _ _ _
    · rename_i stored
      obtain ⟨rfl, rfl⟩ := Prod.mk.inj (Option.some.inj turned)
      exact .insert _ _ _ _ stored
  case h_12 => cases turned
  all_goals
    obtain ⟨rfl, rfl⟩ := Prod.mk.inj (Option.some.inj turned)
    constructor

theorem Turns.rewrites {operation : Operation} {now : Rat} {awaited : Phase}
    (turns : Turns hash cfg now db operation awaited after phase) :
    Rewrites hash operation awaited db after := by
  cases turns with
  | update rawToken row => exact markRevoked_rewrites _ _ _ _
  | insert userId rawToken tokenId after stored => exact storeRefreshToken_rewrites stored
  | revoke userId => exact revokeUserTokens_rewrites _ _ _ _
  | _ => exact Rewrites.same _ _ _

end Turn

/-! One token: the tasks that consume it, and its row. -/

def Phase.holding (phase : Phase) : Bool := phase.undecided || phase.spent

/-- The turn leaves the token to one task at a time: its row is selected only while no other task
is between the `SELECT` and the `UPDATE` of it, and it is stored once, and not for a user whose
tokens have been revoked. -/
def orderly (hash : String → String) (digest : String) (pool : Pool Db Task) (index : Nat) : Bool :=
  match pool.tasks[index]? with
  | some ⟨.consume rawToken, _, .started⟩ =>
      hash rawToken ≠ digest ||
        pool.tasks.all (fun other => !(other.consumes hash digest && other.phase.undecided))
  | some ⟨.store userId rawToken _, _, .started⟩ =>
      hash rawToken ≠ digest ||
        (pool.shared.refreshTokens.all (fun row => row.tokenHash ≠ digest) &&
          pool.tasks.all (fun other => !other.hasRevoked userId))
  | _ => true

/-- What the turn of a task that has not started may count on. -/
structure Orderly (hash : String → String) (digest : String) (pool : Pool Db Task) (task : Task) :
    Prop where
  consumes : task.consumes hash digest = true → ∀ other ∈ pool.tasks,
    other.consumes hash digest = true → other.phase.undecided = false
  stores : ∀ userId rawToken tokenId, task.operation = .store userId rawToken tokenId →
    hash rawToken = digest → (∀ row ∈ pool.shared.refreshTokens, row.tokenHash ≠ digest) ∧
      ∀ other ∈ pool.tasks, other.hasRevoked userId = false

theorem orderly_starts {hash : String → String} {digest : String} {pool : Pool Db Task}
    {index : Nat} {task : Task} (fine : orderly hash digest pool index = true)
    (found : pool.tasks[index]? = some task) (starts : task.phase = .started) :
    Orderly hash digest pool task := by
  obtain ⟨operation, now, phase⟩ := task
  obtain rfl : phase = .started := starts
  unfold orderly at fine
  rw [found] at fine
  cases operation with
  | consume rawToken =>
      constructor
      · intro same other member also
        have digests : hash rawToken = digest := by simpa [Task.consumes] using same
        have apart : ∀ other ∈ pool.tasks,
            other.consumes hash digest = false ∨ other.phase.undecided = false := by
          simpa [digests] using fine
        simpa [also] using apart other member
      · simp
  | store userId rawToken tokenId =>
      constructor
      · simp [Task.consumes]
      · rintro _ _ _ equal digests
        obtain ⟨rfl, rfl, rfl⟩ := Operation.store.inj equal
        simpa [digests] using fine
  | revoke userId => constructor <;> simp [Task.consumes]

structure OneUse (hash : String → String) (digest : String) (pool : Pool Db Task) : Prop where
  single : ∀ first ∈ pool.shared.refreshTokens, ∀ second ∈ pool.shared.refreshTokens,
    first.tokenHash = digest → second.tokenHash = digest → first = second
  met : ∀ task ∈ pool.tasks, task.consumes hash digest = true → task.phase.holding = true →
    ∃ row ∈ pool.shared.refreshTokens, row.tokenHash = digest ∧
      ∀ seen, task.phase.row? = some seen → row.id = seen.id
  spent : ∀ task ∈ pool.tasks, task.consumes hash digest = true → task.phase.spent = true →
    ∀ row ∈ pool.shared.refreshTokens, row.tokenHash = digest → row.revoked = true
  alone : ∀ (first second : Nat) (one other : Task), pool.tasks[first]? = some one →
    pool.tasks[second]? = some other → one.consumes hash digest = true →
    other.consumes hash digest = true → one.phase.holding = true → other.phase.holding = true →
      first = second

section OneUse

variable {hash : String → String} {cfg : Config} {digest : String} {pool : Pool Db Task}
  {index : Nat} {task : Task} {after : Db} {phase : Phase}

theorem selectRefreshToken_some {now : Rat} {rawToken : String} {db : Db} {row : RefreshToken}
    (selected : selectRefreshToken hash now rawToken db = some row) :
    row ∈ db.refreshTokens ∧ row.tokenHash = hash rawToken ∧ row.revoked = false := by
  have checked := List.find?_some selected
  simp only [Bool.and_eq_true, decide_eq_true_eq, Bool.not_eq_true'] at checked
  exact ⟨List.mem_of_find?_eq_some selected, checked.1.1, checked.1.2⟩

theorem OneUse.rewritten (known : OneUse hash digest pool)
    (rewrites : Rewrites hash task.operation task.phase pool.shared after)
    (unstored : ∀ userId rawToken tokenId, task.operation = .store userId rawToken tokenId →
      task.phase = .started → hash rawToken = digest →
        ∀ row ∈ pool.shared.refreshTokens, row.tokenHash ≠ digest) :
    OneUse hash digest ⟨after, pool.tasks⟩ := by
  cases rewrites with
  | revoking update rows kept =>
      constructor
      · intro first one second two oneDigest twoDigest
        simp only [rows] at one two
        obtain ⟨old, held, rfl⟩ := List.mem_map.mp one
        obtain ⟨other, otherHeld, rfl⟩ := List.mem_map.mp two
        rw [(kept old).2.1] at oneDigest
        rw [(kept other).2.1] at twoDigest
        rw [known.single old held other otherHeld oneDigest twoDigest]
      · intro task member consumes holding
        obtain ⟨row, held, same, seen⟩ := known.met task member consumes holding
        refine ⟨update row, ?_, (kept row).2.1.trans same, ?_⟩
        · simp only [rows]
          exact List.mem_map_of_mem held
        · intro met found
          exact (kept row).1.trans (seen met found)
      · intro task member consumes spent row held same
        simp only [rows] at held
        obtain ⟨old, inside, rfl⟩ := List.mem_map.mp held
        refine (kept old).2.2.2 (known.spent task member consumes spent old inside ?_)
        exact (kept old).2.1.symm.trans same
      · exact known.alone
  | storing userId rawToken tokenId made stores starts rows madeDigest owner fresh =>
      have absent : made.tokenHash = digest → ∀ row ∈ pool.shared.refreshTokens,
          row.tokenHash ≠ digest :=
        fun same => unstored userId rawToken tokenId stores starts (madeDigest.symm.trans same)
      constructor
      · intro first one second two oneDigest twoDigest
        simp only [rows, List.mem_append, List.mem_singleton] at one two
        rcases one with one | rfl
        · rcases two with two | rfl
          · exact known.single first one second two oneDigest twoDigest
          · exact absurd oneDigest (absent twoDigest first one)
        · rcases two with two | rfl
          · exact absurd twoDigest (absent oneDigest second two)
          · rfl
      · intro task member consumes holding
        obtain ⟨row, held, same, seen⟩ := known.met task member consumes holding
        refine ⟨row, ?_, same, seen⟩
        simp only [rows]
        exact List.mem_append_left _ held
      · intro task member consumes spent row held same
        simp only [rows, List.mem_append, List.mem_singleton] at held
        rcases held with held | rfl
        · exact known.spent task member consumes spent row held same
        · have holding : task.phase.holding = true := by simp [Phase.holding, spent]
          obtain ⟨old, oldHeld, oldDigest, -⟩ := known.met task member consumes holding
          exact absurd oldDigest (absent same old oldHeld)
      · exact known.alone

theorem Turns.holding {now : Rat} {db : Db} {operation : Operation} {awaited : Phase}
    (turns : Turns hash cfg now db operation awaited after phase) (holding : phase.holding = true) :
    (awaited.holding = true ∧ (∀ seen, phase.row? = some seen → awaited.row? = some seen) ∧
      (phase.spent = true → awaited.spent = true ∨
        ∃ row, awaited.row? = some row ∧ after = markRevoked row.id db)) ∨
    (awaited = .started ∧ after = db ∧ phase.spent = false ∧ ∃ rawToken row,
      operation = .consume rawToken ∧ selectRefreshToken hash now rawToken db = some row ∧
        phase.row? = some row) := by
  cases turns with
  | select rawToken =>
      cases selected : selectRefreshToken hash now rawToken after with
      | none => simp [selected, Phase.holding, Phase.undecided, Phase.spent] at holding
      | some row => exact Or.inr ⟨rfl, rfl, by simp [Phase.spent], rawToken, row, rfl, selected, rfl⟩
  | answer rawToken user =>
      refine Or.inl ⟨rfl, ?_, fun _ => Or.inl rfl⟩
      simp [Phase.row?]
  | fetch rawToken row => exact Or.inl ⟨rfl, fun _ => id, fun spent => by cases spent⟩
  | update rawToken row => exact Or.inl ⟨rfl, fun _ => id, fun _ => Or.inr ⟨row, rfl, rfl⟩⟩
  | commit rawToken row => exact Or.inl ⟨rfl, fun _ => id, fun _ => Or.inl rfl⟩
  | query rawToken row =>
      refine Or.inl ⟨rfl, ?_, fun _ => Or.inl rfl⟩
      simp [Phase.row?]
  | miss rawToken => cases holding
  | refuse userId rawToken tokenId => cases holding
  | insert userId rawToken tokenId after stored => cases holding
  | stored userId rawToken tokenId => cases holding
  | revoke userId => cases holding
  | revoked userId => cases holding

theorem OneUse.idle_of_select (known : OneUse hash digest pool)
    (fine : orderly hash digest pool index = true) (found : pool.tasks[index]? = some task)
    (starts : task.phase = .started) (consumes : task.consumes hash digest = true)
    {rawToken : String} {row : RefreshToken}
    (operation : task.operation = .consume rawToken)
    (selected : selectRefreshToken hash task.now rawToken pool.shared = some row) {other : Task}
    (member : other ∈ pool.tasks) (also : other.consumes hash digest = true) :
    other.phase.holding = false := by
  obtain ⟨held, same, unrevoked⟩ := selectRefreshToken_some selected
  have decided := (orderly_starts fine found starts).consumes consumes other member also
  have rowDigest : row.tokenHash = digest := by
    rw [same]
    simpa [Task.consumes, operation] using consumes
  cases spent : other.phase.spent with
  | false => simp [Phase.holding, decided, spent]
  | true =>
      have revoked := known.spent other member also spent row held rowDigest
      rw [unrevoked] at revoked
      cases revoked

theorem OneUse.turn (known : OneUse hash digest pool) (found : pool.tasks[index]? = some task)
    (turns : Turns hash cfg task.now pool.shared task.operation task.phase after phase)
    (fine : orderly hash digest pool index = true) :
    OneUse hash digest ⟨after, pool.tasks.set index { task with phase := phase }⟩ := by
  have member := List.mem_of_getElem? found
  have rewritten := known.rewritten turns.rewrites (fun userId rawToken tokenId stores starts same =>
    ((orderly_starts fine found starts).stores userId rawToken tokenId stores same).1)
  constructor
  · exact rewritten.single
  · intro moved inside consumes holding
    rcases List.mem_or_eq_of_mem_set inside with other | rfl
    · exact rewritten.met moved other consumes holding
    · rcases turns.holding holding with ⟨before, seen, -⟩ | ⟨-, rfl, -, rawToken, row, operation,
        selected, met⟩
      · obtain ⟨row, held, same, earlier⟩ := rewritten.met task member consumes before
        exact ⟨row, held, same, fun met found => earlier met (seen met found)⟩
      · obtain ⟨held, same, -⟩ := selectRefreshToken_some selected
        refine ⟨row, held, ?_, ?_⟩
        · rw [same]
          simpa [Task.consumes, operation] using consumes
        · intro seen found
          rw [Option.some.inj (met.symm.trans found)]
  · intro moved inside consumes spent row held same
    rcases List.mem_or_eq_of_mem_set inside with other | rfl
    · exact rewritten.spent moved other consumes spent row held same
    · have holding : phase.holding = true := by
        rw [Phase.holding, show phase.spent = true from spent, Bool.or_true]
      rcases turns.holding holding with ⟨before, -, decides⟩ | ⟨-, -, unspent, -⟩
      · rcases decides spent with already | ⟨marked, has, rfl⟩
        · exact rewritten.spent task member consumes already row held same
        · obtain ⟨own, ownHeld, ownDigest, seen⟩ := known.met task member consumes before
          simp only [markRevoked] at held
          obtain ⟨old, oldHeld, rfl⟩ := List.mem_map.mp held
          have oldDigest : old.tokenHash = digest := by
            rw [← same]
            split <;> rfl
          rw [known.single old oldHeld own ownHeld oldDigest ownDigest, if_pos (seen marked has)]
      · rw [show phase.spent = true from spent] at unspent
        cases unspent
  · have apart : ∀ second other, second ≠ index → pool.tasks[second]? = some other →
        task.consumes hash digest = true → other.consumes hash digest = true →
        phase.holding = true → other.phase.holding = true → second = index := by
      intro second other _ two taskConsumes consumes moved holding
      rcases turns.holding moved with ⟨before, -, -⟩ | ⟨starts, -, -, rawToken, row, operation,
        selected, -⟩
      · exact known.alone second index other task two found consumes taskConsumes holding before
      · have idle := known.idle_of_select fine found starts taskConsumes operation selected
          (List.mem_of_getElem? two) consumes
        rw [idle] at holding
        cases holding
    intro first second one other firstFound secondFound oneConsumes otherConsumes oneHolding
      otherHolding
    rcases tasks_advanced firstFound with ⟨rfl, rfl⟩ | ⟨firstOther, firstOld⟩
    · rcases tasks_advanced secondFound with ⟨rfl, -⟩ | ⟨secondOther, secondOld⟩
      · rfl
      · exact (apart second other secondOther secondOld oneConsumes otherConsumes oneHolding
          otherHolding).symm
    · rcases tasks_advanced secondFound with ⟨rfl, rfl⟩ | ⟨secondOther, secondOld⟩
      · exact apart first one firstOther firstOld otherConsumes oneConsumes otherHolding oneHolding
      · exact known.alone first second one other firstOld secondOld oneConsumes otherConsumes
          oneHolding otherHolding

def Revoked (digest : String) (pool : Pool Db Task) : Prop :=
  ∀ userId, (∃ task ∈ pool.tasks, task.hasRevoked userId = true) →
    ∀ row ∈ pool.shared.refreshTokens, row.tokenHash = digest → row.userId = userId →
      row.revoked = true

theorem Turns.unstarted {now : Rat} {db : Db} {operation : Operation} {awaited : Phase}
    (turns : Turns hash cfg now db operation awaited after phase) : phase ≠ .started := by
  cases turns <;> simp

theorem revokeUserTokens_revoked {userId : String} {db : Db} {row : RefreshToken}
    (held : row ∈ (revokeUserTokens userId db).1.refreshTokens) (owner : row.userId = userId) :
    row.revoked = true := by
  simp only [revokeUserTokens] at held
  obtain ⟨old, -, rfl⟩ := List.mem_map.mp held
  by_cases hit : (decide (old.userId = userId) && !old.revoked) = true
  · rw [if_pos hit]
  · rw [if_neg hit] at owner ⊢
    simpa [owner] using hit

theorem Revoked.turn (known : Revoked digest pool) (found : pool.tasks[index]? = some task)
    (turns : Turns hash cfg task.now pool.shared task.operation task.phase after phase)
    (fine : orderly hash digest pool index = true) :
    Revoked digest ⟨after, pool.tasks.set index { task with phase := phase }⟩ := by
  rintro userId ⟨revoker, inside, revoked⟩ row held same owner
  have already : (∃ task ∈ pool.tasks, task.hasRevoked userId = true) ∨
      task.operation = .revoke userId ∧ task.phase = .started := by
    rcases List.mem_or_eq_of_mem_set inside with old | rfl
    · exact Or.inl ⟨revoker, old, revoked⟩
    · simp only [Task.hasRevoked, decide_eq_true_eq] at revoked
      by_cases starts : task.phase = .started
      · exact Or.inr ⟨revoked.1, starts⟩
      · refine Or.inl ⟨task, List.mem_of_getElem? found, ?_⟩
        simp [Task.hasRevoked, revoked.1, starts]
  rcases already with already | ⟨operation, starts⟩
  · cases turns.rewrites with
    | revoking update rows kept =>
        simp only [rows] at held
        obtain ⟨old, inside, rfl⟩ := List.mem_map.mp held
        obtain ⟨-, oldDigest, oldOwner, stays⟩ := kept old
        exact stays (known userId already old inside (oldDigest.symm.trans same)
          (oldOwner.symm.trans owner))
    | storing storedFor rawToken tokenId made stores starts rows madeDigest madeOwner fresh =>
        simp only [rows, List.mem_append, List.mem_singleton] at held
        rcases held with old | rfl
        · exact known userId already row old same owner
        · have unrevoked := ((orderly_starts fine found starts).stores storedFor rawToken tokenId
            stores (madeDigest.symm.trans same)).2
          obtain ⟨revoker, member, revoked⟩ := already
          rw [← owner, madeOwner, unrevoked revoker member] at revoked
          cases revoked
  · rw [operation, starts] at turns
    cases turns
    exact revokeUserTokens_revoked held owner

/-- The task at the index meets no token of the user. -/
def Clear (userId : String) (index : Nat) (pool : Pool Db Task) : Prop :=
  (∃ task ∈ pool.tasks, task.hasRevoked userId = true) ∧
    ∀ task, pool.tasks[index]? = some task →
      (∀ row, task.phase.row? = some row → row.userId ≠ userId) ∧
        ∀ user, task.phase.user? = some user → user.id ≠ userId

theorem Turns.clear {now : Rat} {db : Db} {operation : Operation} {awaited : Phase}
    {userId : String} (turns : Turns hash cfg now db operation awaited after phase)
    (rows : ∀ row, awaited.row? = some row → row.userId ≠ userId)
    (users : ∀ user, awaited.user? = some user → user.id ≠ userId)
    (selects : ∀ rawToken row, operation = .consume rawToken →
      selectRefreshToken hash now rawToken db = some row → row.userId ≠ userId) :
    (∀ row, phase.row? = some row → row.userId ≠ userId) ∧
      ∀ user, phase.user? = some user → user.id ≠ userId := by
  cases turns with
  | select rawToken => exact ⟨fun row found => selects rawToken row rfl found, by simp [Phase.user?]⟩
  | query rawToken row =>
      refine ⟨by simp [Phase.row?], ?_⟩
      intro user found
      have same : user.id = row.userId := by
        have checked := List.find?_some (show getUser after row.userId = some user from found)
        simp only [Bool.and_eq_true, decide_eq_true_eq] at checked
        exact checked.1
      rw [same]
      exact rows row rfl
  | answer rawToken user => exact ⟨by simp [Phase.row?], users⟩
  | fetch rawToken row => exact ⟨rows, by simp [Phase.user?]⟩
  | update rawToken row => exact ⟨rows, by simp [Phase.user?]⟩
  | commit rawToken row => exact ⟨rows, by simp [Phase.user?]⟩
  | _ => simp [Phase.row?, Phase.user?]

theorem Clear.turn {userId : String} {consumer : Nat} (clear : Clear userId consumer pool)
    (known : Revoked digest pool)
    (consuming : ∀ task, pool.tasks[consumer]? = some task → task.consumes hash digest = true)
    (found : pool.tasks[index]? = some task)
    (turns : Turns hash cfg task.now pool.shared task.operation task.phase after phase) :
    Clear userId consumer ⟨after, pool.tasks.set index { task with phase := phase }⟩ := by
  obtain ⟨revoked, own⟩ := clear
  constructor
  · obtain ⟨revoker, member, done⟩ := revoked
    obtain ⟨place, at'⟩ := List.mem_iff_getElem?.mp member
    by_cases same : place = index
    · subst same
      obtain rfl : revoker = task := Option.some.inj (at'.symm.trans found)
      have bound := (List.getElem?_eq_some_iff.mp found).1
      refine ⟨_, List.mem_of_getElem? (by rw [List.getElem?_set_self bound]), ?_⟩
      simp only [Task.hasRevoked, decide_eq_true_eq] at done ⊢
      exact ⟨done.1, turns.unstarted⟩
    · refine ⟨revoker, List.mem_of_getElem? (i := place) ?_, done⟩
      rw [List.getElem?_set_ne (fun reverse => same reverse.symm)]
      exact at'
  · intro moved held
    rcases tasks_advanced held with ⟨rfl, rfl⟩ | ⟨-, old⟩
    · obtain ⟨rows, users⟩ := own task found
      refine turns.clear rows users ?_
      intro rawToken row operation selected owner
      obtain ⟨inside, same, unrevoked⟩ := selectRefreshToken_some selected
      have rowDigest : row.tokenHash = digest := by
        rw [same]
        simpa [Task.consumes, operation] using consuming task found
      have dead := known userId revoked row inside rowDigest owner
      rw [unrevoked] at dead
      cases dead
    · exact own moved old

theorem OneUse.spawn (known : OneUse hash digest pool) (operation : Operation) (now : Rat) :
    OneUse hash digest ⟨pool.shared, pool.tasks ++ [⟨operation, now, .started⟩]⟩ := by
  constructor
  · exact known.single
  · intro task inside consumes holding
    rcases List.mem_append.mp inside with old | new
    · exact known.met task old consumes holding
    · obtain rfl := List.mem_singleton.mp new
      cases holding
  · intro task inside consumes spent
    rcases List.mem_append.mp inside with old | new
    · exact known.spent task old consumes spent
    · obtain rfl := List.mem_singleton.mp new
      cases spent
  · intro first second one other firstFound secondFound oneConsumes otherConsumes oneHolding
      otherHolding
    rcases tasks_spawned firstFound with firstOld | ⟨-, rfl⟩
    · rcases tasks_spawned secondFound with secondOld | ⟨-, rfl⟩
      · exact known.alone first second one other firstOld secondOld oneConsumes otherConsumes
          oneHolding otherHolding
      · cases otherHolding
    · cases oneHolding

theorem Revoked.spawn (known : Revoked digest pool) (operation : Operation) (now : Rat) :
    Revoked digest ⟨pool.shared, pool.tasks ++ [⟨operation, now, .started⟩]⟩ := by
  rintro userId ⟨revoker, inside, revoked⟩
  rcases List.mem_append.mp inside with old | new
  · exact known userId ⟨revoker, old, revoked⟩
  · obtain rfl := List.mem_singleton.mp new
    simp [Task.hasRevoked] at revoked

theorem Clear.spawn {userId : String} {consumer : Nat} (clear : Clear userId consumer pool)
    (operation : Operation) (now : Rat) :
    Clear userId consumer ⟨pool.shared, pool.tasks ++ [⟨operation, now, .started⟩]⟩ := by
  obtain ⟨⟨revoker, member, revoked⟩, own⟩ := clear
  refine ⟨⟨revoker, List.mem_append_left _ member, revoked⟩, ?_⟩
  intro task held
  rcases tasks_spawned held with old | ⟨-, rfl⟩
  · exact own task old
  · simp [Phase.row?, Phase.user?]

end OneUse

/-! Runs of any number of operations. -/

abbrev TokenEvent := Event (Pool Db Task) (Move (Operation × Rat) Unit)

def orderlyEvent (hash : String → String) (digest : String) (event : TokenEvent) : Bool :=
  match event.action with
  | .spawn _ => true
  | .advance index _ => orderly hash digest event.before index

/-- At most one consuming task has returned a user. -/
def UsedOnce (rawToken : String) (pool : Pool Db Task) : Prop :=
  ∀ (first second : Nat) (one other : Task) (oneUser otherUser : User),
    pool.tasks[first]? = some one → pool.tasks[second]? = some other →
    one.operation = .consume rawToken → other.operation = .consume rawToken →
    one.phase = .returned (some oneUser) → other.phase = .returned (some otherUser) →
      first = second

/-- No consuming task that starts after a user's tokens have been revoked returns that user. -/
def UselessAfterRevoke (rawToken : String) (events : List TokenEvent) (last : Pool Db Task) : Prop :=
  ∀ event ∈ events, ∀ now, event.action = .spawn (.consume rawToken, now) →
    ∀ userId, ∀ revoker ∈ event.before.tasks, revoker.operation = .revoke userId →
      revoker.phase = .returned none →
      ∀ task user, last.tasks[event.before.tasks.length]? = some task →
        task.phase = .returned (some user) → user.id ≠ userId

section Runs

variable {hash : String → String} {cfg : Config} {digest : String} {pool last : Pool Db Task}
  {events : List TokenEvent}

theorem oneUse_run (run : Run (tokenStep hash cfg) pool events last)
    (fair : ∀ event ∈ events, orderlyEvent hash digest event = true)
    (initial : OneUse hash digest pool ∧ Revoked digest pool) :
    OneUse hash digest last ∧ Revoked digest last := by
  refine Run.pool_invariant (fun event => orderlyEvent hash digest event = true)
    (fun pool => OneUse hash digest pool ∧ Revoked digest pool) initial ?_ ?_ run fair
  · rintro pool call ⟨oneUse, revoked⟩
    exact ⟨oneUse.spawn call.1 call.2, revoked.spawn call.1 call.2⟩
  · rintro pool index input task shared later ⟨oneUse, revoked⟩ found turned fine
    obtain ⟨⟨after, phase⟩, took, equal⟩ := Option.map_eq_some_iff.mp turned
    obtain ⟨rfl, rfl⟩ := Prod.mk.inj equal
    have turns := turns_of_turn took
    exact ⟨oneUse.turn found turns fine, revoked.turn found turns fine⟩

theorem clear_run {userId : String} {consumer : Nat} {rawToken : String}
    (run : Run (tokenStep hash cfg) pool events last)
    (fair : ∀ event ∈ events, orderlyEvent hash (hash rawToken) event = true)
    (initial : Revoked (hash rawToken) pool ∧ Clear userId consumer pool ∧
      ∃ task, pool.tasks[consumer]? = some task ∧ task.operation = .consume rawToken) :
    Clear userId consumer last := by
  have kept : Revoked (hash rawToken) last ∧ Clear userId consumer last ∧
      ∃ task, last.tasks[consumer]? = some task ∧ task.operation = .consume rawToken := by
    refine Run.pool_invariant (fun event => orderlyEvent hash (hash rawToken) event = true)
      (fun pool => Revoked (hash rawToken) pool ∧ Clear userId consumer pool ∧
        ∃ task, pool.tasks[consumer]? = some task ∧ task.operation = .consume rawToken)
      initial ?_ ?_ run fair
    · rintro pool call ⟨revoked, clear, task, found, consumes⟩
      refine ⟨revoked.spawn call.1 call.2, clear.spawn call.1 call.2, task, ?_, consumes⟩
      rw [List.getElem?_append_left (List.getElem?_eq_some_iff.mp found).1]
      exact found
    · rintro pool index input task shared later ⟨revoked, clear, own, held, consumes⟩ found turned
        fine
      obtain ⟨⟨after, phase⟩, took, equal⟩ := Option.map_eq_some_iff.mp turned
      obtain ⟨rfl, rfl⟩ := Prod.mk.inj equal
      have turns := turns_of_turn took
      have consuming : ∀ task, pool.tasks[consumer]? = some task →
          task.consumes hash (hash rawToken) = true := by
        intro task same
        obtain rfl := Option.some.inj (held.symm.trans same)
        simp [Task.consumes, consumes]
      refine ⟨revoked.turn found turns fine, clear.turn revoked consuming found turns, ?_⟩
      by_cases same : consumer = index
      · subst same
        obtain rfl := Option.some.inj (held.symm.trans found)
        exact ⟨_, List.getElem?_set_self (List.getElem?_eq_some_iff.mp held).1, consumes⟩
      · refine ⟨own, ?_, consumes⟩
        rw [List.getElem?_set_ne (fun reverse => same reverse.symm)]
        exact held
  exact kept.2.1

/-- When the tasks leave the token to one at a time, it is consumed at most once, and never after
a revocation. -/
theorem refresh_token_used_once {db : Db} {rawToken : String} (empty : db.refreshTokens = [])
    (run : Run (tokenStep hash cfg) ⟨db, []⟩ events last)
    (fair : ∀ event ∈ events, orderlyEvent hash (hash rawToken) event = true) :
    UsedOnce rawToken last ∧ UselessAfterRevoke rawToken events last := by
  have fresh : OneUse hash (hash rawToken) ⟨db, []⟩ ∧ Revoked (hash rawToken) ⟨db, []⟩ := by
    constructor
    · constructor <;> simp [empty]
    · simp [Revoked, empty]
  constructor
  · intro first second one other oneUser otherUser firstFound secondFound oneConsumes
      otherConsumes oneReturned otherReturned
    have reached := (oneUse_run run fair fresh).1
    refine reached.alone first second one other firstFound secondFound ?_ ?_ ?_ ?_
    · simp [Task.consumes, oneConsumes]
    · simp [Task.consumes, otherConsumes]
    · simp [oneReturned, Phase.holding, Phase.spent]
    · simp [otherReturned, Phase.holding, Phase.spent]
  · intro event member now spawned userId revoker inside revokes completed task user held returned
    obtain ⟨first, rest, rfl⟩ := List.append_of_mem member
    obtain ⟨before, stepped, after⟩ := run.split
    have known := (oneUse_run before
      (fun event member => fair event (List.mem_append_left _ member)) fresh).2
    rw [spawned] at stepped
    have reached := interleave_spawn stepped
    rw [reached] at after
    have done : ∃ task ∈ event.before.tasks, task.hasRevoked userId = true :=
      ⟨revoker, inside, by simp [Task.hasRevoked, revokes, completed]⟩
    have clear : Clear userId event.before.tasks.length last := clear_run after
      (fun event member => fair event (by simp [member]))
      ⟨known.spawn _ now, ⟨?_, ?_⟩, ⟨.consume rawToken, now, .started⟩, by simp, rfl⟩
    · exact (clear.2 task held).2 user (by simp [returned, Phase.user?])
    · obtain ⟨task, inside, revoked⟩ := done
      exact ⟨task, List.mem_append_left _ inside, revoked⟩
    · intro task spawned
      rcases tasks_spawned spawned with old | ⟨-, rfl⟩
      · have bound := (List.getElem?_eq_some_iff.mp old).1
        exact absurd bound (lt_irrefl _)
      · simp [Phase.row?, Phase.user?]

end Runs

def ann : User := { id := "1", username := "ann" }

/-- ann's token `r` is stored, then the tasks move as given. -/
def annsToken (moves : List (Move (Operation × Rat) Unit)) : List TokenEvent :=
  (record (tokenStep id {}) ⟨{ users := [ann] }, []⟩
    ([.spawn (.store "1" "r" "t", 0), .advance 0 (), .advance 0 ()] ++ moves)).getD []

theorem annsToken_run {moves : List (Move (Operation × Rat) Unit)}
    (recorded : (record (tokenStep id {}) ⟨{ users := [ann] }, []⟩
      ([.spawn (.store "1" "r" "t", 0), .advance 0 (), .advance 0 ()] ++ moves)).isSome = true) :
    Run (tokenStep id {}) ⟨{ users := [ann] }, []⟩ (annsToken moves)
      (final ⟨{ users := [ann] }, []⟩ (annsToken moves)) :=
  run_of_isSome recorded

def inTurn : List (Move (Operation × Rat) Unit) :=
  .spawn (.consume "r", 1) :: List.replicate 6 (.advance 1 ()) ++
    .spawn (.consume "r", 2) :: List.replicate 2 (.advance 2 ())

theorem refresh_token_in_turn :
    UsedOnce "r" (final ⟨{ users := [ann] }, []⟩ (annsToken inTurn)) ∧
      UselessAfterRevoke "r" (annsToken inTurn)
        (final ⟨{ users := [ann] }, []⟩ (annsToken inTurn)) :=
  refresh_token_used_once rfl (annsToken_run (by decide +kernel)) (by decide +kernel)

def overlapping : List (Move (Operation × Rat) Unit) :=
  [.spawn (.consume "r", 1), .spawn (.consume "r", 1), .advance 1 (), .advance 2 ()] ++
    List.replicate 5 (.advance 1 ()) ++ List.replicate 5 (.advance 2 ())

theorem refresh_token_used_twice :
    Run (tokenStep id {}) ⟨{ users := [ann] }, []⟩ (annsToken overlapping)
        (final ⟨{ users := [ann] }, []⟩ (annsToken overlapping)) ∧
      ¬ UsedOnce "r" (final ⟨{ users := [ann] }, []⟩ (annsToken overlapping)) := by
  refine ⟨annsToken_run (by decide +kernel), ?_⟩
  intro once
  have clash : (1 : Nat) = 2 := once 1 2 ⟨.consume "r", 1, .returned (some ann)⟩
    ⟨.consume "r", 1, .returned (some ann)⟩ ann ann (by decide +kernel) (by decide +kernel) rfl rfl
    rfl rfl
  cases clash

end RagSystem.UserDb
