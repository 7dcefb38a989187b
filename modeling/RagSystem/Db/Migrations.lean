import Mathlib.Data.Finset.Sort
import RagSystem.Transition.Attempt
import RagSystem.Transition.Run

/-! Schema migrations and the table of their versions (`proxy/app/db/migrations.py`). -/

namespace RagSystem.Db

open Transition

/-- A statement of a migration; a callable may suppress its failure. -/
structure Statement (Schema : Type) where
  perform : Schema → Schema
  suppressed : Bool := false

/-- `other` is any further string, for which nothing is executed. -/
inductive Backend
  | sqlite
  | neo4j
  | other
  deriving DecidableEq, Repr

/-- The statements of the scripts, and those the callables make. -/
structure MigrationInfo (Schema : Type) where
  version : Int
  upSql : List (Schema → Schema) := []
  downSql : List (Schema → Schema) := []
  upAsync : List (Statement Schema) := []
  downAsync : List (Statement Schema) := []
  backend : Backend := .sqlite

/-- `register_migration` refuses a version registered before. -/
structure Registry (Schema : Type) where
  migrations : List (MigrationInfo Schema)
  distinct : (migrations.map MigrationInfo.version).Nodup

inductive Direction
  | up
  | down
  deriving DecidableEq, Repr

/-- Which statements of a migration fail, and whether writing its row or its log entry does. -/
structure Failures where
  statements : Nat → Bool := fun _ => false
  record : Bool := false
  log : Bool := false

/-- What a call finds: the registered migrations, whether there is a Neo4j driver, and the failures
of each version. -/
structure Environment (Schema : Type) where
  registry : Registry Schema
  neo4jDriver : Bool := false
  failures : Int → Failures := fun _ => {}

/-- The schema and the versions of `_migrations`. Not stored are the versions `inEffect`, whose up
statements have all taken effect and whose down statements have not since. -/
structure Database (Schema : Type) where
  schema : Schema
  recorded : Finset Int := ∅
  inEffect : Finset Int := ∅
  deriving DecidableEq

/-- The statements that took effect, and whether one of the others ended the execution. -/
structure Execution (Schema : Type) where
  performed : List (Statement Schema)
  raised : Bool

section Migrating

variable {Schema : Type}

def MigrationInfo.sql (migration : MigrationInfo Schema) : Direction → List (Statement Schema)
  | .up => migration.upSql.map (fun perform => { perform := perform })
  | .down => migration.downSql.map (fun perform => { perform := perform })

def MigrationInfo.callable (migration : MigrationInfo Schema) : Direction → List (Statement Schema)
  | .up => migration.upAsync
  | .down => migration.downAsync

def MigrationInfo.statements (migration : MigrationInfo Schema) (direction : Direction) :
    List (Statement Schema) :=
  migration.sql direction ++ migration.callable direction

def MigrationInfo.executed (migration : MigrationInfo Schema) (neo4jDriver : Bool)
    (direction : Direction) : List (Statement Schema) :=
  match migration.backend with
  | .sqlite => migration.statements direction
  | .neo4j => if neo4jDriver then migration.callable direction else []
  | .other => []

def execute (fails : Nat → Bool) : List (Statement Schema) → Execution Schema
  | [] => ⟨[], false⟩
  | statement :: rest =>
      let later := execute (fun place => fails (place + 1)) rest
      if fails 0 then
        if statement.suppressed then later else ⟨[], true⟩
      else ⟨statement :: later.performed, later.raised⟩

def Execution.schema (execution : Execution Schema) (before : Schema) : Schema :=
  execution.performed.foldl (fun schema statement => statement.perform schema) before

/-- An up script counts when all of it has taken effect, a down script as soon as some has. -/
def Execution.settles (execution : Execution Schema) (migration : MigrationInfo Schema) :
    Direction → Bool
  | .up => execution.performed.length = (migration.statements .up).length
  | .down => execution.performed ≠ [] ∨ migration.statements .down = []

def Direction.write (direction : Direction) (version : Int) (versions : Finset Int) : Finset Int :=
  match direction with
  | .up => insert version versions
  | .down => versions.erase version

variable (environment : Environment Schema)

def Environment.execution (direction : Direction) (migration : MigrationInfo Schema) :
    Execution Schema :=
  execute (environment.failures migration.version).statements
    (migration.executed environment.neo4jDriver direction)

/-- One migration: its statements, its row, the log entry. A failure ends it where it is: what has
been executed stays, and is committed with the entry about the failure. -/
def migrate (direction : Direction) (migration : MigrationInfo Schema) :
    Attempt (Database Schema) Int := fun db =>
  let failures := environment.failures migration.version
  let execution := environment.execution direction migration
  let executed :=
    { db with
      schema := execution.schema db.schema
      inEffect :=
        if execution.settles migration direction then direction.write migration.version db.inEffect
        else db.inEffect }
  if execution.raised then (none, executed)
  else if failures.record then (none, executed)
  else
    (if failures.log then none else some migration.version,
      { executed with recorded := direction.write migration.version db.recorded })

/-- `_apply_migration` -/
def applyMigration : MigrationInfo Schema → Attempt (Database Schema) Int :=
  migrate environment .up

/-- `_rollback_migration` -/
def rollbackMigration : MigrationInfo Schema → Attempt (Database Schema) Int :=
  migrate environment .down

/-- The loops of `upgrade` and `downgrade`, which an exception leaves. -/
def forEach (body : MigrationInfo Schema → Attempt (Database Schema) Int) :
    List (MigrationInfo Schema) → Attempt (Database Schema) (List Int)
  | [] => Attempt.value []
  | migration :: rest =>
      (body migration).andThen fun record =>
        (forEach body rest).andThen fun records => Attempt.value (record :: records)

def Database.currentVersion (db : Database Schema) : Int := db.recorded.max.unbotD 0

def Registry.find? (registry : Registry Schema) (version : Int) : Option (MigrationInfo Schema) :=
  registry.migrations.find? (fun migration => migration.version = version)

/-- `pending_migrations`, up to the target. -/
def pendingMigrations (target : Option Int) (db : Database Schema) : List (MigrationInfo Schema) :=
  (environment.registry.migrations.insertionSort
    (fun first second => first.version ≤ second.version)).filter
      (fun migration => migration.version ∉ db.recorded ∧ ∀ last ∈ target, migration.version ≤ last)

def versionsToRollback (target : Int) (db : Database Schema) : List Int :=
  (db.recorded.filter (fun version => target < version)).sort (fun first second => second ≤ first)

def migrationsToRollback (target : Int) (db : Database Schema) : List (MigrationInfo Schema) :=
  (versionsToRollback target db).filterMap environment.registry.find?

def upgrade (target : Option Int) (dryRun : Bool) : Attempt (Database Schema) (List Int) := fun db =>
  if dryRun then (some [], db)
  else forEach (applyMigration environment) (pendingMigrations environment target db) db

def downgrade (target : Int) (dryRun : Bool) : Attempt (Database Schema) (List Int) := fun db =>
  if db.currentVersion ≤ target then (some [], db)
  else if dryRun then (some [], db)
  else forEach (rollbackMigration environment) (migrationsToRollback environment target db) db

end Migrating

inductive Operation
  | upgrade (target : Option Int) (dryRun : Bool)
  | downgrade (target : Int) (dryRun : Bool)
  deriving DecidableEq, Repr

structure Call (Schema : Type) where
  environment : Environment Schema
  operation : Operation

variable {Schema : Type}

def Call.perform (call : Call Schema) : Attempt (Database Schema) (List Int) :=
  match call.operation with
  | .upgrade target dryRun => upgrade call.environment target dryRun
  | .downgrade target dryRun => downgrade call.environment target dryRun

def migrationStep (db : Database Schema) (call : Call Schema) : Option (Database Schema) :=
  some (call.perform db).2

/-! The execution of a script, by the statements that fail. -/

section Executing

variable {fails : Nat → Bool} {statements rest : List (Statement Schema)}
  {statement : Statement Schema}

def Raises (fails : Nat → Bool) (statements : List (Statement Schema)) : Prop :=
  ∃ place statement, statements[place]? = some statement ∧ fails place = true ∧
    statement.suppressed = false

def TakesEffect (fails : Nat → Bool) (statements : List (Statement Schema)) (place : Nat) : Prop :=
  place < statements.length ∧ fails place = false ∧ ∀ earlier < place, ∀ statement,
    statements[earlier]? = some statement → fails earlier = true → statement.suppressed = true

theorem raises_cons :
    Raises fails (statement :: rest) ↔
      (fails 0 = true ∧ statement.suppressed = false) ∨
        Raises (fun place => fails (place + 1)) rest := by
  constructor
  · intro given
    rcases given with ⟨place, other, found, failed, loud⟩
    cases place with
    | zero =>
        obtain rfl : statement = other := by simpa using found
        exact Or.inl ⟨failed, loud⟩
    | succ place => exact Or.inr ⟨place, other, by simpa using found, failed, loud⟩
  · intro given
    rcases given with ⟨failed, loud⟩ | ⟨place, other, found, failed, loud⟩
    · exact ⟨0, statement, rfl, failed, loud⟩
    · exact ⟨place + 1, other, by simpa using found, failed, loud⟩

theorem takesEffect_cons :
    (∃ place, TakesEffect fails (statement :: rest) place) ↔
      fails 0 = false ∨ statement.suppressed = true ∧
        ∃ place, TakesEffect (fun place => fails (place + 1)) rest place := by
  constructor
  · intro given
    rcases given with ⟨place, inside, fine, reached⟩
    cases place with
    | zero => exact Or.inl fine
    | succ place =>
        cases first : fails 0 with
        | false => exact Or.inl rfl
        | true =>
            refine Or.inr ⟨reached 0 (Nat.succ_pos _) statement rfl first, place, ?_, fine, ?_⟩
            · simpa using inside
            · intro earlier before other found
              exact reached (earlier + 1) (by omega) other (by simpa using found)
  · intro given
    rcases given with fine | ⟨quiet, place, inside, fine, reached⟩
    · exact ⟨0, by simp, fine, by simp⟩
    · refine ⟨place + 1, by simpa using inside, fine, ?_⟩
      intro earlier before other found failed
      cases earlier with
      | zero =>
          obtain rfl : statement = other := by simpa using found
          exact quiet
      | succ earlier => exact reached earlier (by omega) other (by simpa using found) failed

theorem execute_raised_iff (fails : Nat → Bool) (statements : List (Statement Schema)) :
    (execute fails statements).raised = true ↔ Raises fails statements := by
  induction statements generalizing fails with
  | nil => simp [execute, Raises]
  | cons statement rest ih =>
      rw [raises_cons, ← ih]
      cases first : fails 0 with
      | false => simp [execute, first]
      | true => cases quiet : statement.suppressed <;> simp [execute, first, quiet]

theorem performed_ne_nil_iff (fails : Nat → Bool) (statements : List (Statement Schema)) :
    (execute fails statements).performed ≠ [] ↔ ∃ place, TakesEffect fails statements place := by
  induction statements generalizing fails with
  | nil => simp [execute, TakesEffect]
  | cons statement rest ih =>
      rw [takesEffect_cons, ← ih]
      cases first : fails 0 with
      | false => simp [execute, first]
      | true => cases quiet : statement.suppressed <;> simp [execute, first, quiet]

theorem performed_length_le (fails : Nat → Bool) (statements : List (Statement Schema)) :
    (execute fails statements).performed.length ≤ statements.length := by
  induction statements generalizing fails with
  | nil => exact Nat.le_refl 0
  | cons statement rest ih =>
      have shorter := ih (fun place => fails (place + 1))
      simp only [execute]
      split
      · split
        · exact Nat.le_succ_of_le shorter
        · exact Nat.zero_le _
      · exact Nat.succ_le_succ shorter

theorem performed_all_iff (fails : Nat → Bool) (statements : List (Statement Schema)) :
    (execute fails statements).performed.length = statements.length ↔
      ∀ place < statements.length, fails place = false := by
  induction statements generalizing fails with
  | nil => simp [execute]
  | cons statement rest ih =>
      have shorter := performed_length_le (fun place => fails (place + 1)) rest
      rw [List.length_cons, Nat.forall_lt_succ_left, ← ih]
      simp only [execute]
      cases first : fails 0 with
      | false => simp
      | true =>
          cases statement.suppressed with
          | false => simp
          | true =>
              simp only [if_true, Bool.true_eq_false, false_and, iff_false]
              omega

end Executing

/-! What one migration does to the two sets of versions. -/

section Attempts

variable {environment : Environment Schema} {direction : Direction}
  {migration : MigrationInfo Schema} {db : Database Schema}

/-- The row of a migration is written or deleted: no statement ends its script. -/
def Environment.Writes (environment : Environment Schema) (direction : Direction)
    (migration : MigrationInfo Schema) : Prop :=
  ¬ Raises (environment.failures migration.version).statements
      (migration.executed environment.neo4jDriver direction) ∧
    (environment.failures migration.version).record = false

/-- An up script settles the migration when its backend runs all of it and nothing fails, a down
script when some statement takes effect, or there is none. -/
def Environment.Settles (environment : Environment Schema) (migration : MigrationInfo Schema) :
    Direction → Prop
  | .up => migration.executed environment.neo4jDriver .up = migration.statements .up ∧
      ∀ place < (migration.statements .up).length,
        (environment.failures migration.version).statements place = false
  | .down => migration.statements .down = [] ∨
      ∃ place, TakesEffect (environment.failures migration.version).statements
        (migration.executed environment.neo4jDriver .down) place

/-- The row of a migration is written exactly if its script settles it. -/
def Environment.Even (environment : Environment Schema) (direction : Direction)
    (migration : MigrationInfo Schema) : Prop :=
  environment.Writes direction migration ↔ environment.Settles migration direction

theorem executed_sublist (migration : MigrationInfo Schema) (neo4jDriver : Bool)
    (direction : Direction) :
    (migration.executed neo4jDriver direction).Sublist (migration.statements direction) := by
  unfold MigrationInfo.executed
  split
  · exact List.Sublist.refl _
  · split
    · exact List.sublist_append_right _ _
    · exact List.nil_sublist _
  · exact List.nil_sublist _

theorem settles_iff :
    (environment.execution direction migration).settles migration direction = true ↔
      environment.Settles migration direction := by
  have part := executed_sublist migration environment.neo4jDriver direction
  unfold Execution.settles Environment.Settles Environment.execution
  cases direction with
  | up =>
      rw [decide_eq_true_iff]
      constructor
      · intro complete
        have shorter := performed_length_le (environment.failures migration.version).statements
          (migration.executed environment.neo4jDriver .up)
        have whole : migration.executed environment.neo4jDriver .up = migration.statements .up :=
          part.eq_of_length_le (by omega)
        rw [whole] at complete
        exact ⟨whole, (performed_all_iff _ _).mp complete⟩
      · intro given
        rcases given with ⟨whole, fine⟩
        rw [whole]
        exact (performed_all_iff _ _).mpr fine
  | down =>
      rw [decide_eq_true_iff, performed_ne_nil_iff, or_comm]

theorem migrate_recorded [Decidable (environment.Writes direction migration)] :
    (migrate environment direction migration db).2.recorded =
      if environment.Writes direction migration then
        direction.write migration.version db.recorded
      else db.recorded := by
  have raised := execute_raised_iff (environment.failures migration.version).statements
    (migration.executed environment.neo4jDriver direction)
  unfold migrate Environment.execution Environment.Writes
  dsimp only
  cases ends : (execute (environment.failures migration.version).statements
      (migration.executed environment.neo4jDriver direction)).raised with
  | true => simp [raised.mp ends]
  | false =>
      have fine := mt raised.mpr (by simp [ends])
      by_cases failed : (environment.failures migration.version).record = true
      · simp [failed]
      · simp [fine, failed]

theorem migrate_inEffect [Decidable (environment.Settles migration direction)] :
    (migrate environment direction migration db).2.inEffect =
      if environment.Settles migration direction then
        direction.write migration.version db.inEffect
      else db.inEffect := by
  simp only [← settles_iff]
  unfold migrate
  dsimp only
  split
  · rfl
  · split
    · rfl
    · rfl

/-- The version of an upgraded migration was not recorded, that of a downgraded one was. -/
def Direction.Ready (direction : Direction) (db : Database Schema)
    (migration : MigrationInfo Schema) : Prop :=
  match direction with
  | .up => migration.version ∉ db.recorded
  | .down => migration.version ∈ db.recorded

theorem write_ne (ready : direction.Ready db migration) :
    direction.write migration.version db.recorded ≠ db.recorded := by
  cases direction with
  | up => exact fun same => ready (Finset.insert_eq_self.mp same)
  | down => exact fun same => Finset.erase_eq_self.mp same ready

theorem migrate_agrees_iff (agrees : db.recorded = db.inEffect)
    (ready : direction.Ready db migration) :
    (migrate environment direction migration db).2.recorded =
        (migrate environment direction migration db).2.inEffect ↔
      environment.Even direction migration := by
  classical
  have moved := write_ne ready
  rw [migrate_recorded, migrate_inEffect, ← agrees]
  unfold Environment.Even
  by_cases writes : environment.Writes direction migration
  · by_cases settles : environment.Settles migration direction
    · simp [writes, settles]
    · simp [writes, settles, moved]
  · by_cases settles : environment.Settles migration direction
    · simp [writes, settles, moved.symm]
    · simp [writes, settles]

structure Unmoved (version : Int) (db after : Database Schema) : Prop where
  recorded : version ∈ after.recorded ↔ version ∈ db.recorded
  inEffect : version ∈ after.inEffect ↔ version ∈ db.inEffect

theorem Unmoved.trans {version : Int} {middle after : Database Schema}
    (first : Unmoved version db middle) (second : Unmoved version middle after) :
    Unmoved version db after :=
  ⟨second.recorded.trans first.recorded, second.inEffect.trans first.inEffect⟩

theorem mem_write_of_ne {version other : Int} (differs : version ≠ other) (versions : Finset Int) :
    version ∈ direction.write other versions ↔ version ∈ versions := by
  cases direction <;> simp [Direction.write, differs]

theorem migrate_unmoved {version : Int} (differs : version ≠ migration.version) :
    Unmoved version db (migrate environment direction migration db).2 := by
  classical
  constructor
  · rw [migrate_recorded]
    split
    · exact mem_write_of_ne differs _
    · exact Iff.rfl
  · rw [migrate_inEffect]
    split
    · exact mem_write_of_ne differs _
    · exact Iff.rfl

end Attempts

/-! The loops over migrations of different versions. -/

section Loops

variable {environment : Environment Schema} {direction : Direction} {db : Database Schema}
  {migrations : List (MigrationInfo Schema)}

def Environment.succeeds (environment : Environment Schema) (direction : Direction)
    (migration : MigrationInfo Schema) : Bool :=
  !(environment.execution direction migration).raised &&
    !(environment.failures migration.version).record &&
    !(environment.failures migration.version).log

def attempted (environment : Environment Schema) (direction : Direction) :
    List (MigrationInfo Schema) → List (MigrationInfo Schema)
  | [] => []
  | migration :: rest =>
      migration ::
        (if environment.succeeds direction migration then attempted environment direction rest else [])

theorem migrate_result (environment : Environment Schema) (direction : Direction)
    (migration : MigrationInfo Schema) (db : Database Schema) :
    (migrate environment direction migration db).1 =
      if environment.succeeds direction migration then some migration.version else none := by
  unfold migrate Environment.succeeds
  dsimp only
  cases (environment.execution direction migration).raised with
  | true => rfl
  | false =>
      cases (environment.failures migration.version).record with
      | true => rfl
      | false => cases (environment.failures migration.version).log <;> rfl

theorem forEach_cons_state {migration : MigrationInfo Schema}
    {rest : List (MigrationInfo Schema)} :
    (forEach (migrate environment direction) (migration :: rest) db).2 =
      if environment.succeeds direction migration then
        (forEach (migrate environment direction) rest
          (migrate environment direction migration db).2).2
      else (migrate environment direction migration db).2 := by
  have result := migrate_result environment direction migration db
  rw [forEach]
  split
  · rename_i succeeds
    rw [if_pos succeeds] at result
    rw [Attempt.andThen_of_some result]
    unfold Attempt.andThen
    split <;> rfl
  · rename_i fails
    rw [if_neg fails] at result
    rw [Attempt.andThen_of_none result]

theorem forEach_cons_returns {migration : MigrationInfo Schema}
    {rest : List (MigrationInfo Schema)} :
    (forEach (migrate environment direction) (migration :: rest) db).1.isSome = true ↔
      environment.succeeds direction migration = true ∧
        (forEach (migrate environment direction) rest
          (migrate environment direction migration db).2).1.isSome = true := by
  have result := migrate_result environment direction migration db
  rw [forEach]
  by_cases succeeds : environment.succeeds direction migration = true
  · rw [if_pos succeeds] at result
    rw [Attempt.andThen_of_some result]
    unfold Attempt.andThen
    split
    · rename_i returned
      simp [succeeds, returned, Attempt.value]
    · rename_i raised
      simp [succeeds, raised]
  · rw [if_neg succeeds] at result
    rw [Attempt.andThen_of_none result]
    simp [succeeds]

theorem forEach_unmoved {version : Int}
    (other : version ∉ migrations.map MigrationInfo.version) :
    Unmoved version db (forEach (migrate environment direction) migrations db).2 := by
  induction migrations generalizing db with
  | nil => exact ⟨Iff.rfl, Iff.rfl⟩
  | cons migration rest ih =>
      rw [List.map_cons, List.mem_cons, not_or] at other
      have first : Unmoved version db (migrate environment direction migration db).2 :=
        migrate_unmoved other.1
      rw [forEach_cons_state]
      split
      · exact first.trans (ih other.2)
      · exact first

theorem ready_rest {migration : MigrationInfo Schema} {rest : List (MigrationInfo Schema)}
    (other : migration.version ∉ rest.map MigrationInfo.version)
    (ready : ∀ later ∈ migration :: rest, direction.Ready db later) :
    ∀ later ∈ rest, direction.Ready (migrate environment direction migration db).2 later := by
  intro later member
  have differs : later.version ≠ migration.version := by
    intro same
    exact other (same ▸ List.mem_map_of_mem member)
  have moved : Unmoved later.version db (migrate environment direction migration db).2 :=
    migrate_unmoved differs
  have before := ready later (List.mem_cons_of_mem _ member)
  cases direction with
  | up => exact fun recorded => before (moved.recorded.mp recorded)
  | down => exact moved.recorded.mpr before

theorem forEach_agrees_iff (agrees : db.recorded = db.inEffect)
    (distinct : (migrations.map MigrationInfo.version).Nodup)
    (ready : ∀ migration ∈ migrations, direction.Ready db migration) :
    (forEach (migrate environment direction) migrations db).2.recorded =
        (forEach (migrate environment direction) migrations db).2.inEffect ↔
      ∀ migration ∈ attempted environment direction migrations,
        environment.Even direction migration := by
  induction migrations generalizing db with
  | nil => simp [forEach, attempted, Attempt.value, agrees]
  | cons migration rest ih =>
      rw [List.map_cons, List.nodup_cons] at distinct
      have first : (migrate environment direction migration db).2.recorded =
            (migrate environment direction migration db).2.inEffect ↔
          environment.Even direction migration :=
        migrate_agrees_iff agrees (ready migration List.mem_cons_self)
      rw [forEach_cons_state, attempted, List.forall_mem_cons, ← first]
      by_cases succeeds : environment.succeeds direction migration = true
      · rw [if_pos succeeds, if_pos succeeds]
        constructor
        · intro after
          have still : (migrate environment direction migration db).2.recorded =
              (migrate environment direction migration db).2.inEffect := by
            ext version
            by_cases own : version = migration.version
            · -- The rest of the loop leaves the version of this migration.
              subst own
              have later : Unmoved migration.version (migrate environment direction migration db).2
                  (forEach (migrate environment direction) rest
                    (migrate environment direction migration db).2).2 :=
                forEach_unmoved distinct.1
              rw [← later.recorded, ← later.inEffect, after]
            · have moved : Unmoved version db (migrate environment direction migration db).2 :=
                migrate_unmoved own
              rw [moved.recorded, moved.inEffect, agrees]
          refine ⟨still, (ih still distinct.2 ?_).mp after⟩
          exact ready_rest distinct.1 ready
        · intro given
          rcases given with ⟨still, even⟩
          exact (ih still distinct.2 (ready_rest distinct.1 ready)).mpr even
      · rw [if_neg succeeds, if_neg succeeds]
        simp

theorem forEach_fails (fails : (forEach (migrate environment direction) migrations db).1 = none) :
    ∃ earlier migration, attempted environment direction migrations = earlier ++ [migration] ∧
      (forEach (migrate environment direction) earlier db).1.isSome = true ∧
      (migrate environment direction migration
        (forEach (migrate environment direction) earlier db).2).1 = none ∧
      (forEach (migrate environment direction) migrations db).2 =
        (migrate environment direction migration
          (forEach (migrate environment direction) earlier db).2).2 := by
  induction migrations generalizing db with
  | nil => cases fails
  | cons migration rest ih =>
      rw [forEach_cons_state, attempted]
      by_cases succeeds : environment.succeeds direction migration = true
      · have failsLater : (forEach (migrate environment direction) rest
            (migrate environment direction migration db).2).1 = none := by
          rw [← Option.not_isSome_iff_eq_none]
          intro returns
          have all := forEach_cons_returns.mpr ⟨succeeds, returns⟩
          rw [fails] at all
          cases all
        obtain ⟨earlier, last, tried, returned, failed, same⟩ := ih failsLater
        have before : (forEach (migrate environment direction) (migration :: earlier) db).2 =
            (forEach (migrate environment direction) earlier
              (migrate environment direction migration db).2).2 := by
          rw [forEach_cons_state, if_pos succeeds]
        refine ⟨migration :: earlier, last, ?_, forEach_cons_returns.mpr ⟨succeeds, returned⟩, ?_, ?_⟩
        · rw [if_pos succeeds, tried]
          rfl
        · rw [before]
          exact failed
        · rw [if_pos succeeds, before]
          exact same
      · refine ⟨[], migration, ?_, rfl, ?_, ?_⟩
        · rw [if_neg succeeds]
          rfl
        · rw [migrate_result, if_neg (by exact succeeds)]
        · rw [if_neg succeeds]
          rfl

theorem migrate_schema {migration : MigrationInfo Schema}
    (untouched : ∀ place, ¬ TakesEffect (environment.failures migration.version).statements
      (migration.executed environment.neo4jDriver direction) place) :
    (migrate environment direction migration db).2.schema = db.schema := by
  have none : (environment.execution direction migration).performed = [] := by
    by_contra some_performed
    obtain ⟨place, effect⟩ := (performed_ne_nil_iff _ _).mp some_performed
    exact untouched place effect
  have same : (environment.execution direction migration).schema db.schema = db.schema := by
    unfold Execution.schema
    rw [none, List.foldl_nil]
  unfold migrate
  dsimp only
  split
  · exact same
  · split
    · exact same
    · exact same

theorem mem_recorded_of_returns
    (returns : (forEach (migrate environment .down) migrations db).1.isSome = true) (version : Int) :
    version ∈ (forEach (migrate environment .down) migrations db).2.recorded ↔
      version ∈ db.recorded ∧ version ∉ migrations.map MigrationInfo.version := by
  classical
  induction migrations generalizing db with
  | nil => simp [forEach, Attempt.value]
  | cons migration rest ih =>
      obtain ⟨succeeds, later⟩ := forEach_cons_returns.mp returns
      have writes : environment.Writes .down migration := by
        simp only [Environment.succeeds, Bool.and_eq_true, Bool.not_eq_true'] at succeeds
        refine ⟨?_, succeeds.1.2⟩
        rw [← execute_raised_iff]
        exact Bool.eq_false_iff.mp succeeds.1.1
      rw [forEach_cons_state, if_pos succeeds, ih later, migrate_recorded, if_pos writes]
      simp only [Direction.write, Finset.mem_erase, List.map_cons, List.mem_cons, not_or]
      tauto

end Loops

/-! Calls. -/

section Calls

variable {call : Call Schema} {db : Database Schema}

def Call.direction (call : Call Schema) : Direction :=
  match call.operation with
  | .upgrade _ _ => .up
  | .downgrade _ _ => .down

def Call.todo (call : Call Schema) (db : Database Schema) : List (MigrationInfo Schema) :=
  match call.operation with
  | .upgrade target dryRun =>
      if dryRun then [] else pendingMigrations call.environment target db
  | .downgrade target dryRun =>
      if db.currentVersion ≤ target then []
      else if dryRun then []
      else migrationsToRollback call.environment target db

def Call.attempted (call : Call Schema) (db : Database Schema) : List (MigrationInfo Schema) :=
  Db.attempted call.environment call.direction (call.todo db)

theorem perform_eq (call : Call Schema) (db : Database Schema) :
    call.perform db = forEach (migrate call.environment call.direction) (call.todo db) db := by
  unfold Call.perform Call.todo Call.direction
  cases call.operation with
  | upgrade target dryRun => cases dryRun <;> rfl
  | downgrade target dryRun =>
      dsimp only [downgrade]
      split
      · rfl
      · cases dryRun <;> rfl

theorem find?_version {registry : Registry Schema} {version : Int} {migration : MigrationInfo Schema}
    (found : registry.find? version = some migration) : migration.version = version := by
  simpa using List.find?_some found

theorem find?_isSome_iff {registry : Registry Schema} {version : Int} :
    (∃ migration, registry.find? version = some migration) ↔
      version ∈ registry.migrations.map MigrationInfo.version := by
  rw [← Option.isSome_iff_exists, Registry.find?, List.find?_isSome, List.mem_map]
  simp

theorem mem_versionsToRollback {target version : Int} :
    version ∈ versionsToRollback target db ↔ version ∈ db.recorded ∧ target < version := by
  unfold versionsToRollback
  simp

theorem nodup_pendingMigrations (environment : Environment Schema) (target : Option Int)
    (db : Database Schema) :
    ((pendingMigrations environment target db).map MigrationInfo.version).Nodup := by
  have sorted := (List.perm_insertionSort
    (fun first second : MigrationInfo Schema => first.version ≤ second.version)
    environment.registry.migrations).map MigrationInfo.version
  have all := sorted.nodup_iff.mpr environment.registry.distinct
  exact all.sublist (List.filter_sublist.map MigrationInfo.version)

theorem map_filterMap_find? (registry : Registry Schema) (versions : List Int) :
    ((versions.filterMap registry.find?).map MigrationInfo.version).Sublist versions := by
  induction versions with
  | nil => exact List.Sublist.refl _
  | cons version rest ih =>
      cases found : registry.find? version with
      | none =>
          rw [List.filterMap_cons_none found]
          exact ih.cons version
      | some migration =>
          rw [List.filterMap_cons_some found, List.map_cons, find?_version found]
          exact ih.cons_cons version

theorem mem_migrationsToRollback {environment : Environment Schema} {target version : Int} :
    version ∈ (migrationsToRollback environment target db).map MigrationInfo.version ↔
      (version ∈ db.recorded ∧ target < version) ∧
        version ∈ environment.registry.migrations.map MigrationInfo.version := by
  rw [← mem_versionsToRollback, ← find?_isSome_iff, List.mem_map]
  unfold migrationsToRollback
  constructor
  · intro given
    rcases given with ⟨migration, member, rfl⟩
    obtain ⟨version, listed, found⟩ := List.mem_filterMap.mp member
    rw [find?_version found]
    exact ⟨listed, migration, found⟩
  · intro given
    rcases given with ⟨listed, migration, found⟩
    exact ⟨migration, List.mem_filterMap.mpr ⟨version, listed, found⟩, find?_version found⟩

theorem nodup_todo (call : Call Schema) (db : Database Schema) :
    ((call.todo db).map MigrationInfo.version).Nodup := by
  unfold Call.todo
  split
  · split
    · exact List.nodup_nil
    · exact nodup_pendingMigrations _ _ _
  · split
    · exact List.nodup_nil
    · split
      · exact List.nodup_nil
      · exact (Finset.sort_nodup _ _).sublist (map_filterMap_find? _ _)

theorem ready_todo {migration : MigrationInfo Schema} (member : migration ∈ call.todo db) :
    call.direction.Ready db migration := by
  unfold Call.todo at member
  unfold Call.direction
  cases operation : call.operation with
  | upgrade target dryRun =>
      rw [operation] at member
      cases dryRun with
      | true => cases member
      | false =>
          have kept := (List.mem_filter.mp member).2
          simp only [decide_eq_true_eq] at kept
          exact kept.1
  | downgrade target dryRun =>
      rw [operation] at member
      dsimp only at member
      split at member
      · cases member
      · cases dryRun with
        | true => cases member
        | false =>
            have listed := mem_migrationsToRollback.mp (List.mem_map_of_mem member)
            exact listed.1.1

theorem attempted_subset (environment : Environment Schema) (direction : Direction)
    (migrations : List (MigrationInfo Schema)) :
    Db.attempted environment direction migrations ⊆ migrations := by
  induction migrations with
  | nil => exact List.Subset.refl _
  | cons migration rest ih =>
      rw [attempted]
      apply List.cons_subset_cons
      split
      · exact ih
      · exact List.nil_subset _

theorem registered_of_attempted {migration : MigrationInfo Schema}
    (tried : migration ∈ call.attempted db) :
    migration ∈ call.environment.registry.migrations := by
  have member := attempted_subset _ _ _ tried
  unfold Call.todo at member
  split at member
  · split at member
    · cases member
    · exact (List.mem_insertionSort _).mp (List.mem_of_mem_filter member)
  · split at member
    · cases member
    · split at member
      · cases member
      · obtain ⟨version, -, found⟩ := List.mem_filterMap.mp member
        exact List.mem_of_find?_eq_some found

theorem agrees_step_iff {next : Database Schema} (agrees : db.recorded = db.inEffect)
    (stepped : migrationStep db call = some next) :
    next.recorded = next.inEffect ↔
      ∀ migration ∈ call.attempted db, call.environment.Even call.direction migration := by
  obtain rfl := Option.some.inj stepped
  rw [perform_eq]
  exact forEach_agrees_iff agrees (nodup_todo call db) (fun _ member => ready_todo member)

theorem perform_fails (fails : (call.perform db).1 = none) :
    ∃ earlier migration, call.attempted db = earlier ++ [migration] ∧
      (migrate call.environment call.direction migration
        (forEach (migrate call.environment call.direction) earlier db).2).1 = none ∧
      (call.perform db).2 = (migrate call.environment call.direction migration
        (forEach (migrate call.environment call.direction) earlier db).2).2 := by
  rw [perform_eq] at fails ⊢
  obtain ⟨earlier, migration, tried, -, failed, same⟩ := forEach_fails fails
  exact ⟨earlier, migration, tried, failed, same⟩

theorem currentVersion_le_iff {target : Int} :
    db.currentVersion ≤ target ↔
      (∀ version ∈ db.recorded, version ≤ target) ∧ (0 ≤ target ∨ db.recorded.Nonempty) := by
  unfold Database.currentVersion
  rcases db.recorded.eq_empty_or_nonempty with empty | nonempty
  · simp [empty]
  · rw [← Finset.coe_max' nonempty, WithBot.unbotD_coe, Finset.max'_le_iff]
    simp [nonempty]

theorem downgrade_reaches_iff {environment : Environment Schema} {target : Int}
    (returns : (downgrade environment target false db).1.isSome = true) :
    (downgrade environment target false db).2.currentVersion ≤ target ↔
      (∀ version ∈ db.recorded, target < version →
        version ∈ environment.registry.migrations.map MigrationInfo.version) ∧
      (0 ≤ target ∨ ∃ version ∈ db.recorded, version ≤ target) := by
  unfold downgrade at returns ⊢
  by_cases already : db.currentVersion ≤ target
  · rw [if_pos already]
    obtain ⟨below, start⟩ := currentVersion_le_iff.mp already
    refine iff_of_true already ⟨fun version member above => ?_, ?_⟩
    · exact absurd (below version member) (by omega)
    · rcases start with positive | ⟨version, member⟩
      · exact Or.inl positive
      · exact Or.inr ⟨version, member, below version member⟩
  · simp only [if_neg already, Bool.false_eq_true, if_false] at returns ⊢
    have left := mem_recorded_of_returns returns
    simp only [mem_migrationsToRollback] at left
    rw [currentVersion_le_iff]
    have registered : (∀ version ∈ (forEach (rollbackMigration environment)
          (migrationsToRollback environment target db) db).2.recorded, version ≤ target) ↔
        ∀ version ∈ db.recorded, target < version →
          version ∈ environment.registry.migrations.map MigrationInfo.version := by
      constructor
      · intro below version member above
        by_contra unregistered
        have still := below version ((left version).mpr ⟨member, fun both => unregistered both.2⟩)
        omega
      · intro known version member
        obtain ⟨before, kept⟩ := (left version).mp member
        by_contra above
        exact kept ⟨⟨before, by omega⟩, known version before (by omega)⟩
    rw [registered]
    refine and_congr_right fun known => or_congr_right ?_
    constructor
    · intro given
      rcases given with ⟨version, member⟩
      exact ⟨version, ((left version).mp member).1, registered.mpr known version member⟩
    · intro given
      rcases given with ⟨version, member, below⟩
      exact ⟨version, (left version).mpr ⟨member, fun both => by omega⟩⟩

def Database.Agrees (db : Database Schema) : Prop := db.recorded = db.inEffect

/-- A call that raises leaves the schema as it was before its last migration. -/
def SchemaKept (event : Event (Database Schema) (Call Schema)) : Prop :=
  (event.action.perform event.before).1 = none → ∀ earlier migration,
    event.action.attempted event.before = earlier ++ [migration] →
      event.after.schema = (forEach (migrate event.action.environment event.action.direction)
        earlier event.before).2.schema

def TargetReached (event : Event (Database Schema) (Call Schema)) : Prop :=
  ∀ target, event.action.operation = .downgrade target false →
    (event.action.perform event.before).1.isSome = true → event.after.currentVersion ≤ target

def Call.Even (call : Call Schema) (db : Database Schema) : Prop :=
  ∀ migration ∈ call.attempted db, call.environment.Even call.direction migration

def Call.FailsAtOnce (call : Call Schema) (db : Database Schema) : Prop :=
  (call.perform db).1 = none → ∀ earlier migration, call.attempted db = earlier ++ [migration] →
    ∀ place, ¬ TakesEffect (call.environment.failures migration.version).statements
      (migration.executed call.environment.neo4jDriver call.direction) place

/-- Every recorded version above the target is registered, and there is a version at or below it:
a recorded one, or the 0 of an empty table. -/
def Call.Reachable (call : Call Schema) (db : Database Schema) : Prop :=
  ∀ target, call.operation = .downgrade target false → (call.perform db).1.isSome = true →
    (∀ version ∈ db.recorded, target < version →
      version ∈ call.environment.registry.migrations.map MigrationInfo.version) ∧
    (0 ≤ target ∨ ∃ version ∈ db.recorded, version ≤ target)

theorem schemaKept_of_failsAtOnce {event : Event (Database Schema) (Call Schema)}
    (stepped : migrationStep event.before event.action = some event.after)
    (atOnce : event.action.FailsAtOnce event.before) : SchemaKept event := by
  intro fails earlier migration tried
  obtain ⟨others, last, triedToo, -, same⟩ := perform_fails fails
  obtain ⟨rfl, only⟩ := List.append_inj' (tried.symm.trans triedToo) rfl
  obtain rfl := List.singleton_inj.mp only
  rw [← Option.some.inj stepped, same]
  exact migrate_schema (atOnce fails earlier migration tried)

theorem targetReached_iff {event : Event (Database Schema) (Call Schema)}
    (stepped : migrationStep event.before event.action = some event.after) :
    TargetReached event ↔ event.action.Reachable event.before := by
  refine forall_congr' fun target => forall_congr' fun operation => forall_congr' fun returns => ?_
  have performs : event.action.perform = downgrade event.action.environment target false := by
    unfold Call.perform
    rw [operation]
  rw [← Option.some.inj stepped]
  rw [performs] at returns ⊢
  exact downgrade_reaches_iff returns

/-- Throughout a run the recorded versions are those in effect exactly if every migration attempted
is even; a migration that fails at once leaves the schema as it was; and a downgrade that returns
reaches its target exactly if the versions above it are registered and it has one to end at. -/
theorem migrations_recorded_iff_even {schema : Schema} {last : Database Schema}
    {events : List (Event (Database Schema) (Call Schema))}
    (run : Run migrationStep { schema := schema } events last) :
    ((∀ event ∈ events, event.after.Agrees) ↔
        ∀ event ∈ events, event.action.Even event.before) ∧
      (∀ event ∈ events, event.action.FailsAtOnce event.before → SchemaKept event) ∧
      ∀ event ∈ events, (TargetReached event ↔ event.action.Reachable event.before) := by
  refine ⟨?_, fun event member => ?_, fun event member => ?_⟩
  · have start : ({ schema := schema } : Database Schema).Agrees := rfl
    exact run.forall_after_iff Database.Agrees
      (fun event : Event (Database Schema) (Call Schema) => event.action.Even event.before) start
      (fun _ _ _ agrees stepped => agrees_step_iff agrees stepped)
  · exact schemaKept_of_failsAtOnce (run.event_of_mem member).1
  · exact targetReached_iff (run.event_of_mem member).1

end Calls

theorem even_of_no_failure {environment : Environment Schema} {migration : MigrationInfo Schema}
    (direction : Direction) (backend : migration.backend = .sqlite)
    (fine : environment.failures migration.version = {}) :
    environment.Even direction migration := by
  have whole (direction : Direction) : migration.executed environment.neo4jDriver direction =
      migration.statements direction := by
    unfold MigrationInfo.executed
    rw [backend]
  have writes : environment.Writes direction migration := by
    unfold Environment.Writes Raises
    simp [fine]
  refine iff_of_true writes ?_
  cases direction with
  | up => exact ⟨whole .up, fun _ _ => by rw [fine]⟩
  | down =>
      cases script : migration.statements .down with
      | nil => exact Or.inl script
      | cons statement rest =>
          refine Or.inr ⟨0, ?_, ?_, ?_⟩
          · rw [whole, script]
            exact Nat.succ_pos _
          · rw [fine]
          · intro earlier impossible
            cases impossible

def usersMigration : MigrationInfo (List String) where
  version := 1
  upSql := [fun tables => "users" :: tables, fun tables => "refresh_tokens" :: tables]
  downSql := [fun _ => []]

def graphMigration : MigrationInfo (List String) where
  version := 3
  upAsync := [{ perform := fun tables => "entity_id" :: tables }]
  downAsync := [{ perform := fun tables => tables.erase "entity_id", suppressed := true }]
  backend := .neo4j

def registered (migration : MigrationInfo (List String)) : Environment (List String) where
  registry := ⟨[migration], by simp⟩

def migrationEvents (calls : List (Call (List String))) :
    List (Event (Database (List String)) (Call (List String))) :=
  (record migrationStep { schema := [] } calls).getD []

theorem migrationEvents_run (calls : List (Call (List String)))
    (recorded : (record migrationStep { schema := [] } calls).isSome = true) :
    Run migrationStep { schema := [] } (migrationEvents calls)
      (final { schema := [] } (migrationEvents calls)) :=
  run_of_isSome recorded

/-- Both tables are made and dropped again. -/
theorem migrations_recorded_up_and_down :
    ∃ last events, Run migrationStep ({ schema := [] } : Database (List String)) events last ∧
      events.length = 2 ∧ ∀ event ∈ events, event.after.Agrees := by
  have run := migrationEvents_run [⟨registered usersMigration, .upgrade none false⟩,
    ⟨registered usersMigration, .downgrade 0 false⟩] (by decide +kernel)
  refine ⟨_, _, run, by decide +kernel, ((migrations_recorded_iff_even run).1).mpr ?_⟩
  intro event member migration tried
  have known : event.action.environment = registered usersMigration := by
    rcases List.mem_cons.mp member with rfl | later
    · rfl
    · obtain rfl := List.mem_singleton.mp later
      rfl
  have listed := registered_of_attempted tried
  rw [known] at listed ⊢
  obtain rfl : migration = usersMigration := List.mem_singleton.mp listed
  exact even_of_no_failure _ rfl rfl

def failingSecond : Environment (List String) :=
  { registered usersMigration with
    failures := fun _ => { statements := fun place => place = 1 } }

def unregistered : Environment (List String) where
  registry := ⟨[], List.nodup_nil⟩

/-- A Neo4j migration without a driver is recorded and not in effect; a script that fails at its
second statement leaves the first table; a version that is not registered stays recorded. -/
theorem migrations_disagree :
    (¬ ∀ last events, Run migrationStep { schema := [] } events last →
      ∀ event ∈ events, (event.after : Database (List String)).Agrees) ∧
    (¬ ∀ last events, Run migrationStep { schema := [] } events last →
      ∀ event ∈ events, @SchemaKept (List String) event) ∧
    ¬ ∀ last events, Run migrationStep { schema := [] } events last →
      ∀ event ∈ events, @TargetReached (List String) event := by
  refine ⟨?_, ?_, ?_⟩
  · intro agree
    have run := migrationEvents_run [⟨registered graphMigration, .upgrade none false⟩]
      (by decide +kernel)
    have shape : ∃ event, migrationEvents [⟨registered graphMigration, .upgrade none false⟩] =
        [event] ∧ event.after.recorded ≠ event.after.inEffect := ⟨_, rfl, by decide +kernel⟩
    obtain ⟨event, events, differs⟩ := shape
    exact differs (agree _ _ run event (by simp [events]))
  · intro kept
    have run := migrationEvents_run [⟨failingSecond, .upgrade none false⟩]
      (by decide +kernel)
    have shape : ∃ event, migrationEvents [⟨failingSecond, .upgrade none false⟩] = [event] ∧
        (event.action.perform event.before).1 = none ∧
        event.action.attempted event.before = [] ++ [usersMigration] ∧
        event.before.schema = [] ∧ event.after.schema = ["users"] :=
      ⟨_, rfl, by decide +kernel, rfl, rfl, by decide +kernel⟩
    obtain ⟨event, events, fails, tried, before, after⟩ := shape
    have same := kept _ _ run event (by simp [events]) fails [] usersMigration tried
    rw [after] at same
    exact absurd (same.trans before) (by decide)
  · intro reached
    have run := migrationEvents_run
      [⟨registered usersMigration, .upgrade none false⟩, ⟨unregistered, .downgrade 0 false⟩]
      (by decide +kernel)
    have shape : ∃ first second, migrationEvents [⟨registered usersMigration, .upgrade none false⟩,
          ⟨unregistered, .downgrade 0 false⟩] = [first, second] ∧
        second.action.operation = .downgrade 0 false ∧
        (second.action.perform second.before).1.isSome = true ∧
        second.after.currentVersion = 1 :=
      ⟨_, _, rfl, rfl, by decide +kernel, by decide +kernel⟩
    obtain ⟨first, second, events, operation, returns, version⟩ := shape
    have below := reached _ _ run second (by simp [events]) 0 operation returns
    rw [version] at below
    exact absurd below (by decide)

end RagSystem.Db
