import RagSystem.Etl.WalManager
import RagSystem.Transition.Run

/-! The Redis backend of the write-ahead log: a key for each section, and how far the manager sees
what it would see in a file. -/

namespace RagSystem.Etl.Wal

open Transition

/-- `KEYS` lists its matches in any order. -/
structure KeyOrder where
  arrange : List String → List String
  perm : ∀ keys, (arrange keys).Perm keys

/-- Characters that a pattern of `KEYS` does not take literally. -/
def globCharacters : List Char := ['*', '?', '[', '\\']

structure RedisWal where
  keyPrefix : String := "etl:wal"
  plain : ∀ char ∈ keyPrefix.toList, char ∉ globCharacters := by simp [globCharacters]

abbrev Store := Dict String Checkpoint

namespace RedisWal

variable (redis : RedisWal)

/-- `f"{self.key_prefix}:"`. -/
def lead : String := redis.keyPrefix ++ ":"

def key (name : String) : String := redis.lead ++ name

/-- The pattern of `KEYS` has no special character but the final star. -/
def matchesPattern (key : String) : Bool := redis.lead.toList.isPrefixOf key.toList

/-- `key_str[len(self.key_prefix) + 1:]`. -/
def checkpointName (key : String) : String :=
  String.ofList (key.toList.drop (redis.keyPrefix.length + 1))

/-- A missing value reads as `{}`. -/
def read (order : KeyOrder) (store : Store) : Document :=
  Dict.ofList ((order.arrange (store.keys.filter redis.matchesPattern)).map (fun key =>
    (redis.checkpointName key, (store.get? key).getD ∅)))

def write (data : Document) (store : Store) : Store :=
  store.setAll (data.entries.map (fun entry => (redis.key entry.1, entry.2)))

variable {redis}

theorem checkpointName_key (name : String) : redis.checkpointName (redis.key name) = name := by
  have long : redis.lead.toList.length = redis.keyPrefix.length + 1 := by
    simp [lead, String.length_toList]
  unfold checkpointName key
  rw [String.toList_append, ← long, List.drop_left, String.ofList_toList]

theorem key_injective {first second : String} (same : redis.key first = redis.key second) :
    first = second := by
  calc
    first = redis.checkpointName (redis.key first) := (checkpointName_key first).symm
    _ = redis.checkpointName (redis.key second) := by rw [same]
    _ = second := checkpointName_key second

theorem matchesPattern_iff (key : String) :
    redis.matchesPattern key = true ↔ ∃ name, key = redis.key name := by
  unfold matchesPattern
  rw [List.isPrefixOf_iff_prefix]
  constructor
  · intro given
    rcases given with ⟨rest, whole⟩
    refine ⟨String.ofList rest, String.toList_inj.mp ?_⟩
    simp [RedisWal.key, ← whole]
  · intro given
    rcases given with ⟨name, rfl⟩
    simp [RedisWal.key]

theorem mem_listed {order : KeyOrder} {store : Store} {name : String} {checkpoint : Checkpoint} :
    (name, checkpoint) ∈ (order.arrange (store.keys.filter redis.matchesPattern)).map (fun key =>
        (redis.checkpointName key, (store.get? key).getD ∅)) ↔
      store.get? (redis.key name) = some checkpoint := by
  have listed : ∀ key, key ∈ order.arrange (store.keys.filter redis.matchesPattern) ↔
      (∃ value, store.get? key = some value) ∧ ∃ name, key = redis.key name := by
    intro key
    rw [(order.perm _).mem_iff, List.mem_filter, Dict.mem_keys_iff, matchesPattern_iff]
  rw [List.mem_map]
  constructor
  · intro given
    rcases given with ⟨key, member, equal⟩
    obtain ⟨⟨value, held⟩, own, rfl⟩ := (listed key).mp member
    obtain ⟨named, stored⟩ := Prod.mk.inj equal
    rw [checkpointName_key] at named
    rw [← named, ← stored, held]
    rfl
  · intro held
    refine ⟨redis.key name, (listed _).mpr ⟨⟨checkpoint, held⟩, name, rfl⟩, ?_⟩
    rw [checkpointName_key, held]
    rfl

theorem get?_read (order : KeyOrder) (store : Store) (name : String) :
    (redis.read order store).get? name = store.get? (redis.key name) := by
  unfold read
  cases held : store.get? (redis.key name) with
  | none =>
      refine Dict.get?_setAll_of_not_mem ?_ ∅
      intro given member also
      rcases given with ⟨_, checkpoint⟩
      rcases also with rfl
      rw [mem_listed, held] at member
      cases member
  | some checkpoint =>
      refine Dict.get?_setAll_of_agree (mem_listed.mpr held) ?_ ∅
      intro other member
      rw [mem_listed, held] at member
      exact (Option.some.inj member).symm

theorem mem_sent {data : Document} {name : String} {checkpoint : Checkpoint} :
    (redis.key name, checkpoint) ∈ data.entries.map (fun entry => (redis.key entry.1, entry.2)) ↔
      data.get? name = some checkpoint := by
  rw [List.mem_map, ← Dict.mem_entries_iff]
  constructor
  · intro given
    rcases given with ⟨⟨other, value⟩, member, equal⟩
    obtain ⟨named, rfl⟩ := Prod.mk.inj equal
    rw [← key_injective named]
    exact member
  · intro member
    exact ⟨_, member, rfl⟩

theorem get?_write (data : Document) (store : Store) (name : String) :
    (redis.write data store).get? (redis.key name) =
      (data.get? name).or (store.get? (redis.key name)) := by
  unfold write
  cases sent : data.get? name with
  | none =>
      refine Dict.get?_setAll_of_not_mem ?_ store
      intro given member also
      rcases given with ⟨_, checkpoint⟩
      rcases also with rfl
      rw [mem_sent, sent] at member
      cases member
  | some checkpoint =>
      refine Dict.get?_setAll_of_agree (mem_sent.mpr sent) ?_ store
      intro other member
      rw [mem_sent, sent] at member
      exact (Option.some.inj member).symm

def backend (redis : RedisWal) : Backend Store KeyOrder where
  read := redis.read
  write := redis.write
  view store name := store.get? (redis.key name)
  read_spec := get?_read
  write_spec data store covers name := by
    rw [get?_write]
    cases held : data.get? name with
    | some checkpoint => rfl
    | none =>
        have gone : store.get? (redis.key name) = none := by
          by_contra present
          have kept := covers name (Option.isSome_iff_ne_none.mpr present)
          rw [held] at kept
          cases kept
        rw [gone]
        rfl

end RedisWal

structure Twin where
  file : Document := ∅
  store : Store := ∅

section Twin

variable (redis : RedisWal) (formats : Formats)

def twinStep (twin : Twin) (call : Call KeyOrder) : Option Twin :=
  some
    { file := perform formats fileBackend ⟨call.operation, call.now, (), ()⟩ twin.file
      store := perform formats redis.backend call twin.store }

/-- Equal, up to the order in which pipelines are listed. -/
def Answer.Same : Answer → Answer → Prop
  | .names first, .names second => first.Perm second
  | first, second => first = second

def SameReads (twin : Twin) : Prop :=
  ∀ order query, (answer formats (redis.read order twin.store) query).Same
    (answer formats twin.file query)

def Operation.drops (document : Document) : Operation → Bool
  | .resetPipeline pipeline false => (document.get? pipeline).isSome
  | .resetAll => !document.entries.isEmpty
  | _ => false

def Twin.Matched (twin : Twin) : Prop :=
  ∀ name, twin.store.get? (redis.key name) = twin.file.get? name

variable {redis formats} {twin : Twin}

theorem Answer.same_refl (answer : Answer) : answer.Same answer := by
  cases answer with
  | names listed => exact List.Perm.refl listed
  | _ => rfl

theorem answer_same {first second : Document}
    (same : ∀ name, first.get? name = second.get? name) (query : Query) :
    (answer formats first query).Same (answer formats second query) := by
  cases query with
  | allPipelines => exact Dict.perm_keys same
  | _ =>
      simp only [answer, getCheckpoint_congr same]
      exact Answer.same_refl _

theorem sameReads_iff : SameReads redis formats twin ↔ twin.Matched redis := by
  constructor
  · intro reads name
    have order : KeyOrder := ⟨id, List.Perm.refl⟩
    have listed : (redis.read order twin.store).keys.Perm twin.file.keys :=
      reads order .allPipelines
    have sections : Answer.value (getCheckpoint (redis.read order twin.store) name none) =
        .value (getCheckpoint twin.file name none) := reads order (.checkpoint name none)
    have entries := Json.obj.inj (Answer.value.inj sections)
    have present := listed.mem_iff (a := name)
    rw [Dict.mem_keys_iff, Dict.mem_keys_iff] at present
    simp only [sectionOf, RedisWal.get?_read] at entries present
    cases left : twin.store.get? (redis.key name) with
    | none =>
        cases right : twin.file.get? name with
        | none => rfl
        | some checkpoint =>
            rw [left, right] at present
            obtain ⟨checkpoint, impossible⟩ := present.mpr ⟨checkpoint, rfl⟩
            cases impossible
    | some stored =>
        cases right : twin.file.get? name with
        | none =>
            rw [left, right] at present
            obtain ⟨checkpoint, impossible⟩ := present.mp ⟨stored, rfl⟩
            cases impossible
        | some checkpoint =>
            rw [left, right] at entries
            obtain ⟨bindings, nodup⟩ := stored
            obtain rfl : bindings = checkpoint.entries := entries
            rfl
  · intro matched order query
    refine answer_same ?_ query
    intro name
    rw [RedisWal.get?_read, matched]

theorem covers_iff {seen data : Document} {now : Rat} {operation : Operation}
    {change : Document → Document} (changes : operation.change formats now seen = some change) :
    (∀ name, (data.get? name).isSome = true → ((change data).get? name).isSome = true) ↔
      operation.drops data = false := by
  cases operation with
  | update own =>
      obtain ⟨updates, -, rfl⟩ := Option.map_eq_some_iff.mp changes
      refine ⟨fun _ => rfl, ?_⟩
      intro _ name present
      rw [get?_merge]
      split
      · rfl
      · exact present
  | resetPipeline pipeline keepLastRun =>
      obtain rfl := Option.some.inj changes
      cases keepLastRun with
      | true =>
          refine ⟨fun _ => rfl, ?_⟩
          intro _ name present
          simp only [Wal.resetPipeline, Dict.get?_set, if_true]
          split
          · rfl
          · exact present
      | false =>
          simp only [Wal.resetPipeline, Bool.false_eq_true, if_false, Dict.get?_erase,
            Operation.drops]
          constructor
          · intro covers
            cases present : (data.get? pipeline).isSome with
            | false => rfl
            | true =>
                have gone := covers pipeline present
                simp at gone
          · intro absent name present
            have other : name ≠ pipeline := by
              intro given
              rcases given with rfl
              rw [absent] at present
              cases present
            simpa [other] using present
  | resetAll =>
      obtain rfl := Option.some.inj changes
      simp only [Operation.drops, Dict.get?_empty]
      constructor
      · intro covers
        cases whole : data.entries with
        | nil => rfl
        | cons entry rest =>
            have held := (Dict.mem_entries_iff data entry.1 entry.2).mp (by simp [whole])
            have gone := covers entry.1 (by rw [held]; rfl)
            cases gone
      · intro empty name present
        have none : data.entries = [] := by simpa using empty
        simp [Dict.get?, none] at present
  | vacuum maxAgeDays =>
      obtain rfl := Option.some.inj changes
      refine ⟨fun _ => rfl, ?_⟩
      intro _ name present
      simpa using present

theorem matched_step {next : Twin} {call : Call KeyOrder} (matched : twin.Matched redis)
    (stepped : twinStep redis formats twin call = some next) :
    next.Matched redis ↔ call.operation.drops twin.file = false := by
  obtain rfl := Option.some.inj stepped
  have agree : ∀ order name, (redis.read order twin.store).get? name = twin.file.get? name := by
    intro order name
    rw [RedisWal.get?_read, matched]
  have changes : call.operation.change formats call.now (redis.read call.first twin.store) =
      call.operation.change formats call.now twin.file :=
    change_congr (agree call.first) call.operation
  cases found : call.operation.change formats call.now twin.file with
  | none =>
      have kept : call.operation.drops twin.file = false := by
        obtain ⟨operation, now, first, second⟩ := call
        cases operation with
        | update own => rfl
        | _ => cases found
      rw [found] at changes
      simp only [perform, fileBackend, RedisWal.backend, found, changes, kept, Twin.Matched,
        iff_true]
      exact matched
  | some change =>
      rw [found] at changes
      rw [← covers_iff found]
      simp only [perform, fileBackend, RedisWal.backend, found, changes, Twin.Matched,
        RedisWal.get?_write]
      refine forall_congr' fun name => ?_
      rw [changed_congr found (agree call.second), matched]
      cases twin.file.get? name <;> cases (change twin.file).get? name <;> simp

/-- Redis answers like the file throughout a run exactly if no call of it drops a section. -/
theorem redis_refines_file_iff {last : Twin} {events : List (Event Twin (Call KeyOrder))}
    (run : Run (twinStep redis formats) {} events last) :
    (∀ event ∈ events, SameReads redis formats event.after) ↔
      ∀ event ∈ events, event.action.operation.drops event.before.file = false := by
  simp only [sameReads_iff]
  exact run.forall_after_iff (Twin.Matched redis)
    (fun event => event.action.operation.drops event.before.file = false) (fun _ => rfl)
    (fun _ _ _ matched stepped => matched_step matched stepped)

end Twin

def Formats.plain : Formats where
  str value :=
    match value with
    | .str text => text
    | _ => ""
  int value :=
    match value with
    | .int number => some number
    | _ => none
  isoformat _ := "1970-01-01T00:00:00+00:00"
  fromisoformat _ := some 0

def KeyOrder.inserted : KeyOrder := ⟨id, List.Perm.refl⟩

def etlRedis : RedisWal := {}

def twinEvents (operations : List Operation) : List (Event Twin (Call KeyOrder)) :=
  (record (twinStep etlRedis Formats.plain) {} (operations.map (fun operation =>
    ⟨operation, 0, KeyOrder.inserted, KeyOrder.inserted⟩))).getD []

theorem twinEvents_run (operations : List Operation)
    (recorded : (record (twinStep etlRedis Formats.plain) {} (operations.map (fun operation =>
      ⟨operation, 0, KeyOrder.inserted, KeyOrder.inserted⟩))).isSome = true) :
    Run (twinStep etlRedis Formats.plain) {} (twinEvents operations)
      (final {} (twinEvents operations)) :=
  run_of_isSome recorded

/-- A reset that keeps the section keeps the two alike. -/
theorem redis_refines_file_kept :
    ∃ last events, Run (twinStep etlRedis Formats.plain) {} events last ∧ events.length = 3 ∧
      ∀ event ∈ events, SameReads etlRedis Formats.plain event.after := by
  have run := twinEvents_run [.update (.offset "jira" 150), .resetPipeline "jira" true,
    .update (.hashState "indexing" "page" "h1")] (by decide +kernel)
  exact ⟨_, _, run, rfl, (redis_refines_file_iff run).mpr (by decide +kernel)⟩

/-- After a full reset of a pipeline its old offset is still read from Redis. -/
theorem redis_keeps_reset_section :
    ¬ ∀ last events, Run (twinStep etlRedis Formats.plain) {} events last →
      ∀ event ∈ events, SameReads etlRedis Formats.plain event.after := by
  intro refines
  have reads := refines _ _ (twinEvents_run
    [.update (.offset "jira" 150), .resetPipeline "jira" false] (by decide +kernel))
  have shape : ∃ updated reset, twinEvents [.update (.offset "jira" 150),
        .resetPipeline "jira" false] = [updated, reset] ∧
      answer Formats.plain (etlRedis.read .inserted reset.after.store) (.offset "jira") =
        .number 150 ∧
      answer Formats.plain reset.after.file (.offset "jira") = .number 0 :=
    ⟨_, _, rfl, rfl, rfl⟩
  obtain ⟨updated, reset, events, redis, file⟩ := shape
  have same := reads reset (by rw [events]; simp) .inserted (.offset "jira")
  rw [redis, file] at same
  cases same

end RagSystem.Etl.Wal
