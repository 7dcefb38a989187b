import Mathlib.Data.List.Nodup
import RagSystem.Auth.ApiKeys
import RagSystem.Transition.Run

/-! What becomes of rotated API keys and of their replacements over time. -/

namespace RagSystem.ApiKeys

open Transition

inductive Act
  | generate (userId : String) (roles : List String) (ttlDays : Option Int)
      (rotatedFromKeyId : Option String) (draw : Draw)
  | rotate (oldKeyId : String) (ttlDays : Option Int) (draw : Draw)
  | revoke (keyId : String)
  | validate (key : String)
  deriving DecidableEq, Repr

structure Action where
  now : Rat
  act : Act
  deriving DecidableEq, Repr

structure KeyService where
  manager : ApiKeyManager := {}
  clock : Rat := 0
  deriving DecidableEq, Repr

def Act.draw? : Act → Option Draw
  | .generate _ _ _ _ draw => some draw
  | .rotate _ _ draw => some draw
  | .revoke _ => none
  | .validate _ => none

def perform (hash : String → String) (now : Rat) (act : Act) (manager : ApiKeyManager) :
    ApiKeyManager :=
  match act with
  | .generate userId roles ttlDays rotatedFromKeyId draw =>
      ((generateKey hash now userId roles ttlDays rotatedFromKeyId draw manager).map
        Prod.fst).getD manager
  | .rotate oldKeyId ttlDays draw =>
      ((rotateKey hash now oldKeyId ttlDays draw manager).map Prod.fst).getD manager
  | .revoke keyId => (revokeKey keyId manager).1
  | .validate key => (validateKey hash now key manager).1

def keyStep (hash : String → String) (service : KeyService) (action : Action) :
    Option KeyService :=
  if action.now < service.clock then none
  else some { manager := perform hash action.now action.act service.manager, clock := action.now }

def Fresh (hash : String → String) (act : Act) (manager : ApiKeyManager) : Prop :=
  ∀ draw ∈ act.draw?, ∀ key ∈ manager.keys,
    key.keyId ≠ draw.keyId ∧ key.keyHash ≠ hash draw.key

instance (hash : String → String) (act : Act) (manager : ApiKeyManager) :
    Decidable (Fresh hash act manager) :=
  inferInstanceAs (Decidable (∀ draw ∈ act.draw?, ∀ key ∈ manager.keys,
    key.keyId ≠ draw.keyId ∧ key.keyHash ≠ hash draw.key))

def Act.owner? : Act → Option String
  | .generate userId _ _ _ _ => some userId
  | _ => none

def NamesUser (act : Act) : Prop := act.owner? ≠ some ""

instance (act : Act) : Decidable (NamesUser act) := inferInstanceAs (Decidable (_ ≠ _))

/-! What one call does to the records. -/

structure Later (revoked : Bool) (old new : ApiKey) : Prop where
  keyId : new.keyId = old.keyId
  keyHash : new.keyHash = old.keyHash
  userId : new.userId = old.userId
  expiresAt : new.expiresAt = old.expiresAt
  isActive : new.isActive = (old.isActive && !revoked)

theorem Later.refl (key : ApiKey) : Later false key key := ⟨rfl, rfl, rfl, rfl, by simp⟩

theorem Later.trans {first second : Bool} {old middle new : ApiKey} (early : Later first old middle)
    (late : Later second middle new) : Later (first || second) old new where
  keyId := late.keyId.trans early.keyId
  keyHash := late.keyHash.trans early.keyHash
  userId := late.userId.trans early.userId
  expiresAt := late.expiresAt.trans early.expiresAt
  isActive := by rw [late.isActive, early.isActive, Bool.not_or, Bool.and_assoc]

def Act.revokes (act : Act) (keyId : String) : Bool := decide (act = .revoke keyId)

/-- A call updates the records it finds, and adds at most the one it draws an id for. -/
structure Changes (hash : String → String) (act : Act) (before after : ApiKeyManager)
    (update : ApiKey → ApiKey) (added : List ApiKey) : Prop where
  keys : after.keys = before.keys.map update ++ added
  owners : after.keyToUser =
    added.map (fun key => (key.keyHash, key.userId)) ++ before.keyToUser
  updated : ∀ key ∈ before.keys, Later (act.revokes key.keyId) key (update key)
  single : added = [] ∨ ∃ made, added = [made]
  drawn : ∀ key ∈ added, ∃ draw, act.draw? = some draw ∧ key.keyId = draw.keyId ∧
    key.keyHash = hash draw.key
  named : NamesUser act → (∀ key ∈ before.keys, key.userId ≠ "") → ∀ key ∈ added, key.userId ≠ ""

variable {hash : String → String} {now : Rat}

theorem generateKey_isNone {userId : String} {roles : List String} {ttlDays : Option Int}
    {rotatedFromKeyId : Option String} {draw : Draw} {manager : ApiKeyManager} :
    generateKey hash now userId roles ttlDays rotatedFromKeyId draw manager = none ↔
      maxKeysPerUser ≤ (listKeys now userId manager).length := by
  unfold generateKey
  split <;> simp_all

theorem generateKey_some {userId : String} {roles : List String} {ttlDays : Option Int}
    {rotatedFromKeyId : Option String} {draw : Draw} {manager next : ApiKeyManager} {key : String}
    (fresh : ∀ key ∈ manager.keys, key.keyId ≠ draw.keyId)
    (generated : generateKey hash now userId roles ttlDays rotatedFromKeyId draw manager =
      some (next, key)) :
    key = draw.key ∧ ∃ made : ApiKey, next.keys = manager.keys ++ [made] ∧
      next.keyToUser = (made.keyHash, made.userId) :: manager.keyToUser ∧
      made.keyId = draw.keyId ∧ made.keyHash = hash draw.key ∧ made.userId = userId ∧
      made.expiresAt = some (now + lifetime ttlDays) ∧ made.isActive = true := by
  unfold generateKey at generated
  split at generated
  · cases generated
  · have absent : ¬ manager.keys.any (fun other => other.keyId = draw.keyId) = true := by
      simpa using fresh
    simp only [insertKey, absent, Bool.false_eq_true, if_false] at generated
    obtain ⟨rfl, rfl⟩ := Prod.mk.inj (Option.some.inj generated)
    exact ⟨rfl, _, rfl, rfl, rfl, rfl, rfl, rfl, rfl⟩

theorem rotateKey_some {oldKeyId : String} {ttlDays : Option Int} {draw : Draw}
    {manager next : ApiKeyManager} {key : String}
    (fresh : ∀ key ∈ manager.keys, key.keyId ≠ draw.keyId)
    (rotated : rotateKey hash now oldKeyId ttlDays draw manager = some (next, some key)) :
    key = draw.key ∧ ∃ old ∈ manager.keys, old.keyId = oldKeyId ∧ old.isActive = true ∧
      ∃ (update : ApiKey → ApiKey) (made : ApiKey),
        next.keys = manager.keys.map update ++ [made] ∧
        next.keyToUser = (made.keyHash, made.userId) :: manager.keyToUser ∧
        (∀ key, Later false key (update key)) ∧
        made.keyId = draw.keyId ∧ made.keyHash = hash draw.key ∧ made.userId = old.userId ∧
        made.expiresAt = some (now + lifetime ttlDays) ∧ made.isActive = true := by
  unfold rotateKey at rotated
  split at rotated
  · cases rotated
  · rename_i old found
    split at rotated
    · cases rotated
    · rename_i active
      split at rotated
      · cases rotated
      · rename_i middle newKey generated
        obtain ⟨rfl, made, keys, owners, keyId, keyHash, userId, expiry, alive⟩ :=
          generateKey_some fresh generated
        obtain ⟨rfl, answer⟩ := Prod.mk.inj (Option.some.inj rotated)
        obtain rfl := Option.some.inj answer
        have same : old.keyId = oldKeyId := by simpa using List.find?_some found
        have held := List.mem_of_find?_eq_some found
        have other : made.keyId ≠ oldKeyId := by
          rw [keyId, ← same]
          exact (fresh old held).symm
        refine ⟨rfl, old, held, same, by simpa using active,
          fun key => if key.keyId = oldKeyId ∧ draw.keyId ≠ oldKeyId then
            key.supersede now draw.key else key,
          made, ?_, owners, ?_, keyId, keyHash, userId, expiry, alive⟩
        · rw [keys, List.map_append, List.map_singleton, if_neg (fun both => other both.1)]
        · intro key
          dsimp only
          split
          · exact ⟨rfl, rfl, rfl, rfl, by simp [ApiKey.supersede]⟩
          · exact Later.refl key

theorem perform_rotate (hash : String → String) (now : Rat) (oldKeyId : String)
    (ttlDays : Option Int) (draw : Draw) (manager : ApiKeyManager) :
    perform hash now (.rotate oldKeyId ttlDays draw) manager = manager ∨
      ∃ next key, rotateKey hash now oldKeyId ttlDays draw manager = some (next, some key) ∧
        perform hash now (.rotate oldKeyId ttlDays draw) manager = next := by
  cases rotated : rotateKey hash now oldKeyId ttlDays draw manager with
  | none => exact Or.inl (by simp [perform, rotated])
  | some result =>
      obtain ⟨next, answer⟩ := result
      cases answer with
      | some key => exact Or.inr ⟨next, key, rfl, by simp [perform, rotated]⟩
      | none =>
          refine Or.inl ?_
          have untouched : next = manager := by
            unfold rotateKey at rotated
            split at rotated
            · exact (Prod.mk.inj (Option.some.inj rotated)).1.symm
            · split at rotated
              · exact (Prod.mk.inj (Option.some.inj rotated)).1.symm
              · split at rotated <;> simp at rotated
          simp [perform, rotated, untouched]

theorem Changes.idle (act : Act) (manager : ApiKeyManager)
    (idle : ∀ keyId, act.revokes keyId = false) : Changes hash act manager manager id [] := by
  constructor
  · simp
  · simp
  · intro key _
    rw [idle]
    exact Later.refl key
  · simp
  · simp
  · simp

theorem generate_changes (now : Rat) {userId : String} {roles : List String} {ttlDays : Option Int}
    {rotatedFromKeyId : Option String} {draw : Draw} {manager : ApiKeyManager}
    (fresh : Fresh hash (.generate userId roles ttlDays rotatedFromKeyId draw) manager) :
    ∃ update added, Changes hash (.generate userId roles ttlDays rotatedFromKeyId draw) manager
      (perform hash now (.generate userId roles ttlDays rotatedFromKeyId draw) manager)
      update added := by
  have idle : ∀ keyId, (Act.generate userId roles ttlDays rotatedFromKeyId draw).revokes keyId =
      false := by simp [Act.revokes]
  cases generated : generateKey hash now userId roles ttlDays rotatedFromKeyId draw manager with
  | none => exact ⟨id, [], by simpa [perform, generated] using Changes.idle _ manager idle⟩
  | some result =>
      obtain ⟨next, key⟩ := result
      obtain ⟨-, made, keys, owners, keyId, keyHash, owner, -⟩ :=
        generateKey_some (fun key member => (fresh draw rfl key member).1) generated
      refine ⟨id, [made], ?_⟩
      simp only [perform, generated, Option.map_some, Option.getD_some]
      constructor
      · simpa using keys
      · simpa using owners
      · intro key _
        rw [idle]
        exact Later.refl key
      · simp
      · simpa using ⟨draw, rfl, keyId, keyHash⟩
      · intro named _
        simpa [owner, NamesUser, Act.owner?] using named

theorem rotate_changes (now : Rat) {oldKeyId : String} {ttlDays : Option Int} {draw : Draw}
    {manager : ApiKeyManager} (fresh : Fresh hash (.rotate oldKeyId ttlDays draw) manager) :
    ∃ update added, Changes hash (.rotate oldKeyId ttlDays draw) manager
      (perform hash now (.rotate oldKeyId ttlDays draw) manager) update added := by
  have idle : ∀ keyId, (Act.rotate oldKeyId ttlDays draw).revokes keyId = false := by
    simp [Act.revokes]
  have unused := fun key member => (fresh draw rfl key member).1
  rcases perform_rotate hash now oldKeyId ttlDays draw manager with
    same | ⟨next, key, rotated, reached⟩
  · rw [same]
    exact ⟨id, [], Changes.idle _ manager idle⟩
  · obtain ⟨-, old, held, -, -, update, made, keys, owners, kept, keyId, keyHash, owner, -⟩ :=
      rotateKey_some unused rotated
    refine ⟨update, [made], ?_⟩
    rw [reached]
    constructor
    · exact keys
    · simpa using owners
    · intro key _
      rw [idle]
      exact kept key
    · simp
    · simpa using ⟨draw, rfl, keyId, keyHash⟩
    · intro _ named
      simpa [owner] using named old held

theorem revoke_changes (now : Rat) (keyId : String) (manager : ApiKeyManager) :
    Changes hash (.revoke keyId) manager (perform hash now (.revoke keyId) manager)
      (fun key => if key.keyId = keyId then { key with isActive := false } else key) [] := by
  constructor
  · simp [perform, revokeKey]
  · simp [perform, revokeKey]
  · intro key _
    split
    · rename_i same
      exact ⟨rfl, rfl, rfl, rfl, by simp [Act.revokes, same]⟩
    · rename_i other
      have spared : (Act.revoke keyId).revokes key.keyId = false := by
        simpa [Act.revokes] using fun same => other same.symm
      rw [spared]
      exact Later.refl key
  · simp
  · simp
  · simp

theorem validateKey_cases (hash : String → String) (now : Rat) (key : String)
    (manager : ApiKeyManager) :
    (validateKey hash now key manager).1 = manager ∨ ∃ apiKey ∈ manager.keys,
      (validateKey hash now key manager).1 = { manager with
        keys := manager.keys.map (fun other => if other.keyId = apiKey.keyId then
          { apiKey with lastUsed := some now } else other) } := by
  unfold validateKey
  split
  · exact Or.inl rfl
  · split
    · exact Or.inl rfl
    · split
      · exact Or.inl rfl
      · split
        · exact Or.inl rfl
        · rename_i apiKey found
          split
          · exact Or.inl rfl
          · exact Or.inr ⟨apiKey, List.mem_of_find?_eq_some found, rfl⟩

theorem validate_changes (now : Rat) (key : String) {manager : ApiKeyManager}
    (distinct : (manager.keys.map ApiKey.keyId).Nodup) :
    ∃ update added, Changes hash (.validate key) manager
      (perform hash now (.validate key) manager) update added := by
  have idle : ∀ keyId, (Act.validate key).revokes keyId = false := by simp [Act.revokes]
  obtain same | ⟨apiKey, held, used⟩ := validateKey_cases hash now key manager
  · rw [perform, same]
    exact ⟨id, [], Changes.idle _ manager idle⟩
  · rw [perform, used]
    refine ⟨fun other => if other.keyId = apiKey.keyId then
      { apiKey with lastUsed := some now } else other, [], by simp, by simp, ?_, by simp, by simp,
      by simp⟩
    intro other member
    rw [idle]
    split
    · rename_i same
      obtain rfl : other = apiKey := List.inj_on_of_nodup_map distinct member held same
      exact ⟨rfl, rfl, rfl, rfl, by simp⟩
    · exact Later.refl other

theorem perform_changes (now : Rat) {act : Act} {manager : ApiKeyManager}
    (distinct : (manager.keys.map ApiKey.keyId).Nodup) (fresh : Fresh hash act manager) :
    ∃ update added, Changes hash act manager (perform hash now act manager) update added := by
  cases act with
  | generate userId roles ttlDays rotatedFromKeyId draw => exact generate_changes now fresh
  | rotate oldKeyId ttlDays draw => exact rotate_changes now fresh
  | revoke keyId => exact ⟨_, [], revoke_changes now keyId manager⟩
  | validate key => exact validate_changes now key distinct

/-! The records over a run. -/

structure Consistent (manager : ApiKeyManager) : Prop where
  ids : (manager.keys.map ApiKey.keyId).Nodup
  hashes : (manager.keys.map ApiKey.keyHash).Nodup
  owners : ∀ key ∈ manager.keys, manager.keyToUser.lookup key.keyHash = some key.userId
  named : ∀ key ∈ manager.keys, key.userId ≠ ""

section Changes

variable {act : Act} {before after : ApiKeyManager} {update : ApiKey → ApiKey}
  {added : List ApiKey}

theorem Changes.mem_cases (changes : Changes hash act before after update added) {key : ApiKey}
    (member : key ∈ after.keys) :
    (∃ old ∈ before.keys, Later (act.revokes old.keyId) old key) ∨ key ∈ added := by
  rw [changes.keys] at member
  rcases List.mem_append.mp member with updated | new
  · obtain ⟨old, held, rfl⟩ := List.mem_map.mp updated
    exact Or.inl ⟨old, held, changes.updated old held⟩
  · exact Or.inr new

theorem Changes.apart (changes : Changes hash act before after update added)
    (fresh : Fresh hash act before) {made old : ApiKey} (new : made ∈ added)
    (held : old ∈ before.keys) : old.keyId ≠ made.keyId ∧ old.keyHash ≠ made.keyHash := by
  obtain ⟨draw, drawn, keyId, keyHash⟩ := changes.drawn made new
  rw [keyId, keyHash]
  exact fresh draw drawn old held

theorem Changes.nodup (changes : Changes hash act before after update added)
    (field : ApiKey → String) (kept : ∀ key ∈ before.keys, field (update key) = field key)
    (apart : ∀ made ∈ added, ∀ old ∈ before.keys, field old ≠ field made)
    (distinct : (before.keys.map field).Nodup) : (after.keys.map field).Nodup := by
  have same : (before.keys.map update).map field = before.keys.map field := by
    rw [List.map_map]
    exact List.map_congr_left kept
  have single : (added.map field).Nodup := by
    rcases changes.single with rfl | ⟨made, rfl⟩ <;> simp
  rw [changes.keys, List.map_append, same, List.nodup_append']
  refine ⟨distinct, single, ?_⟩
  intro shared inOld inNew
  obtain ⟨old, held, rfl⟩ := List.mem_map.mp inOld
  obtain ⟨made, new, equal⟩ := List.mem_map.mp inNew
  exact apart made new old held equal.symm

theorem Changes.owner (changes : Changes hash act before after update added)
    (fresh : Fresh hash act before)
    (known : ∀ key ∈ before.keys, before.keyToUser.lookup key.keyHash = some key.userId)
    {key : ApiKey} (member : key ∈ after.keys) :
    after.keyToUser.lookup key.keyHash = some key.userId := by
  rw [changes.owners, List.lookup_append]
  rcases changes.mem_cases member with ⟨old, held, later⟩ | new
  · have missing : (added.map (fun made => (made.keyHash, made.userId))).lookup key.keyHash =
        none := by
      rw [List.lookup_eq_none_iff]
      intro entry listed
      obtain ⟨made, new, rfl⟩ := List.mem_map.mp listed
      simpa [later.keyHash] using (changes.apart fresh new held).2
    rw [missing, later.keyHash, later.userId, known old held]
    rfl
  · rcases changes.single with rfl | ⟨made, rfl⟩
    · cases new
    · obtain rfl := List.mem_singleton.mp new
      simp

theorem Changes.consistent (changes : Changes hash act before after update added)
    (known : Consistent before) (fresh : Fresh hash act before) (names : NamesUser act) :
    Consistent after where
  ids := changes.nodup ApiKey.keyId (fun key held => (changes.updated key held).keyId)
    (fun _ new _ held => (changes.apart fresh new held).1) known.ids
  hashes := changes.nodup ApiKey.keyHash (fun key held => (changes.updated key held).keyHash)
    (fun _ new _ held => (changes.apart fresh new held).2) known.hashes
  owners _ member := changes.owner fresh known.owners member
  named key member := by
    rcases changes.mem_cases member with ⟨old, held, later⟩ | new
    · rw [later.userId]
      exact known.named old held
    · exact changes.named names known.named key new

end Changes

theorem keyStep_cases {service next : KeyService} {action : Action}
    (stepped : keyStep hash service action = some next) :
    next.manager = perform hash action.now action.act service.manager := by
  unfold keyStep at stepped
  split at stepped
  · cases stepped
  · rw [← Option.some.inj stepped]

theorem run_later {service last : KeyService} {events : List (Event KeyService Action)}
    (run : Run (keyStep hash) service events last) (known : Consistent service.manager)
    (fresh : ∀ event ∈ events, Fresh hash event.action.act event.before.manager)
    (names : ∀ event ∈ events, NamesUser event.action.act) :
    Consistent last.manager ∧ ∀ key ∈ service.manager.keys, ∃ new ∈ last.manager.keys,
      Later (events.any (fun event => event.action.act.revokes key.keyId)) key new := by
  induction run with
  | nil => exact ⟨known, fun key held => ⟨key, held, Later.refl key⟩⟩
  | @snoc events service earlier action next stepped ih =>
      obtain ⟨consistent, past⟩ := ih
        (fun event member => fresh event (List.mem_append_left _ member))
        (fun event member => names event (List.mem_append_left _ member))
      have here : (⟨service, action, next⟩ : Event KeyService Action) ∈
          events ++ [⟨service, action, next⟩] := by simp
      obtain ⟨update, added, changes⟩ := perform_changes action.now consistent.ids
        (fresh _ here)
      rw [← keyStep_cases stepped] at changes
      refine ⟨changes.consistent consistent (fresh _ here) (names _ here), ?_⟩
      intro key held
      obtain ⟨middle, inside, early⟩ := past key held
      refine ⟨update middle, ?_, ?_⟩
      · rw [changes.keys]
        exact List.mem_append_left _ (List.mem_map_of_mem inside)
      · have late := changes.updated middle inside
        rw [early.keyId] at late
        simpa using early.trans late

theorem validateKey_held {manager : ApiKeyManager}
    (hashes : (manager.keys.map ApiKey.keyHash).Nodup) {held : ApiKey}
    (member : held ∈ manager.keys)
    (owned : manager.keyToUser.lookup held.keyHash = some held.userId) (named : held.userId ≠ "")
    {key : String} (presented : hash key = held.keyHash) (prefixed : isApiKey key = true) :
    (validateKey hash now key manager).2 =
      if held.isActive = true ∧ held.isExpired now = false then
        some { held with lastUsed := some now }
      else none := by
  have unique : ∀ other ∈ manager.keys, other.keyHash = hash key → other = held :=
    fun other inside same =>
      List.inj_on_of_nodup_map hashes inside member (same.trans presented)
  have owner : manager.keyToUser.lookup (hash key) = some held.userId := by
    rw [presented]
    exact owned
  unfold validateKey
  simp only [prefixed, not_true_eq_false, if_false, owner, named]
  cases found : manager.keys.find? (fun apiKey =>
      decide (apiKey.keyHash = hash key) && apiKey.isActive) with
  | none =>
      have inactive := List.find?_eq_none.mp found held member
      have retired : held.isActive = false := by simpa [presented] using inactive
      simp [retired]
  | some other =>
      have checked := List.find?_some found
      simp only [Bool.and_eq_true, decide_eq_true_eq] at checked
      obtain rfl := unique other (List.mem_of_find?_eq_some found) checked.1
      by_cases expired : other.isExpired now = true
      · simp [expired]
      · simp [expired, checked.2]

theorem Consistent.validateKey_held {manager : ApiKeyManager} (known : Consistent manager)
    {held : ApiKey} (member : held ∈ manager.keys) {key : String}
    (presented : hash key = held.keyHash) (prefixed : isApiKey key = true) :
    (validateKey hash now key manager).2 =
      if held.isActive = true ∧ held.isExpired now = false then
        some { held with lastUsed := some now }
      else none :=
  ApiKeys.validateKey_held known.hashes member (known.owners held member) (known.named held member)
    presented prefixed

/-! The promise of a rotation, over all later uses of the two keys. -/

/-- The event replaces the key `old` by the one that `draw` makes. -/
structure Rotates (hash : String → String) (event : Event KeyService Action) (old : ApiKey)
    (ttlDays : Option Int) (draw : Draw) : Prop where
  act : event.action.act = .rotate old.keyId ttlDays draw
  held : old ∈ event.before.manager.keys
  answered : (rotateKey hash event.action.now old.keyId ttlDays draw
    event.before.manager).map Prod.snd = some (some draw.key)

/-- `rotation` and `use` are events of the run, with `between` taken in between. -/
def Follows (events : List (Event KeyService Action)) (rotation : Event KeyService Action)
    (between : List (Event KeyService Action)) (use : Event KeyService Action) : Prop :=
  ∃ first rest, events = first ++ rotation :: (between ++ use :: rest)

/-- What `validate_key` answers at the event. -/
def answer (hash : String → String) (use : Event KeyService Action) (key : String) :
    Option ApiKey :=
  (validateKey hash use.action.now key use.before.manager).2

/-- No use of a rotated key succeeds once the overlap is over. -/
def RotatedKeysDie (hash : String → String) (events : List (Event KeyService Action)) : Prop :=
  ∀ rotation between use, Follows events rotation between use →
    ∀ old ttlDays draw key, Rotates hash rotation old ttlDays draw → hash key = old.keyHash →
      use.action.act = .validate key → rotation.action.now + overlap < use.action.now →
        answer hash use key = none

/-- A replacement is valid until it is revoked, rotated or expired. -/
def ReplacementsLive (hash : String → String) (events : List (Event KeyService Action)) : Prop :=
  ∀ rotation between use, Follows events rotation between use →
    ∀ old ttlDays draw, Rotates hash rotation old ttlDays draw →
      use.action.act = .validate draw.key →
      (∀ event ∈ between, event.action.act ≠ .revoke draw.keyId ∧
        ∀ ttlDays draw', event.action.act ≠ .rotate draw.keyId ttlDays draw') →
      use.action.now ≤ rotation.action.now + lifetime ttlDays →
        ∃ apiKey, answer hash use draw.key = some apiKey ∧ apiKey.keyId = draw.keyId

/-- Whoever uses a rotated key after the overlap finds it revoked, or past its own expiry. -/
def RetiredInTime (hash : String → String) (events : List (Event KeyService Action)) : Prop :=
  ∀ rotation between use, Follows events rotation between use →
    ∀ old ttlDays draw key, Rotates hash rotation old ttlDays draw → hash key = old.keyHash →
      isApiKey key = true → use.action.act = .validate key →
      rotation.action.now + overlap < use.action.now →
        (∃ event ∈ between, event.action.act = .revoke old.keyId) ∨
          old.isExpired use.action.now = true

theorem isApiKey_key (draw : Draw) : isApiKey draw.key = true := by
  simp [isApiKey, Draw.key]

section Rotation

variable {service last : KeyService} {events between : List (Event KeyService Action)}
  {rotation use : Event KeyService Action} {old : ApiKey} {ttlDays : Option Int} {draw : Draw}

theorem rotation_later (run : Run (keyStep hash) service events last)
    (known : Consistent service.manager)
    (fresh : ∀ event ∈ events, Fresh hash event.action.act event.before.manager)
    (names : ∀ event ∈ events, NamesUser event.action.act)
    (follows : Follows events rotation between use)
    (rotates : Rotates hash rotation old ttlDays draw) :
    Consistent use.before.manager ∧
      (∃ new ∈ use.before.manager.keys,
        Later (between.any (fun event => event.action.act.revokes old.keyId)) old new) ∧
      old.isActive = true ∧
      ∃ made ∈ use.before.manager.keys, made.keyId = draw.keyId ∧ made.keyHash = hash draw.key ∧
        made.expiresAt = some (rotation.action.now + lifetime ttlDays) ∧
        made.isActive = !between.any (fun event => event.action.act.revokes draw.keyId) := by
  obtain ⟨first, rest, rfl⟩ := follows
  obtain ⟨before, rotated, after⟩ := run.split
  obtain ⟨middle, used, -⟩ := after.split
  have here : rotation ∈ first ++ rotation :: (between ++ use :: rest) := by simp
  have earlier := run_later before known
    (fun event member => fresh event (List.mem_append_left _ member))
    (fun event member => names event (List.mem_append_left _ member))
  have unused : ∀ key ∈ rotation.before.manager.keys, key.keyId ≠ draw.keyId := by
    intro key held
    refine (fresh rotation here draw ?_ key held).1
    rw [rotates.act]
    rfl
  obtain ⟨⟨next, key⟩, answered, rfl⟩ := Option.map_eq_some_iff.mp rotates.answered
  obtain ⟨-, found, inside, same, active, update, made, keys, -, kept, keyId, keyHash, -, expiry,
    alive⟩ := rotateKey_some unused answered
  obtain rfl : found = old := List.inj_on_of_nodup_map earlier.1.ids inside rotates.held same
  have reached : rotation.after.manager = next := by
    rw [keyStep_cases rotated, rotates.act]
    simp [perform, answered]
  obtain ⟨rotatedUpdate, rotatedAdded, changes⟩ := perform_changes rotation.action.now
    earlier.1.ids (fresh rotation here)
  rw [← keyStep_cases rotated] at changes
  have consistent := changes.consistent earlier.1 (fresh rotation here) (names rotation here)
  obtain ⟨final, later⟩ := run_later middle consistent
    (fun event member => fresh event (by simp [member]))
    (fun event member => names event (by simp [member]))
  have oldHeld : update found ∈ rotation.after.manager.keys := by
    rw [reached, keys]
    exact List.mem_append_left _ (List.mem_map_of_mem inside)
  have madeHeld : made ∈ rotation.after.manager.keys := by
    rw [reached, keys]
    simp
  refine ⟨final, ?_, active, ?_⟩
  · obtain ⟨new, member, since⟩ := later _ oldHeld
    rw [(kept found).keyId] at since
    exact ⟨new, member, by simpa using (kept found).trans since⟩
  · obtain ⟨new, member, since⟩ := later made madeHeld
    rw [keyId] at since
    refine ⟨new, member, since.keyId.trans keyId, since.keyHash.trans keyHash,
      since.expiresAt.trans expiry, ?_⟩
    rw [since.isActive, alive, Bool.true_and]

/-- With fresh random strings and named users, a rotation keeps its promise exactly when the old
key is put out of use by other means: `validate_key` does not look at the overlap. -/
theorem rotated_keys_die_iff (run : Run (keyStep hash) service events last)
    (empty : service.manager = {})
    (fresh : ∀ event ∈ events, Fresh hash event.action.act event.before.manager)
    (names : ∀ event ∈ events, NamesUser event.action.act) :
    RotatedKeysDie hash events ∧ ReplacementsLive hash events ↔ RetiredInTime hash events := by
  have known : Consistent service.manager := by
    rw [empty]
    constructor <;> simp
  have live : ReplacementsLive hash events := by
    intro rotation between use follows old ttlDays draw rotates _ untouched unexpired
    obtain ⟨consistent, -, -, made, member, keyId, keyHash, expiry, active⟩ :=
      rotation_later run known fresh names follows rotates
    have unrevoked : between.any (fun event => event.action.act.revokes draw.keyId) = false := by
      simpa [Act.revokes] using fun event member => (untouched event member).1
    have current : made.isExpired use.action.now = false := by
      simpa [ApiKey.isExpired, expiry] using unexpired
    rw [unrevoked] at active
    unfold answer
    rw [consistent.validateKey_held member keyHash.symm (isApiKey_key draw),
      if_pos ⟨by simpa using active, current⟩]
    exact ⟨_, rfl, keyId⟩
  constructor
  · rintro ⟨die, -⟩ rotation between use follows old ttlDays draw key rotates same prefixed uses
      late
    have rejected := die rotation between use follows old ttlDays draw key rotates same uses late
    obtain ⟨consistent, ⟨new, member, later⟩, active, -⟩ :=
      rotation_later run known fresh names follows rotates
    unfold answer at rejected
    rw [consistent.validateKey_held member (same.trans later.keyHash.symm) prefixed,
      later.isActive, active] at rejected
    by_cases revoked : between.any (fun event => event.action.act.revokes old.keyId) = true
    · refine Or.inl ?_
      simpa [Act.revokes] using revoked
    · refine Or.inr ?_
      have expiry : new.isExpired use.action.now = old.isExpired use.action.now := by
        simp [ApiKey.isExpired, later.expiresAt]
      rw [← expiry]
      simpa [revoked] using rejected
  · intro retired
    refine ⟨?_, live⟩
    intro rotation between use follows old ttlDays draw key rotates same uses late
    unfold answer
    by_cases prefixed : isApiKey key = true
    · obtain ⟨consistent, ⟨new, member, later⟩, active, -⟩ :=
        rotation_later run known fresh names follows rotates
      rw [consistent.validateKey_held member (same.trans later.keyHash.symm) prefixed,
        later.isActive]
      refine if_neg ?_
      rintro ⟨stillActive, current⟩
      rcases retired rotation between use follows old ttlDays draw key rotates same prefixed uses
        late with ⟨event, inside, revokes⟩ | expired
      · have revoked : between.any (fun event => event.action.act.revokes old.keyId) = true := by
          rw [List.any_eq_true]
          exact ⟨event, inside, by simp [Act.revokes, revokes]⟩
        simp [revoked] at stillActive
      · simp only [ApiKey.isExpired, later.expiresAt] at current
        simp only [ApiKey.isExpired] at expired
        rw [expired] at current
        cases current
    · simp [validateKey, prefixed]

end Rotation

def annsKeys (later : List Act) : List Action :=
  [⟨0, .generate "ann" [] none none ⟨"one", "k1"⟩⟩, ⟨10, .rotate "k1" none ⟨"two", "k2"⟩⟩] ++
    later.map (fun act => ⟨172800, act⟩)

def annsEvents (later : List Act) : List (Event KeyService Action) :=
  (record (keyStep id) {} (annsKeys later)).getD []

theorem annsEvents_run {later : List Act}
    (recorded : (record (keyStep id) {} (annsKeys later)).isSome = true) :
    Run (keyStep id) {} (annsEvents later) (final {} (annsEvents later)) :=
  run_of_isSome recorded

/-- Revoking the old key by hand keeps the promise. -/
theorem rotated_key_revoked :
    RotatedKeysDie id (annsEvents [.revoke "k1", .validate "sk-one"]) ∧
        ReplacementsLive id (annsEvents [.revoke "k1", .validate "sk-one"]) ↔
      RetiredInTime id (annsEvents [.revoke "k1", .validate "sk-one"]) :=
  rotated_keys_die_iff (annsEvents_run (by decide +kernel)) rfl (by decide +kernel)
    (by decide +kernel)

/-- Two days after its rotation the old key is still accepted. -/
theorem rotated_key_accepted :
    Run (keyStep id) {} (annsEvents [.validate "sk-one"])
        (final {} (annsEvents [.validate "sk-one"])) ∧
      ¬ RotatedKeysDie id (annsEvents [.validate "sk-one"]) := by
  refine ⟨annsEvents_run (by decide +kernel), ?_⟩
  intro die
  have shape : ∃ made rotation use, annsEvents [.validate "sk-one"] = [made, rotation, use] ∧
      (∃ old, rotation.before.manager.keys = [old] ∧ old.keyId = "k1" ∧ old.keyHash = "sk-one") ∧
      (rotateKey id rotation.action.now "k1" none ⟨"two", "k2"⟩
        rotation.before.manager).map Prod.snd = some (some (Draw.key ⟨"two", "k2"⟩)) ∧
      rotation.action = ⟨10, .rotate "k1" none ⟨"two", "k2"⟩⟩ ∧
      use.action = ⟨172800, .validate "sk-one"⟩ ∧ (answer id use "sk-one").isSome = true :=
    ⟨_, _, _, rfl, ⟨_, rfl, rfl, rfl⟩, by decide +kernel, rfl, rfl,
      by decide +kernel⟩
  obtain ⟨made, rotation, use, events, ⟨old, keys, oldId, oldHash⟩, rotated, rotates, uses,
    accepted⟩ := shape
  have rejected := die rotation [] use ⟨[made], [], events⟩ old none ⟨"two", "k2"⟩ "sk-one"
    ⟨by rw [rotates, oldId], by simp [keys], by rw [oldId]; exact rotated⟩ oldHash.symm
    (by rw [uses]) (by rw [rotates, uses]; decide +kernel)
  rw [rejected] at accepted
  cases accepted

end RagSystem.ApiKeys
