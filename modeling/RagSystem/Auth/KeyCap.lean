import Mathlib.Data.List.Perm.Subperm
import RagSystem.Auth.KeyRotation

/-! How many keys of a user `validate_key` accepts, over every sequence of calls. -/

namespace RagSystem.ApiKeys

open Transition

inductive Op
  | act (inner : Act)
  | expire (keyId : String)
  | cleanup
  deriving DecidableEq, Repr

def Op.draw? : Op → Option Draw
  | .act inner => inner.draw?
  | _ => none

structure Call where
  now : Rat
  op : Op
  deriving DecidableEq, Repr

/-- The manager with its clock, the strings that were drawn and the ids that were revoked so
far. -/
structure KeyStore where
  manager : ApiKeyManager := {}
  clock : Rat := 0
  drawn : List Draw := []
  revoked : List String := []
  deriving DecidableEq, Repr

section Calls

variable (hash : String → String)

def operate (now : Rat) (op : Op) (manager : ApiKeyManager) : ApiKeyManager :=
  match op with
  | .act inner => perform hash now inner manager
  | .expire keyId => (expireKey now keyId manager).1
  | .cleanup => (cleanupExpiredKeys now manager).1

def Op.revokes (op : Op) (manager : ApiKeyManager) : List String :=
  match op with
  | .act (.revoke keyId) => if (revokeKey keyId manager).2 then [keyId] else []
  | _ => []

/-- Neither the id nor the digest of the key has been drawn before. -/
def NewDraw (drawn : List Draw) (draw : Draw) : Prop :=
  ∀ other ∈ drawn, other.keyId ≠ draw.keyId ∧ hash other.key ≠ hash draw.key

instance decidableNewDraw (drawn : List Draw) (draw : Draw) : Decidable (NewDraw hash drawn draw) :=
  inferInstanceAs (Decidable (∀ other ∈ drawn, _))

def call (store : KeyStore) (call : Call) : Option KeyStore :=
  if call.now < store.clock ∨ ∃ draw ∈ call.op.draw?, ¬NewDraw hash store.drawn draw then none
  else some {
    manager := operate hash call.now call.op store.manager
    clock := call.now
    drawn := call.op.draw?.toList ++ store.drawn
    revoked := call.op.revokes store.manager ++ store.revoked }

/-- No user has more than `MAX_KEYS_PER_USER` keys that are accepted. -/
def Capped (now : Rat) (manager : ApiKeyManager) : Prop :=
  ∀ userId, userId ≠ "" → ∀ texts : List String, (texts.map hash).Nodup →
    (∀ text ∈ texts, ∃ key, (validateKey hash now text manager).2 = some key ∧
      key.userId = userId) →
    texts.length ≤ maxKeysPerUser

/-- Every key in the index belongs to a stored key of the same user. -/
def Indexed (manager : ApiKeyManager) : Prop :=
  ∀ entry ∈ manager.keyToUser, ∃ key ∈ manager.keys,
    key.keyHash = entry.1 ∧ key.userId = entry.2

/-- What the keys promise at a call: the cap holds from then on until the next one, the index
matches, and no revoked or expired key is accepted. -/
structure Promise (event : Event KeyStore Call) : Prop where
  capped : ∀ now, event.after.clock ≤ now → Capped hash now event.after.manager
  indexed : Indexed event.after.manager
  accepts : ∀ text, event.action.op = .act (.validate text) → ∀ key,
    (validateKey hash event.action.now text event.before.manager).2 = some key →
    key.isActive = true ∧ key.isExpired event.action.now = false ∧
      key.keyId ∉ event.before.revoked

/-- No expired key of a user with ten others that are accepted is expired again. -/
def Spares (event : Event KeyStore Call) : Prop :=
  ∀ keyId, event.action.op = .expire keyId → ∀ key ∈ event.before.manager.keys,
    key.keyId = keyId → key.isActive = true → key.isExpired event.action.now = true →
    key.userId ≠ "" →
    (listKeys event.action.now key.userId event.before.manager).length < maxKeysPerUser

end Calls

/-- The store keeps its maps consistent, and every key comes from a draw. -/
structure Sound (hash : String → String) (store : KeyStore) : Prop where
  ids : (store.manager.keys.map ApiKey.keyId).Nodup
  hashes : (store.manager.keys.map ApiKey.keyHash).Nodup
  owners : ∀ key ∈ store.manager.keys,
    store.manager.keyToUser.lookup key.keyHash = some key.userId
  indexed : Indexed store.manager
  drawn : ∀ key ∈ store.manager.keys, ∃ draw ∈ store.drawn,
    key.keyId = draw.keyId ∧ key.keyHash = hash draw.key
  revoked : ∀ keyId ∈ store.revoked, (∃ draw ∈ store.drawn, draw.keyId = keyId) ∧
    ∀ key ∈ store.manager.keys, key.keyId = keyId → key.isActive = false

variable {hash : String → String} {now : Rat} {store next : KeyStore} {action : Call}

theorem call_spec (called : call hash store action = some next) :
    store.clock ≤ action.now ∧ (∀ draw ∈ action.op.draw?, NewDraw hash store.drawn draw) ∧
      next = {
        manager := operate hash action.now action.op store.manager
        clock := action.now
        drawn := action.op.draw?.toList ++ store.drawn
        revoked := action.op.revokes store.manager ++ store.revoked } := by
  unfold call at called
  split at called
  · cases called
  · rename_i allowed
    push Not at allowed
    exact ⟨allowed.1, allowed.2, (Option.some.inj called).symm⟩

theorem Sound.fresh (sound : Sound hash store) {act : Act}
    (new : ∀ draw ∈ act.draw?, NewDraw hash store.drawn draw) : Fresh hash act store.manager := by
  intro draw drawn key held
  obtain ⟨other, known, keyId, keyHash⟩ := sound.drawn key held
  rw [keyId, keyHash]
  exact new draw drawn other known

theorem Sound.initial : Sound hash {} := by
  constructor <;> simp [Indexed]

theorem lookup_filter (keeps : String → Bool) {digest : String} (kept : keeps digest = true)
    (index : List (String × String)) :
    (index.filter (fun entry => keeps entry.1)).lookup digest = index.lookup digest := by
  induction index with
  | nil => rfl
  | cons entry rest ih =>
      obtain ⟨other, owner⟩ := entry
      by_cases same : digest = other
      · subst same
        rw [List.filter_cons, if_pos kept, List.lookup_cons_self, List.lookup_cons_self]
      · have differs : (digest == other) = false := by simpa using same
        by_cases stays : keeps other = true
        · rw [List.filter_cons, if_pos stays, List.lookup_cons, List.lookup_cons, differs, ih]
        · rw [List.filter_cons, if_neg stays, List.lookup_cons, differs, ih]

/-- A call that adds nothing: it drops some keys with their entries in the index, and keeps what
the others are known by. -/
structure Thins (before after : ApiKeyManager) (keep : ApiKey → Bool) (update : ApiKey → ApiKey) :
    Prop where
  keys : after.keys = (before.keys.filter keep).map update
  index : after.keyToUser = before.keyToUser.filter (fun entry =>
    decide (entry.1 ∉ (before.keys.filter (fun key => !keep key)).map ApiKey.keyHash))
  keyId : ∀ key, (update key).keyId = key.keyId
  keyHash : ∀ key, (update key).keyHash = key.keyHash
  userId : ∀ key, (update key).userId = key.userId
  isActive : ∀ key, (update key).isActive = key.isActive

section Thins

variable {before after : ApiKeyManager} {keep : ApiKey → Bool} {update : ApiKey → ApiKey}

theorem Thins.nodup (thins : Thins before after keep update) (field : ApiKey → String)
    (stays : ∀ key, field (update key) = field key) (distinct : (before.keys.map field).Nodup) :
    (after.keys.map field).Nodup := by
  have listed : after.keys.map field = (before.keys.filter keep).map field := by
    rw [thins.keys, List.map_map]
    exact List.map_congr_left (fun key _ => stays key)
  rw [listed]
  exact distinct.sublist (List.filter_sublist.map field)

theorem Thins.mem_iff (thins : Thins before after keep update) {key : ApiKey} :
    key ∈ after.keys ↔ ∃ old ∈ before.keys, keep old = true ∧ update old = key := by
  rw [thins.keys]
  simp [and_assoc]

theorem Thins.apart (hashes : (before.keys.map ApiKey.keyHash).Nodup) {key : ApiKey}
    (member : key ∈ before.keys) (kept : keep key = true) :
    key.keyHash ∉ (before.keys.filter (fun key => !keep key)).map ApiKey.keyHash := by
  intro listed
  obtain ⟨other, removed, equal⟩ := List.mem_map.mp listed
  obtain ⟨inside, gone⟩ := List.mem_filter.mp removed
  obtain rfl := List.inj_on_of_nodup_map hashes inside member equal
  simp [kept] at gone

theorem Thins.owner (thins : Thins before after keep update)
    (hashes : (before.keys.map ApiKey.keyHash).Nodup) {old : ApiKey} (held : old ∈ before.keys)
    (kept : keep old = true) :
    after.keyToUser.lookup (update old).keyHash = before.keyToUser.lookup old.keyHash := by
  rw [thins.index, thins.keyHash]
  exact lookup_filter (fun digest => decide (digest ∉ (before.keys.filter
    (fun key => !keep key)).map ApiKey.keyHash)) (decide_eq_true (Thins.apart hashes held kept)) _

theorem Thins.indexed (thins : Thins before after keep update) (indexed : Indexed before) :
    Indexed after := by
  intro entry listed
  rw [thins.index] at listed
  obtain ⟨known, spared⟩ := List.mem_filter.mp listed
  obtain ⟨key, held, keyHash, userId⟩ := indexed entry known
  have kept : keep key = true := by
    by_contra gone
    refine absurd ?_ (of_decide_eq_true spared)
    rw [← keyHash]
    exact List.mem_map_of_mem (List.mem_filter.mpr ⟨held, by simpa using gone⟩)
  exact ⟨update key, thins.mem_iff.mpr ⟨key, held, kept, rfl⟩, (thins.keyHash key).trans keyHash,
    (thins.userId key).trans userId⟩

theorem Sound.thin {manager : ApiKeyManager} (sound : Sound hash store)
    (thins : Thins store.manager manager keep update) (clock : Rat) :
    Sound hash { store with manager, clock } := by
  constructor
  · exact thins.nodup ApiKey.keyId thins.keyId sound.ids
  · exact thins.nodup ApiKey.keyHash thins.keyHash sound.hashes
  · intro key member
    obtain ⟨old, held, kept, rfl⟩ := thins.mem_iff.mp member
    rw [thins.owner sound.hashes held kept, thins.userId]
    exact sound.owners old held
  · exact thins.indexed sound.indexed
  · intro key member
    obtain ⟨old, held, -, rfl⟩ := thins.mem_iff.mp member
    rw [thins.keyId, thins.keyHash]
    exact sound.drawn old held
  · intro keyId gone
    obtain ⟨draw, inactive⟩ := sound.revoked keyId gone
    refine ⟨draw, ?_⟩
    intro key member named
    obtain ⟨old, held, -, rfl⟩ := thins.mem_iff.mp member
    rw [thins.isActive]
    exact inactive old held ((thins.keyId old).symm.trans named)

end Thins

theorem expireKey_thins (now : Rat) (keyId : String) (manager : ApiKeyManager) :
    Thins manager (expireKey now keyId manager).1 (fun _ => true)
      (fun key => if key.keyId = keyId then { key with expiresAt := some now } else key) := by
  have same : ∀ {α : Type} (field : ApiKey → α) (key : ApiKey),
      field { key with expiresAt := some now } = field key →
      field (if key.keyId = keyId then { key with expiresAt := some now } else key) =
        field key := by
    intro α field key equal
    split
    · exact equal
    · rfl
  constructor
  · simp [expireKey]
  · simp [expireKey]
  · exact fun key => same ApiKey.keyId key rfl
  · exact fun key => same ApiKey.keyHash key rfl
  · exact fun key => same ApiKey.userId key rfl
  · exact fun key => same ApiKey.isActive key rfl

theorem cleanupExpiredKeys_thins (now : Rat) (manager : ApiKeyManager) :
    Thins manager (cleanupExpiredKeys now manager).1 (fun key => !key.isStale now) id := by
  constructor
  · simp [cleanupExpiredKeys]
  · simp [cleanupExpiredKeys]
  · exact fun _ => rfl
  · exact fun _ => rfl
  · exact fun _ => rfl
  · exact fun _ => rfl

theorem revokes_act {act : Act} {manager : ApiKeyManager} {keyId : String} :
    keyId ∈ (Op.act act).revokes manager ↔
      act.revokes keyId = true ∧ ∃ key ∈ manager.keys, key.keyId = keyId := by
  cases act with
  | revoke other =>
      have known : (revokeKey other manager).2 = true ↔
          ∃ key ∈ manager.keys, key.keyId = other := by
        simp [revokeKey]
      simp only [Act.revokes, Act.revoke.injEq, decide_eq_true_eq]
      by_cases stored : (revokeKey other manager).2 = true
      · have ids : (Op.act (.revoke other)).revokes manager = [other] := if_pos stored
        rw [ids, List.mem_singleton]
        constructor
        · intro given
          rcases given with rfl
          exact ⟨rfl, known.mp stored⟩
        · exact fun both => both.1.symm
      · have ids : (Op.act (.revoke other)).revokes manager = [] := if_neg stored
        rw [ids]
        refine iff_of_false List.not_mem_nil ?_
        intro given
        rcases given with ⟨rfl, held⟩
        exact stored (known.mpr held)
  | generate userId roles ttlDays rotatedFromKeyId draw => simp [Op.revokes, Act.revokes]
  | rotate oldKeyId ttlDays draw => simp [Op.revokes, Act.revokes]
  | validate key => simp [Op.revokes, Act.revokes]

theorem Sound.act (sound : Sound hash store) {act : Act}
    (new : ∀ draw ∈ act.draw?, NewDraw hash store.drawn draw) (now clock : Rat) :
    Sound hash {
      manager := perform hash now act store.manager
      clock
      drawn := act.draw?.toList ++ store.drawn
      revoked := (Op.act act).revokes store.manager ++ store.revoked } := by
  have fresh := sound.fresh new
  obtain ⟨update, added, changes⟩ := perform_changes now sound.ids fresh
  constructor
  · exact changes.nodup ApiKey.keyId (fun key held => (changes.updated key held).keyId)
      (fun _ made _ held => (changes.apart fresh made held).1) sound.ids
  · exact changes.nodup ApiKey.keyHash (fun key held => (changes.updated key held).keyHash)
      (fun _ made _ held => (changes.apart fresh made held).2) sound.hashes
  · exact fun key member => changes.owner fresh sound.owners member
  · intro entry listed
    dsimp only at listed ⊢
    rw [changes.owners] at listed
    rw [changes.keys]
    obtain made | known := List.mem_append.mp listed
    · obtain ⟨key, inside, rfl⟩ := List.mem_map.mp made
      exact ⟨key, List.mem_append_right _ inside, rfl, rfl⟩
    · obtain ⟨key, held, keyHash, userId⟩ := sound.indexed entry known
      have later := changes.updated key held
      exact ⟨update key, List.mem_append_left _ (List.mem_map_of_mem held),
        later.keyHash.trans keyHash, later.userId.trans userId⟩
  · intro key member
    obtain ⟨old, held, later⟩ | made := changes.mem_cases member
    · obtain ⟨draw, known, keyId, keyHash⟩ := sound.drawn old held
      exact ⟨draw, List.mem_append_right _ known, later.keyId.trans keyId,
        later.keyHash.trans keyHash⟩
    · obtain ⟨draw, drawn, keyId, keyHash⟩ := changes.drawn key made
      exact ⟨draw, List.mem_append_left _ (by simp [drawn]), keyId, keyHash⟩
  · intro keyId gone
    have before : (∃ draw ∈ store.drawn, draw.keyId = keyId) ∧
        ∀ old ∈ store.manager.keys, old.keyId = keyId →
          (old.isActive && !act.revokes old.keyId) = false := by
      obtain now | earlier := List.mem_append.mp gone
      · obtain ⟨revokes, key, held, named⟩ := revokes_act.mp now
        obtain ⟨draw, known, id, -⟩ := sound.drawn key held
        exact ⟨⟨draw, known, id.symm.trans named⟩, fun old _ same => by simp [same, revokes]⟩
      · obtain ⟨draw, inactive⟩ := sound.revoked keyId earlier
        exact ⟨draw, fun old held same => by simp [inactive old held same]⟩
    obtain ⟨⟨draw, known, id⟩, inactive⟩ := before
    refine ⟨⟨draw, List.mem_append_right _ known, id⟩, ?_⟩
    intro key member named
    obtain ⟨old, held, later⟩ | made := changes.mem_cases member
    · rw [later.isActive]
      exact inactive old held (later.keyId.symm.trans named)
    · obtain ⟨other, drawn, keyId', -⟩ := changes.drawn key made
      exact absurd (id.trans (named.symm.trans keyId')) (new other drawn draw known).1

theorem Sound.step (sound : Sound hash store) (called : call hash store action = some next) :
    Sound hash next := by
  obtain ⟨-, new, rfl⟩ := call_spec called
  cases operation : action.op with
  | act inner =>
      rw [operation] at new
      exact sound.act new action.now action.now
  | expire keyId => exact sound.thin (expireKey_thins action.now keyId store.manager) action.now
  | cleanup => exact sound.thin (cleanupExpiredKeys_thins action.now store.manager) action.now

/-! The keys of a user that are accepted. -/

def ApiKey.isValid (now : Rat) (userId : String) (key : ApiKey) : Bool :=
  decide (key.userId = userId) && (key.isActive && !key.isExpired now)

def validCount (now : Rat) (userId : String) (manager : ApiKeyManager) : Nat :=
  manager.keys.countP (·.isValid now userId)

section Counts

variable {manager after : ApiKeyManager} {userId : String}

theorem listKeys_length (named : userId ≠ "") :
    (listKeys now userId manager).length = validCount now userId manager := by
  unfold listKeys validCount
  rw [List.filter_filter, List.countP_eq_length_filter]
  refine congrArg List.length (List.filter_congr ?_)
  intro key _
  rw [ApiKey.isValid, Bool.and_comm]
  simp [named]

theorem isValid_iff {key : ApiKey} : key.isValid now userId = true ↔
    key.userId = userId ∧ key.isActive = true ∧ key.isExpired now = false := by
  simp [ApiKey.isValid]

theorem isExpired_mono {later : Rat} (order : now ≤ later) {key : ApiKey}
    (current : key.isExpired later = false) : key.isExpired now = false := by
  unfold ApiKey.isExpired at current ⊢
  split
  · rfl
  · rename_i expiry stored
    rw [stored] at current
    have bound := not_lt.mp (of_decide_eq_false current)
    exact decide_eq_false (not_lt.mpr (order.trans bound))

theorem validCount_mono {later : Rat} (order : now ≤ later) :
    validCount later userId manager ≤ validCount now userId manager := by
  apply List.countP_mono_left
  intro key _ valid
  obtain ⟨owner, active, current⟩ := isValid_iff.mp valid
  exact isValid_iff.mpr ⟨owner, active, isExpired_mono order current⟩

theorem Later.isValid {revoked : Bool} {old new : ApiKey} (later : Later revoked old new)
    (valid : new.isValid now userId = true) : old.isValid now userId = true := by
  obtain ⟨owner, active, current⟩ := isValid_iff.mp valid
  refine isValid_iff.mpr ⟨later.userId.symm.trans owner, ?_, ?_⟩
  · rw [later.isActive, Bool.and_eq_true] at active
    exact active.1
  · rw [← current]
    simp only [ApiKey.isExpired, later.expiresAt]

theorem countP_update_le {update : ApiKey → ApiKey} {revoked : ApiKey → Bool}
    (updated : ∀ key ∈ manager.keys, Later (revoked key) key (update key)) :
    (manager.keys.map update).countP (·.isValid now userId) ≤
      validCount now userId manager := by
  rw [List.countP_map]
  exact List.countP_mono_left (fun key held valid => (updated key held).isValid valid)

theorem validCount_add {update : ApiKey → ApiKey} {revoked : ApiKey → Bool} {made : ApiKey}
    (keys : after.keys = manager.keys.map update ++ [made])
    (updated : ∀ key ∈ manager.keys, Later (revoked key) key (update key))
    (room : (listKeys now made.userId manager).length < maxKeysPerUser) (named : userId ≠ "")
    (capped : validCount now userId manager ≤ maxKeysPerUser) :
    validCount now userId after ≤ maxKeysPerUser := by
  have old : (manager.keys.map update).countP (·.isValid now userId) ≤
      validCount now userId manager := countP_update_le updated
  unfold validCount
  rw [keys, List.countP_append, List.countP_singleton]
  by_cases valid : made.isValid now userId = true
  · obtain ⟨rfl, -⟩ := isValid_iff.mp valid
    rw [listKeys_length named] at room
    rw [if_pos valid]
    omega
  · rw [if_neg valid]
    exact old.trans capped

theorem rotateKey_room {oldKeyId : String} {ttlDays : Option Int} {draw : Draw} {key : String}
    {old : ApiKey} (distinct : (manager.keys.map ApiKey.keyId).Nodup)
    (rotated : rotateKey hash now oldKeyId ttlDays draw manager = some (after, some key))
    (held : old ∈ manager.keys) (named : old.keyId = oldKeyId) :
    (listKeys now old.userId manager).length < maxKeysPerUser := by
  unfold rotateKey at rotated
  split at rotated
  · cases rotated
  · rename_i other found
    have same : other.keyId = oldKeyId := by simpa using List.find?_some found
    obtain rfl : other = old := List.inj_on_of_nodup_map distinct
      (List.mem_of_find?_eq_some found) held (same.trans named.symm)
    split at rotated
    · cases rotated
    · cases generated : generateKey hash now other.userId other.roles ttlDays (some oldKeyId) draw
          manager with
      | none => simp [generated] at rotated
      | some made =>
          by_contra full
          rw [generateKey_isNone.mpr (not_lt.mp full)] at generated
          cases generated

theorem validCount_undrawn {act : Act} (undrawn : act.draw? = none)
    (distinct : (manager.keys.map ApiKey.keyId).Nodup) (fresh : Fresh hash act manager) :
    validCount now userId (perform hash now act manager) ≤ validCount now userId manager := by
  obtain ⟨update, added, changes⟩ := perform_changes now distinct fresh
  have empty : added = [] := by
    obtain none | ⟨made, single⟩ := changes.single
    · exact none
    · obtain ⟨draw, drawn, -⟩ := changes.drawn made (by simp [single])
      rw [undrawn] at drawn
      cases drawn
  unfold validCount
  rw [changes.keys, empty, List.append_nil]
  exact countP_update_le changes.updated

theorem validCount_act (distinct : (manager.keys.map ApiKey.keyId).Nodup) {act : Act}
    (fresh : Fresh hash act manager) (named : userId ≠ "")
    (capped : validCount now userId manager ≤ maxKeysPerUser) :
    validCount now userId (perform hash now act manager) ≤ maxKeysPerUser := by
  cases act with
  | generate owner roles ttlDays rotatedFromKeyId draw =>
      cases generated : generateKey hash now owner roles ttlDays rotatedFromKeyId draw manager with
      | none => simpa [perform, generated] using capped
      | some result =>
          obtain ⟨next, key⟩ := result
          have unused := fun key member => (fresh draw rfl key member).1
          obtain ⟨-, made, keys, -, -, -, same, -⟩ := generateKey_some unused generated
          have room : (listKeys now made.userId manager).length < maxKeysPerUser := by
            by_contra full
            rw [same] at full
            rw [generateKey_isNone.mpr (not_lt.mp full)] at generated
            cases generated
          have performed : perform hash now (.generate owner roles ttlDays rotatedFromKeyId draw)
              manager = next := by simp [perform, generated]
          rw [performed]
          exact validCount_add (by simpa using keys) (fun key _ => Later.refl key) room named capped
  | rotate oldKeyId ttlDays draw =>
      obtain same | ⟨next, key, rotated, reached⟩ :=
        perform_rotate hash now oldKeyId ttlDays draw manager
      · rw [same]
        exact capped
      · have unused := fun key member => (fresh draw rfl key member).1
        obtain ⟨-, old, held, id, -, update, made, keys, -, kept, -, -, owner, -⟩ :=
          rotateKey_some unused rotated
        have room := rotateKey_room distinct rotated held id
        rw [reached]
        exact validCount_add keys (fun key _ => kept key) (owner ▸ room) named capped
  | revoke keyId => exact (validCount_undrawn rfl distinct fresh).trans capped
  | validate key => exact (validCount_undrawn rfl distinct fresh).trans capped

theorem validCount_cleanup :
    validCount now userId (cleanupExpiredKeys now manager).1 ≤ validCount now userId manager :=
  List.filter_sublist.countP_le

theorem isValid_expire {keyId : String} {key : ApiKey} :
    (if key.keyId = keyId then { key with expiresAt := some now } else key).isValid now userId =
      (key.isValid now userId || decide (key.keyId = keyId ∧ key.userId = userId ∧
        key.isActive = true ∧ key.isExpired now = true)) := by
  by_cases named : key.keyId = keyId
  · subst named
    have current : ({ key with expiresAt := some now } : ApiKey).isExpired now = false :=
      decide_eq_false (lt_irrefl now)
    rw [if_pos rfl, ApiKey.isValid, ApiKey.isValid, current]
    cases expired : key.isExpired now with
    | true => simp
    | false => simp
  · simp [named]

theorem validCount_expire_same {keyId : String}
    (spared : ∀ key ∈ manager.keys, ¬(key.keyId = keyId ∧ key.userId = userId ∧
      key.isActive = true ∧ key.isExpired now = true)) :
    validCount now userId (expireKey now keyId manager).1 = validCount now userId manager := by
  unfold validCount expireKey
  rw [List.countP_map]
  apply List.countP_congr
  intro key held
  rw [Function.comp_apply, isValid_expire, decide_eq_false (spared key held), Bool.or_false]

theorem validCount_expire_again (distinct : (manager.keys.map ApiKey.keyId).Nodup) {key : ApiKey}
    (held : key ∈ manager.keys) (active : key.isActive = true)
    (expired : key.isExpired now = true) :
    validCount now key.userId (expireKey now key.keyId manager).1 =
      validCount now key.userId manager + 1 := by
  obtain ⟨before, rest, keys⟩ := List.append_of_mem held
  have others : ∀ other ∈ before ++ rest, other.keyId ≠ key.keyId := by
    rw [keys, List.map_append, List.map_cons] at distinct
    have apart := (List.nodup_middle.mp distinct).notMem
    rw [← List.map_append] at apart
    exact fun other member same => apart (List.mem_map.mpr ⟨other, member, same⟩)
  have kept : ∀ part : List ApiKey, (∀ other ∈ part, other ∈ before ++ rest) →
      part.countP ((fun other : ApiKey => other.isValid now key.userId) ∘ fun other =>
        if other.keyId = key.keyId then { other with expiresAt := some now } else other) =
      part.countP (fun other => other.isValid now key.userId) := by
    intro part inside
    apply List.countP_congr
    intro other member
    rw [Function.comp_apply, if_neg (others other (inside other member))]
  have invalid : key.isValid now key.userId = false := by simp [ApiKey.isValid, expired]
  unfold validCount expireKey
  rw [List.countP_map, keys, List.countP_append, List.countP_append, List.countP_cons,
    List.countP_cons, kept before (fun other => List.mem_append_left rest),
    kept rest (fun other => List.mem_append_right before), Function.comp_apply, isValid_expire,
    invalid]
  simp [active, expired, Nat.add_assoc]

end Counts

/-! The keys that `validate_key` accepts are the ones that are counted. -/

theorem validateKey_some {manager : ApiKeyManager} {text : String} {key : ApiKey}
    (accepted : (validateKey hash now text manager).2 = some key) :
    ∃ held ∈ manager.keys, held.keyHash = hash text ∧ held.isActive = true ∧
      held.isExpired now = false ∧ key = { held with lastUsed := some now } := by
  unfold validateKey at accepted
  split at accepted
  · cases accepted
  · split at accepted
    · cases accepted
    · split at accepted
      · cases accepted
      · split at accepted
        · cases accepted
        · rename_i held found
          split at accepted
          · cases accepted
          · rename_i current
            have checked := List.find?_some found
            simp only [Bool.and_eq_true, decide_eq_true_eq] at checked
            exact ⟨held, List.mem_of_find?_eq_some found, checked.1, checked.2,
              by simpa using current, (Option.some.inj accepted).symm⟩

theorem Sound.draws (sound : Sound hash store) (keys : List ApiKey)
    (held : ∀ key ∈ keys, key ∈ store.manager.keys) :
    ∃ draws : List Draw, draws.map (fun draw => hash draw.key) = keys.map ApiKey.keyHash := by
  induction keys with
  | nil => exact ⟨[], rfl⟩
  | cons key rest ih =>
      obtain ⟨draws, same⟩ := ih (fun other member => held other (List.mem_cons_of_mem key member))
      obtain ⟨draw, -, -, keyHash⟩ := sound.drawn key (held key List.mem_cons_self)
      exact ⟨draw :: draws, by rw [List.map_cons, List.map_cons, same, keyHash]⟩

theorem Sound.capped_iff (sound : Sound hash store) : Capped hash now store.manager ↔
    ∀ userId, userId ≠ "" → validCount now userId store.manager ≤ maxKeysPerUser := by
  constructor
  · intro capped userId named
    let valid := store.manager.keys.filter (·.isValid now userId)
    obtain ⟨draws, same⟩ := sound.draws valid (fun key => List.mem_of_mem_filter)
    have hashes : (draws.map Draw.key).map hash = valid.map ApiKey.keyHash := by
      rw [List.map_map]
      exact same
    have bound := capped userId named (draws.map Draw.key) ?_ ?_
    · have lengths := congrArg List.length hashes
      simp only [List.length_map] at lengths bound
      rw [lengths] at bound
      rwa [validCount, List.countP_eq_length_filter]
    · rw [hashes]
      exact sound.hashes.sublist (List.filter_sublist.map ApiKey.keyHash)
    · intro text drawn
      have digest : hash text ∈ valid.map ApiKey.keyHash := by
        rw [← hashes]
        exact List.mem_map_of_mem drawn
      obtain ⟨held, listed, presented⟩ := List.mem_map.mp digest
      obtain ⟨draw, -, rfl⟩ := List.mem_map.mp drawn
      obtain ⟨member, fine⟩ := List.mem_filter.mp listed
      obtain ⟨owner, active, current⟩ := isValid_iff.mp fine
      refine ⟨{ held with lastUsed := some now }, ?_, owner⟩
      rw [validateKey_held sound.hashes member (sound.owners held member) (owner ▸ named)
        presented.symm (isApiKey_key draw), if_pos ⟨active, current⟩]
  · intro counted userId named texts distinct accepted
    have inside : texts.map hash ⊆
        (store.manager.keys.filter (·.isValid now userId)).map ApiKey.keyHash := by
      intro digest listed
      obtain ⟨text, member, rfl⟩ := List.mem_map.mp listed
      obtain ⟨key, valid, owner⟩ := accepted text member
      obtain ⟨held, stored, same, active, current, rfl⟩ := validateKey_some valid
      rw [← same]
      exact List.mem_map_of_mem
        (List.mem_filter.mpr ⟨stored, isValid_iff.mpr ⟨owner, active, current⟩⟩)
    have shorter := (List.subperm_of_subset distinct inside).length_le
    rw [List.length_map, List.length_map, ← List.countP_eq_length_filter] at shorter
    exact shorter.trans (counted userId named)

theorem Sound.capped_from_iff (sound : Sound hash store) :
    (∀ now, store.clock ≤ now → Capped hash now store.manager) ↔
      ∀ userId, userId ≠ "" → validCount store.clock userId store.manager ≤ maxKeysPerUser := by
  constructor
  · intro capped
    exact sound.capped_iff.mp (capped store.clock le_rfl)
  · intro counted now order
    exact sound.capped_iff.mpr
      (fun userId named => (validCount_mono order).trans (counted userId named))

theorem Sound.accepts (sound : Sound hash store) {text : String} {key : ApiKey}
    (accepted : (validateKey hash now text store.manager).2 = some key) :
    key.isActive = true ∧ key.isExpired now = false ∧ key.keyId ∉ store.revoked := by
  obtain ⟨held, member, -, active, current, rfl⟩ := validateKey_some accepted
  refine ⟨active, current, ?_⟩
  intro gone
  have inactive := (sound.revoked held.keyId gone).2 held member rfl
  rw [active] at inactive
  cases inactive

theorem Sound.promise_iff (sound : Sound hash store)
    (called : call hash store action = some next) :
    Promise hash ⟨store, action, next⟩ ↔
      ∀ userId, userId ≠ "" → validCount next.clock userId next.manager ≤ maxKeysPerUser := by
  have after := sound.step called
  rw [← after.capped_from_iff]
  constructor
  · exact fun promise => promise.capped
  · intro capped
    exact ⟨capped, after.indexed, fun text _ key accepted => sound.accepts accepted⟩

theorem Sound.cap_call_iff (sound : Sound hash store)
    (capped : ∀ userId, userId ≠ "" →
      validCount store.clock userId store.manager ≤ maxKeysPerUser)
    (called : call hash store action = some next) :
    (∀ userId, userId ≠ "" → validCount next.clock userId next.manager ≤ maxKeysPerUser) ↔
      Spares ⟨store, action, next⟩ := by
  obtain ⟨order, new, rfl⟩ := call_spec called
  have before : ∀ userId, userId ≠ "" →
      validCount action.now userId store.manager ≤ maxKeysPerUser :=
    fun userId named => (validCount_mono order).trans (capped userId named)
  dsimp only
  cases operation : action.op with
  | act inner =>
      rw [operation] at new
      refine iff_of_true ?_ ?_
      · intro userId named
        exact validCount_act sound.ids (sound.fresh new) named (before userId named)
      · intro keyId expires
        simp [operation] at expires
  | cleanup =>
      refine iff_of_true ?_ ?_
      · exact fun userId named => validCount_cleanup.trans (before userId named)
      · intro keyId expires
        simp [operation] at expires
  | expire keyId =>
      constructor
      · intro counted other expires key held id active expired named
        dsimp only at expires held expired ⊢
        rw [operation] at expires
        obtain rfl := Op.expire.inj expires
        have bound := counted key.userId named
        rw [operate, ← id, validCount_expire_again sound.ids held active expired] at bound
        rw [listKeys_length named]
        omega
      · intro spares userId named
        by_cases revived : ∃ key ∈ store.manager.keys, key.keyId = keyId ∧ key.userId = userId ∧
            key.isActive = true ∧ key.isExpired action.now = true
        · obtain ⟨key, held, rfl, rfl, active, expired⟩ := revived
          have room := spares key.keyId operation key held rfl active expired named
          rw [listKeys_length named] at room
          rw [operate, validCount_expire_again sound.ids held active expired]
          exact room
        · have spared : ∀ key ∈ store.manager.keys, ¬(key.keyId = keyId ∧ key.userId = userId ∧
              key.isActive = true ∧ key.isExpired action.now = true) :=
            fun key held both => revived ⟨key, held, both⟩
          rw [operate, validCount_expire_same spared]
          exact before userId named

/-- The cap holds over all calls exactly when no expired key is expired again while ten others
are accepted. -/
theorem keys_promise_iff {events : List (Event KeyStore Call)} {last : KeyStore}
    (run : Run (call hash) {} events last) :
    (∀ event ∈ events, Promise hash event) ↔ ∀ event ∈ events, Spares event := by
  apply run.forall_event_iff (fun store => Sound hash store ∧ ∀ userId, userId ≠ "" →
    validCount store.clock userId store.manager ≤ maxKeysPerUser)
  · exact ⟨Sound.initial, fun _ _ => Nat.zero_le _⟩
  · intro store action next past called
    exact (past.1.promise_iff called).trans (past.1.cap_call_iff past.2 called)
  · intro store action next past called spares
    exact ⟨past.1.step called, (past.1.cap_call_iff past.2 called).mpr spares⟩

def annsCalls (later : List Op) : List Call :=
  [⟨0, .act (.generate "ann" [] (some 1) none ⟨"first", "k"⟩)⟩] ++
    (["a", "b", "c", "d", "e", "f", "g", "h", "i", "j"].map fun name =>
      ⟨86401, .act (.generate "ann" [] none none ⟨name, "k" ++ name⟩)⟩) ++
    later.map fun op => ⟨86401, op⟩

def annsCallEvents (later : List Op) : List (Event KeyStore Call) :=
  (record (call id) {} (annsCalls later)).getD []

theorem run_annsCalls {later : List Op}
    (recorded : (record (call id) {} (annsCalls later)).isSome = true) :
    Run (call id) {} (annsCallEvents later) (final {} (annsCallEvents later)) :=
  run_of_isSome recorded

/-- Removing the first key leaves the ten others. -/
theorem keys_promise_iff_revoked :
    (∀ event ∈ annsCallEvents [.act (.revoke "k"), .cleanup, .expire "ka"], Promise id event) ↔
      ∀ event ∈ annsCallEvents [.act (.revoke "k"), .cleanup, .expire "ka"], Spares event :=
  keys_promise_iff (run_annsCalls (by decide +kernel))

/-- Expiring the first key once more makes it the eleventh that is accepted. -/
theorem expired_key_revived :
    Run (call id) {} (annsCallEvents [.expire "k"]) (final {} (annsCallEvents [.expire "k"])) ∧
      ¬∀ event ∈ annsCallEvents [.expire "k"], Promise id event := by
  refine ⟨run_annsCalls (by decide +kernel), ?_⟩
  intro promises
  have shape : ∃ event ∈ annsCallEvents [.expire "k"], event.after.clock = 86401 ∧
      ∀ text ∈ "first" :: ["a", "b", "c", "d", "e", "f", "g", "h", "i", "j"],
        (validateKey id 86401 ("sk-" ++ text) event.after.manager).2.map ApiKey.userId =
          some "ann" := by
    decide +kernel
  obtain ⟨event, member, clock, accepted⟩ := shape
  have bound := (promises event member).capped 86401 clock.le "ann" (by decide)
    (("first" :: ["a", "b", "c", "d", "e", "f", "g", "h", "i", "j"]).map ("sk-" ++ ·))
    (by decide +kernel) ?_
  · simp [maxKeysPerUser] at bound
  · intro text listed
    obtain ⟨name, given, rfl⟩ := List.mem_map.mp listed
    exact Option.map_eq_some_iff.mp (accepted name given)

end RagSystem.ApiKeys
