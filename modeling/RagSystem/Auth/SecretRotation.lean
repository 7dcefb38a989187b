import Mathlib.Algebra.Order.Field.Basic
import Mathlib.Data.Finset.Card
import Mathlib.Tactic.Linarith
import RagSystem.Api.AuthEndpoints
import RagSystem.Auth.KeyRotation
import RagSystem.Data.Dict

/-! The rotation of JWT keys and API keys by `proxy/app/auth/secret_rotation.py`, in the process
whose constants of `proxy/app/shared/config.py` `verify_token` reads. -/

namespace RagSystem.SecretRotation

open ApiKeys Jwt Transition

inductive RotationStatus
  | pending
  | inProgress
  | completed
  | failed
  | rolledBack
  deriving DecidableEq, Repr

inductive SecretType
  | jwtSigningKey
  | apiKey
  deriving DecidableEq, Repr

inductive Failure
  | keyLimit (userId : String)
  | overflow
  | keyGeneration (text : String)
  deriving DecidableEq, Repr

inductive Details
  | none
  | jwt (algorithm keyId fingerprint : String) (graceEnd : Rat)
  | apiKeys (usersRotated keysGenerated : Nat) (overlapSeconds : Int) (overlapEnd : Rat)
  deriving DecidableEq, Repr

structure RotationRecord where
  rotationId : String
  secretType : SecretType
  status : RotationStatus
  startedAt : Rat
  completedAt : Option Rat := none
  initiatedBy : String := "system"
  details : Details := .none
  error : Option Failure := none
  oldKeyFingerprint : Option String := none
  newKeyFingerprint : Option String := none
  gracePeriodSeconds : Int := 0
  expiresAt : Option Rat := none
  deriving DecidableEq, Repr

structure JwtKeyPair where
  keyId : String
  algorithm : String
  privateKeyPem : String
  publicKeyPem : String
  createdAt : Rat
  fingerprint : String
  deriving DecidableEq, Repr

def defaultJwtGraceSeconds : Int := 3600

def defaultApiKeyOverlapSeconds : Int := 86400

structure RotationManager where
  jwtGraceSeconds : Int := defaultJwtGraceSeconds
  apiKeyOverlapSeconds : Int := defaultApiKeyOverlapSeconds
  rotationHistory : List RotationRecord := []
  jwtKeyHistory : List JwtKeyPair := []
  lastRotationTime : Option Rat := none
  lastError : Option Failure := none
  totalRotations : Nat := 0
  failedRotations : Nat := 0
  deriving DecidableEq, Repr

/-- `given or default` -/
def orDefault (given : Option Int) (default : Int) : Int :=
  if given.getD 0 = 0 then default else given.getD 0

/-- `datetime.now(UTC) + timedelta(seconds=seconds)` in the years 1 to 9999; `none` is an
`OverflowError`. -/
def later (now : Rat) (seconds : Int) : Option Rat :=
  if -62135596800 ≤ now + seconds ∧ now + seconds < 253402300800 then some (now + seconds) else none

def RotationManager.succeed (manager : RotationManager) (record : RotationRecord) :
    RotationManager :=
  { manager with
    lastRotationTime := record.completedAt
    totalRotations := manager.totalRotations + 1
    rotationHistory := manager.rotationHistory ++ [record] }

def RotationManager.fail (manager : RotationManager) (record : RotationRecord) :
    RotationManager :=
  { manager with
    failedRotations := manager.failedRotations + 1
    lastError := record.error
    rotationHistory := manager.rotationHistory ++ [record] }

def RotationRecord.fail (now : Rat) (failure : Failure) (record : RotationRecord) :
    RotationRecord :=
  { record with status := .failed, error := some failure, completedAt := some now }

/-- The process: the constants it has imported, its environment and its managers. -/
structure Process where
  cfg : Jwt.Config
  environ : Dict String String := ∅
  keys : ApiKeyManager := {}
  rotations : RotationManager := {}
  deriving DecidableEq, Repr

/-! JWT keys. -/

structure JwtRequest where
  algorithm : String := "RS256"
  initiatedBy : String := "system"
  graceSeconds : Option Int := none
  deriving DecidableEq, Repr

def startsWith (start text : String) : Bool := start.toList.isPrefixOf text.toList

/-- What the rotation writes to `os.environ`. -/
def activate (algorithm : String) (pair : JwtKeyPair) (environ : Dict String String) :
    Dict String String :=
  let secret := environ.set "JWT_SECRET" pair.privateKeyPem
  let keys := if startsWith "RS" algorithm.toUpper then
    secret.set "JWT_PUBLIC_KEY" pair.publicKeyPem else secret
  keys.set "JWT_ALGORITHM" algorithm

/-- `hashlib.sha256(secret.encode()).hexdigest()[:16]`, or `"none"` without a secret. -/
def oldFingerprint (sha256 : String → String) (secret : String) : String :=
  if secret = "" then "none" else String.ofList ((sha256 secret).toList.take 16)

/-- `rotate_jwt_keys`, with the key pair that is generated or the error of the library. -/
def rotateJwtKeys (sha256 : String → String) (now : Rat) (rotationId : String)
    (request : JwtRequest) (generated : Except String JwtKeyPair) (process : Process) :
    Process × RotationRecord :=
  let grace := orDefault request.graceSeconds process.rotations.jwtGraceSeconds
  let started : RotationRecord := {
    rotationId
    secretType := .jwtSigningKey
    status := .inProgress
    startedAt := now
    initiatedBy := request.initiatedBy
    gracePeriodSeconds := grace }
  match generated with
  | .error text =>
      let record := started.fail now (.keyGeneration text)
      ({ process with rotations := process.rotations.fail record }, record)
  | .ok pair =>
      let marked := { started with
        oldKeyFingerprint := some (oldFingerprint sha256 process.cfg.jwtSecret)
        newKeyFingerprint := some pair.fingerprint }
      let process := { process with environ := activate request.algorithm pair process.environ }
      match later now grace with
      | none =>
          let record := marked.fail now .overflow
          ({ process with rotations := process.rotations.fail record }, record)
      | some graceEnd =>
          let record := { marked with
            status := .completed
            completedAt := some now
            expiresAt := some graceEnd
            details := .jwt request.algorithm pair.keyId pair.fingerprint graceEnd }
          let rotations := { process.rotations with
            jwtKeyHistory := process.rotations.jwtKeyHistory ++ [pair] }
          ({ process with rotations := rotations.succeed record }, record)

/-! API keys. -/

structure ApiKeyRequest where
  userIds : Option (List String) := none
  initiatedBy : String := "system"
  overlapSeconds : Option Int := none
  deriving DecidableEq, Repr

def keysToRotate (now : Rat) (userIds : Option (List String)) (manager : ApiKeyManager) :
    List ApiKey :=
  match userIds.getD [] with
  | [] => listKeys now "" manager
  | userIds => userIds.flatMap (fun userId => listKeys now userId manager)

def activeKeys (now : Rat) (userIds : Option (List String)) (manager : ApiKeyManager) :
    List ApiKey :=
  (keysToRotate now userIds manager).filter (·.isActive)

/-- The loop over the active keys: one new key for each user, from the strings drawn for the user.
It ends in the users rotated, or where the first call raises. -/
def rotateUsers (hash : String → String) (now : Rat) (overlap : Int) (draw : String → Draw) :
    List ApiKey → List String → ApiKeyManager → ApiKeyManager × Except Failure (List String)
  | [], rotated, manager => (manager, .ok rotated)
  | oldKey :: rest, rotated, manager =>
      if oldKey.userId ∈ rotated then rotateUsers hash now overlap draw rest rotated manager
      else
        match generateKey hash now oldKey.userId oldKey.roles none none (draw oldKey.userId)
            manager with
        | none => (manager, .error (.keyLimit oldKey.userId))
        | some (manager, _) =>
            if (later now overlap).isNone then (manager, .error .overflow)
            else rotateUsers hash now overlap draw rest (rotated ++ [oldKey.userId]) manager

def overlapOf (request : ApiKeyRequest) (process : Process) : Int :=
  orDefault request.overlapSeconds process.rotations.apiKeyOverlapSeconds

def rotateApiKeys (hash : String → String) (now : Rat) (rotationId : String)
    (request : ApiKeyRequest) (draw : String → Draw) (process : Process) :
    Process × RotationRecord :=
  let overlap := overlapOf request process
  let started : RotationRecord := {
    rotationId
    secretType := .apiKey
    status := .inProgress
    startedAt := now
    initiatedBy := request.initiatedBy
    gracePeriodSeconds := overlap }
  match rotateUsers hash now overlap draw (activeKeys now request.userIds process.keys) []
      process.keys with
  | (keys, .error failure) =>
      let record := started.fail now failure
      ({ process with keys, rotations := process.rotations.fail record }, record)
  | (keys, .ok rotated) =>
      match later now overlap with
      | none =>
          let record := started.fail now .overflow
          ({ process with keys, rotations := process.rotations.fail record }, record)
      | some overlapEnd =>
          let record := { started with
            status := .completed
            completedAt := some now
            details := .apiKeys rotated.length rotated.length overlap overlapEnd }
          ({ process with keys, rotations := process.rotations.succeed record }, record)

/-! What else the process does to its keys. -/

inductive Act
  | rotateJwtKeys (rotationId : String) (request : JwtRequest)
      (generated : Except String JwtKeyPair)
  | rotateApiKeys (rotationId : String) (request : ApiKeyRequest) (draw : String → Draw)
  | keys (act : ApiKeys.Act)

structure Action where
  now : Rat
  act : Act

section Calls

variable (hash : String → String) (now : Rat)

def perform (process : Process) (action : Action) : Process :=
  match action.act with
  | .rotateJwtKeys rotationId request generated =>
      (rotateJwtKeys hash action.now rotationId request generated process).1
  | .rotateApiKeys rotationId request draw =>
      (rotateApiKeys hash action.now rotationId request draw process).1
  | .keys act => { process with keys := ApiKeys.perform hash action.now act process.keys }

def replay (process : Process) (actions : List Action) : Process :=
  actions.foldl (perform hash) process

structure FreshDraws (draw : String → Draw) (manager : ApiKeyManager) : Prop where
  unused : ∀ userId, ∀ key ∈ manager.keys, key.keyId ≠ (draw userId).keyId
  apart : ∀ userId other, (draw userId).keyId = (draw other).keyId → userId = other

/-- The active keys that count against the limit of a user once the owners of the keys `replaced`
have got new ones: a user without an id is counted all keys. -/
def counted (manager : ApiKeyManager) (replaced : List ApiKey) (userId : String) : Nat :=
  (listKeys now userId manager).length +
    if userId = "" then (replaced.map ApiKey.userId).toFinset.card else 0

/-- Every other owner of a key has room for one more when it is the owner's turn. -/
def HasRoom (manager : ApiKeyManager) (replaced keys : List ApiKey) : Prop :=
  ∀ earlier key rest, keys = earlier ++ key :: rest →
    key.userId ∉ (replaced ++ earlier).map ApiKey.userId →
    counted now manager (replaced ++ earlier) key.userId < maxKeysPerUser

variable {hash now}

theorem listKeys_generateKey {userId : String} {roles : List String} {draw : Draw}
    {manager next : ApiKeyManager} {key : String}
    (fresh : ∀ key ∈ manager.keys, key.keyId ≠ draw.keyId)
    (generated : generateKey hash now userId roles none none draw manager = some (next, key))
    (other : String) :
    (listKeys now other next).length =
      (listKeys now other manager).length + if other = "" ∨ userId = other then 1 else 0 := by
  obtain ⟨-, made, keys, -, -, -, owner, expiry, active⟩ := generateKey_some fresh generated
  have unexpired : made.isExpired now = false := by
    have future : now < now + lifetime none := by
      simp only [lifetime, defaultKeyTtlDays]
      norm_num
    simp only [ApiKey.isExpired, expiry, decide_eq_false_iff_not, not_lt]
    exact future.le
  unfold listKeys
  rw [keys, List.filter_append, List.filter_append, List.length_append]
  by_cases counts : other = "" ∨ userId = other
  · simp [counts, owner, active, unexpired]
  · simp [counts, owner]

theorem hasRoom_cons {manager : ApiKeyManager} {replaced rest : List ApiKey} {key : ApiKey} :
    HasRoom now manager replaced (key :: rest) ↔
      (key.userId ∉ replaced.map ApiKey.userId →
        counted now manager replaced key.userId < maxKeysPerUser) ∧
      HasRoom now manager (replaced ++ [key]) rest := by
  constructor
  · intro room
    constructor
    · intro other
      have first := room [] key rest rfl
      rw [List.append_nil] at first
      exact first other
    · intro earlier next tail parts
      rw [List.append_assoc, List.singleton_append]
      exact room (key :: earlier) next tail (by rw [parts]; rfl)
  · intro ⟨first, later⟩ earlier next tail parts
    cases earlier with
    | nil =>
        rw [List.nil_append] at parts
        cases parts
        rw [List.append_nil]
        exact first
    | cons head earlier =>
        rw [List.cons_append] at parts
        cases parts
        have there := later earlier next tail rfl
        rw [List.append_assoc, List.singleton_append] at there
        exact there

/-- Where the loop stands behind the keys `replaced`. -/
structure Progress (now : Rat) (draw : String → Draw) (start : ApiKeyManager)
    (replaced : List ApiKey) (rotated : List String) (manager : ApiKeyManager) : Prop where
  users : ∀ userId, userId ∈ rotated ↔ userId ∈ replaced.map ApiKey.userId
  counts : ∀ userId, userId ∉ rotated →
    (listKeys now userId manager).length = counted now start replaced userId
  fresh : ∀ userId, userId ∉ rotated → ∀ key ∈ manager.keys, key.keyId ≠ (draw userId).keyId

section Loop

variable (hash) {draw : String → Draw} {start manager next : ApiKeyManager} {replaced : List ApiKey}
  {rotated : List String}

theorem Progress.initial (fresh : FreshDraws draw start) : Progress now draw start [] [] start where
  users := by simp
  counts := by simp [counted]
  fresh := fun userId _ => fresh.unused userId

theorem Progress.skip (progress : Progress now draw start replaced rotated manager) {key : ApiKey}
    (known : key.userId ∈ rotated) :
    Progress now draw start (replaced ++ [key]) rotated manager := by
  have listed := (progress.users key.userId).mp known
  have same : ((replaced ++ [key]).map ApiKey.userId).toFinset =
      (replaced.map ApiKey.userId).toFinset := by
    rw [List.map_append, List.toFinset_append]
    apply Finset.union_eq_left.mpr
    simpa using listed
  constructor
  · intro userId
    rw [progress.users, ← List.mem_toFinset, ← same, List.mem_toFinset]
  · intro userId other
    rw [progress.counts userId other, counted, counted, same]
  · exact progress.fresh

theorem Progress.generate (progress : Progress now draw start replaced rotated manager)
    (apart : ∀ userId other, (draw userId).keyId = (draw other).keyId → userId = other)
    {key : ApiKey} (unknown : key.userId ∉ rotated) {text : String}
    (generated : generateKey hash now key.userId key.roles none none (draw key.userId) manager =
      some (next, text)) :
    Progress now draw start (replaced ++ [key]) (rotated ++ [key.userId]) next := by
  have unused := progress.fresh key.userId unknown
  have unlisted : key.userId ∉ replaced.map ApiKey.userId :=
    fun listed => unknown ((progress.users key.userId).mpr listed)
  constructor
  · intro userId
    rw [List.map_append, List.mem_append, List.mem_append, progress.users]
    simp
  · intro userId other
    rw [List.mem_append, not_or, List.mem_singleton] at other
    have lengths := listKeys_generateKey unused generated userId
    have more : ((replaced ++ [key]).map ApiKey.userId).toFinset.card =
        (replaced.map ApiKey.userId).toFinset.card + 1 := by
      rw [List.map_append, List.map_singleton, List.toFinset_append, Finset.union_comm,
        List.toFinset_cons, List.toFinset_nil, Finset.insert_union, Finset.empty_union,
        Finset.card_insert_of_notMem (by simpa using unlisted)]
    rw [lengths, progress.counts userId other.1, counted, counted, more]
    have differs : key.userId ≠ userId := fun same => other.2 same.symm
    by_cases all : userId = ""
    · simp [all, Nat.add_assoc]
    · simp [all, differs]
  · intro userId other held member
    rw [List.mem_append, not_or, List.mem_singleton] at other
    obtain ⟨-, made, keys, -, drawn, -⟩ := generateKey_some unused generated
    rw [keys, List.mem_append, List.mem_singleton] at member
    obtain old | rfl := member
    · exact progress.fresh userId other.1 held old
    · rw [drawn]
      exact fun same => other.2 (apart _ _ same).symm

theorem rotateUsers_length (overlap : Int)
    (apart : ∀ userId other, (draw userId).keyId = (draw other).keyId → userId = other)
    (todo : List ApiKey) (progress : Progress now draw start replaced rotated manager) :
    manager.keys.length ≤
      (rotateUsers hash now overlap draw todo rotated manager).1.keys.length := by
  induction todo generalizing replaced rotated manager with
  | nil => exact le_rfl
  | cons key rest ih =>
      rw [rotateUsers]
      by_cases known : key.userId ∈ rotated
      · rw [if_pos known]
        exact ih (progress.skip known)
      · rw [if_neg known]
        cases generated : generateKey hash now key.userId key.roles none none (draw key.userId)
            manager with
        | none => exact le_rfl
        | some made =>
            obtain ⟨next, text⟩ := made
            obtain ⟨-, made, keys, -⟩ := generateKey_some (progress.fresh _ known) generated
            have longer : manager.keys.length ≤ next.keys.length := by
              rw [keys, List.length_append]
              exact Nat.le_add_right _ _
            dsimp only
            split
            · exact longer
            · exact longer.trans (ih (progress.generate hash apart known generated))

theorem rotateUsers_generated (overlap : Int) (rest : List ApiKey)
    (progress : Progress now draw start replaced rotated manager)
    (apart : ∀ userId other, (draw userId).keyId = (draw other).keyId → userId = other)
    {key : ApiKey} (unknown : key.userId ∉ rotated) {text : String}
    (generated : generateKey hash now key.userId key.roles none none (draw key.userId) manager =
      some (next, text)) :
    manager.keys.length <
      (rotateUsers hash now overlap draw (key :: rest) rotated manager).1.keys.length := by
  obtain ⟨-, made, keys, -⟩ := generateKey_some (progress.fresh _ unknown) generated
  have longer : manager.keys.length < next.keys.length := by
    rw [keys, List.length_append]
    exact Nat.lt_succ_self _
  rw [rotateUsers, if_neg unknown, generated]
  dsimp only
  split
  · exact longer
  · exact longer.trans_le
      (rotateUsers_length hash overlap apart rest (progress.generate hash apart unknown generated))

theorem rotateUsers_ok_iff {overlap : Int} (fits : (later now overlap).isNone = false)
    (apart : ∀ userId other, (draw userId).keyId = (draw other).keyId → userId = other)
    (todo : List ApiKey) (progress : Progress now draw start replaced rotated manager) :
    (∃ users, (rotateUsers hash now overlap draw todo rotated manager).2 = .ok users) ↔
      HasRoom now start replaced todo := by
  induction todo generalizing replaced rotated manager with
  | nil =>
      refine iff_of_true ⟨_, rfl⟩ ?_
      intro earlier key rest parts
      simp at parts
  | cons key rest ih =>
      rw [rotateUsers, hasRoom_cons, ← progress.users]
      by_cases known : key.userId ∈ rotated
      · rw [if_pos known, ih (progress.skip known)]
        simp [known]
      · rw [if_neg known, ← progress.counts key.userId known]
        cases generated : generateKey hash now key.userId key.roles none none (draw key.userId)
            manager with
        | none =>
            have full := generateKey_isNone.mp generated
            refine iff_of_false (by simp) ?_
            exact fun room => absurd (room.1 known) (not_lt.mpr full)
        | some made =>
            obtain ⟨next, text⟩ := made
            have room : (listKeys now key.userId manager).length < maxKeysPerUser := by
              by_contra full
              rw [generateKey_isNone.mpr (not_lt.mp full)] at generated
              cases generated
            simp only [fits, Bool.false_eq_true, if_false]
            rw [ih (progress.generate hash apart known generated)]
            exact (and_iff_right (fun _ => room)).symm

end Loop

/-- A rotation of API keys that has nothing to divide: there is no key to replace, the first owner
has no room, or everybody has and the overlap ends before the year 10000. -/
def Undivided (now : Rat) (request : ApiKeyRequest) (process : Process) : Prop :=
  match activeKeys now request.userIds process.keys with
  | [] => True
  | key :: rest =>
      maxKeysPerUser ≤ (listKeys now key.userId process.keys).length ∨
        (later now (overlapOf request process)).isNone = false ∧
        HasRoom now process.keys [] (key :: rest)

section ApiKeys

variable (hash : String → String) (now : Rat) (rotationId : String) (request : ApiKeyRequest)
  (draw : String → Draw) (process : Process)

def looped : ApiKeyManager × Except Failure (List String) :=
  rotateUsers hash now (overlapOf request process) draw
    (activeKeys now request.userIds process.keys) [] process.keys

theorem rotateApiKeys_spec :
    (rotateApiKeys hash now rotationId request draw process).1.keys =
      (looped hash now request draw process).1 ∧
    ((rotateApiKeys hash now rotationId request draw process).2.status = .failed ↔
      ¬((∃ users, (looped hash now request draw process).2 = .ok users) ∧
        (later now (overlapOf request process)).isNone = false)) := by
  unfold rotateApiKeys looped
  dsimp only
  cases rotateUsers hash now (overlapOf request process) draw
      (activeKeys now request.userIds process.keys) [] process.keys with
  | mk keys outcome =>
      cases outcome with
      | error failure => simp [RotationRecord.fail]
      | ok users =>
          cases later now (overlapOf request process) with
          | none => simp [RotationRecord.fail]
          | some overlapEnd => simp

variable {draw process}

theorem unchanged_iff (fresh : FreshDraws draw process.keys) :
    ((rotateApiKeys hash now rotationId request draw process).2.status = .failed →
        (rotateApiKeys hash now rotationId request draw process).1.keys = process.keys) ↔
      Undivided now request process := by
  obtain ⟨keys, failed⟩ := rotateApiKeys_spec hash now rotationId request draw process
  rw [keys, failed]
  have start : Progress now draw process.keys [] [] process.keys := Progress.initial fresh
  unfold Undivided looped
  cases activeKeys now request.userIds process.keys with
  | nil => exact iff_of_true (fun _ => rfl) trivial
  | cons key rest =>
      dsimp only
      have first : key.userId ∉ ([] : List String) := List.not_mem_nil
      cases generated : generateKey hash now key.userId key.roles none none (draw key.userId)
          process.keys with
      | none =>
          have full := generateKey_isNone.mp generated
          refine iff_of_true (fun _ => ?_) (.inl full)
          rw [rotateUsers, if_neg first, generated]
      | some made =>
          obtain ⟨next, text⟩ := made
          have room : ¬maxKeysPerUser ≤ (listKeys now key.userId process.keys).length := by
            rw [← generateKey_isNone, generated]
            simp
          have changed : (rotateUsers hash now (overlapOf request process) draw (key :: rest) []
              process.keys).1 ≠ process.keys := by
            intro same
            have grown := rotateUsers_generated hash (overlapOf request process) rest start
              fresh.apart first generated
            rw [same] at grown
            exact absurd grown (lt_irrefl _)
          rw [or_iff_right room]
          cases fits : (later now (overlapOf request process)).isNone with
          | true => simpa using changed
          | false =>
              rw [← rotateUsers_ok_iff hash fits fresh.apart (key :: rest) start]
              constructor
              · intro kept
                by_contra failing
                exact changed (kept (fun both => failing ⟨rfl, both.1⟩))
              · exact fun both failing => absurd ⟨both.2, both.1⟩ failing

end ApiKeys

theorem cfg_perform (process : Process) (action : Action) :
    (perform hash process action).cfg = process.cfg := by
  unfold perform
  cases action.act with
  | rotateJwtKeys rotationId request generated =>
      simp only [rotateJwtKeys]
      cases generated with
      | error text => rfl
      | ok pair =>
          cases later action.now (orDefault request.graceSeconds process.rotations.jwtGraceSeconds)
          · rfl
          · rfl
  | rotateApiKeys rotationId request draw =>
      simp only [rotateApiKeys]
      split
      · rfl
      · split
        · rfl
        · rfl
  | keys act => rfl

theorem cfg_replay (process : Process) (actions : List Action) :
    (replay hash process actions).cfg = process.cfg := by
  induction actions generalizing process with
  | nil => rfl
  | cons action rest ih => exact (ih _).trans (cfg_perform process action)

end Calls

section Tokens

variable {lib : Library} {cfg : Jwt.Config} {now graceEnd : Rat} {token : String} {claims : Claims}

/-- From the rotation on, a token that is not expired is accepted in the grace period, and no token
is accepted after it. -/
def GraceKept (lib : Library) (cfg : Jwt.Config) (now graceEnd : Rat) (token : String)
    (claims : Claims) : Prop :=
  ∀ time, now ≤ time →
    (time ≤ graceEnd → (∀ exp ∈ claims.exp, time < (exp : Rat)) →
      ∃ user, verifyToken lib cfg time token = .ok user) ∧
    (graceEnd < time → ∀ user, verifyToken lib cfg time token ≠ .ok user)

theorem verifyToken_signed (lawful : lib.Lawful)
    (signed : lib.decode token (getVerifyKey cfg) (algorithms cfg) false now = .ok claims)
    {time : Rat} (order : now ≤ time) :
    (∃ user, verifyToken lib cfg time token = .ok user) ↔
      ∀ exp ∈ claims.exp, time < (exp : Rat) := by
  have still := lawful.lasting token _ _ now time claims order signed
  constructor
  · intro ⟨user, accepted⟩
    obtain ⟨others, decoded, -⟩ := verifyToken_ok_iff.mp accepted
    obtain ⟨same, unexpired⟩ := (lawful.expiry token _ _ time others).mp decoded
    rw [still] at same
    cases same
    exact unexpired
  · intro unexpired
    exact ⟨claims.user, verifyToken_ok_iff.mpr
      ⟨claims, (lawful.expiry token _ _ time claims).mpr ⟨still, unexpired⟩, rfl⟩⟩

theorem graceKept_iff (lawful : lib.Lawful)
    (signed : lib.decode token (getVerifyKey cfg) (algorithms cfg) false now = .ok claims) :
    GraceKept lib cfg now graceEnd token claims ↔
      ∃ exp, claims.exp = some exp ∧ (exp : Rat) ≤ max graceEnd now := by
  constructor
  · intro kept
    cases stored : claims.exp with
    | none =>
        have order : now ≤ max graceEnd now + 1 := by
          linarith [le_max_right graceEnd now]
        have after : graceEnd < max graceEnd now + 1 := by
          linarith [le_max_left graceEnd now]
        obtain ⟨user, accepted⟩ := (verifyToken_signed lawful signed order).mpr (by simp [stored])
        exact absurd accepted ((kept _ order).2 after user)
    | some exp =>
        refine ⟨exp, rfl, ?_⟩
        by_contra late
        obtain ⟨time, after, before⟩ := exists_between (not_le.mp late)
        have order : now ≤ time := (le_max_right graceEnd now).trans after.le
        have unexpired : ∀ other ∈ claims.exp, time < (other : Rat) := by
          intro other same
          rw [stored] at same
          cases same
          exact before
        obtain ⟨user, accepted⟩ := (verifyToken_signed lawful signed order).mpr unexpired
        exact absurd accepted ((kept time order).2 ((le_max_left graceEnd now).trans_lt after) user)
  · intro ⟨exp, stored, early⟩ time order
    refine ⟨fun _ unexpired => (verifyToken_signed lawful signed order).mpr unexpired, ?_⟩
    intro after user accepted
    have before := (verifyToken_signed lawful signed order).mp ⟨user, accepted⟩ exp stored
    obtain grace | rotated := le_total graceEnd now
    · rw [max_eq_right grace] at early
      linarith
    · rw [max_eq_left rotated] at early
      linarith

end Tokens

/-- A failed rotation of API keys leaves the keys as they were exactly if it has nothing to divide;
and the grace period of a JWT rotation is kept for a token that was signed before exactly if it
expires by the end of the period, whatever is rotated afterwards. -/
theorem rotation_keeps_service_iff {lib : Library} (lawful : lib.Lawful) (hash : String → String)
    (now : Rat) (rotationId : String) (process : Process) :
    (∀ (request : ApiKeyRequest) (draw : String → Draw), FreshDraws draw process.keys →
      (((rotateApiKeys hash now rotationId request draw process).2.status = .failed →
          (rotateApiKeys hash now rotationId request draw process).1.keys = process.keys) ↔
        Undivided now request process)) ∧
    ∀ (request : JwtRequest) (generated : Except String JwtKeyPair) (graceEnd : Rat),
      (rotateJwtKeys hash now rotationId request generated process).2.status = .completed →
      (rotateJwtKeys hash now rotationId request generated process).2.expiresAt = some graceEnd →
      ∀ (actions : List Action) (token : String) (claims : Claims),
        lib.decode token (getVerifyKey process.cfg) (algorithms process.cfg) false now =
          .ok claims →
        (GraceKept lib (replay hash (rotateJwtKeys hash now rotationId request generated process).1
            actions).cfg now graceEnd token claims ↔
          ∃ exp, claims.exp = some exp ∧ (exp : Rat) ≤ max graceEnd now) := by
  constructor
  · intro request draw fresh
    exact unchanged_iff hash now rotationId request fresh
  · intro request generated graceEnd _ _ actions token claims signed
    have same : (rotateJwtKeys hash now rotationId request generated process).1.cfg =
        process.cfg :=
      cfg_perform process ⟨now, .rotateJwtKeys rotationId request generated⟩
    rw [cfg_replay, same]
    exact graceKept_iff lawful signed


def annsKey : ApiKey := { keyId := "k0", keyHash := "h0", userId := "ann", roles := ["user"] }

def bobsKey (number : Nat) : ApiKey :=
  { keyId := "k" ++ toString (number + 1), keyHash := "h" ++ toString (number + 1),
    userId := "bob", roles := ["user"] }

def annsProcess : Process where
  cfg := AuthEndpoints.annsConfig
  keys := { keys := [annsKey], keyToUser := [("h0", "ann")] }

def fullProcess : Process where
  cfg := AuthEndpoints.annsConfig
  keys := { keys := annsKey :: (List.range 10).map bobsKey }

def drawn (userId : String) : Draw := ⟨userId, "new-" ++ userId⟩

theorem freshDraws_ann : FreshDraws drawn annsProcess.keys where
  unused := by
    intro userId key member same
    obtain rfl := List.mem_singleton.mp member
    have shown := congrArg String.toList same
    simp [annsKey, drawn] at shown
  apart := by
    intro userId other same
    have shown := congrArg String.toList same
    rw [drawn, drawn, String.toList_append, String.toList_append,
      List.append_cancel_left_eq] at shown
    exact String.toList_inj.mp shown

def rsaPair : JwtKeyPair := ⟨"key_1", "RS256", "private", "public", 10, "fingerprint"⟩

/-- An hour of grace is enough for ann's token, and her key is rotated. -/
theorem rotation_keeps_service_iff_ann :
    (((rotateApiKeys id 10 "rot" {} drawn annsProcess).2.status = .failed →
        (rotateApiKeys id 10 "rot" {} drawn annsProcess).1.keys = annsProcess.keys) ↔
      Undivided 10 {} annsProcess) ∧
    (GraceKept AuthEndpoints.annsLibrary (replay id (rotateJwtKeys id 10 "rot" {} (.ok rsaPair)
        annsProcess).1 []).cfg 10 3610 AuthEndpoints.annsToken AuthEndpoints.annsClaims ↔
      ∃ exp, AuthEndpoints.annsClaims.exp = some exp ∧ (exp : Rat) ≤ max 3610 10) := by
  have both := rotation_keeps_service_iff AuthEndpoints.annsLibrary_lawful id 10 "rot" annsProcess
  refine ⟨both.1 {} drawn freshDraws_ann, ?_⟩
  exact both.2 {} (.ok rsaPair) 3610 (by decide +kernel) (by decide +kernel) []
    AuthEndpoints.annsToken AuthEndpoints.annsClaims (by decide +kernel)

/-- The rotation of all keys fails at bob, who has ten, and leaves a new key of ann; and with a
grace period of ten minutes ann's old token is still accepted later. -/
theorem failed_rotation_and_grace_ignored :
    (rotateApiKeys id 10 "rot" {} drawn fullProcess).2.status = .failed ∧
      (rotateApiKeys id 10 "rot" {} drawn fullProcess).1.keys ≠ fullProcess.keys ∧
      (rotateJwtKeys id 10 "rot" { graceSeconds := some 600 } (.ok rsaPair)
        annsProcess).2.expiresAt = some 610 ∧
      verifyToken AuthEndpoints.annsLibrary (rotateJwtKeys id 10 "rot" { graceSeconds := some 600 }
        (.ok rsaPair) annsProcess).1.cfg 1000 AuthEndpoints.annsToken =
        .ok AuthEndpoints.annsClaims.user := by
  decide +kernel

end RagSystem.SecretRotation
