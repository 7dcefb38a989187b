import Mathlib.Algebra.Order.Field.Rat
import Mathlib.Data.List.Basic

/-! API keys with expiry and rotation (`proxy/app/auth/api_keys.py`). Times are seconds. -/

namespace RagSystem.ApiKeys

structure ApiKey where
  keyId : String
  keyHash : String
  userId : String
  roles : List String
  createdAt : Rat := 0
  expiresAt : Option Rat := none
  lastUsed : Option Rat := none
  lastRotatedAt : Option Rat := none
  rotatedFromKeyId : Option String := none
  isActive : Bool := true
  /-- The two entries of `metadata`. -/
  overlapTill : Option Rat := none
  replacedBy : Option String := none
  deriving DecidableEq, Repr

/-- The keys in the order they were made, and the owner of each key hash. -/
structure ApiKeyManager where
  keys : List ApiKey := []
  keyToUser : List (String × String) := []
  deriving DecidableEq, Repr

def maxKeysPerUser : Nat := 10

def defaultKeyTtlDays : Int := 90

/-- `timedelta(hours=24)`. -/
def overlap : Rat := 86400

def ApiKey.isExpired (now : Rat) (key : ApiKey) : Bool :=
  match key.expiresAt with
  | none => false
  | some expiry => decide (expiry < now)

/-- `key.startswith("sk-")`. -/
def isApiKey (token : String) : Bool := "sk-".toList.isPrefixOf token.toList

/-- `list_keys` without the inactive ones; an empty user id filters nothing. -/
def listKeys (now : Rat) (userId : String) (manager : ApiKeyManager) : List ApiKey :=
  (manager.keys.filter (fun key => decide (userId = "" ∨ key.userId = userId))).filter
    (fun key => key.isActive && !key.isExpired now)

/-- The random strings of one `generate_key`. -/
structure Draw where
  keyText : String
  keyId : String
  deriving DecidableEq, Repr

def Draw.key (draw : Draw) : String := "sk-" ++ draw.keyText

def insertKey (key : ApiKey) (keys : List ApiKey) : List ApiKey :=
  if keys.any (fun other => other.keyId = key.keyId) then
    keys.map (fun other => if other.keyId = key.keyId then key else other)
  else keys ++ [key]

/-- `ttl_days or DEFAULT_KEY_TTL_DAYS`, in seconds. -/
def lifetime (ttlDays : Option Int) : Rat :=
  (if ttlDays.getD 0 = 0 then defaultKeyTtlDays else ttlDays.getD 0) * 86400

/-- The new manager and the plaintext key; `none` is the `ValueError` of a user with too many
keys. -/
def generateKey (hash : String → String) (now : Rat) (userId : String) (roles : List String)
    (ttlDays : Option Int) (rotatedFromKeyId : Option String) (draw : Draw)
    (manager : ApiKeyManager) : Option (ApiKeyManager × String) :=
  if maxKeysPerUser ≤ (listKeys now userId manager).length then none else
    let apiKey : ApiKey :=
      { keyId := draw.keyId
        keyHash := hash draw.key
        userId := userId
        roles := if roles = [] then ["user"] else roles
        createdAt := now
        expiresAt := some (now + lifetime ttlDays)
        rotatedFromKeyId := rotatedFromKeyId
        lastRotatedAt := if rotatedFromKeyId.getD "" = "" then none else some now }
    some (⟨insertKey apiKey manager.keys, (hash draw.key, userId) :: manager.keyToUser⟩, draw.key)

/-- `new_key.split("_")[-1][:8] if "_" in new_key else "unknown"`. -/
def shownPart (newKey : String) : String :=
  if '_' ∈ newKey.toList then
    String.ofList (((newKey.toList.splitOn '_').getLastD []).take 8)
  else "unknown"

def ApiKey.supersede (now : Rat) (newKey : String) (key : ApiKey) : ApiKey :=
  { key with overlapTill := some (now + overlap), replacedBy := some (shownPart newKey) }

/-- The new manager and the new key, if the old one exists and is active; the outer `none` is the
error of `generate_key`. -/
def rotateKey (hash : String → String) (now : Rat) (oldKeyId : String) (ttlDays : Option Int)
    (draw : Draw) (manager : ApiKeyManager) : Option (ApiKeyManager × Option String) :=
  match manager.keys.find? (fun key => key.keyId = oldKeyId) with
  | none => some (manager, none)
  | some oldKey =>
      if ¬ oldKey.isActive then some (manager, none) else
      match generateKey hash now oldKey.userId oldKey.roles ttlDays (some oldKeyId) draw manager with
      | none => none
      | some (manager, newKey) =>
          some ({ manager with
            keys := manager.keys.map (fun key =>
              if key.keyId = oldKeyId ∧ draw.keyId ≠ oldKeyId then key.supersede now newKey
              else key) }, some newKey)

def validateKey (hash : String → String) (now : Rat) (key : String) (manager : ApiKeyManager) :
    ApiKeyManager × Option ApiKey :=
  if ¬ isApiKey key then (manager, none) else
  match manager.keyToUser.lookup (hash key) with
  | none => (manager, none)
  | some userId =>
      if userId = "" then (manager, none) else
      match manager.keys.find? (fun apiKey => decide (apiKey.keyHash = hash key) && apiKey.isActive) with
      | none => (manager, none)
      | some apiKey =>
          if apiKey.isExpired now then (manager, none) else
            let used := { apiKey with lastUsed := some now }
            ({ manager with
              keys := manager.keys.map (fun other =>
                if other.keyId = apiKey.keyId then used else other) }, some used)

def revokeKey (keyId : String) (manager : ApiKeyManager) : ApiKeyManager × Bool :=
  ({ manager with
    keys := manager.keys.map (fun key =>
      if key.keyId = keyId then { key with isActive := false } else key) },
    manager.keys.any (fun key => key.keyId = keyId))

def expireKey (now : Rat) (keyId : String) (manager : ApiKeyManager) : ApiKeyManager × Bool :=
  ({ manager with
    keys := manager.keys.map (fun key =>
      if key.keyId = keyId then { key with expiresAt := some now } else key) },
    manager.keys.any (fun key => key.keyId = keyId))

/-- `timedelta(days=30)`. -/
def cleanupAge : Rat := 30 * 86400

def ApiKey.isStale (now : Rat) (key : ApiKey) : Bool :=
  match key.expiresAt with
  | none => false
  | some expiry => decide (expiry < now - cleanupAge)

def cleanupExpiredKeys (now : Rat) (manager : ApiKeyManager) : ApiKeyManager × Nat :=
  let removed := manager.keys.filter (·.isStale now)
  (⟨manager.keys.filter (fun key => !key.isStale now),
    manager.keyToUser.filter (fun entry => decide (entry.1 ∉ removed.map ApiKey.keyHash))⟩,
    removed.length)

end RagSystem.ApiKeys
