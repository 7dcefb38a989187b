import Mathlib.Algebra.Order.Field.Rat
import Mathlib.Data.List.Sort

/-! The tables of `proxy/app/auth/user_db.py`: users, refresh tokens and the token blacklist.
Times are seconds; the ISO strings of the source order as the instants they name. -/

namespace RagSystem.UserDb

structure User where
  id : String
  username : String
  passwordHash : String := ""
  email : String := ""
  roles : List String := ["user"]
  groups : List String := []
  accessLevel : String := "user"
  nameSpace : String := ""
  isActive : Bool := true
  deriving DecidableEq, Repr

structure RefreshToken where
  id : String
  userId : String
  tokenHash : String
  expiresAt : Rat
  createdAt : Rat
  revoked : Bool := false
  deriving DecidableEq, Repr

structure BlacklistEntry where
  jti : String
  expiresAt : Rat
  blacklistedAt : Rat
  deriving DecidableEq, Repr

structure Db where
  users : List User := []
  refreshTokens : List RefreshToken := []
  tokenBlacklist : List BlacklistEntry := []
  deriving DecidableEq, Repr

structure Config where
  refreshTokenDays : Int := 7
  tokenBlacklistMaxEntries : Int := 10000
  deriving DecidableEq, Repr

variable (hash : String → String) (cfg : Config)

def getUser (db : Db) (userId : String) : Option User :=
  db.users.find? (fun user => decide (user.id = userId) && user.isActive)

/-- `COLLATE NOCASE` folds the ASCII letters. -/
def sameName (first second : String) : Bool :=
  first.toList.map Char.toLower = second.toList.map Char.toLower

def getUserByUsername (db : Db) (username : String) : Option User :=
  db.users.find? (fun user => sameName user.username username && user.isActive)

/-- The new row; `none` is a username or an id that is taken, also by an inactive user. -/
def createUser (user : User) (db : Db) : Option Db :=
  if db.users.any (fun other => sameName other.username user.username || other.id = user.id) then
    none
  else some { db with users := db.users ++ [user] }

/-- The fields that `update_user` may set. -/
structure UserUpdate where
  email : Option String := none
  roles : Option (List String) := none
  groups : Option (List String) := none
  accessLevel : Option String := none
  nameSpace : Option String := none
  isActive : Option Bool := none
  deriving DecidableEq, Repr

def UserUpdate.apply (update : UserUpdate) (user : User) : User :=
  { user with
    email := update.email.getD user.email
    roles := update.roles.getD user.roles
    groups := update.groups.getD user.groups
    accessLevel := update.accessLevel.getD user.accessLevel
    nameSpace := update.nameSpace.getD user.nameSpace
    isActive := update.isActive.getD user.isActive }

def changeUser (userId : String) (change : User → User) (db : Db) : Db × Bool :=
  ({ db with users := db.users.map (fun user => if user.id = userId then change user else user) },
    db.users.any (fun user => user.id = userId))

def updateUser (userId : String) (update : UserUpdate) (db : Db) : Db × Bool :=
  if update = {} then (db, false) else changeUser userId update.apply db

def deleteUser (userId : String) (db : Db) : Db × Bool :=
  changeUser userId (fun user => { user with isActive := false }) db

/-- `none` is the integrity error of an unknown user or a taken token id. -/
def storeRefreshToken (now : Rat) (userId rawToken tokenId : String) (db : Db) : Option Db :=
  if db.users.any (fun user => user.id = userId) ∧
      ¬ db.refreshTokens.any (fun token => token.id = tokenId) then
    some { db with
      refreshTokens := db.refreshTokens ++
        [⟨tokenId, userId, hash rawToken, now + cfg.refreshTokenDays * 86400, now, false⟩] }
  else none

def consumeRefreshToken (now : Rat) (rawToken : String) (db : Db) : Db × Option User :=
  match db.refreshTokens.find? (fun token =>
      decide (token.tokenHash = hash rawToken) && !token.revoked && decide (now < token.expiresAt)) with
  | none => (db, none)
  | some row =>
      let db := { db with
        refreshTokens := db.refreshTokens.map (fun token =>
          if token.id = row.id then { token with revoked := true } else token) }
      (db, getUser db row.userId)

def revokeUserTokens (userId : String) (db : Db) : Db × Nat :=
  let hit (token : RefreshToken) : Bool := decide (token.userId = userId) && !token.revoked
  ({ db with
    refreshTokens := db.refreshTokens.map (fun token =>
      if hit token then { token with revoked := true } else token) },
    db.refreshTokens.countP hit)

def cleanupBlacklist (now : Rat) (db : Db) : Db :=
  let live := db.tokenBlacklist.filter (fun entry => ¬ entry.expiresAt < now)
  if cfg.tokenBlacklistMaxEntries < live.length then
    let excess := (live.length - cfg.tokenBlacklistMaxEntries).toNat
    let oldest := (live.insertionSort (fun first second =>
      first.blacklistedAt ≤ second.blacklistedAt)).take excess
    { db with
      tokenBlacklist := live.filter (fun entry => ¬ oldest.any (fun old => old.jti = entry.jti)) }
  else { db with tokenBlacklist := live }

def isBlacklisted (db : Db) (jti : String) : Bool :=
  db.tokenBlacklist.any (fun entry => entry.jti = jti)

/-- `INSERT OR IGNORE`, then the cleanup. -/
def addToBlacklist (now : Rat) (jti : String) (expiresAt : Rat) (db : Db) : Db :=
  cleanupBlacklist cfg now
    (if isBlacklisted db jti then db
    else { db with tokenBlacklist := db.tokenBlacklist ++ [⟨jti, expiresAt, now⟩] })

variable {hash cfg}

end RagSystem.UserDb
