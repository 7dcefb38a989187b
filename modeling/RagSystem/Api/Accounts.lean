import RagSystem.Auth.Jwt
import RagSystem.Auth.RefreshTokens
import RagSystem.Data.Dict

/-! Registration, login and refresh (`proxy/app/api/auth_endpoints.py`), with the LDAP fallback of
`proxy/app/auth/ldap.py` and the password rules of `proxy/app/shared/security.py`. -/

namespace RagSystem.Accounts

open UserDb Jwt

/-- The settings, and what bcrypt, PyJWT and SHA-256 compute. -/
structure Environment where
  lib : Library
  cfg : Jwt.Config
  adEnabled : Bool := false
  /-- `hashlib.sha256(..).hexdigest()`. -/
  digest : String → String
  /-- `bcrypt.hashpw` of a password and a salt, or the text of its `ValueError`. -/
  hashpw : String → String → Except String String
  /-- `bcrypt.checkpw`; `none` is a `ValueError`. -/
  checkpw : String → String → Option Bool
  /-- `\d`. -/
  isDecimal : Char → Bool

def nameCharacter (char : Char) : Bool :=
  char.isAlphanum || char = '_' || char = '.' || char = '-'

/-- The constraints of the model are checked before the endpoint is called. -/
structure RegisterRequest where
  username : String
  password : String
  email : Option String := none
  usernameLength : 2 ≤ username.length ∧ username.length ≤ 64
  usernamePattern : username.toList.all nameCharacter = true
  passwordLength : 10 ≤ password.length ∧ password.length ≤ 128
  deriving DecidableEq, Repr

structure LoginRequest where
  username : String
  password : String
  deriving DecidableEq, Repr

structure PairDraw where
  jti : String
  tokenId : String
  refreshToken : String
  deriving DecidableEq, Repr

/-- The id and the salt of a new user, and the password of one that LDAP vouches for. -/
structure UserDraw where
  userId : String
  salt : String
  password : String := ""
  deriving DecidableEq, Repr

/-- `_LOGIN_ATTEMPTS`: how many in the window, and when it opened. -/
abbrev Attempts := Dict String (Nat × Rat)

structure Site where
  db : Db := {}
  loginAttempts : Attempts := ∅
  clock : Rat := 0
  deriving DecidableEq, Repr

inductive Reply
  | registered (userId username : String)
  | issued (userId : String) (pair : TokenPair)
  | refused (error : HttpError)
  /-- An exception that no handler of the endpoint catches. -/
  | raised
  /-- Of a call of the user database. -/
  | answered (changed : Nat)
  deriving DecidableEq, Repr

def loginMaxAttempts : Nat := 5

def loginWindowSeconds : Rat := 300

def loginCooldownSeconds : Rat := 900

def checkLoginRateLimit (now : Rat) (identifier : String) (attempts : Attempts) :
    Attempts × Option HttpError :=
  match attempts.get? identifier with
  | none => (attempts.set identifier (1, now), none)
  | some (count, firstAttempt) =>
      if loginWindowSeconds < now - firstAttempt then (attempts.set identifier (1, now), none)
      else if loginMaxAttempts ≤ count then
        if now - firstAttempt < loginCooldownSeconds then
          let wait := (loginCooldownSeconds - (now - firstAttempt)).floor
          (attempts, some ⟨429, "Too many login attempts. Try again in " ++ toString wait ++
            " seconds."⟩)
        else (attempts.set identifier (1, now), none)
      else (attempts.set identifier (count + 1, firstAttempt), none)

def specialCharacters : List Char :=
  "!@#$%^&*()_+-=[]\x7b\x7d;':\"\\|,.<>/?`~".toList

/-- `PasswordStrengthValidator.validate`: the first rule that the password breaks. -/
def validatePassword (isDecimal : Char → Bool) (password : String) : Option String :=
  if password.length < 10 then some "Password must be at least 10 characters"
  else if 128 < password.length then some "Password must be at most 128 characters"
  else if ¬ password.toList.any Char.isUpper then
    some "Password must contain at least one uppercase letter"
  else if ¬ password.toList.any Char.isLower then
    some "Password must contain at least one lowercase letter"
  else if ¬ password.toList.any isDecimal then some "Password must contain at least one digit"
  else if ¬ password.toList.any (· ∈ specialCharacters) then
    some "Password must contain at least one special character"
  else none

section Endpoints

variable (env : Environment)

/-- `UserDatabase.create_user`; an error is the text of the `ValueError`. -/
def createAccount (username password email accessLevel : String) (draw : UserDraw) (db : Db) :
    Except String (Db × User) :=
  match env.hashpw password draw.salt with
  | .error reason => .error reason
  | .ok passwordHash =>
      let user : User :=
        { id := draw.userId, username := username, passwordHash := passwordHash, email := email,
          accessLevel := accessLevel }
      match createUser user db with
      | none => .error ("Username '" ++ username ++ "' already exists")
      | some db => .ok (db, user)

/-- `none` is a `ValueError` of bcrypt. -/
def verifyPassword (username password : String) (db : Db) : Option (Option User) :=
  match getUserByUsername db username with
  | none => some none
  | some user =>
      (env.checkpw password user.passwordHash).map (fun same => if same then some user else none)

/-- `none` is the empty dictionary. -/
def syncLdapUser (username : String) (draw : UserDraw) (db : Db) : Db × Option User :=
  match getUserByUsername db username with
  | some user => (db, some user)
  | none =>
      match createAccount env username draw.password (username ++ "@ldap") "internal" draw db with
      | .error _ => (db, getUserByUsername db username)
      | .ok (db, user) => (db, getUser db user.id)

/-- `bound` says whether the LDAP server accepts the bind. -/
def authenticateLdap (bound : Bool) (username : String) (draw : UserDraw) (db : Db) :
    Db × Option (Option User) :=
  if env.adEnabled ∧ bound then ((syncLdapUser env username draw db).1,
    some (syncLdapUser env username draw db).2)
  else (db, none)

/-- Whom a login is about, by password or else by LDAP; `none` is a `ValueError` of bcrypt. -/
def identify (bound : Bool) (request : LoginRequest) (draw : UserDraw) (db : Db) :
    Option (Db × Option (Option User)) :=
  match verifyPassword env request.username request.password db with
  | none => none
  | some (some user) => some (db, some (some user))
  | some none => some (authenticateLdap env bound request.username draw db)

/-- `create_token_pair` at the end of an endpoint; a `user` of `none` has no id. -/
def issuePair (now : Rat) (user : Option User) (draw : PairDraw) (site : Site) : Site × Reply :=
  match user with
  | none => (site, .raised)
  | some user =>
      match createTokenPair env.lib env.cfg env.digest now user draw.jti draw.tokenId
          draw.refreshToken site.db with
      | none => (site, .raised)
      | some (db, pair) => ({ site with db := db }, .issued user.id pair)

def authRegister (now : Rat) (clientIp : String) (request : RegisterRequest) (draw : UserDraw)
    (site : Site) : Site × Reply :=
  match checkLoginRateLimit now ("register:" ++ clientIp) site.loginAttempts with
  | (_, some error) => (site, .refused error)
  | (attempts, none) =>
      let site := { site with loginAttempts := attempts }
      if ¬ env.cfg.authEnabled then
        (site, .refused ⟨400, "Registration is not enabled. Set AUTH_ENABLED=true."⟩)
      else
        match validatePassword env.isDecimal request.password with
        | some reason => (site, .refused ⟨422, reason⟩)
        | none =>
            match createAccount env request.username request.password (request.email.getD "")
                "user" draw site.db with
            | .error reason => (site, .refused ⟨409, reason⟩)
            | .ok (db, user) => ({ site with db := db }, .registered user.id user.username)

def authLogin (now : Rat) (clientIp : String) (request : LoginRequest) (bound : Bool)
    (userDraw : UserDraw) (draw : PairDraw) (site : Site) : Site × Reply :=
  match checkLoginRateLimit now ("login:" ++ clientIp ++ ":" ++ request.username)
      site.loginAttempts with
  | (_, some error) => (site, .refused error)
  | (attempts, none) =>
      let site := { site with loginAttempts := attempts }
      match identify env bound request userDraw site.db with
      | none => (site, .raised)
      | some (db, user) =>
          let site := { site with db := db }
          match user with
          | none => (site, .refused ⟨401, "Invalid credentials"⟩)
          | some user =>
              if user.any (fun user => !user.isActive) then
                (site, .refused ⟨403, "Account is deactivated"⟩)
              else issuePair env now user draw site

def claimedUser (context : UserContext) : User :=
  { id := context.userId, username := context.username, roles := context.roles,
    groups := context.groups, accessLevel := context.accessLevel, nameSpace := context.nameSpace }

def authRefresh (now : Rat) (clientIp token : String) (draw : PairDraw) (site : Site) :
    Site × Reply :=
  match checkLoginRateLimit now ("refresh:" ++ clientIp) site.loginAttempts with
  | (_, some error) => (site, .refused error)
  | (attempts, none) =>
      let site := { site with loginAttempts := attempts }
      if ¬ env.cfg.authEnabled then (site, .refused ⟨400, "Authentication is not enabled"⟩)
      else
        let (db, user) := consumeRefreshToken env.digest now token site.db
        let site := { site with db := db }
        match user with
        | some user => issuePair env now (some user) draw site
        | none =>
            match verifyToken env.lib env.cfg now token with
            | .error error => (site, .refused error)
            | .ok context => issuePair env now (some (claimedUser context)) draw site

end Endpoints

/-! What each call does to the users, and whom it issues a token pair to. -/

section Users

variable {env : Environment} {now : Rat} {db after : Db}

def ActiveUser (db : Db) (userId : String) : Prop :=
  ∃ user ∈ db.users, user.id = userId ∧ user.isActive = true

theorem getUser_active {userId : String} {user : User} (found : getUser db userId = some user) :
    ActiveUser db user.id := by
  have selected := List.find?_some found
  simp only [Bool.and_eq_true, decide_eq_true_eq] at selected
  exact ⟨user, List.mem_of_find?_eq_some found, rfl, selected.2⟩

theorem getUserByUsername_active {username : String} {user : User}
    (found : getUserByUsername db username = some user) : ActiveUser db user.id := by
  have selected := List.find?_some found
  simp only [Bool.and_eq_true] at selected
  exact ⟨user, List.mem_of_find?_eq_some found, rfl, selected.2⟩

@[simp] theorem users_consumeRefreshToken (digest : String → String) (token : String) :
    (consumeRefreshToken digest now token db).1.users = db.users := by
  rw [consumeRefreshToken_eq]
  split <;> rfl

theorem users_createTokenPair {user : User} {jti tokenId refreshToken : String} {pair : TokenPair}
    (created : createTokenPair env.lib env.cfg env.digest now user jti tokenId refreshToken db =
      some (after, pair)) : after.users = db.users := by
  simp only [createTokenPair] at created
  split at created
  · cases created
  · obtain ⟨stored, written, equal⟩ := Option.map_eq_some_iff.mp created
    obtain ⟨rfl, -⟩ := Prod.mk.inj equal
    simp only [storeRefreshToken] at written
    split at written
    · obtain rfl := Option.some.inj written
      rfl
    · cases written

/-- The users stay, or a new one with an id of its own joins them. -/
def Grows (before after : List User) : Prop :=
  after = before ∨ ∃ user, (∀ other ∈ before, other.id ≠ user.id) ∧ after = before ++ [user]

theorem grows_createAccount {username password email accessLevel : String} {draw : UserDraw}
    {user : User}
    (created : createAccount env username password email accessLevel draw db = .ok (after, user)) :
    Grows db.users after.users := by
  simp only [createAccount] at created
  split at created
  · cases created
  · simp only [createUser] at created
    split at created
    · cases created
    · rename_i accepted
      split at accepted
      · cases accepted
      · rename_i free
        obtain rfl := Option.some.inj accepted
        obtain ⟨rfl, rfl⟩ := Prod.mk.inj (Except.ok.inj created)
        refine Or.inr ⟨_, ?_, rfl⟩
        intro other member same
        apply free
        rw [List.any_eq_true]
        exact ⟨other, member, by simp [same]⟩

theorem grows_syncLdapUser (username : String) (draw : UserDraw) :
    Grows db.users (syncLdapUser env username draw db).1.users := by
  unfold syncLdapUser
  split
  · exact Or.inl rfl
  · split
    · exact Or.inl rfl
    · rename_i created
      exact grows_createAccount created

theorem syncLdapUser_active {username : String} {draw : UserDraw} {user : User}
    (found : (syncLdapUser env username draw db).2 = some user) :
    ActiveUser (syncLdapUser env username draw db).1 user.id := by
  unfold syncLdapUser at found ⊢
  split at found
  · rename_i known
    obtain rfl := Option.some.inj found
    exact getUserByUsername_active known
  · rename_i unknown
    split at found
    · rw [unknown] at found
      cases found
    · exact getUser_active found

theorem verifyPassword_active {username password : String} {user : User}
    (verified : verifyPassword env username password db = some (some user)) :
    ActiveUser db user.id := by
  unfold verifyPassword at verified
  split at verified
  · simp at verified
  · rename_i known
    obtain ⟨same, -, equal⟩ := Option.map_eq_some_iff.mp verified
    split at equal
    · obtain rfl := Option.some.inj equal
      exact getUserByUsername_active known
    · cases equal

theorem identify_spec {bound : Bool} {request : LoginRequest} {draw : UserDraw}
    {user : Option (Option User)}
    (identified : identify env bound request draw db = some (after, user)) :
    Grows db.users after.users ∧
      ∀ known, user = some (some known) → ActiveUser after known.id := by
  unfold identify at identified
  split at identified
  · cases identified
  · rename_i verified
    obtain ⟨rfl, rfl⟩ := Prod.mk.inj (Option.some.inj identified)
    refine ⟨Or.inl rfl, ?_⟩
    intro known given
    rcases given with ⟨rfl⟩
    exact verifyPassword_active verified
  · unfold authenticateLdap at identified
    split at identified
    · obtain ⟨rfl, rfl⟩ := Prod.mk.inj (Option.some.inj identified)
      refine ⟨grows_syncLdapUser request.username draw, ?_⟩
      intro known found
      exact syncLdapUser_active (Option.some.inj found)
    · obtain ⟨rfl, rfl⟩ := Prod.mk.inj (Option.some.inj identified)
      exact ⟨Or.inl rfl, by simp⟩

theorem issuePair_users (user : Option User) (draw : PairDraw) (site : Site) :
    (issuePair env now user draw site).1.db.users = site.db.users := by
  unfold issuePair
  split
  · rfl
  · split
    · rfl
    · rename_i created
      exact users_createTokenPair created

theorem issuePair_issued {user : Option User} {draw : PairDraw} {site : Site} {userId : String}
    {pair : TokenPair} (issued : (issuePair env now user draw site).2 = .issued userId pair) :
    ∃ known, user = some known ∧ known.id = userId := by
  unfold issuePair at issued
  split at issued
  · cases issued
  · rename_i known
    split at issued
    · cases issued
    · exact ⟨known, rfl, (Reply.issued.inj issued).1⟩

end Users

end RagSystem.Accounts
