import RagSystem.Auth.ApiKeys
import RagSystem.Auth.UserContext
import RagSystem.Auth.UserDb

/-! Access tokens and the identity drawn from a request (`proxy/app/auth/jwt.py`). -/

namespace RagSystem.Jwt

open UserDb ApiKeys

/-- The payload of a token; `none` is a missing claim. -/
structure Claims where
  sub : Option String := none
  preferredUsername : Option String := none
  roles : Option (List String) := none
  realmRoles : Option (List String) := none
  groups : Option (List String) := none
  accessLevel : Option String := none
  nameSpace : Option String := none
  iat : Option Int := none
  exp : Option Int := none
  jti : Option String := none
  deriving DecidableEq, Repr

/-- `ExpiredSignatureError`, or any other `InvalidTokenError` with its text. -/
inductive DecodeError
  | expired
  | invalid (reason : String)
  deriving DecidableEq, Repr

/-- `jwt.encode(payload, key, algorithm)` and `jwt.decode(token, key, algorithms, verify_exp)`
at a given time. -/
structure Library where
  encode : Claims → String → String → String
  decode : String → String → List String → Bool → Rat → Except DecodeError Claims

structure Config where
  authEnabled : Bool := true
  jwtSecret : String
  jwtPublicKey : String := ""
  jwtAlgorithm : String := "HS256"
  accessTokenMinutes : Int := 60
  userDb : UserDb.Config := {}
  deriving DecidableEq, Repr

structure HttpError where
  statusCode : Nat
  detail : String
  deriving DecidableEq, Repr

/-- What the code relies on: asking for the expiry check only adds that check, waiting never
invalidates a token in any other way, and an encoded token is neither empty nor an API key. -/
structure Library.Lawful (lib : Library) : Prop where
  expiry : ∀ token key algorithms now claims,
    lib.decode token key algorithms true now = .ok claims ↔
      lib.decode token key algorithms false now = .ok claims ∧
        ∀ exp ∈ claims.exp, now < (exp : Rat)
  lasting : ∀ token key algorithms now later claims, now ≤ later →
    lib.decode token key algorithms false now = .ok claims →
      lib.decode token key algorithms false later = .ok claims
  notApiKey : ∀ token key algorithms now claims,
    lib.decode token key algorithms false now = .ok claims → isApiKey token = false ∧ token ≠ ""

variable (lib : Library) (cfg : Config)

/-- `_get_verify_key() or ""`. -/
def getVerifyKey : String :=
  if "RS".toList.isPrefixOf cfg.jwtAlgorithm.toUpper.toList then cfg.jwtPublicKey else cfg.jwtSecret

def algorithms : List String :=
  if cfg.jwtAlgorithm = "" then ["HS256"] else [cfg.jwtAlgorithm]

def Claims.user (claims : Claims) : UserContext :=
  { userId := claims.sub.getD ""
    username := claims.preferredUsername.getD ""
    roles := claims.roles.getD (claims.realmRoles.getD [])
    groups := claims.groups.getD []
    accessLevel := claims.accessLevel.getD "internal"
    nameSpace := claims.nameSpace.getD "" }

def verifyToken (now : Rat) (token : String) : Except HttpError UserContext :=
  match lib.decode token (getVerifyKey cfg) (algorithms cfg) true now with
  | .error .expired => .error ⟨401, "Token has expired"⟩
  | .error (.invalid reason) => .error ⟨401, "Invalid token: " ++ reason⟩
  | .ok claims => .ok claims.user

def getUserFromToken (now : Rat) (token : String) : Option UserContext :=
  match lib.decode token (getVerifyKey cfg) (algorithms cfg) true now with
  | .error _ => none
  | .ok claims => some claims.user

structure TokenPair where
  accessToken : String
  refreshToken : String
  expiresIn : Int
  deriving DecidableEq, Repr

/-- `jti`, `tokenId` and `refreshToken` are the random strings drawn. `none` is a missing
`JWT_SECRET` or a refused row. -/
def createTokenPair (hash : String → String) (now : Rat) (user : User)
    (jti tokenId refreshToken : String) (db : Db) : Option (Db × TokenPair) :=
  let issued := now.floor
  let payload : Claims :=
    { sub := some user.id, preferredUsername := some user.username, roles := some user.roles,
      groups := some user.groups, accessLevel := some user.accessLevel,
      nameSpace := some user.nameSpace, iat := some issued,
      exp := some (issued + cfg.accessTokenMinutes * 60), jti := some jti }
  if cfg.jwtSecret = "" then none else
    let accessToken := lib.encode payload cfg.jwtSecret cfg.jwtAlgorithm
    (storeRefreshToken hash cfg.userDb now user.id refreshToken tokenId db).map fun db =>
      (db, ⟨accessToken, refreshToken, cfg.accessTokenMinutes * 60⟩)

/-- A token without a `jti` cannot be blacklisted, nor can an invalid one. -/
def blacklistAccessToken (now : Rat) (token : String) (db : Db) : Db :=
  match lib.decode token (getVerifyKey cfg) (algorithms cfg) false now with
  | .error _ => db
  | .ok claims =>
      let jti := claims.jti.getD ""
      if jti = "" then db
      else addToBlacklist cfg.userDb now jti ((claims.exp.getD 0 : Int) : Rat) db

structure Request where
  credentials : Option String := none
  xAuthToken : Option String := none
  xOpenwebuiUserId : Option String := none
  xForwardedUser : Option String := none
  deriving DecidableEq, Repr

def Request.token (request : Request) : Option String :=
  match request.credentials with
  | some token => some token
  | none => request.xAuthToken

/-- `headers.get("x-openwebui-user-id") or headers.get("x-forwarded-user")`, when not empty. -/
def Request.headerUserId (request : Request) : Option String :=
  match request.xOpenwebuiUserId.filter (fun id => decide (id ≠ "")) with
  | some id => some id
  | none => request.xForwardedUser.filter (fun id => decide (id ≠ ""))

def Request.override (request : Request) (user : UserContext) : UserContext :=
  match request.headerUserId with
  | some id => { user with userId := id, username := id }
  | none => user

def validateApiKey (hash : String → String) (now : Rat) (key : String) (manager : ApiKeyManager) :
    ApiKeyManager × Except HttpError UserContext :=
  match validateKey hash now key manager with
  | (manager, none) => (manager, .error ⟨401, "Invalid or revoked API key"⟩)
  | (manager, some apiKey) =>
      (manager, .ok { userId := apiKey.userId, username := apiKey.userId, roles := apiKey.roles })

def getAuthContext (hash : String → String) (now : Rat) (request : Request)
    (manager : ApiKeyManager) : ApiKeyManager × Except HttpError UserContext :=
  if ¬ cfg.authEnabled then (manager, .ok UserContext.anonymous) else
  match request.token with
  | none => (manager, .error ⟨401, "Authentication required"⟩)
  | some token =>
      if token = "" then (manager, .error ⟨401, "Authentication required"⟩) else
      let checked :=
        if isApiKey token then validateApiKey hash now token manager
        else (manager, verifyToken lib cfg now token)
      (checked.1, checked.2.map request.override)

def getOptionalAuthContext (hash : String → String) (now : Rat) (request : Request)
    (manager : ApiKeyManager) : ApiKeyManager × UserContext :=
  match request.token with
  | none => (manager, UserContext.anonymous)
  | some token =>
      if token = "" then (manager, UserContext.anonymous)
      else if isApiKey token then
        match validateKey hash now token manager with
        | (manager, none) => (manager, UserContext.anonymous)
        | (manager, some apiKey) =>
            (manager, { userId := apiKey.userId, username := apiKey.userId, roles := apiKey.roles })
      else (manager, (getUserFromToken lib cfg now token).getD UserContext.anonymous)

variable {lib cfg}

theorem verifyToken_ok_iff {now : Rat} {token : String} {user : UserContext} :
    verifyToken lib cfg now token = .ok user ↔
      ∃ claims, lib.decode token (getVerifyKey cfg) (algorithms cfg) true now = .ok claims ∧
        claims.user = user := by
  unfold verifyToken
  split
  · rename_i failed
    simp [failed]
  · rename_i failed
    simp [failed]
  · rename_i claims decoded
    simp [decoded]

def Unexpired (lib : Library) (cfg : Config) (now : Rat) (token : String) : Prop :=
  ∀ claims, lib.decode token (getVerifyKey cfg) (algorithms cfg) false now = .ok claims →
    ∀ exp ∈ claims.exp, now < (exp : Rat)

theorem verifyToken_lasts (lawful : lib.Lawful) {now later : Rat} {token : String}
    {user : UserContext} (accepted : verifyToken lib cfg now token = .ok user)
    (order : now ≤ later) (unexpired : Unexpired lib cfg later token) :
    verifyToken lib cfg later token = .ok user := by
  obtain ⟨claims, decoded, rfl⟩ := verifyToken_ok_iff.mp accepted
  have signed := ((lawful.expiry token _ _ now claims).mp decoded).1
  have still := lawful.lasting token _ _ now later claims order signed
  rw [verifyToken_ok_iff]
  exact ⟨claims, (lawful.expiry token _ _ later claims).mpr ⟨still, unexpired claims still⟩, rfl⟩

theorem getAuthContext_token (lawful : lib.Lawful) (hash : String → String) {now : Rat}
    {token : String} {user : UserContext} (manager : ApiKeyManager)
    (enabled : cfg.authEnabled = true) (accepted : verifyToken lib cfg now token = .ok user)
    {request : Request} (presented : request.token = some token) :
    getAuthContext lib cfg hash now request manager = (manager, .ok (request.override user)) := by
  obtain ⟨claims, decoded, -⟩ := verifyToken_ok_iff.mp accepted
  have signed := ((lawful.expiry token _ _ now claims).mp decoded).1
  obtain ⟨plain, nonempty⟩ := lawful.notApiKey token _ _ now claims signed
  simp [getAuthContext, enabled, presented, nonempty, plain, accepted, Except.map]

end RagSystem.Jwt
