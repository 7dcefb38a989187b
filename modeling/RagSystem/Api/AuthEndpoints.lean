import Mathlib.Data.List.Pairwise
import Mathlib.Tactic.NormNum
import RagSystem.Auth.Jwt
import RagSystem.Transition.Run

/-! The token endpoints of `proxy/app/api/auth_endpoints.py` as a service over time. -/

namespace RagSystem.AuthEndpoints

open UserDb ApiKeys Jwt Transition

structure LogoutRequest where
  refreshToken : Option String := none
  allSessions : Bool := false
  deriving DecidableEq, Repr

structure Server where
  db : Db := {}
  apiKeys : ApiKeyManager := {}
  clock : Rat := 0
  deriving DecidableEq, Repr

variable (lib : Library) (cfg : Jwt.Config) (hash : String → String)

def authLogout (now : Rat) (logout : LogoutRequest) (request : Request) (server : Server) : Server :=
  let (apiKeys, user) := getOptionalAuthContext lib cfg hash now request server.apiKeys
  let db :=
    match logout.refreshToken with
    | none => server.db
    | some token => if token = "" then server.db else (consumeRefreshToken hash now token server.db).1
  let db :=
    if logout.allSessions ∧ user.isAuthenticated then (revokeUserTokens user.userId db).1 else db
  { server with db := db, apiKeys := apiKeys }

/-- `issue` draws its random strings; `verify` is any request whose identity is drawn. -/
inductive Act
  | issue (user : User) (jti tokenId refreshToken : String)
  | verify (request : Request)
  | logout (logout : LogoutRequest) (request : Request)
  | blacklist (token : String)
  | cleanup
  deriving DecidableEq, Repr

structure Action where
  now : Rat
  act : Act
  deriving DecidableEq, Repr

def Server.perform (server : Server) (now : Rat) : Act → Server
  | .issue user jti tokenId refreshToken =>
      match createTokenPair lib cfg hash now user jti tokenId refreshToken server.db with
      | none => server
      | some (db, _) => { server with db := db }
  | .verify request =>
      { server with apiKeys := (getAuthContext lib cfg hash now request server.apiKeys).1 }
  | .logout logout request => authLogout lib cfg hash now logout request server
  | .blacklist token => { server with db := blacklistAccessToken lib cfg now token server.db }
  | .cleanup => { server with db := cleanupBlacklist cfg.userDb now server.db }

def step (server : Server) (action : Action) : Option Server :=
  if action.now < server.clock then none
  else some { server.perform lib cfg hash action.now action.act with clock := action.now }

/-- The access token an action takes back: the one blacklisted, or the one a logout presents. -/
def Act.revokes : Act → Option String
  | .blacklist token => some token
  | .logout _ request => request.token
  | _ => none

variable {lib cfg hash}

theorem clock_step {server next : Server} {action : Action}
    (stepped : step lib cfg hash server action = some next) :
    server.clock ≤ action.now ∧ next.clock = action.now := by
  simp only [step] at stepped
  split at stepped
  · simp at stepped
  · rename_i forward
    obtain rfl := Option.some.inj stepped
    exact ⟨not_lt.mp forward, rfl⟩

theorem run_ordered {start server : Server} {events : List (Event Server Action)}
    (run : Run (step lib cfg hash) start events server) :
    (∀ event ∈ events, event.action.now ≤ server.clock) ∧
      events.Pairwise (fun earlier later => earlier.action.now ≤ later.action.now) := by
  induction run with
  | nil => simp
  | @snoc events server past action next stepped ih =>
      obtain ⟨bounded, ordered⟩ := ih
      obtain ⟨forward, reached⟩ := clock_step stepped
      constructor
      · intro event member
        rcases List.mem_append.mp member with old | new
        · rw [reached]
          exact (bounded event old).trans forward
        · obtain rfl := List.mem_singleton.mp new
          exact reached.ge
      · refine List.pairwise_append.mpr ⟨ordered, by simp, ?_⟩
        intro earlier member later single
        obtain rfl := List.mem_singleton.mp single
        exact (bounded earlier member).trans forward

/-- A valid token that has been blacklisted or logged out is accepted by every later check until
it expires, whatever happens in between. -/
theorem revoked_token_is_accepted (lawful : lib.Lawful) {start server : Server}
    {events : List (Event Server Action)}
    (run : Run (step lib cfg hash) start events server) :
    events.Pairwise (fun revocation later => ∀ token user,
      revocation.action.act.revokes = some token →
      verifyToken lib cfg revocation.action.now token = .ok user →
      Unexpired lib cfg later.action.now token →
        verifyToken lib cfg later.action.now token = .ok user ∧
          ∀ request : Request, request.token = some token → ∃ context,
            (getAuthContext lib cfg hash later.action.now request later.before.apiKeys).2 =
              .ok context) := by
  refine (run_ordered run).2.imp ?_
  intro revocation later order token user _ accepted unexpired
  have still := verifyToken_lasts lawful accepted order unexpired
  refine ⟨still, fun request presented => ?_⟩
  by_cases enabled : cfg.authEnabled = true
  · rw [getAuthContext_token lawful hash later.before.apiKeys enabled still presented]
    exact ⟨_, rfl⟩
  · exact ⟨UserContext.anonymous, by simp [getAuthContext, enabled]⟩

def singleToken (token : String) (claims : Claims) : Library where
  encode _ _ _ := token
  decode presented _ _ verifyExp now :=
    if presented = token then
      if verifyExp && claims.exp.any (fun exp => decide ((exp : Rat) ≤ now)) then .error .expired
      else .ok claims
    else .error (.invalid "Signature verification failed")

theorem singleToken_lawful {token : String} (plain : isApiKey token = false)
    (nonempty : token ≠ "") (claims : Claims) : (singleToken token claims).Lawful where
  expiry presented _ _ now decoded := by
    by_cases same : presented = token
    · cases stored : claims.exp with
      | none => simp [singleToken, same, stored]; rintro rfl; simp [stored]
      | some exp =>
          by_cases due : (exp : Rat) ≤ now
          · simp [singleToken, same, stored, due]
            intro given
            rcases given with rfl
            simp [stored, due]
          · simp [singleToken, same, stored, due]
            intro given
            rcases given with rfl
            simp [stored, not_le.mp due]
    · simp [singleToken, same]
  lasting presented _ _ now later decoded _ signed := by
    simpa [singleToken] using signed
  notApiKey presented _ _ now decoded signed := by
    by_cases same : presented = token
    · exact same ▸ ⟨plain, nonempty⟩
    · simp [singleToken, same] at signed

def annsClaims : Claims :=
  { sub := some "1", preferredUsername := some "ann", exp := some 3600, jti := some "j1" }

def annsToken : String := "eyJhbGciOiJIUzI1NiJ9.e30.c2ln"

def annsLibrary : Library := singleToken annsToken annsClaims

def annsConfig : Jwt.Config := { jwtSecret := "secret" }

theorem annsLibrary_lawful : annsLibrary.Lawful :=
  singleToken_lawful (by decide +kernel) (by decide +kernel) annsClaims

theorem annsToken_unexpired {now : Rat} (early : now < 3600) :
    Unexpired annsLibrary annsConfig now annsToken := by
  intro claims decoded exp stored
  obtain rfl : annsClaims = claims := by simpa [annsLibrary, singleToken] using decoded
  obtain rfl : 3600 = exp := by simpa [annsClaims] using stored
  exact_mod_cast early

def revokedThenUsed (revocation : Act) : List (Event Server Action) :=
  let revoked := { ({} : Server).perform annsLibrary annsConfig id 10 revocation with clock := 10 }
  let use : Act := .verify { credentials := some annsToken }
  [⟨{}, ⟨10, revocation⟩, revoked⟩,
    ⟨revoked, ⟨20, use⟩, { revoked.perform annsLibrary annsConfig id 20 use with clock := 20 }⟩]

theorem revokedThenUsed_run (revocation : Act) :
    Run (step annsLibrary annsConfig id) {} (revokedThenUsed revocation)
      (final {} (revokedThenUsed revocation)) := by
  refine Run.cons ?_ (Run.cons ?_ Run.nil)
  · simp only [step]
    rw [if_neg (by norm_num)]
  · simp only [step]
    rw [if_neg (by norm_num)]

theorem revoked_token_is_accepted_ann :
    verifyToken annsLibrary annsConfig 20 annsToken = .ok annsClaims.user := by
  have pair := revoked_token_is_accepted annsLibrary_lawful
    (revokedThenUsed_run (.blacklist annsToken))
  exact ((List.pairwise_cons.mp pair).1 _ (List.mem_singleton_self _) annsToken annsClaims.user
    rfl (by decide +kernel) (annsToken_unexpired (by norm_num))).1

/-- After its revocation a token that was valid is rejected until it expires. -/
def RevocationRespected (lib : Library) (cfg : Jwt.Config) (events : List (Event Server Action)) :
    Prop :=
  events.Pairwise (fun revocation later => ∀ token user,
    revocation.action.act.revokes = some token →
    verifyToken lib cfg revocation.action.now token = .ok user →
    Unexpired lib cfg later.action.now token →
      ∀ user, verifyToken lib cfg later.action.now token ≠ .ok user)

/-- Neither a token on the blacklist nor one that was logged out is turned away. -/
theorem revocation_not_respected :
    ∃ blacklisted loggedOut : List (Event Server Action),
      (∃ server, Run (step annsLibrary annsConfig id) {} blacklisted server ∧
        isBlacklisted server.db "j1" = true) ∧
      (∃ server, Run (step annsLibrary annsConfig id) {} loggedOut server) ∧
      ¬ RevocationRespected annsLibrary annsConfig blacklisted ∧
      ¬ RevocationRespected annsLibrary annsConfig loggedOut := by
  have ignored : ∀ revocation : Act, revocation.revokes = some annsToken →
      ¬ RevocationRespected annsLibrary annsConfig (revokedThenUsed revocation) := by
    intro revocation revokes respected
    exact (List.pairwise_cons.mp respected).1 _ (List.mem_singleton_self _) annsToken
      annsClaims.user revokes (by simp; decide +kernel) (annsToken_unexpired (by norm_num))
      annsClaims.user (by simp; decide +kernel)
  refine ⟨revokedThenUsed (.blacklist annsToken),
    revokedThenUsed (.logout { allSessions := true } { credentials := some annsToken }),
    ⟨_, revokedThenUsed_run _, by decide +kernel⟩, ⟨_, revokedThenUsed_run _⟩, ignored _ rfl,
    ignored _ rfl⟩

end RagSystem.AuthEndpoints
