import RagSystem.Api.Accounts
import RagSystem.Api.AuthEndpoints

/-! Whom the endpoints issue token pairs to after an account has been switched off. -/

namespace RagSystem.Accounts

open UserDb Jwt Transition

inductive Act
  | register (clientIp : String) (request : RegisterRequest) (draw : UserDraw)
  | login (clientIp : String) (request : LoginRequest) (bound : Bool) (userDraw : UserDraw)
      (draw : PairDraw)
  | refresh (clientIp token : String) (draw : PairDraw)
  | update (userId : String) (fields : UserUpdate)
  | delete (userId : String)
  | revokeTokens (userId : String)
  deriving DecidableEq, Repr

structure Action where
  now : Rat
  act : Act
  deriving DecidableEq, Repr

def Site.call (site : Site) (result : Db × Nat) : Site × Reply :=
  ({ site with db := result.1 }, .answered result.2)

section Calls

variable (env : Environment)

def perform (now : Rat) (site : Site) : Act → Site × Reply
  | .register clientIp request draw => authRegister env now clientIp request draw site
  | .login clientIp request bound userDraw draw =>
      authLogin env now clientIp request bound userDraw draw site
  | .refresh clientIp token draw => authRefresh env now clientIp token draw site
  | .update userId fields => site.call ((updateUser userId fields site.db).map id Bool.toNat)
  | .delete userId => site.call ((deleteUser userId site.db).map id Bool.toNat)
  | .revokeTokens userId => site.call (revokeUserTokens userId site.db)

def siteStep (site : Site) (action : Action) : Option Site :=
  if action.now < site.clock then none
  else some { (perform env action.now site action.act).1 with clock := action.now }

def reply (event : Event Site Action) : Reply :=
  (perform env event.action.now event.before event.action.act).2

/-- A refresh that every check lets through although its token is no refresh token of an active
user: it is an access token of the user that has not expired. -/
structure FallsBack (now : Rat) (clientIp token : String) (draw : PairDraw) (site : Site)
    (userId : String) : Prop where
  allowed : (checkLoginRateLimit now ("refresh:" ++ clientIp) site.loginAttempts).2 = none
  enabled : env.cfg.authEnabled = true
  secret : env.cfg.jwtSecret ≠ ""
  fresh : ∀ row ∈ site.db.refreshTokens, row.id ≠ draw.tokenId
  useless : ∀ row, selectRefreshToken env.digest now token site.db = some row →
    getUser site.db row.userId = none
  accepted : ∃ context, verifyToken env.lib env.cfg now token = .ok context ∧
    context.userId = userId

def RefreshesByAccessToken (event : Event Site Action) (userId : String) : Prop :=
  ∃ clientIp token draw, event.action.act = .refresh clientIp token draw ∧
    FallsBack env event.action.now clientIp token draw event.before userId

end Calls

def Act.reactivates (userId : String) : Act → Bool
  | .update other fields => decide (other = userId ∧ fields.isActive = some true)
  | _ => false

/-- `delete_user` and `revoke_user_tokens` have completed for a user on record, and no update has
made the user active since. -/
structure Deactivated (events : List (Event Site Action)) (userId : String) : Prop where
  deleted : ∃ first deletion since, events = first ++ deletion :: since ∧
    deletion.action.act = .delete userId ∧
    (∃ user ∈ deletion.before.db.users, user.id = userId) ∧
    ∀ event ∈ since, event.action.act.reactivates userId = false
  revoked : ∃ event ∈ events, event.action.act = .revokeTokens userId

def DeactivationFinal (env : Environment) (events : List (Event Site Action)) : Prop :=
  ∀ first use rest, events = first ++ use :: rest → ∀ userId, Deactivated first userId →
    ∀ pair, reply env use ≠ .issued userId pair

structure Locked (db : Db) (userId : String) : Prop where
  known : ∃ user ∈ db.users, user.id = userId
  inactive : ∀ user ∈ db.users, user.id = userId → user.isActive = false

theorem Locked.not_active {db : Db} {userId : String} (locked : Locked db userId) :
    ¬ ActiveUser db userId := by
  intro given
  rcases given with ⟨user, member, same, active⟩
  rw [locked.inactive user member same] at active
  cases active

theorem Locked.of_users {db after : Db} {userId : String} (locked : Locked db userId)
    (same : after.users = db.users) : Locked after userId := by
  constructor
  · rw [same]
    exact locked.known
  · rw [same]
    exact locked.inactive

theorem Locked.grows {db after : Db} {userId : String} (locked : Locked db userId)
    (grows : Grows db.users after.users) : Locked after userId := by
  rcases grows with same | ⟨user, apart, joined⟩
  · exact locked.of_users same
  · obtain ⟨known, member, same⟩ := locked.known
    constructor
    · rw [joined]
      exact ⟨known, List.mem_append_left _ member, same⟩
    · intro other inside named
      rw [joined] at inside
      rcases List.mem_append.mp inside with old | new
      · exact locked.inactive other old named
      · obtain rfl := List.mem_singleton.mp new
        exact absurd (same.trans named.symm) (apart known member)

theorem mem_changeUser {db : Db} {userId : String} {change : User → User}
    (keepsId : ∀ user, (change user).id = user.id) {changed : User}
    (member : changed ∈ (changeUser userId change db).1.users) :
    ∃ user ∈ db.users, user.id = changed.id ∧
      changed = if user.id = userId then change user else user := by
  obtain ⟨user, inside, rfl⟩ := List.mem_map.mp member
  refine ⟨user, inside, ?_, rfl⟩
  split
  · exact (keepsId user).symm
  · rfl

theorem known_changeUser {db : Db} {userId other : String} {change : User → User}
    (keepsId : ∀ user, (change user).id = user.id) (known : ∃ user ∈ db.users, user.id = userId) :
    ∃ user ∈ (changeUser other change db).1.users, user.id = userId := by
  obtain ⟨user, member, same⟩ := known
  refine ⟨if user.id = other then change user else user,
    List.mem_map_of_mem (f := fun user => if user.id = other then change user else user) member, ?_⟩
  split
  · rw [keepsId, same]
  · exact same

theorem Locked.changeUser {db : Db} {userId other : String} {change : User → User}
    (locked : Locked db userId) (keepsId : ∀ user, (change user).id = user.id)
    (keeps : other = userId → ∀ user, user.isActive = false → (change user).isActive = false) :
    Locked (UserDb.changeUser other change db).1 userId := by
  constructor
  · exact known_changeUser keepsId locked.known
  · intro changed inside named
    obtain ⟨user, member, same, rfl⟩ := mem_changeUser keepsId inside
    have off := locked.inactive user member (same.trans named)
    split
    · rename_i hit
      exact keeps (hit.symm.trans (same.trans named)) user off
    · exact off

theorem locked_deleteUser {db : Db} {userId : String} (known : ∃ user ∈ db.users, user.id = userId) :
    Locked (deleteUser userId db).1 userId := by
  constructor
  · exact known_changeUser (fun _ => rfl) known
  · intro changed inside named
    have keepsId : ∀ user : User, ({ user with isActive := false } : User).id = user.id :=
      fun _ => rfl
    obtain ⟨user, -, same, rfl⟩ := mem_changeUser keepsId inside
    rw [if_pos (same.trans named)]

theorem Locked.deleteUser {db : Db} {userId other : String} (locked : Locked db userId) :
    Locked (UserDb.deleteUser other db).1 userId :=
  locked.changeUser (fun _ => rfl) (fun _ _ _ => rfl)

theorem Locked.updateUser {db : Db} {userId other : String} {fields : UserUpdate}
    (locked : Locked db userId)
    (stays : (Act.update other fields).reactivates userId = false) :
    Locked (UserDb.updateUser other fields db).1 userId := by
  unfold UserDb.updateUser
  split
  · exact locked
  · refine locked.changeUser (fun _ => rfl) ?_
    intro same user off
    cases setting : fields.isActive with
    | none => simpa [UserUpdate.apply, setting] using off
    | some active =>
        have inactive : active = false := by
          simpa [Act.reactivates, same, setting] using stays
        simp [UserUpdate.apply, setting, inactive]

section Calls

variable {env : Environment} {now : Rat} {site : Site} {userId : String}

theorem grows_authRegister {clientIp : String} {request : RegisterRequest} {draw : UserDraw} :
    Grows site.db.users (authRegister env now clientIp request draw site).1.db.users := by
  unfold authRegister
  split
  · exact Or.inl rfl
  · dsimp only
    split
    · exact Or.inl rfl
    · split
      · exact Or.inl rfl
      · split
        · exact Or.inl rfl
        · rename_i created
          exact grows_createAccount created

theorem authRegister_not_issued {clientIp : String} {request : RegisterRequest} {draw : UserDraw}
    {pair : TokenPair} :
    (authRegister env now clientIp request draw site).2 ≠ .issued userId pair := by
  unfold authRegister
  split
  · simp
  · dsimp only
    split
    · simp
    · split
      · simp
      · split <;> simp

theorem issuePair_active {user : Option User} {draw : PairDraw}
    (active : ∀ known, user = some known → ActiveUser site.db known.id) {pair : TokenPair}
    (issued : (issuePair env now user draw site).2 = .issued userId pair) :
    ActiveUser (issuePair env now user draw site).1.db userId := by
  obtain ⟨known, same, rfl⟩ := issuePair_issued issued
  have row := active known same
  unfold ActiveUser
  rw [issuePair_users]
  exact row

theorem authLogin_spec (env : Environment) (now : Rat) (site : Site) (userId clientIp : String)
    (request : LoginRequest) (bound : Bool) (userDraw : UserDraw) (draw : PairDraw) :
    Grows site.db.users
        (authLogin env now clientIp request bound userDraw draw site).1.db.users ∧
      ∀ pair, (authLogin env now clientIp request bound userDraw draw site).2 =
          .issued userId pair →
        ActiveUser (authLogin env now clientIp request bound userDraw draw site).1.db userId := by
  unfold authLogin
  split
  · exact ⟨Or.inl rfl, by simp⟩
  · dsimp only
    split
    · exact ⟨Or.inl rfl, by simp⟩
    · rename_i identified
      obtain ⟨grows, active⟩ := identify_spec identified
      split
      · exact ⟨grows, by simp⟩
      · split
        · exact ⟨grows, by simp⟩
        · rw [issuePair_users]
          refine ⟨grows, ?_⟩
          intro pair issued
          exact issuePair_active (fun known same => active known (congrArg some same)) issued

theorem authRefresh_users {clientIp token : String} {draw : PairDraw} :
    (authRefresh env now clientIp token draw site).1.db.users = site.db.users := by
  unfold authRefresh
  split
  · rfl
  · dsimp only
    split
    · rfl
    · split
      · rw [issuePair_users, users_consumeRefreshToken]
      · split
        · exact users_consumeRefreshToken env.digest token
        · rw [issuePair_users, users_consumeRefreshToken]

theorem consumeRefreshToken_user {db : Db} {digest : String → String} {token : String} :
    (consumeRefreshToken digest now token db).2 =
      (selectRefreshToken digest now token db).bind (fun row => getUser db row.userId) := by
  rw [consumeRefreshToken_eq]
  split
  · rename_i unknown
    rw [unknown]
    rfl
  · rename_i row found
    rw [found]
    rfl

theorem consumeRefreshToken_ids {db : Db} {digest : String → String} {token : String} :
    (consumeRefreshToken digest now token db).1.refreshTokens.map RefreshToken.id =
      db.refreshTokens.map RefreshToken.id := by
  rw [consumeRefreshToken_eq]
  split
  · rfl
  · rw [markRevoked, List.map_map]
    refine List.map_congr_left ?_
    intro row _
    dsimp only [Function.comp_apply]
    split <;> rfl

theorem unused_consumeRefreshToken {db : Db} {digest : String → String} {token tokenId : String} :
    (∀ row ∈ (consumeRefreshToken digest now token db).1.refreshTokens, row.id ≠ tokenId) ↔
      ∀ row ∈ db.refreshTokens, row.id ≠ tokenId := by
  have spelled : ∀ rows : List RefreshToken, (∀ row ∈ rows, row.id ≠ tokenId) ↔
      tokenId ∉ rows.map RefreshToken.id := by
    intro rows
    simp
  rw [spelled, spelled, consumeRefreshToken_ids]

theorem createTokenPair_isSome_iff {db : Db} {user : User} {jti tokenId refreshToken : String} :
    (createTokenPair env.lib env.cfg env.digest now user jti tokenId refreshToken db).isSome =
        true ↔
      env.cfg.jwtSecret ≠ "" ∧ (∃ row ∈ db.users, row.id = user.id) ∧
        ∀ row ∈ db.refreshTokens, row.id ≠ tokenId := by
  by_cases secret : env.cfg.jwtSecret = ""
  · simp [createTokenPair, secret]
  · simp [createTokenPair, secret, storeRefreshToken]

theorem issuePair_iff {user : User} {draw : PairDraw} :
    (∃ pair, (issuePair env now (some user) draw site).2 = .issued userId pair) ↔
      user.id = userId ∧ env.cfg.jwtSecret ≠ "" ∧ (∃ row ∈ site.db.users, row.id = user.id) ∧
        ∀ row ∈ site.db.refreshTokens, row.id ≠ draw.tokenId := by
  rw [← createTokenPair_isSome_iff]
  cases created : createTokenPair env.lib env.cfg env.digest now user draw.jti draw.tokenId
      draw.refreshToken site.db with
  | none => simp [issuePair, created]
  | some result => simp [issuePair, created]

theorem authRefresh_issues_iff (locked : Locked site.db userId) {clientIp token : String}
    {draw : PairDraw} :
    (∃ pair, (authRefresh env now clientIp token draw site).2 = .issued userId pair) ↔
      FallsBack env now clientIp token draw site userId := by
  have users : (consumeRefreshToken env.digest now token site.db).1.users = site.db.users :=
    users_consumeRefreshToken env.digest token
  constructor
  · intro given
    rcases given with ⟨pair, issued⟩
    unfold authRefresh at issued
    split at issued
    · simp at issued
    · rename_i passed
      dsimp only at issued
      split at issued
      · simp at issued
      · rename_i enabled
        split at issued
        · rename_i user redeemed
          obtain ⟨same, -⟩ := issuePair_iff.mp ⟨pair, issued⟩
          rw [consumeRefreshToken_user] at redeemed
          obtain ⟨row, -, owner⟩ := Option.bind_eq_some_iff.mp redeemed
          have active := getUser_active owner
          rw [same] at active
          exact absurd active locked.not_active
        · rename_i unredeemed
          split at issued
          · simp at issued
          · rename_i context accepted
            obtain ⟨same, secret, -, fresh⟩ := issuePair_iff.mp ⟨pair, issued⟩
            rw [consumeRefreshToken_user, Option.bind_eq_none_iff] at unredeemed
            refine ⟨?_, by simpa using enabled, secret, unused_consumeRefreshToken.mp fresh,
              unredeemed, context, accepted, same⟩
            rw [passed]
  · intro falls
    obtain ⟨context, accepted, same⟩ := falls.accepted
    obtain ⟨attempts, limited⟩ : ∃ attempts,
        checkLoginRateLimit now ("refresh:" ++ clientIp) site.loginAttempts = (attempts, none) :=
      ⟨_, Prod.ext rfl falls.allowed⟩
    have unredeemed : (consumeRefreshToken env.digest now token site.db).2 = none := by
      rw [consumeRefreshToken_user, Option.bind_eq_none_iff]
      exact falls.useless
    unfold authRefresh
    rw [limited]
    dsimp only
    rw [if_neg (by simp [falls.enabled]), unredeemed, accepted]
    refine issuePair_iff.mpr ⟨same, falls.secret, ?_, unused_consumeRefreshToken.mpr falls.fresh⟩
    rw [users]
    obtain ⟨row, member, named⟩ := locked.known
    exact ⟨row, member, named.trans same.symm⟩

theorem Locked.perform (locked : Locked site.db userId) {act : Act}
    (stays : act.reactivates userId = false) :
    Locked (Accounts.perform env now site act).1.db userId := by
  cases act with
  | register clientIp request draw => exact locked.grows grows_authRegister
  | login clientIp request bound userDraw draw =>
      exact locked.grows (authLogin_spec env now site userId clientIp request bound userDraw draw).1
  | refresh clientIp token draw => exact locked.of_users authRefresh_users
  | update other fields => exact locked.updateUser stays
  | delete other => exact locked.deleteUser
  | revokeTokens other => exact locked.of_users rfl

theorem perform_issues_iff (locked : Locked site.db userId) {act : Act} :
    (∃ pair, (perform env now site act).2 = .issued userId pair) ↔
      ∃ clientIp token draw, act = .refresh clientIp token draw ∧
        FallsBack env now clientIp token draw site userId := by
  cases act with
  | register clientIp request draw => simp [perform, authRegister_not_issued]
  | login clientIp request bound userDraw draw =>
      have silent : ¬ ∃ pair, (authLogin env now clientIp request bound userDraw draw site).2 =
          .issued userId pair := by
        intro given
        rcases given with ⟨pair, issued⟩
        obtain ⟨grows, active⟩ :=
          authLogin_spec env now site userId clientIp request bound userDraw draw
        exact (locked.grows grows).not_active (active pair issued)
      simpa [perform] using silent
  | refresh clientIp token draw =>
      have precisely : (∃ pair, (authRefresh env now clientIp token draw site).2 =
          .issued userId pair) ↔ FallsBack env now clientIp token draw site userId :=
        authRefresh_issues_iff locked
      rw [perform, precisely]
      constructor
      · intro falls
        exact ⟨clientIp, token, draw, rfl, falls⟩
      · intro given
        rcases given with ⟨_, _, _, same, falls⟩
        obtain ⟨rfl, rfl, rfl⟩ := Act.refresh.inj same
        exact falls
  | update other fields => simp [perform, Site.call]
  | delete other => simp [perform, Site.call]
  | revokeTokens other => simp [perform, Site.call]

theorem siteStep_spec {next : Site} {action : Action}
    (stepped : siteStep env site action = some next) :
    next = { (perform env action.now site action.act).1 with clock := action.now } := by
  unfold siteStep at stepped
  split at stepped
  · cases stepped
  · exact (Option.some.inj stepped).symm

theorem Deactivated.locked {start : Site} {events : List (Event Site Action)}
    (deactivated : Deactivated events userId) (run : Run (siteStep env) start events site) :
    Locked site.db userId := by
  obtain ⟨first, deletion, since, rfl, deletes, known, stays⟩ := deactivated.deleted
  obtain ⟨-, stepped, after⟩ := run.split
  have locked : Locked deletion.after.db userId := by
    rw [siteStep_spec stepped, deletes]
    exact locked_deleteUser known
  refine Run.invariant (fun event => event.action.act.reactivates userId = false)
    (fun site => Locked site.db userId) locked ?_ after stays
  intro site action next before stepped fine
  rw [siteStep_spec stepped]
  exact before.perform fine

/-- Deactivation is final exactly in the runs in which nobody refreshes by an access token of a
deactivated user. -/
theorem deactivation_final_iff {start last : Site} {events : List (Event Site Action)}
    (run : Run (siteStep env) start events last) :
    DeactivationFinal env events ↔
      ∀ first use rest, events = first ++ use :: rest → ∀ userId, Deactivated first userId →
        ¬ RefreshesByAccessToken env use userId := by
  have issues : ∀ first use rest, events = first ++ use :: rest → ∀ userId,
      Deactivated first userId → ((∃ pair, reply env use = .issued userId pair) ↔
        RefreshesByAccessToken env use userId) := by
    intro first use rest given userId deactivated
    rcases given with rfl
    exact perform_issues_iff (deactivated.locked run.split.1)
  constructor
  · intro final first use rest here userId deactivated refreshes
    obtain ⟨pair, issued⟩ := (issues first use rest here userId deactivated).mpr refreshes
    exact final first use rest here userId deactivated pair issued
  · intro never first use rest here userId deactivated pair issued
    exact never first use rest here userId deactivated
      ((issues first use rest here userId deactivated).mp ⟨pair, issued⟩)

end Calls

def annsEnvironment : Environment where
  lib := AuthEndpoints.annsLibrary
  cfg := AuthEndpoints.annsConfig
  digest := id
  hashpw password _ := .ok password
  checkpw password stored := some (decide (password = stored))
  isDecimal := Char.isDigit

def annsRequest : RegisterRequest where
  username := "ann"
  password := "Horse-battery-1"
  usernameLength := by decide +kernel
  usernamePattern := by decide +kernel
  passwordLength := by decide +kernel

def annLeaves (token : String) : List Action :=
  [⟨0, .register "ip" annsRequest ⟨"1", "salt", ""⟩⟩,
    ⟨1, .login "ip" ⟨"ann", "Horse-battery-1"⟩ false ⟨"2", "salt", ""⟩ ⟨"j1", "t1", "r1"⟩⟩,
    ⟨2, .delete "1"⟩, ⟨3, .revokeTokens "1"⟩, ⟨4, .refresh "ip" token ⟨"j2", "t2", "r2"⟩⟩]

def annsEvents (token : String) : List (Event Site Action) :=
  (record (siteStep annsEnvironment) {} (annLeaves token)).getD []

theorem annsEvents_run {token : String}
    (recorded : (record (siteStep annsEnvironment) {} (annLeaves token)).isSome = true) :
    Run (siteStep annsEnvironment) {} (annsEvents token) (final {} (annsEvents token)) :=
  run_of_isSome recorded

/-- With her refresh token ann gets nothing. -/
theorem deactivation_final_for_refresh_token :
    DeactivationFinal annsEnvironment (annsEvents "r1") ↔
      ∀ first use rest, annsEvents "r1" = first ++ use :: rest → ∀ userId,
        Deactivated first userId → ¬ RefreshesByAccessToken annsEnvironment use userId :=
  deactivation_final_iff (annsEvents_run (by decide +kernel))

/-- With her access token she gets another pair. -/
theorem deactivation_undone_by_access_token :
    Run (siteStep annsEnvironment) {} (annsEvents AuthEndpoints.annsToken)
        (final {} (annsEvents AuthEndpoints.annsToken)) ∧
      ¬ DeactivationFinal annsEnvironment (annsEvents AuthEndpoints.annsToken) := by
  refine ⟨annsEvents_run (by decide +kernel), ?_⟩
  intro ends
  have shape : ∃ made entered deletion revocation use,
      annsEvents AuthEndpoints.annsToken = [made, entered, deletion, revocation, use] ∧
      deletion.action.act = .delete "1" ∧ revocation.action.act = .revokeTokens "1" ∧
      deletion.before.db.users.any (fun user => user.id = "1") = true ∧
      ∃ pair, reply annsEnvironment use = .issued "1" pair :=
    ⟨_, _, _, _, _, rfl, rfl, rfl, by decide +kernel, _, rfl⟩
  obtain ⟨made, entered, deletion, revocation, use, events, deletes, revokes, known, pair,
    issued⟩ := shape
  refine ends [made, entered, deletion, revocation] use [] events "1" ⟨?_, ?_⟩ pair issued
  · refine ⟨[made, entered], deletion, [revocation], rfl, deletes, by simpa using known, ?_⟩
    simp [revokes, Act.reactivates]
  · exact ⟨revocation, by simp, revokes⟩

end RagSystem.Accounts
