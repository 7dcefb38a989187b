import Mathlib.Tactic.Linarith
import RagSystem.Api.Deactivation

/-! How long an identifier is locked out after five counted attempts, over every sequence of
calls. -/

namespace RagSystem.Accounts

open UserDb Jwt Transition

/-- What `_check_login_rate_limit` counts the call under. -/
def Act.identifier? : Act → Option String
  | .register clientIp _ _ => some ("register:" ++ clientIp)
  | .login clientIp request _ _ _ => some ("login:" ++ clientIp ++ ":" ++ request.username)
  | .refresh clientIp _ _ => some ("refresh:" ++ clientIp)
  | _ => none

section Check

variable (now : Rat) (attempts : Attempts) {identifier : String}

theorem check_cases (identifier : String) :
    ((∀ count first, attempts.get? identifier = some (count, first) →
        first + loginWindowSeconds < now) ∧
      checkLoginRateLimit now identifier attempts = (attempts.set identifier (1, now), none)) ∨
    ∃ count first, attempts.get? identifier = some (count, first) ∧
      now ≤ first + loginWindowSeconds ∧
      ((loginMaxAttempts ≤ count ∧ ∃ detail,
          checkLoginRateLimit now identifier attempts = (attempts, some ⟨429, detail⟩)) ∨
        (count < loginMaxAttempts ∧ checkLoginRateLimit now identifier attempts =
          (attempts.set identifier (count + 1, first), none))) := by
  unfold checkLoginRateLimit
  cases found : attempts.get? identifier with
  | none => exact .inl ⟨fun count first held => (by cases held), rfl⟩
  | some entry =>
      obtain ⟨count, first⟩ := entry
      dsimp only
      by_cases ended : loginWindowSeconds < now - first
      · refine .inl ⟨?_, by rw [if_pos ended]⟩
        intro counted opened held
        cases held
        linarith
      · refine .inr ⟨count, first, rfl, by linarith, ?_⟩
        by_cases full : loginMaxAttempts ≤ count
        · have cooling : now - first < loginCooldownSeconds := by
            simp only [loginWindowSeconds, loginCooldownSeconds] at ended ⊢
            linarith
          exact .inl ⟨full, _, by rw [if_neg ended, if_pos full, if_pos cooling]⟩
        · exact .inr ⟨by omega, by rw [if_neg ended, if_neg full]⟩

theorem check_frame {other : String} (differs : other ≠ identifier) :
    (checkLoginRateLimit now identifier attempts).1.get? other = attempts.get? other := by
  obtain ⟨-, opened⟩ | ⟨count, first, -, -, ⟨-, detail, rejected⟩ | ⟨-, counted⟩⟩ :=
    check_cases now attempts identifier
  · rw [opened, Dict.get?_set_of_ne differs]
  · rw [rejected]
  · rw [counted, Dict.get?_set_of_ne differs]

end Check

section Performed

variable (env : Environment) {now : Rat} {site : Site}

theorem issuePair_attempts (user : Option User) (draw : PairDraw) :
    (issuePair env now user draw site).1.loginAttempts = site.loginAttempts := by
  unfold issuePair
  split
  · rfl
  · split
    · rfl
    · rfl

theorem perform_rejected {act : Act} {identifier : String}
    (named : act.identifier? = some identifier) {attempts : Attempts} {error : HttpError}
    (rejected : checkLoginRateLimit now identifier site.loginAttempts = (attempts, some error)) :
    perform env now site act = (site, .refused error) := by
  cases act with
  | register clientIp request draw =>
      cases named
      simp only [perform, authRegister, rejected]
  | login clientIp request bound userDraw draw =>
      cases named
      simp only [perform, authLogin, rejected]
  | refresh clientIp token draw =>
      cases named
      simp only [perform, authRefresh, rejected]
  | update userId fields => cases named
  | delete userId => cases named
  | revokeTokens userId => cases named

theorem perform_passed {act : Act} {identifier : String}
    (named : act.identifier? = some identifier) {attempts : Attempts}
    (passed : checkLoginRateLimit now identifier site.loginAttempts = (attempts, none)) :
    (perform env now site act).1.loginAttempts = attempts := by
  cases act with
  | register clientIp request draw =>
      cases named
      simp only [perform, authRegister, passed]
      split
      · rfl
      · split
        · rfl
        · split
          · rfl
          · rfl
  | login clientIp request bound userDraw draw =>
      cases named
      simp only [perform, authLogin, passed]
      split
      · rfl
      · split
        · rfl
        · split
          · rfl
          · exact issuePair_attempts env _ draw
  | refresh clientIp token draw =>
      cases named
      simp only [perform, authRefresh, passed]
      split
      · rfl
      · split
        · exact issuePair_attempts env _ draw
        · split
          · rfl
          · exact issuePair_attempts env _ draw
  | update userId fields => cases named
  | delete userId => cases named
  | revokeTokens userId => cases named

theorem perform_uncounted {act : Act} (unnamed : act.identifier? = none) :
    (perform env now site act).1.loginAttempts = site.loginAttempts := by
  cases act with
  | register clientIp request draw => cases unnamed
  | login clientIp request bound userDraw draw => cases unnamed
  | refresh clientIp token draw => cases unnamed
  | update userId fields => rfl
  | delete userId => rfl
  | revokeTokens userId => rfl

end Performed

section Events

variable (env : Environment) (identifier : String)

def Counted (event : Event Site Action) : Prop :=
  event.action.act.identifier? = some identifier ∧
    (checkLoginRateLimit event.action.now identifier event.before.loginAttempts).2 = none

instance decidableCounted : DecidablePred (Counted identifier) := fun _ =>
  inferInstanceAs (Decidable (_ ∧ _))

/-- The call is counted, and the window that was open before it, if any, is over. -/
def OpensWindow (event : Event Site Action) : Prop :=
  event.action.act.identifier? = some identifier ∧
    ∀ count first, event.before.loginAttempts.get? identifier = some (count, first) →
      first + loginWindowSeconds < event.action.now

def Rejected (event : Event Site Action) : Prop :=
  ∃ detail, (checkLoginRateLimit event.action.now identifier event.before.loginAttempts).2 =
      some ⟨429, detail⟩ ∧ reply env event = .refused ⟨429, detail⟩

/-- Five calls are counted within the window that `opener` opens. -/
def FiveCounted (opener : Event Site Action) (within : List (Event Site Action)) : Prop :=
  OpensWindow identifier opener ∧ (∀ event ∈ within, ¬OpensWindow identifier event) ∧
    loginMaxAttempts ≤ (opener :: within).countP (Counted identifier)

/-- After five counted calls every further one is rejected until the cooldown has passed. -/
def LockedOut (events : List (Event Site Action)) : Prop :=
  ∀ first opener within rest, events = first ++ opener :: (within ++ rest) →
    FiveCounted identifier opener within →
    ∀ use ∈ rest, use.action.act.identifier? = some identifier →
      use.action.now < opener.action.now + loginCooldownSeconds → Rejected env identifier use

/-- No more than five calls are counted within the cooldown of five counted calls. -/
def FivePerCooldown (events : List (Event Site Action)) : Prop :=
  ∀ first opener within rest, events = first ++ opener :: (within ++ rest) →
    FiveCounted identifier opener within →
    (opener :: (within ++ rest)).countP (fun event => Counted identifier event ∧
      event.action.now < opener.action.now + loginCooldownSeconds) ≤ loginMaxAttempts

/-- A call under an identifier with five counted calls comes within their window, or once the
cooldown has passed. -/
def KeepsOff (event : Event Site Action) : Prop :=
  ∀ identifier count first, event.action.act.identifier? = some identifier →
    event.before.loginAttempts.get? identifier = some (count, first) → loginMaxAttempts ≤ count →
    event.action.now ≤ first + loginWindowSeconds ∨
      first + loginCooldownSeconds ≤ event.action.now

variable {env identifier} {site next : Site} {action : Action}

theorem event_cases (stepped : siteStep env site action = some next) (identifier : String) :
    (¬Counted identifier ⟨site, action, next⟩ ∧ ¬OpensWindow identifier ⟨site, action, next⟩ ∧
      next.loginAttempts.get? identifier = site.loginAttempts.get? identifier ∧
      (action.act.identifier? = some identifier → Rejected env identifier ⟨site, action, next⟩ ∧
        ∃ count first, site.loginAttempts.get? identifier = some (count, first) ∧
          loginMaxAttempts ≤ count ∧ action.now ≤ first + loginWindowSeconds)) ∨
    (Counted identifier ⟨site, action, next⟩ ∧ OpensWindow identifier ⟨site, action, next⟩ ∧
      next.loginAttempts.get? identifier = some (1, action.now)) ∨
    ∃ count first, Counted identifier ⟨site, action, next⟩ ∧
      ¬OpensWindow identifier ⟨site, action, next⟩ ∧ count < loginMaxAttempts ∧
      site.loginAttempts.get? identifier = some (count, first) ∧
      next.loginAttempts.get? identifier = some (count + 1, first) := by
  have after : next.loginAttempts = (perform env action.now site action.act).1.loginAttempts := by
    rw [siteStep_spec stepped]
  by_cases named : action.act.identifier? = some identifier
  · obtain ⟨ended, opened⟩ |
        ⟨count, first, held, inside, ⟨full, detail, rejected⟩ | ⟨few, counted⟩⟩ :=
      check_cases action.now site.loginAttempts identifier
    · refine .inr (.inl ⟨⟨named, by rw [opened]⟩, ⟨named, ended⟩, ?_⟩)
      rw [after, perform_passed env named opened, Dict.get?_set_self]
    · have kept : ¬OpensWindow identifier ⟨site, action, next⟩ := fun opens =>
        not_lt.mpr inside (opens.2 count first held)
      have told := perform_rejected env named rejected
      refine .inl ⟨?_, kept, by rw [after, told], fun _ => ⟨⟨detail, by rw [rejected], ?_⟩, ?_⟩⟩
      · intro passed
        have none := passed.2
        rw [rejected] at none
        cases none
      · rw [reply, told]
      · exact ⟨count, first, held, full, inside⟩
    · have kept : ¬OpensWindow identifier ⟨site, action, next⟩ := fun opens =>
        not_lt.mpr inside (opens.2 count first held)
      refine .inr (.inr ⟨count, first, ⟨named, by rw [counted]⟩, kept, few, held, ?_⟩)
      rw [after, perform_passed env named counted, Dict.get?_set_self]
  · refine .inl ⟨fun counted => named counted.1, fun opens => named opens.1, ?_,
      fun same => absurd same named⟩
    rw [after]
    cases other : action.act.identifier? with
    | none => rw [perform_uncounted env other]
    | some apart =>
        have differs : identifier ≠ apart := fun same => named (same ▸ other)
        cases outcome : checkLoginRateLimit action.now apart site.loginAttempts with
        | mk attempts result =>
            cases result with
            | none =>
                rw [perform_passed env other outcome]
                have frame := check_frame action.now site.loginAttempts differs
                rw [outcome] at frame
                exact frame
            | some error => rw [perform_rejected env other outcome]

end Events

section Runs

variable {env : Environment} {identifier : String} {start state : Site}
  {events : List (Event Site Action)} {count : Nat} {first : Rat}

theorem record_within (run : Run (siteStep env) start events state)
    (held : start.loginAttempts.get? identifier = some (count, first))
    (few : count ≤ loginMaxAttempts)
    (closed : ∀ event ∈ events, ¬OpensWindow identifier event) :
    state.loginAttempts.get? identifier = some (count + events.countP (Counted identifier), first) ∧
      count + events.countP (Counted identifier) ≤ loginMaxAttempts := by
  induction run with
  | nil => exact ⟨by simpa using held, by simpa using few⟩
  | @snoc events state earlier action next stepped ih =>
      obtain ⟨past, bound⟩ :=
        ih (fun event member => closed event (List.mem_append_left _ member))
      have last := closed _ (List.mem_append_right _ (List.mem_singleton_self _))
      rw [List.countP_append, List.countP_singleton, ← Nat.add_assoc]
      obtain ⟨uncounted, -, same, -⟩ | ⟨-, opens, -⟩ |
        ⟨number, since, counted, -, more, had, new⟩ :=
        event_cases stepped identifier
      · rw [if_neg (by simpa using uncounted), same]
        exact ⟨past, bound⟩
      · exact absurd opens last
      · rw [past] at had
        cases had
        rw [if_pos (by simpa using counted)]
        exact ⟨new, more⟩

theorem record_origin (run : Run (siteStep env) start events state)
    (unknown : start.loginAttempts.get? identifier = none)
    (held : state.loginAttempts.get? identifier = some (count, first)) :
    ∃ before opener within, events = before ++ opener :: within ∧
      OpensWindow identifier opener ∧ (∀ event ∈ within, ¬OpensWindow identifier event) ∧
      opener.action.now = first ∧ (opener :: within).countP (Counted identifier) = count := by
  induction run generalizing count first with
  | nil =>
      rw [unknown] at held
      cases held
  | @snoc events state earlier action next stepped ih =>
      obtain ⟨uncounted, closed, same, -⟩ | ⟨counted, opens, new⟩ |
        ⟨number, since, counted, closed, -, had, new⟩ := event_cases stepped identifier
      · rw [same] at held
        obtain ⟨before, opener, within, rfl, opened, quiet, started, total⟩ := ih held
        refine ⟨before, opener, within ++ [⟨state, action, next⟩], by simp, opened, ?_, started, ?_⟩
        · exact List.forall_mem_append.mpr ⟨quiet, List.forall_mem_singleton.mpr closed⟩
        · rw [← List.cons_append, List.countP_append, total, List.countP_singleton,
            if_neg (by simpa using uncounted)]
          rfl
      · rw [new] at held
        cases held
        refine ⟨events, _, [], rfl, opens, by simp, rfl, ?_⟩
        rw [List.countP_singleton, if_pos (by simpa using counted)]
      · rw [new] at held
        cases held
        obtain ⟨before, opener, within, rfl, opened, quiet, started, total⟩ := ih had
        refine ⟨before, opener, within ++ [⟨state, action, next⟩], by simp, opened, ?_, started, ?_⟩
        · exact List.forall_mem_append.mpr ⟨quiet, List.forall_mem_singleton.mpr closed⟩
        · rw [← List.cons_append, List.countP_append, total, List.countP_singleton,
            if_pos (by simpa using counted)]

theorem now_le_clock (run : Run (siteStep env) start events state) :
    ∀ event ∈ events, event.action.now ≤ state.clock := by
  induction run with
  | nil => simp
  | @snoc events state earlier action next stepped ih =>
      have clock : next.clock = action.now ∧ state.clock ≤ action.now := by
        unfold siteStep at stepped
        split at stepped
        · cases stepped
        · rename_i forward
          cases stepped
          exact ⟨rfl, not_lt.mp forward⟩
      rw [clock.1]
      refine List.forall_mem_append.mpr ⟨?_, List.forall_mem_singleton.mpr le_rfl⟩
      exact fun event member => (ih event member).trans clock.2

theorem rejected_of_keepsOff {site next : Site} {action : Action}
    (stepped : siteStep env site action = some next)
    (held : site.loginAttempts.get? identifier = some (count, first))
    (full : loginMaxAttempts ≤ count) (keeps : KeepsOff ⟨site, action, next⟩)
    (early : action.now < first + loginCooldownSeconds) :
    next.loginAttempts.get? identifier = some (count, first) ∧
      ¬Counted identifier ⟨site, action, next⟩ ∧
      (action.act.identifier? = some identifier →
        Rejected env identifier ⟨site, action, next⟩) := by
  obtain ⟨uncounted, -, same, rejected⟩ | ⟨-, ⟨named, ended⟩, -⟩ |
      ⟨number, since, -, -, few, had, -⟩ :=
    event_cases stepped identifier
  · exact ⟨same.trans held, uncounted, fun named => (rejected named).1⟩
  · have late := ended count first held
    obtain inside | outside := keeps identifier count first named held full
    · exact absurd late (not_lt.mpr inside)
    · exact absurd early (not_lt.mpr outside)
  · rw [held] at had
    cases had
    exact absurd full (by omega)

theorem locked_of_keepsOff (run : Run (siteStep env) start events state)
    (held : start.loginAttempts.get? identifier = some (count, first))
    (full : loginMaxAttempts ≤ count) (keeps : ∀ event ∈ events, KeepsOff event)
    (early : ∀ event ∈ events, event.action.now < first + loginCooldownSeconds) :
    state.loginAttempts.get? identifier = some (count, first) :=
  Run.invariant (fun event => KeepsOff event ∧ event.action.now < first + loginCooldownSeconds)
    (fun site => site.loginAttempts.get? identifier = some (count, first)) held
    (fun _ _ _ past stepped fine => (rejected_of_keepsOff stepped past full fine.1 fine.2).1) run
    (fun event member => ⟨keeps event member, early event member⟩)

theorem five_record {opener : Event Site Action} {within : List (Event Site Action)}
    (stepped : siteStep env opener.before opener.action = some opener.after)
    (run : Run (siteStep env) opener.after within state)
    (five : FiveCounted identifier opener within) :
    state.loginAttempts.get? identifier = some (loginMaxAttempts, opener.action.now) ∧
      (opener :: within).countP (Counted identifier) = loginMaxAttempts := by
  obtain ⟨opens, quiet, enough⟩ := five
  obtain ⟨-, closed, -⟩ | ⟨counted, -, new⟩ | ⟨_, _, -, closed, -⟩ :=
    event_cases stepped identifier
  · exact absurd opens closed
  · obtain ⟨held, few⟩ := record_within run new (by decide) quiet
    have total : (opener :: within).countP (Counted identifier) =
        1 + within.countP (Counted identifier) := by
      have first : Counted identifier opener := counted
      rw [List.countP_cons_of_pos (by simpa using first), Nat.add_comm]
    rw [total] at enough ⊢
    have exactly : 1 + within.countP (Counted identifier) = loginMaxAttempts := by omega
    rw [exactly] at held
    exact ⟨held, exactly⟩
  · exact absurd opens closed

theorem kept_out {opener : Event Site Action} {before within rest : List (Event Site Action)}
    (run : Run (siteStep env) start (before ++ opener :: (within ++ rest)) state)
    (five : FiveCounted identifier opener within) (keeps : ∀ event ∈ rest, KeepsOff event)
    {use : Event Site Action} (member : use ∈ rest)
    (early : use.action.now < opener.action.now + loginCooldownSeconds) :
    ¬Counted identifier use ∧
      (use.action.act.identifier? = some identifier → Rejected env identifier use) := by
  obtain ⟨-, opened, later⟩ := run.split
  obtain ⟨middle, inside, after⟩ := later.of_append
  obtain ⟨held, -⟩ := five_record opened inside five
  obtain ⟨between, tail, rfl⟩ := List.append_of_mem member
  obtain ⟨upTo, stepped, -⟩ := after.split
  have ordered := now_le_clock (upTo.snoc use.action stepped)
  have clock : use.after.clock = use.action.now := by rw [siteStep_spec stepped]
  have soon : ∀ event ∈ between, event.action.now < opener.action.now + loginCooldownSeconds := by
    intro event past
    have bound := ordered event (List.mem_append_left _ past)
    rw [clock] at bound
    exact bound.trans_lt early
  have still := locked_of_keepsOff upTo held le_rfl
    (fun event past => keeps event (List.mem_append_left _ past)) soon
  exact (rejected_of_keepsOff stepped still le_rfl (keeps use member) early).2

theorem lockedOut_of_keepsOff (run : Run (siteStep env) start events state)
    (keeps : ∀ event ∈ events, KeepsOff event) (identifier : String) :
    LockedOut env identifier events := by
  intro first opener within rest given five use member named early
  rcases given with rfl
  exact (kept_out run five (fun event inside => keeps event (by simp [inside])) member early).2
    named

theorem fivePerCooldown_of_keepsOff (run : Run (siteStep env) start events state)
    (keeps : ∀ event ∈ events, KeepsOff event) (identifier : String) :
    FivePerCooldown identifier events := by
  intro first opener within rest given five
  rcases given with rfl
  obtain ⟨-, opened, later⟩ := run.split
  obtain ⟨middle, inside, -⟩ := later.of_append
  have total := (five_record opened inside five).2
  have none : rest.countP (fun event => Counted identifier event ∧
      event.action.now < opener.action.now + loginCooldownSeconds) = 0 := by
    rw [List.countP_eq_zero]
    intro use member both
    have pair : Counted identifier use ∧
      use.action.now < opener.action.now + loginCooldownSeconds := by simpa using both
    exact (kept_out run five (fun event inside => keeps event (by simp [inside])) member
      pair.2).1 pair.1
  rw [← List.cons_append, List.countP_append, none, Nat.add_zero, ← total]
  apply List.countP_mono_left
  intro event _ both
  have pair : Counted identifier event ∧
    event.action.now < opener.action.now + loginCooldownSeconds := by simpa using both
  simpa using pair.1

theorem keepsOff_of_lockedOut (fresh : start.loginAttempts = ∅)
    (run : Run (siteStep env) start events state)
    (locked : ∀ identifier, LockedOut env identifier events) :
    ∀ event ∈ events, KeepsOff event := by
  intro event member identifier count first named held full
  by_contra between
  push Not at between
  obtain ⟨before, after, rfl⟩ := List.append_of_mem member
  obtain ⟨upTo, stepped, -⟩ := run.split
  have unknown : start.loginAttempts.get? identifier = none := by rw [fresh]; rfl
  obtain ⟨former, opener, within, rfl, opens, quiet, rfl, total⟩ :=
    record_origin upTo unknown held
  have five : FiveCounted identifier opener within := ⟨opens, quiet, total ▸ full⟩
  obtain ⟨detail, raised, -⟩ := locked identifier former opener within (event :: after)
    (by simp) five event List.mem_cons_self named between.2
  obtain ⟨-, closed, -⟩ | ⟨counted, -⟩ | ⟨_, _, -, closed, -⟩ := event_cases stepped identifier
  all_goals
    have opened : OpensWindow identifier event := by
      refine ⟨named, ?_⟩
      intro number since had
      rw [held] at had
      cases had
      exact between.1
  · exact closed opened
  · exact absurd (counted.2.symm.trans raised) (by simp)
  · exact closed opened

/-- The lockout lasts for the whole cooldown, and no more than five calls are counted in it, exactly
in the runs in which every call under an identifier with five counted calls comes within their
window or after the cooldown. -/
theorem lockout_iff {env : Environment} {start state : Site} {events : List (Event Site Action)}
    (fresh : start.loginAttempts = ∅) (run : Run (siteStep env) start events state) :
    (∀ identifier, LockedOut env identifier events ∧ FivePerCooldown identifier events) ↔
      ∀ event ∈ events, KeepsOff event := by
  constructor
  · exact fun both => keepsOff_of_lockedOut fresh run (fun identifier => (both identifier).1)
  · exact fun keeps identifier =>
      ⟨lockedOut_of_keepsOff run keeps identifier, fivePerCooldown_of_keepsOff run keeps identifier⟩

end Runs

def guess : Act := .login "ip" ⟨"ann", "guess"⟩ false ⟨"1", "salt", ""⟩ ⟨"j", "t", "r"⟩

/-- Five guesses at once and one at `time`. -/
def guesses (time : Rat) : List Action := List.replicate 5 ⟨0, guess⟩ ++ [⟨time, guess⟩]

def guessEvents (time : Rat) : List (Event Site Action) :=
  (record (siteStep annsEnvironment) {} (guesses time)).getD []

theorem run_guesses {time : Rat}
    (recorded : (record (siteStep annsEnvironment) {} (guesses time)).isSome = true) :
    Run (siteStep annsEnvironment) {} (guessEvents time) (final {} (guessEvents time)) :=
  run_of_isSome recorded

/-- The sixth guess comes within the window. -/
theorem lockout_iff_soon :
    (∀ identifier, LockedOut annsEnvironment identifier (guessEvents 10) ∧
      FivePerCooldown identifier (guessEvents 10)) ↔ ∀ event ∈ guessEvents 10, KeepsOff event :=
  lockout_iff rfl (run_guesses (by decide +kernel))

def guessed (count : Nat) : Site where
  loginAttempts := Dict.ofList [("login:ip:ann", (count, 0))]

/-- The sixth guess comes after the window, 599 seconds before the cooldown ends, and is counted. -/
theorem sixth_guess_counted :
    Run (siteStep annsEnvironment) {} (guessEvents 301) (final {} (guessEvents 301)) ∧
      ¬LockedOut annsEnvironment "login:ip:ann" (guessEvents 301) := by
  refine ⟨run_guesses (by decide +kernel), ?_⟩
  intro locked
  let opener : Event Site Action := ⟨{}, ⟨0, guess⟩, guessed 1⟩
  let within : List (Event Site Action) :=
    [1, 2, 3, 4].map (fun count => ⟨guessed count, ⟨0, guess⟩, guessed (count + 1)⟩)
  let use : Event Site Action := ⟨guessed 5, ⟨301, guess⟩,
    ⟨{}, Dict.ofList [("login:ip:ann", (1, 301))], 301⟩⟩
  have parts : guessEvents 301 = [] ++ opener :: (within ++ [use]) := by decide +kernel
  have opens : OpensWindow "login:ip:ann" opener := by
    refine ⟨rfl, ?_⟩
    intro count first held
    cases held
  have quiet : ∀ event ∈ within, ¬OpensWindow "login:ip:ann" event := by
    intro event member opens
    obtain ⟨count, -, rfl⟩ := List.mem_map.mp member
    have ended := opens.2 count 0 (Dict.get?_ofList_singleton _ _ _)
    simp only [loginWindowSeconds] at ended
    linarith
  have five : FiveCounted "login:ip:ann" opener within := ⟨opens, quiet, by decide +kernel⟩
  obtain ⟨detail, raised, -⟩ := locked [] opener within [use] parts five use
    (List.mem_singleton_self _) rfl (by decide +kernel)
  have passed : (checkLoginRateLimit 301 "login:ip:ann" (guessed 5).loginAttempts).2 = none := by
    decide +kernel
  exact absurd (passed.symm.trans raised) (by simp)

end RagSystem.Accounts
