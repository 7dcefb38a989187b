import Mathlib.Algebra.Order.Field.Rat
import Mathlib.Tactic.Linarith
import Mathlib.Tactic.Positivity
import Mathlib.Tactic.Ring
import RagSystem.Data.Dict
import RagSystem.Transition.Run

/-! The token buckets of `proxy/app/shared/rate_limiter.py`, and how many requests they let through
in a window of time. -/

namespace RagSystem.RateLimiter

open Transition

structure TokenBucket where
  rate : ℚ
  burst : Int
  tokens : ℚ
  lastRefill : ℚ
  deriving DecidableEq, Repr

/-- The parameters of a `RateLimiter`, both positive. -/
structure Limits where
  ratePerMinute : ℚ := 60
  burst : Int := 10
  ratePositive : 0 < ratePerMinute := by norm_num
  burstPositive : 0 < burst := by decide

abbrev Buckets := Dict String TokenBucket

namespace TokenBucket

def fresh (rate : ℚ) (burst : Int) (now : ℚ) : TokenBucket := ⟨rate, burst, burst, now⟩

/-- The tokens after a refill at `now`. -/
def available (bucket : TokenBucket) (now : ℚ) : ℚ :=
  min bucket.burst (bucket.tokens + (now - bucket.lastRefill) * bucket.rate)

def refill (now : ℚ) (bucket : TokenBucket) : TokenBucket :=
  { bucket with tokens := bucket.available now, lastRefill := now }

structure Answer where
  allowed : Bool
  retryAfter : ℚ
  deriving DecidableEq, Repr

/-- `consume` for one token. -/
def consume (now : ℚ) (bucket : TokenBucket) : Answer × TokenBucket :=
  let bucket := bucket.refill now
  if 1 ≤ bucket.tokens then (⟨true, 0⟩, { bucket with tokens := bucket.tokens - 1 })
  else (⟨false, (1 - bucket.tokens) / bucket.rate⟩, bucket)

end TokenBucket

open TokenBucket

variable (limits : Limits)

def ratePerSecond : ℚ := limits.ratePerMinute / 60

/-- `_get_bucket` without storing the bucket. -/
def getBucket (key : String) (now : ℚ) (buckets : Buckets) : TokenBucket :=
  (buckets.get? key).getD (fresh (ratePerSecond limits) limits.burst now)

def isAllowed (key : String) (now : ℚ) (buckets : Buckets) : Answer × Buckets :=
  let consumed := (getBucket limits key now buckets).consume now
  (consumed.1, buckets.set key consumed.2)

def expired (maxAge now : ℚ) (bucket : TokenBucket) : Bool := maxAge < now - bucket.lastRefill

def cleanupExpired (maxAge now : ℚ) (buckets : Buckets) : Buckets :=
  buckets.eraseAll ((buckets.entries.filter (fun entry => expired maxAge now entry.2)).map Prod.fst)

inductive Op
  | isAllowed (key : String) (now : ℚ)
  | cleanupExpired (maxAge now : ℚ)
  deriving DecidableEq, Repr

def Op.time : Op → ℚ
  | .isAllowed _ now => now
  | .cleanupExpired _ now => now

structure State where
  buckets : Buckets := ∅
  clock : Option ℚ := none
  deriving DecidableEq, Repr

def perform (buckets : Buckets) : Op → Buckets
  | .isAllowed key now => (isAllowed limits key now buckets).2
  | .cleanupExpired maxAge now => cleanupExpired maxAge now buckets

def Op.valid : Op → Bool
  | .isAllowed .. => true
  | .cleanupExpired maxAge _ => 0 ≤ maxAge

def step (state : State) (op : Op) : Option State :=
  if (∀ clock ∈ state.clock, clock ≤ op.time) ∧ op.valid then
    some ⟨perform limits state.buckets op, some op.time⟩
  else none

/-- The answer to a request of the key; `none` for every other event. -/
def answer (key : String) (event : Event State Op) : Option Answer :=
  match event.action with
  | .isAllowed other now =>
      if other = key then some (isAllowed limits key now event.before.buckets).1 else none
  | .cleanupExpired .. => none

def admits (key : String) (event : Event State Op) : Bool :=
  (answer limits key event).any (·.allowed)

/-- The requests of the key that were allowed from `start` to `start + length`. -/
def allowedWithin (key : String) (start length : ℚ) (events : List (Event State Op)) : Nat :=
  events.countP (fun event =>
    admits limits key event ∧ start ≤ event.action.time ∧ event.action.time ≤ start + length)

structure Limited (key : String) (events : List (Event State Op)) : Prop where
  bounded : ∀ start length, 0 ≤ length →
    (allowedWithin limits key start length events : ℚ) ≤
      limits.burst + ratePerSecond limits * length
  waits : ∀ first denied between again rest wait,
    events = first ++ denied :: between ++ again :: rest →
    answer limits key denied = some ⟨false, wait⟩ →
    (∀ event ∈ between, answer limits key event = none) →
    (∃ now, again.action = .isAllowed key now ∧ now = denied.action.time + wait) →
    admits limits key again = true

/-- A cleanup only removes buckets that have had the time to refill. -/
def Refilled (event : Event State Op) : Prop :=
  ∀ maxAge now, event.action = .cleanupExpired maxAge now →
    ∀ key bucket, event.before.buckets.get? key = some bucket → expired maxAge now bucket = true →
      (bucket.burst : ℚ) ≤ bucket.tokens + (now - bucket.lastRefill) * bucket.rate

section Levels

variable {limits} {buckets : Buckets} {key : String}

theorem ratePerSecond_pos : 0 < ratePerSecond limits := by
  have positive := limits.ratePositive
  unfold ratePerSecond
  positivity

theorem one_le_burst : (1 : ℚ) ≤ limits.burst := by
  have positive := limits.burstPositive
  exact_mod_cast positive

/-- Every stored bucket has the parameters of the limiter, no debt and a refill in the past. -/
def Sound (limits : Limits) (state : State) : Prop :=
  ∀ key bucket, state.buckets.get? key = some bucket →
    bucket.rate = ratePerSecond limits ∧ bucket.burst = limits.burst ∧ 0 ≤ bucket.tokens ∧
      ∃ clock ∈ state.clock, bucket.lastRefill ≤ clock

/-- The tokens that a request of the key would find at `now`. -/
def level (limits : Limits) (key : String) (now : ℚ) (buckets : Buckets) : ℚ :=
  (getBucket limits key now buckets).available now

theorem level_of_none (absent : buckets.get? key = none) (now : ℚ) :
    level limits key now buckets = limits.burst := by
  simp [level, getBucket, absent, fresh, available]

theorem level_of_some {bucket : TokenBucket} (present : buckets.get? key = some bucket) (now : ℚ) :
    level limits key now buckets = bucket.available now := by
  simp [level, getBucket, present]

section State

variable {state : State}

theorem getBucket_parameters (sound : Sound limits state) (key : String) (now : ℚ) :
    (getBucket limits key now state.buckets).rate = ratePerSecond limits ∧
      (getBucket limits key now state.buckets).burst = limits.burst := by
  unfold getBucket
  cases found : state.buckets.get? key with
  | none => exact ⟨rfl, rfl⟩
  | some bucket =>
      obtain ⟨rate, burst, -, -⟩ := sound key bucket found
      exact ⟨rate, burst⟩

theorem level_le_burst (sound : Sound limits state) (key : String) (now : ℚ) :
    level limits key now state.buckets ≤ limits.burst := by
  have burst := (getBucket_parameters sound key now).2
  unfold level available
  rw [burst]
  exact min_le_left _ _

theorem level_nonneg (sound : Sound limits state) (key : String) {now : ℚ}
    (later : ∀ clock ∈ state.clock, clock ≤ now) : 0 ≤ level limits key now state.buckets := by
  have capacity : (0 : ℚ) ≤ limits.burst := le_trans zero_le_one one_le_burst
  cases found : state.buckets.get? key with
  | none =>
      rw [level_of_none found]
      exact capacity
  | some bucket =>
      obtain ⟨rate, burst, tokens, clock, reached, past⟩ := sound key bucket found
      have waited : 0 ≤ now - bucket.lastRefill := by
        have passed := later clock reached
        linarith
      rw [level_of_some found, available, rate, burst]
      have refilled : 0 ≤ (now - bucket.lastRefill) * ratePerSecond limits :=
        mul_nonneg waited ratePerSecond_pos.le
      exact le_min capacity (by linarith)

theorem level_elapse (sound : Sound limits state) (key : String) {first second : ℚ}
    (ordered : first ≤ second) :
    level limits key second state.buckets ≤
      level limits key first state.buckets + ratePerSecond limits * (second - first) := by
  have inflow : 0 ≤ ratePerSecond limits * (second - first) :=
    mul_nonneg ratePerSecond_pos.le (by linarith)
  cases found : state.buckets.get? key with
  | none =>
      rw [level_of_none found, level_of_none found]
      linarith
  | some bucket =>
      obtain ⟨rate, burst, -, -⟩ := sound key bucket found
      rw [level_of_some found, level_of_some found, available, available, rate, burst,
        ← min_add_add_right]
      apply le_min
      · exact (min_le_left _ _).trans (by linarith)
      · refine (min_le_right _ _).trans (le_of_eq ?_)
        ring

end State

theorem get?_isAllowed (key other : String) (now : ℚ) (buckets : Buckets) :
    (isAllowed limits key now buckets).2.get? other =
      if other = key then some ((getBucket limits key now buckets).consume now).2
      else buckets.get? other := by
  unfold isAllowed
  exact Dict.get?_set ..

theorem allowed_iff (key : String) (now : ℚ) (buckets : Buckets) :
    (isAllowed limits key now buckets).1.allowed = true ↔ 1 ≤ level limits key now buckets := by
  simp only [isAllowed, consume, refill, level]
  by_cases full : 1 ≤ (getBucket limits key now buckets).available now <;> simp [full]

theorem consume_bucket (key : String) (now : ℚ) (buckets : Buckets) :
    ((getBucket limits key now buckets).consume now).2 =
      { getBucket limits key now buckets with
        tokens := level limits key now buckets -
          if (isAllowed limits key now buckets).1.allowed = true then 1 else 0
        lastRefill := now } := by
  simp only [isAllowed, consume, refill, level]
  by_cases full : 1 ≤ (getBucket limits key now buckets).available now <;> simp [full]

theorem get?_cleanupExpired (maxAge now : ℚ) (buckets : Buckets) (key : String) :
    (cleanupExpired maxAge now buckets).get? key =
      (buckets.get? key).filter (fun bucket => !expired maxAge now bucket) := by
  unfold cleanupExpired
  rw [Dict.get?_eraseAll]
  cases found : buckets.get? key with
  | none => simp
  | some bucket =>
      have listed : key ∈ (buckets.entries.filter
          (fun entry => expired maxAge now entry.2)).map Prod.fst ↔
          expired maxAge now bucket = true := by
        simp only [List.mem_map, List.mem_filter, Prod.exists, exists_and_right,
          exists_eq_right, Dict.mem_entries_iff, found, Option.some.injEq]
        constructor
        · intro given
          rcases given with ⟨other, rfl, old⟩
          exact old
        · intro old
          exact ⟨bucket, rfl, old⟩
      cases old : expired maxAge now bucket <;> simp [listed, old, Option.filter_some]

end Levels

section Steps

variable {limits} {state next : State} {op : Op} {key : String}

theorem step_cases (stepped : step limits state op = some next) :
    (∀ clock ∈ state.clock, clock ≤ op.time) ∧ op.valid = true ∧
      next = ⟨perform limits state.buckets op, some op.time⟩ := by
  unfold step at stepped
  split at stepped
  · next enabled => exact ⟨enabled.1, enabled.2, (Option.some.inj stepped).symm⟩
  · cases stepped

theorem sound_step (sound : Sound limits state) (stepped : step limits state op = some next) :
    Sound limits next := by
  obtain ⟨later, -, rfl⟩ := step_cases stepped
  have kept : ∀ other bucket, state.buckets.get? other = some bucket →
      bucket.rate = ratePerSecond limits ∧ bucket.burst = limits.burst ∧ 0 ≤ bucket.tokens ∧
        ∃ clock ∈ some op.time, bucket.lastRefill ≤ clock := by
    intro other bucket found
    obtain ⟨rate, burst, tokens, clock, reached, past⟩ := sound other bucket found
    exact ⟨rate, burst, tokens, op.time, rfl, past.trans (later clock reached)⟩
  intro other bucket found
  cases op with
  | isAllowed name now =>
      simp only [perform, get?_isAllowed] at found
      by_cases same : other = name
      · rw [if_pos same, consume_bucket, Option.some.injEq] at found
        obtain ⟨rate, burst⟩ := getBucket_parameters sound name now
        subst found
        refine ⟨rate, burst, ?_, now, rfl, le_refl now⟩
        split
        · next allowed =>
            have full := (allowed_iff name now state.buckets).mp allowed
            linarith
        · have nonneg : 0 ≤ level limits name now state.buckets := level_nonneg sound name later
          simpa using nonneg
      · rw [if_neg same] at found
        exact kept other bucket found
  | cleanupExpired maxAge now =>
      simp only [perform, get?_cleanupExpired] at found
      exact kept other bucket (Option.filter_eq_some_iff.mp found).1

theorem level_step (sound : Sound limits state) (stepped : step limits state op = some next)
    (refilled : Refilled ⟨state, op, next⟩) (key : String) :
    level limits key op.time next.buckets +
        (if admits limits key ⟨state, op, next⟩ = true then 1 else 0) =
      level limits key op.time state.buckets := by
  have bound := level_le_burst sound key op.time
  obtain ⟨later, -, rfl⟩ := step_cases stepped
  cases op with
  | isAllowed name now =>
      by_cases same : name = key
      · subst same
        have found : (isAllowed limits name now state.buckets).2.get? name =
            some ((getBucket limits name now state.buckets).consume now).2 := by
          simp [get?_isAllowed]
        have burst := (getBucket_parameters sound name now).2
        simp only [Op.time] at bound ⊢
        rw [perform, level_of_some found, consume_bucket]
        simp only [admits, answer, if_true, Option.any_some, available, burst, sub_self, zero_mul,
          add_zero]
        split
        · rw [min_eq_right (by linarith)]
          ring
        · rw [min_eq_right (by linarith)]
          ring
      · have other : key ≠ name := fun reverse => same reverse.symm
        simp [admits, answer, same, level, getBucket, perform, get?_isAllowed, other]
  | cleanupExpired maxAge now =>
      simp only [admits, answer, Option.any_none, Bool.false_eq_true, if_false, add_zero, perform,
        Op.time]
      cases found : state.buckets.get? key with
      | none =>
          have still : (cleanupExpired maxAge now state.buckets).get? key = none := by
            simp [get?_cleanupExpired, found]
          rw [level_of_none found, level_of_none still]
      | some bucket =>
          cases old : expired maxAge now bucket with
          | false =>
              have still : (cleanupExpired maxAge now state.buckets).get? key = some bucket := by
                simp [get?_cleanupExpired, found, old]
              rw [level_of_some found, level_of_some still]
          | true =>
              have gone : (cleanupExpired maxAge now state.buckets).get? key = none := by
                simp [get?_cleanupExpired, found, old]
              have full := refilled maxAge now rfl key bucket found old
              have burst := (sound key bucket found).2.1
              rw [level_of_some found, level_of_none gone, available, min_eq_left full, burst]

end Steps

/-- In a window that starts at `start`, what was allowed and what is still available stay within
the burst and what has flowed in since; after the window nothing is counted. -/
structure Metered (limits : Limits) (key : String) (start length : ℚ)
    (events : List (Event State Op)) (state : State) : Prop where
  sound : Sound limits state
  total : (allowedWithin limits key start length events : ℚ) ≤
    limits.burst + ratePerSecond limits * length
  early : (∀ clock ∈ state.clock, clock < start) → allowedWithin limits key start length events = 0
  inside : ∀ clock ∈ state.clock, start ≤ clock → clock ≤ start + length →
    allowedWithin limits key start length events + level limits key clock state.buckets ≤
      limits.burst + ratePerSecond limits * (clock - start)

section Runs

variable {limits} {events : List (Event State Op)} {state next : State} {op : Op} {key : String}
  {start length : ℚ}

theorem allowedWithin_snoc (limits : Limits) (key : String) (start length : ℚ)
    (events : List (Event State Op)) (event : Event State Op) :
    allowedWithin limits key start length (events ++ [event]) =
      allowedWithin limits key start length events +
        if admits limits key event = true ∧ start ≤ event.action.time ∧
          event.action.time ≤ start + length then 1 else 0 := by
  simp [allowedWithin, List.countP_append, List.countP_singleton]

theorem metered_empty (nonneg : 0 ≤ length) :
    Metered limits key start length [] {} where
  sound := by
    intro other bucket found
    simp at found
  total := by
    have capacity : (1 : ℚ) ≤ limits.burst := one_le_burst
    have inflow : 0 ≤ ratePerSecond limits * length := mul_nonneg ratePerSecond_pos.le nonneg
    simp only [allowedWithin, List.countP_nil, Nat.cast_zero]
    linarith
  early := fun _ => rfl
  inside := by simp

theorem metered_step (metered : Metered limits key start length events state)
    (stepped : step limits state op = some next) (refilled : Refilled ⟨state, op, next⟩) :
    Metered limits key start length (events ++ [⟨state, op, next⟩]) next := by
  have taken := level_step metered.sound stepped refilled key
  have sound := sound_step metered.sound stepped
  have capacity := level_le_burst metered.sound key op.time
  obtain ⟨later, -, made⟩ := step_cases stepped
  have clock : next.clock = some op.time := by rw [made]
  have left : 0 ≤ level limits key op.time next.buckets := by
    apply level_nonneg sound key
    intro reached same
    rw [clock, Option.mem_some_iff] at same
    exact same ▸ le_refl _
  by_cases within : start ≤ op.time ∧ op.time ≤ start + length
  · -- the clock moves on inside of the window, or enters it
    have found : (allowedWithin limits key start length events : ℚ) +
        level limits key op.time state.buckets ≤
          limits.burst + ratePerSecond limits * (op.time - start) := by
      by_cases entered : ∀ clock ∈ state.clock, clock < start
      · have inflow : 0 ≤ ratePerSecond limits * (op.time - start) :=
          mul_nonneg ratePerSecond_pos.le (by linarith [within.1])
        rw [metered.early entered, Nat.cast_zero, zero_add]
        linarith
      · push Not at entered
        obtain ⟨past, reached, started⟩ := entered
        have passed := later past reached
        have before := metered.inside past reached started (passed.trans within.2)
        have flowed := level_elapse metered.sound key passed
        have split : ratePerSecond limits * (op.time - start) =
            ratePerSecond limits * (past - start) + ratePerSecond limits * (op.time - past) := by
          ring
        linarith
    have counted : (allowedWithin limits key start length (events ++ [⟨state, op, next⟩]) : ℚ) =
        allowedWithin limits key start length events +
          if admits limits key ⟨state, op, next⟩ = true then 1 else 0 := by
      rw [allowedWithin_snoc]
      simp only [within.1, within.2, and_true]
      split <;> simp
    have growth : ratePerSecond limits * (op.time - start) ≤ ratePerSecond limits * length :=
      mul_le_mul_of_nonneg_left (by linarith [within.2]) ratePerSecond_pos.le
    refine ⟨sound, ?_, ?_, ?_⟩
    · rw [counted]
      linarith
    · intro early
      have absurdity := early op.time (by rw [clock]; rfl)
      exact absurd within.1 (not_le.mpr absurdity)
    · intro reached same _ _
      rw [clock, Option.mem_some_iff] at same
      subst same
      rw [counted]
      linarith
  · have counted : allowedWithin limits key start length (events ++ [⟨state, op, next⟩]) =
        allowedWithin limits key start length events := by
      rw [allowedWithin_snoc]
      have outside : ¬ (admits limits key ⟨state, op, next⟩ = true ∧ start ≤ op.time ∧
          op.time ≤ start + length) := fun both => within both.2
      simp only [outside, if_false, Nat.add_zero]
    refine ⟨sound, by rw [counted]; exact metered.total, ?_, ?_⟩
    · intro early
      rw [counted]
      apply metered.early
      intro past reached
      have before := early op.time (by rw [clock]; rfl)
      linarith [later past reached]
    · intro reached same started ended
      rw [clock, Option.mem_some_iff] at same
      subst same
      exact absurd ⟨started, ended⟩ within

theorem bucket_waits {bucket : TokenBucket} {last : State}
    (present : state.buckets.get? key = some bucket)
    (run : Run (step limits) state events last)
    (silent : ∀ event ∈ events, answer limits key event = none) :
    last.buckets.get? key = some bucket ∨ last.buckets.get? key = none := by
  refine run.invariant (fun event => answer limits key event = none)
    (fun state => state.buckets.get? key = some bucket ∨ state.buckets.get? key = none)
    (Or.inl present) ?_ silent
  intro before action after known stepped quiet
  obtain ⟨-, -, rfl⟩ := step_cases stepped
  cases action with
  | isAllowed name now =>
      have other : key ≠ name := by
        intro given
        rcases given with rfl
        simp [answer] at quiet
      simpa [perform, get?_isAllowed, other] using known
  | cleanupExpired maxAge now =>
      simp only [perform, get?_cleanupExpired]
      rcases known with same | none
      · rw [same, Option.filter_some]
        split
        · exact Or.inl rfl
        · exact Or.inr rfl
      · rw [none]
        exact Or.inr rfl

theorem sound_of_run {last : State} (run : Run (step limits) {} events last) :
    Sound limits last := by
  refine run.invariant_always (Sound limits) ?_ (fun _ _ _ sound stepped => sound_step sound stepped)
  intro other bucket found
  simp at found

theorem wait_eq (key : String) (now : ℚ) (buckets : Buckets)
    (refused : (isAllowed limits key now buckets).1.allowed = false) :
    (isAllowed limits key now buckets).1.retryAfter =
      (1 - level limits key now buckets) / (getBucket limits key now buckets).rate := by
  have short : ¬ 1 ≤ level limits key now buckets := by
    rw [← allowed_iff, refused]
    simp
  unfold level at short ⊢
  simp [isAllowed, consume, refill, short]

theorem allowed_after_wait {first between rest : List (Event State Op)}
    {denied again : Event State Op} {last : State} {wait now : ℚ}
    (run : Run (step limits) {} (first ++ denied :: between ++ again :: rest) last)
    (refused : answer limits key denied = some ⟨false, wait⟩)
    (silent : ∀ event ∈ between, answer limits key event = none)
    (repeated : again.action = .isAllowed key now) (waited : now = denied.action.time + wait) :
    admits limits key again = true := by
  obtain ⟨upTo, -, -⟩ := run.split
  obtain ⟨before, stepped, after⟩ := upTo.split
  have sound := sound_of_run before
  obtain ⟨beforeState, action, afterState⟩ := denied
  cases action with
  | cleanupExpired maxAge time => simp [answer] at refused
  | isAllowed name time =>
      by_cases same : name = key
      · subst same
        obtain ⟨-, -, made⟩ := step_cases stepped
        have told : (isAllowed limits name time beforeState.buckets).1 = ⟨false, wait⟩ := by
          simpa [answer] using refused
        have denial : (isAllowed limits name time beforeState.buckets).1.allowed = false := by
          rw [told]
        have parameters := getBucket_parameters sound name time
        have waiting : wait = (1 - level limits name time beforeState.buckets) /
            ratePerSecond limits := by
          have computed := wait_eq name time beforeState.buckets denial
          rw [told, parameters.1] at computed
          exact computed
        have kept : afterState.buckets.get? name =
            some ((getBucket limits name time beforeState.buckets).consume time).2 := by
          have stored : (isAllowed limits name time beforeState.buckets).2.get? name =
              some ((getBucket limits name time beforeState.buckets).consume time).2 := by
            simp [get?_isAllowed]
          exact (congrArg (fun state => state.buckets.get? name) made).trans stored
        have reached := bucket_waits kept after silent
        have enough : 1 ≤ level limits name now again.before.buckets := by
          rcases reached with same | none
          · rw [level_of_some same, consume_bucket, denial, available]
            have rate : 0 < ratePerSecond limits := ratePerSecond_pos
            have moved : now = time + wait := waited
            have elapsed : now - time = wait := by linarith
            simp only [parameters.1, parameters.2, elapsed, waiting, Bool.false_eq_true, if_false,
              sub_zero, div_mul_cancel₀ _ rate.ne']
            exact le_min one_le_burst (by linarith)
          · rw [level_of_none none]
            exact one_le_burst
        have granted := (allowed_iff name now again.before.buckets).mpr enough
        simpa [admits, answer, repeated] using granted
      · simp [answer, same] at refused

/-- In every run whose cleanups only remove buckets that have refilled, no window lets more requests
of a key through than the burst and what flows in, and the waits are right. -/
theorem rate_limit_bound {last : State} (run : Run (step limits) {} events last)
    (refilled : ∀ event ∈ events, Refilled event) (key : String) : Limited limits key events := by
  constructor
  · intro start length nonneg
    have metered := Run.history_induction Refilled (Metered limits key start length)
      (metered_empty nonneg)
      (fun _ _ _ _ _ metered stepped fine => metered_step metered stepped fine) run refilled
    exact metered.total
  · intro first denied between again rest wait given refused silent also
    rcases given with rfl
    rcases also with ⟨now, repeated, waited⟩
    exact allowed_after_wait run refused silent repeated waited

theorem refilled_of_maxAge {last : State} (run : Run (step limits) {} events last)
    (patient : ∀ event ∈ events, ∀ maxAge now, event.action = .cleanupExpired maxAge now →
      limits.burst ≤ ratePerSecond limits * maxAge) : ∀ event ∈ events, Refilled event := by
  intro event member maxAge now cleaned key bucket found old
  obtain ⟨-, earlier, -, before⟩ := run.event_of_mem member
  obtain ⟨rate, burst, tokens, -⟩ := sound_of_run before key bucket found
  have long : maxAge < now - bucket.lastRefill := by simpa [expired] using old
  have enough := patient event member maxAge now cleaned
  have inflow : ratePerSecond limits * maxAge ≤ (now - bucket.lastRefill) * ratePerSecond limits := by
    rw [mul_comm]
    exact mul_le_mul_of_nonneg_right long.le ratePerSecond_pos.le
  rw [burst, rate]
  linarith

end Runs

def onePerSecond : Limits where
  ratePerMinute := 60
  burst := 1

def recorded (ops : List Op) : List (Event State Op) :=
  (record (step onePerSecond) {} ops).getD []

theorem recorded_run {ops : List Op} (taken : (record (step onePerSecond) {} ops).isSome = true) :
    Run (step onePerSecond) {} (recorded ops) (final {} (recorded ops)) :=
  run_of_isSome taken

def cleanedUp (maxAge second third : ℚ) : List Op :=
  [.isAllowed "ip" 0, .cleanupExpired maxAge second, .isAllowed "ip" third]

theorem rate_limit_bound_patient_cleanup :
    Limited onePerSecond "ip" (recorded (cleanedUp 1 2 2)) := by
  have run : Run (step onePerSecond) {} (recorded (cleanedUp 1 2 2))
      (final {} (recorded (cleanedUp 1 2 2))) := recorded_run (by decide +kernel)
  refine rate_limit_bound run (refilled_of_maxAge run ?_) "ip"
  have shape : (recorded (cleanedUp 1 2 2)).map (·.action) = cleanedUp 1 2 2 := by decide +kernel
  intro event member maxAge now cleaned
  have listed : event.action ∈ cleanedUp 1 2 2 := shape ▸ List.mem_map_of_mem member
  rw [cleaned] at listed
  obtain ⟨rfl, rfl⟩ : maxAge = 1 ∧ now = 2 := by simpa [cleanedUp] using listed
  norm_num [onePerSecond, ratePerSecond]

/-- A cleanup with a maximal age of zero lets two requests through within half a second. -/
theorem cleanup_restores_burst :
    Run (step onePerSecond) {} (recorded (cleanedUp 0 (1 / 4) (1 / 2)))
        (final {} (recorded (cleanedUp 0 (1 / 4) (1 / 2)))) ∧
      ¬ Limited onePerSecond "ip" (recorded (cleanedUp 0 (1 / 4) (1 / 2))) := by
  refine ⟨recorded_run (by decide +kernel), ?_⟩
  intro limited
  have two : allowedWithin onePerSecond "ip" 0 (1 / 2)
      (recorded (cleanedUp 0 (1 / 4) (1 / 2))) = 2 := by
    decide +kernel
  have bound := limited.bounded 0 (1 / 2) (by norm_num)
  rw [two] at bound
  norm_num [onePerSecond, ratePerSecond] at bound

end RagSystem.RateLimiter
