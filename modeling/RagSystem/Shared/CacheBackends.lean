import Mathlib.Tactic.NormNum
import RagSystem.Data.JsonBounds
import RagSystem.Data.JsonRoundTrip
import RagSystem.Shared.Cache
import RagSystem.Transition.Run

/-! The cache manager over Redis and over the memory of the process (`RedisCache`, `InMemoryCache`
and `CacheManager` of `proxy/app/shared/cache.py`). -/

namespace RagSystem.CacheBackends

open InMemoryCache (live live_eq live_get live_set)
open JsonText Transition

/-- A Redis server. A key that `SETEX` has set is there until its time to live is over or `DEL`
removes it; `GET` and `DEL` answer what is there. -/
structure Redis where
  State : Type
  fresh : State
  setex : (now : ℚ) → (key : String) → (ttl : Nat) → (value : String) → State → State
  get : (now : ℚ) → (key : String) → State → Option String × State
  delete : (now : ℚ) → (key : String) → State → Nat × State
  get_fresh : ∀ later key, (get later key fresh).1 = none
  get_setex : ∀ {now later : ℚ}, now ≤ later → ∀ key other ttl value state,
    (get later other (setex now key ttl value state)).1 =
      if other = key then if now + ttl < later then none else some value
      else (get later other state).1
  get_get : ∀ {now later : ℚ}, now ≤ later → ∀ key other state,
    (get later other (get now key state).2).1 = (get later other state).1
  get_delete : ∀ {now later : ℚ}, now ≤ later → ∀ key other state,
    (get later other (delete now key state).2).1 =
      if other = key then none else (get later other state).1
  count_delete : ∀ now key state,
    (delete now key state).1 = if (get now key state).1.isSome then 1 else 0

/-- The exceptions of the calls: the `ValueError` for an integer of too many digits, and the
`UnicodeEncodeError` for a lone surrogate. -/
inductive Raised
  | valueError
  | unicodeEncodeError
  deriving DecidableEq, Repr

inductive Mode
  | async
  | sync
  deriving DecidableEq, Repr

variable (redis : Redis) {φ : Type} (floats : Floats φ) (keyPrefix : String)

def encode (text : Text) : Option String :=
  if ∀ point ∈ text, point.isValidChar then some (String.ofList (text.map Char.ofNat)) else none

namespace RedisCache

def textOf (value : Value φ) : Option Text :=
  match value with
  | .str text => some text
  | other => dumps floats other

def sent (value : Value φ) : Except Raised String :=
  match textOf floats value with
  | none => .error .valueError
  | some text =>
      match encode text with
      | none => .error .unicodeEncodeError
      | some stored => .ok stored

def parsed (stored : String) : Except Raised (Value φ) :=
  match loads floats (codes stored) with
  | .ok value => .ok value
  | .error .decode => .ok (.str (codes stored))
  | .error .tooManyDigits => .error .valueError

def answered {α : Type} (mode : Mode) (failed : α) (answer : Except Raised α) : Except Raised α :=
  match mode, answer with
  | .sync, .error _ => .ok failed
  | _, answer => answer

def get (mode : Mode) (now : ℚ) (key : String) (state : redis.State) :
    Except Raised (Value φ) × redis.State :=
  let answer := redis.get now key state
  match answer.1 with
  | none => (.ok .null, answer.2)
  | some stored => (answered mode .null (parsed floats stored), answer.2)

def set (mode : Mode) (now : ℚ) (key : String) (value : Value φ) (ttl : Nat)
    (state : redis.State) : Except Raised Bool × redis.State :=
  match sent floats value with
  | .error raised => (answered mode false (.error raised), state)
  | .ok stored => (.ok true, redis.setex now key ttl stored state)

def delete (now : ℚ) (key : String) (state : redis.State) : Bool × redis.State :=
  let deleted := redis.delete now key state
  (0 < deleted.1, deleted.2)

end RedisCache

/-- `InMemoryCache.delete`. -/
def deleteFromMemory (key : String) (cache : InMemoryCache (Value φ)) :
    Bool × InMemoryCache (Value φ) :=
  ((cache.get? key).isSome, cache.erase key)

/-- `_full_key`. -/
def fullKey (key : String) : String := if keyPrefix = "" then key else keyPrefix ++ key

abbrev JsonValue (φ : Type) := { value : Value φ // Distinct value }

inductive Call (φ : Type)
  | get (mode : Mode) (now : ℚ) (key : String)
  | set (mode : Mode) (now : ℚ) (key : String) (value : JsonValue φ) (ttl : Nat)
  | delete (mode : Mode) (now : ℚ) (key : String)

def Call.now : Call φ → ℚ
  | .get _ now _ => now
  | .set _ now _ _ _ => now
  | .delete _ now _ => now

/-- The time to live is positive. -/
def Call.Proper : Call φ → Prop
  | .set _ _ _ _ ttl => 0 < ttl
  | _ => True

instance (call : Call φ) : Decidable call.Proper :=
  match call with
  | .set _ _ _ _ ttl => inferInstanceAs (Decidable (0 < ttl))
  | .get _ _ _ => inferInstanceAs (Decidable True)
  | .delete _ _ _ => inferInstanceAs (Decidable True)

/-- Two managers, one over each backend, the time of the last call and the calls, last one first. -/
structure Service (redis : Redis) (φ : Type) where
  memory : InMemoryCache (Value φ) := ∅
  server : redis.State := redis.fresh
  clock : ℚ := 0
  past : List (Call φ) := []

def callMemory (memory : InMemoryCache (Value φ)) : Call φ → InMemoryCache (Value φ)
  | .get _ now key => (InMemoryCache.get now (fullKey keyPrefix key) memory).2
  | .set _ now key value ttl =>
      InMemoryCache.set now ttl (fullKey keyPrefix key) value.1 memory
  | .delete _ _ key => (deleteFromMemory (fullKey keyPrefix key) memory).2

def callRedis (server : redis.State) : Call φ → redis.State
  | .get mode now key => (RedisCache.get redis floats mode now (fullKey keyPrefix key) server).2
  | .set mode now key value ttl =>
      (RedisCache.set redis floats mode now (fullKey keyPrefix key) value.1 ttl server).2
  | .delete _ now key => (RedisCache.delete redis now (fullKey keyPrefix key) server).2

def step (service : Service redis φ) (call : Call φ) : Option (Service redis φ) :=
  if call.now < service.clock ∨ ¬ call.Proper then none
  else some
    { memory := callMemory keyPrefix service.memory call
      server := callRedis redis floats keyPrefix service.server call
      clock := call.now
      past := call :: service.past }

def lastSet (now : ℚ) (key : String) : List (Call φ) → Option (Value φ)
  | [] => none
  | .set _ time other value ttl :: past =>
      if key = other then if time + ttl < now then none else some value.1 else lastSet now key past
  | .delete _ _ other :: past => if key = other then none else lastSet now key past
  | .get _ _ _ :: past => lastSet now key past

def Stale (now : ℚ) (key : String) (memory : InMemoryCache (Value φ)) : Prop :=
  ∃ stored ∈ memory.get? key, stored.2 < now

/-- Both managers return the value set last, both accept a value, and both answer the same to a
deletion, unless the memory still has an expired entry. -/
def Agrees (event : Event (Service redis φ) (Call φ)) : Prop :=
  match event.action with
  | .get mode now key =>
      let expected := (lastSet now key event.before.past).getD .null
      (InMemoryCache.get now (fullKey keyPrefix key) event.before.memory).1.getD .null = expected ∧
        (RedisCache.get redis floats mode now (fullKey keyPrefix key) event.before.server).1 =
          .ok expected
  | .set mode now key value ttl =>
      (RedisCache.set redis floats mode now (fullKey keyPrefix key) value.1 ttl
        event.before.server).1 = .ok true
  | .delete _ now key =>
      ¬ Stale now (fullKey keyPrefix key) event.before.memory →
        (deleteFromMemory (fullKey keyPrefix key) event.before.memory).1 =
          (RedisCache.delete redis now (fullKey keyPrefix key) event.before.server).1

/-- The value can be written and sent, and a string is nothing that `json.loads` reads. -/
def Plain (value : Value φ) : Prop :=
  (RedisCache.sent floats value).isOk ∧
    match value with
    | .str text => loads floats text = .error .decode
    | _ => True

/-- What the call sets is allowed. -/
def Call.Sets (allowed : JsonValue φ → Prop) : Call φ → Prop
  | .set _ _ _ value _ => allowed value
  | _ => True

def AllAgree (events : List (Event (Service redis φ) (Call φ))) : Prop :=
  ∀ event ∈ events, Agrees redis floats keyPrefix event

structure Tracked (service : Service redis φ) : Prop where
  memory : ∀ later key, service.clock ≤ later →
    live later (fullKey keyPrefix key) service.memory = lastSet later key service.past
  server : ∀ later key, service.clock ≤ later →
    (redis.get later (fullKey keyPrefix key) service.server).1 =
      (lastSet later key service.past).bind (fun value => (RedisCache.sent floats value).toOption)
  plain : ∀ later key value, lastSet later key service.past = some value →
    Distinct value ∧ Plain floats value

variable {redis floats keyPrefix} {service next : Service redis φ} {call : Call φ}
variable {events : List (Event (Service redis φ) (Call φ))}

theorem Call.Sets.mono {allowed other : JsonValue φ → Prop}
    (weaker : ∀ value, allowed value → other value) (sets : call.Sets allowed) :
    call.Sets other := by
  cases call with
  | get mode now key => trivial
  | set mode now key value ttl => exact weaker value sets
  | delete mode now key => trivial

theorem fullKey_inj {key other : String} :
    fullKey keyPrefix key = fullKey keyPrefix other ↔ key = other := by
  unfold fullKey
  split
  · exact Iff.rfl
  · exact String.append_right_inj keyPrefix

theorem codes_encode {text : Text} {stored : String} (encoded : encode text = some stored) :
    codes stored = text := by
  unfold encode at encoded
  split at encoded
  · rename_i valid
    obtain rfl := Option.some.inj encoded
    have each : ∀ point ∈ text, (Char.toNat ∘ Char.ofNat) point = id point := by
      intro point member
      rw [Function.comp_apply, Char.ofNat, dif_pos (valid point member)]
      rfl
    rw [codes, String.toList_ofList, List.map_map, List.map_congr_left each, List.map_id]
  · contradiction

theorem sent_of_plain {value : Value φ} (plain : Plain floats value) :
    ∃ stored, RedisCache.sent floats value = .ok stored := by
  have accepted := plain.1
  cases shown : RedisCache.sent floats value with
  | error raised =>
      rw [shown] at accepted
      contradiction
  | ok stored => exact ⟨stored, rfl⟩

theorem parsed_sent {value : Value φ} (distinct : Distinct value) (plain : Plain floats value)
    {stored : String} (shown : RedisCache.sent floats value = .ok stored) :
    RedisCache.parsed floats stored = .ok value := by
  unfold RedisCache.sent at shown
  split at shown
  · contradiction
  · rename_i text written
    split at shown
    · contradiction
    · rename_i encoded
      obtain rfl := Except.ok.inj shown
      rw [RedisCache.parsed, codes_encode encoded]
      cases value with
      | str string =>
          obtain rfl : string = text := Option.some.inj written
          rw [plain.2]
      | _ => rw [loads_dumps distinct written]

theorem callMemory_delete {now later : ℚ} (mode : Mode) (key other : String)
    (memory : InMemoryCache (Value φ)) :
    live later other (callMemory keyPrefix memory (.delete mode now key)) =
      if other = fullKey keyPrefix key then none else live later other memory := by
  rw [live_eq, live_eq]
  change (Dict.get? (Dict.erase memory (fullKey keyPrefix key)) other).bind _ = _
  rw [Dict.get?_erase]
  split
  · rfl
  · rfl

theorem tracked_fresh : Tracked redis floats keyPrefix {} where
  memory later key _ := rfl
  server later key _ := redis.get_fresh later _
  plain later key value found := by simp [lastSet] at found

theorem tracked_get (tracked : Tracked redis floats keyPrefix service) (mode : Mode) (now : ℚ)
    (key : String) (onTime : service.clock ≤ now) :
    Tracked redis floats keyPrefix
      { memory := callMemory keyPrefix service.memory (.get mode now key)
        server := callRedis redis floats keyPrefix service.server (.get mode now key)
        clock := now
        past := .get mode now key :: service.past } where
  memory later other notBefore := by
    rw [lastSet, ← tracked.memory later other (onTime.trans notBefore)]
    exact live_get notBefore (fullKey keyPrefix key) (fullKey keyPrefix other) service.memory
  server later other notBefore := by
    have same : callRedis redis floats keyPrefix service.server (.get mode now key) =
        (redis.get now (fullKey keyPrefix key) service.server).2 := by
      rw [callRedis, RedisCache.get]
      split
      · rfl
      · rfl
    rw [lastSet, ← tracked.server later other (onTime.trans notBefore)]
    dsimp only
    rw [same, redis.get_get notBefore]
  plain := tracked.plain

theorem tracked_delete (tracked : Tracked redis floats keyPrefix service) (mode : Mode) (now : ℚ)
    (key : String) (onTime : service.clock ≤ now) :
    Tracked redis floats keyPrefix
      { memory := callMemory keyPrefix service.memory (.delete mode now key)
        server := callRedis redis floats keyPrefix service.server (.delete mode now key)
        clock := now
        past := .delete mode now key :: service.past } where
  memory later other notBefore := by
    rw [callMemory_delete, lastSet]
    simp only [fullKey_inj, tracked.memory later other (onTime.trans notBefore)]
  server later other notBefore := by
    have answered := redis.get_delete notBefore (fullKey keyPrefix key) (fullKey keyPrefix other)
      service.server
    rw [lastSet]
    simp only [fullKey_inj, tracked.server later other (onTime.trans notBefore)] at answered
    refine answered.trans ?_
    split
    · rfl
    · rfl
  plain later other value found := by
    rw [lastSet] at found
    split at found
    · contradiction
    · exact tracked.plain later other value found

theorem tracked_set (tracked : Tracked redis floats keyPrefix service) (mode : Mode) (now : ℚ)
    (key : String) (value : JsonValue φ) (ttl : Nat) (onTime : service.clock ≤ now)
    (plain : Plain floats value.1) :
    Tracked redis floats keyPrefix
      { memory := callMemory keyPrefix service.memory (.set mode now key value ttl)
        server := callRedis redis floats keyPrefix service.server (.set mode now key value ttl)
        clock := now
        past := .set mode now key value ttl :: service.past } where
  memory later other notBefore := by
    have answered : live later (fullKey keyPrefix other)
        (InMemoryCache.set now ttl (fullKey keyPrefix key) value.1 service.memory) = _ :=
      live_set _ _ _ _ _
    simp only [fullKey_inj, tracked.memory later other (onTime.trans notBefore)] at answered
    exact answered
  server later other notBefore := by
    obtain ⟨stored, shown⟩ := sent_of_plain plain
    have after : callRedis redis floats keyPrefix service.server (.set mode now key value ttl) =
        redis.setex now (fullKey keyPrefix key) ttl stored service.server := by
      rw [callRedis, RedisCache.set]
      simp only [shown]
    have answered := redis.get_setex notBefore (fullKey keyPrefix key) (fullKey keyPrefix other) ttl
      stored service.server
    simp only [fullKey_inj, tracked.server later other (onTime.trans notBefore)] at answered
    rw [lastSet, after, answered]
    split
    · split
      · rfl
      · simp [shown, Except.toOption]
    · rfl
  plain later other stored found := by
    rw [lastSet] at found
    split at found
    · split at found
      · contradiction
      · obtain rfl := Option.some.inj found
        exact ⟨value.2, plain⟩
    · exact tracked.plain later other stored found

theorem tracked_step (tracked : Tracked redis floats keyPrefix service)
    (stepped : step redis floats keyPrefix service call = some next)
    (plain : call.Sets (fun value => Plain floats value.1)) :
    Tracked redis floats keyPrefix next := by
  unfold step at stepped
  split at stepped
  · contradiction
  · rename_i proper
    push Not at proper
    obtain rfl := Option.some.inj stepped
    cases call with
    | get mode now key => exact tracked_get tracked mode now key proper.1
    | set mode now key value ttl => exact tracked_set tracked mode now key value ttl proper.1 plain
    | delete mode now key => exact tracked_delete tracked mode now key proper.1

theorem Tracked.get (tracked : Tracked redis floats keyPrefix service) {now : ℚ}
    (onTime : service.clock ≤ now) (mode : Mode) (key : String) :
    (RedisCache.get redis floats mode now (fullKey keyPrefix key) service.server).1 =
      .ok ((lastSet now key service.past).getD .null) := by
  have answered := tracked.server now key onTime
  unfold RedisCache.get
  dsimp only
  rw [answered]
  cases found : lastSet now key service.past with
  | none => rfl
  | some value =>
      obtain ⟨distinct, plain⟩ := tracked.plain now key value found
      obtain ⟨stored, shown⟩ := sent_of_plain plain
      simp only [Option.bind_some, shown, Except.toOption, parsed_sent distinct plain shown]
      cases mode with
      | async => rfl
      | sync => rfl

theorem Tracked.delete (tracked : Tracked redis floats keyPrefix service) {now : ℚ}
    (onTime : service.clock ≤ now) (key : String)
    (fresh : ¬ Stale now (fullKey keyPrefix key) service.memory) :
    (deleteFromMemory (fullKey keyPrefix key) service.memory).1 =
      (RedisCache.delete redis now (fullKey keyPrefix key) service.server).1 := by
  have stored := tracked.memory now key onTime
  have answered := tracked.server now key onTime
  rw [live_eq] at stored
  rw [deleteFromMemory, RedisCache.delete]
  dsimp only
  rw [redis.count_delete, answered, ← stored]
  cases found : service.memory.get? (fullKey keyPrefix key) with
  | none => rfl
  | some entry =>
      have unexpired : ¬ entry.2 < now := by
        intro expired
        exact fresh ⟨entry, found, expired⟩
      rw [found, Option.bind_some, if_neg unexpired] at stored
      obtain ⟨-, plain⟩ := tracked.plain now key entry.1 stored.symm
      obtain ⟨sent, shown⟩ := sent_of_plain plain
      simp [unexpired, shown, Except.toOption]

theorem Tracked.agrees (tracked : Tracked redis floats keyPrefix service)
    (stepped : step redis floats keyPrefix service call = some next)
    (plain : call.Sets (fun value => Plain floats value.1)) :
    Agrees redis floats keyPrefix ⟨service, call, next⟩ := by
  unfold step at stepped
  split at stepped
  · contradiction
  · rename_i proper
    push Not at proper
    cases call with
    | get mode now key =>
        have stored := tracked.memory now key proper.1
        refine ⟨?_, tracked.get proper.1 mode key⟩
        rw [← stored]
        rfl
    | set mode now key value ttl =>
        obtain ⟨sent, shown⟩ := sent_of_plain plain
        simp only [Agrees, RedisCache.set, shown]
    | delete mode now key =>
        intro fresh
        exact tracked.delete proper.1 key fresh

theorem plain_of_agrees {value : Value φ} {stored : String}
    (shown : RedisCache.sent floats value = .ok stored)
    (back : RedisCache.parsed floats stored = .ok value) : Plain floats value := by
  refine ⟨by rw [shown]; rfl, ?_⟩
  cases value with
  | str text =>
      have same : codes stored = text := by
        simp only [RedisCache.sent, RedisCache.textOf] at shown
        split at shown
        · contradiction
        · rename_i encoded
          obtain rfl := Except.ok.inj shown
          exact codes_encode encoded
      rw [RedisCache.parsed, same] at back
      dsimp only
      split at back
      · rename_i read
        obtain rfl := Except.ok.inj back
        exact absurd read (loads_ne_str text)
      · rename_i failed
        exact failed
      · contradiction
  | _ => trivial

def afterSet (redis : Redis) (floats : Floats φ) (keyPrefix : String) (value : JsonValue φ) :
    Service redis φ :=
  { memory := callMemory keyPrefix ∅ (.set .async 0 "key" value 60)
    server := callRedis redis floats keyPrefix redis.fresh (.set .async 0 "key" value 60)
    clock := 0
    past := [.set .async 0 "key" value 60] }

theorem step_set (redis : Redis) (floats : Floats φ) (keyPrefix : String) (value : JsonValue φ) :
    step redis floats keyPrefix {} (.set .async 0 "key" value 60) =
      some (afterSet redis floats keyPrefix value) := by
  rw [step, if_neg]
  · rfl
  · simp [Call.now, Call.Proper]

theorem step_get (redis : Redis) (floats : Floats φ) (keyPrefix : String) (value : JsonValue φ) :
    ∃ after, step redis floats keyPrefix (afterSet redis floats keyPrefix value)
      (.get .async 0 "key") = some after := by
  rw [step, if_neg]
  · exact ⟨_, rfl⟩
  · simp [Call.now, Call.Proper, afterSet]

theorem get_afterSet (redis : Redis) (keyPrefix : String) {value : JsonValue φ} {stored : String}
    (shown : RedisCache.sent floats value.1 = .ok stored) :
    (redis.get 0 (fullKey keyPrefix "key") (afterSet redis floats keyPrefix value).server).1 =
      some stored := by
  have sent : (afterSet redis floats keyPrefix value).server =
      redis.setex 0 (fullKey keyPrefix "key") 60 stored redis.fresh := by
    simp only [afterSet, callRedis, RedisCache.set, shown]
  rw [sent, redis.get_setex (le_refl 0), if_pos rfl, if_neg (by norm_num)]

theorem plain_of_setAndGet {value : JsonValue φ} {after : Service redis φ}
    (set : Agrees redis floats keyPrefix
      ⟨{}, .set .async 0 "key" value 60, afterSet redis floats keyPrefix value⟩)
    (get : Agrees redis floats keyPrefix
      ⟨afterSet redis floats keyPrefix value, .get .async 0 "key", after⟩) :
    Plain floats value.1 := by
  cases shown : RedisCache.sent floats value.1 with
  | error raised => simp [Agrees, RedisCache.set, shown, RedisCache.answered] at set
  | ok stored =>
      apply plain_of_agrees shown
      have last : lastSet 0 "key" (afterSet redis floats keyPrefix value).past = some value.1 := by
        rw [afterSet, lastSet, if_pos rfl, if_neg (by norm_num)]
      have back := get.2
      dsimp only at back
      rw [last, RedisCache.get] at back
      simp only [get_afterSet redis keyPrefix shown] at back
      exact back

/-- Two managers over the backends agree in all sequences of calls that set only allowed values,
exactly if all of these are plain. -/
theorem backends_agree_iff (redis : Redis) (floats : Floats φ) (keyPrefix : String)
    (allowed : JsonValue φ → Prop) :
    (∀ (events : List (Event (Service redis φ) (Call φ))) (service : Service redis φ),
      Run (step redis floats keyPrefix) {} events service →
        (∀ event ∈ events, event.action.Sets allowed) → AllAgree redis floats keyPrefix events) ↔
      ∀ value, allowed value → Plain floats value.1 := by
  constructor
  · intro agree value permitted
    obtain ⟨after, stepped⟩ := step_get redis floats keyPrefix value
    have run := Run.snoc (Run.snoc Run.nil _ (step_set redis floats keyPrefix value)) _ stepped
    have all := agree _ _ run (by simpa [Call.Sets] using permitted)
    exact plain_of_setAndGet (all _ (by simp)) (all _ (List.mem_append_right _ List.mem_cons_self))
  · intro plain events service run sets event member
    have plainly : ∀ event ∈ events, event.action.Sets (fun value => Plain floats value.1) := by
      intro event inside
      exact Call.Sets.mono plain (sets event inside)
    obtain ⟨stepped, tracked⟩ := run.invariant_before
      (fun event => event.action.Sets (fun value => Plain floats value.1))
      (Tracked redis floats keyPrefix) tracked_fresh
      (fun state call after past enabled fine => tracked_step past enabled fine) plainly member
    exact tracked.agrees stepped (plainly event member)

def Redis.plain : Redis where
  State := InMemoryCache String
  fresh := ∅
  setex now key ttl value state := InMemoryCache.set now ttl key value state
  get now key state := InMemoryCache.get now key state
  delete now key state := (if (live now key state).isSome then 1 else 0, state.erase key)
  get_fresh later key := rfl
  get_setex := by
    intro now later _ key other ttl value state
    exact live_set ttl key other value state
  get_get := by
    intro now later notBefore key other state
    exact live_get notBefore key other state
  get_delete := by
    intro now later _ key other state
    change live later other (Dict.erase state key) =
      if other = key then none else live later other state
    rw [live_eq, live_eq, Dict.get?_erase]
    split
    · rfl
    · rfl
  count_delete now key state := rfl

/-- The whole numbers among the floats, such as `2.0`. -/
def wholeFloats : Floats Nat where
  repr number := decimal number ++ codes ".0"
  parse text := .finite (JsonText.decimalValue (text.takeWhile isDigit))
  parse_repr number := by
    have point : NoDigit (codes ".0") := by
      intro first head
      obtain rfl : 46 = first := by simpa [codes] using head
      rfl
    rw [(span_digits (isDigit_decimal number) point).1, decimalValue_decimal]
  isFloat_repr number :=
    ⟨[], decimal number, codes ".0", [], by simp, Or.inl rfl, isWhole_decimal number,
      Or.inr ⟨[48], rfl, by decide, by decide⟩, Or.inl rfl, by simp [codes]⟩

def scoreCalls : List (Call Nat) :=
  [.set .async 0 "score" ⟨.float (.finite 2), .float _⟩ 60,
    .set .sync 1 "note" ⟨.str (codes "hello"), .str _⟩ 60, .get .async 2 "score",
    .get .sync 2 "note", .delete .async 3 "note", .get .async 4 "note", .get .async 100 "score"]

def scored : List (Event (Service Redis.plain Nat) (Call Nat)) :=
  (record (step Redis.plain wholeFloats "rag:") {} scoreCalls).getD []

def Noted (value : JsonValue Nat) : Prop :=
  value.1 = .float (.finite 2) ∨ value.1 = .str (codes "hello")

theorem scored_agree : AllAgree Redis.plain wholeFloats "rag:" scored := by
  have recorded : (record (step Redis.plain wholeFloats "rag:") {} scoreCalls).isSome = true := by
    decide +kernel
  apply (backends_agree_iff Redis.plain wholeFloats "rag:" Noted).mpr _ _ _
    (run_of_isSome recorded)
  · intro event member
    have action := action_mem_of_isSome recorded event member
    generalize event.action = call at action
    simp only [scoreCalls, List.mem_cons, List.not_mem_nil, or_false] at action
    rcases action with rfl | rfl | rfl | rfl | rfl | rfl | rfl
    · exact Or.inl rfl
    · exact Or.inr rfl
    · trivial
    · trivial
    · trivial
    · trivial
    · trivial
  · intro value noted
    rcases noted with score | note
    · rw [score]
      exact ⟨by decide +kernel, trivial⟩
    · rw [note]
      exact ⟨by decide +kernel, rfl⟩

def digits : JsonValue Nat := ⟨.str (codes "123"), .str _⟩

/-- A string of digits comes back from Redis as a number. -/
theorem digits_come_back :
    let service := afterSet Redis.plain wholeFloats "" digits
    ∃ events after, Run (step Redis.plain wholeFloats "") {} events after ∧
      events.map Event.action = [.set .async 0 "key" digits 60, .get .async 0 "key"] ∧
      (RedisCache.get Redis.plain wholeFloats .async 0 "key" service.server).1 = .ok (.int 123) ∧
      (InMemoryCache.get 0 "key" service.memory).1 = some digits.1 ∧
      ¬ AllAgree Redis.plain wholeFloats "" events := by
  intro service
  obtain ⟨after, stepped⟩ := step_get Redis.plain wholeFloats "" digits
  have run := Run.snoc (Run.snoc Run.nil _ (step_set Redis.plain wholeFloats "" digits)) _ stepped
  have sent : RedisCache.sent wholeFloats digits.1 = .ok "123" := rfl
  refine ⟨_, after, run, rfl, ?_, ?_, ?_⟩
  · have answered : (Redis.plain.get 0 "key" service.server).1 = some "123" :=
      get_afterSet Redis.plain "" sent
    rw [RedisCache.get]
    simp only [answered]
    rfl
  · change live 0 "key" (InMemoryCache.set 0 60 "key" digits.1 ∅) = some digits.1
    rw [live_set, if_pos rfl, if_neg (by norm_num)]
  · intro all
    have plain := plain_of_setAndGet (all _ (by simp))
      (all _ (List.mem_append_right _ List.mem_cons_self))
    have refused : loads wholeFloats (codes "123") = .error .decode := plain.2
    have read : loads wholeFloats (codes "123") = .ok (.int 123) := rfl
    rw [read] at refused
    contradiction

end RagSystem.CacheBackends
