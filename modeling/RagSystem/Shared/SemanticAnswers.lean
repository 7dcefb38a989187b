import Mathlib.Tactic.Linarith
import RagSystem.Shared.Cache
import RagSystem.Transition.Run

/-! When the semantic cache answers a query with what was set for it last. -/

namespace RagSystem.SemanticAnswers

open InMemoryCache (live live_eq live_get live_set live_before)
open Transition

/-- The embedder is deterministic and normalises its vectors. -/
structure Setup where
  md5 : String → String
  twoDecimals : ℚ → String
  embed : String → Vec
  threshold : ℚ
  ttl : ℚ
  unit : ∀ query, (List.zipWith (· * ·) (embed query) (embed query)).sum = 1
  threshold_le_one : threshold ≤ 1

structure Latest where
  query : String
  response : String
  time : ℚ
  deriving DecidableEq, Repr

/-- The cache, the time of the last call and, on the side, the last `set`. -/
structure Service where
  cache : SemanticCache := {}
  clock : ℚ := 0
  latest : Option Latest := none
  deriving DecidableEq, Repr

inductive Action
  | set (now : ℚ) (query response : String)
  | get (now : ℚ) (query : String)
  deriving DecidableEq, Repr

namespace Setup

variable (setup : Setup)

def bucketKey (query : String) : String :=
  SemanticCache.bucketKey setup.md5 setup.twoDecimals (setup.embed query)

def entryKey (query : String) : String := SemanticCache.entryKey setup.md5 query

def lookUp (now : ℚ) (query : String) (cache : SemanticCache) : Option String × SemanticCache :=
  SemanticCache.get setup.md5 setup.twoDecimals now setup.threshold (some (setup.embed query)) cache

def step (service : Service) : Action → Option Service
  | .set now query response =>
      if now < service.clock then none
      else some
        { cache := SemanticCache.set setup.md5 setup.twoDecimals now setup.ttl query
            (some (setup.embed query)) response service.cache
          clock := now
          latest := some ⟨query, response, now⟩ }
  | .get now query =>
      if now < service.clock then none
      else some { service with cache := (setup.lookUp now query service.cache).2, clock := now }

end Setup

def answerOf (threshold : ℚ) (embedding : Vec) (entry : SemanticEntry) : Option String :=
  if threshold ≤ SemanticCache.cosineSimilarity embedding entry.embedding then some entry.response
  else none

section Scan

variable {threshold now : ℚ} {embedding : Vec} {entries : InMemoryCache SemanticEntry}
  {other : String}

theorem scan_fst (ids : List String) (entries : InMemoryCache SemanticEntry) :
    (SemanticCache.scan now threshold embedding ids entries).1 =
      ids.findSome? (fun id => (live now id entries).bind (answerOf threshold embedding)) := by
  induction ids generalizing entries with
  | nil => rfl
  | cons id rest ih =>
      have after : (fun id' => (live now id' (InMemoryCache.get now id entries).2).bind
          (answerOf threshold embedding)) =
            fun id' => (live now id' entries).bind (answerOf threshold embedding) := by
        funext id'
        rw [live_get (le_refl now)]
      rw [SemanticCache.scan, List.findSome?_cons]
      cases found : (InMemoryCache.get now id entries).1 with
      | none => simp only [live, found, Option.bind_none]; rw [ih, after]; rfl
      | some entry =>
          simp only [live, found, Option.bind_some, answerOf]
          by_cases similar :
              threshold ≤ SemanticCache.cosineSimilarity embedding entry.embedding
          · simp [similar]
          · rw [if_neg similar, if_neg similar]
            dsimp only
            rw [ih, after]
            rfl

theorem live_scan {later : ℚ} (notBefore : now ≤ later) (ids : List String)
    (entries : InMemoryCache SemanticEntry) :
    live later other (SemanticCache.scan now threshold embedding ids entries).2 =
      live later other entries := by
  induction ids generalizing entries with
  | nil => rfl
  | cons id rest ih =>
      rw [SemanticCache.scan]
      cases found : (InMemoryCache.get now id entries).1 with
      | none =>
          dsimp only
          rw [ih, live_get notBefore]
      | some entry =>
          by_cases similar :
              threshold ≤ SemanticCache.cosineSimilarity embedding entry.embedding
          · dsimp only
            rw [if_pos similar, live_get notBefore]
          · dsimp only
            rw [if_neg similar, ih, live_get notBefore]

end Scan

/-! One call. -/

section Calls

variable {setup : Setup} {service : Service}

/-- Until the latest answer expires, its query is answered with it. -/
def Ready (setup : Setup) (service : Service) (latest : Latest) : Prop :=
  ∀ later, service.clock ≤ later → later < latest.time + setup.ttl →
    (setup.lookUp later latest.query service.cache).1 = some latest.response

def Bounded (cache : SemanticCache) : Prop :=
  InMemoryCache.All (fun _ listed => listed.length ≤ SemanticCache.bucketSize) cache.buckets

theorem lookUp_fst (setup : Setup) (now : ℚ) (query : String) (cache : SemanticCache) :
    (setup.lookUp now query cache).1 =
      (((live now (setup.bucketKey query) cache.buckets).getD []).take
        SemanticCache.maxScanEntries).findSome?
          (fun id => (live now id cache.entries).bind
            (answerOf setup.threshold (setup.embed query))) :=
  scan_fst _ _

theorem lookUp_lookUp {now later : ℚ} (notBefore : now ≤ later) (query other : String)
    (cache : SemanticCache) :
    (setup.lookUp later other (setup.lookUp now query cache).2).1 =
      (setup.lookUp later other cache).1 := by
  have buckets : live later (setup.bucketKey other) (setup.lookUp now query cache).2.buckets =
      live later (setup.bucketKey other) cache.buckets := live_get notBefore _ _ _
  have entries (id : String) : live later id (setup.lookUp now query cache).2.entries =
      live later id cache.entries := live_scan notBefore _ _
  rw [lookUp_fst, lookUp_fst, buckets]
  simp only [entries]

theorem bounded_lookUp {now : ℚ} {query : String} {cache : SemanticCache}
    (bounded : Bounded cache) : Bounded (setup.lookUp now query cache).2 :=
  bounded.get now (setup.bucketKey query)

theorem bounded_set {now : ℚ} {query response : String} {cache : SemanticCache}
    (bounded : Bounded cache) :
    Bounded (SemanticCache.set setup.md5 setup.twoDecimals now setup.ttl query
      (some (setup.embed query)) response cache) := by
  have kept := bounded.get now (setup.bucketKey query)
  simp only [SemanticCache.set]
  split
  · exact kept
  · apply kept.set
    rw [List.length_take]
    exact Nat.min_le_left _ _

/-- When the query is in its bucket already, the bucket lives as long as the new entry, and no
similar entry in front of it has another response. -/
def Renewable (setup : Setup) (cache : SemanticCache) (now : ℚ) (query response : String) : Prop :=
  match cache.buckets.get? (setup.bucketKey query) with
  | none => True
  | some (listed, expires) =>
      expires < now ∨ setup.entryKey query ∉ listed ∨
        now + setup.ttl ≤ expires ∧
          ∀ other ∈ listed.takeWhile (· ≠ setup.entryKey query),
            ∀ entry ∈ live now other cache.entries,
              setup.threshold ≤
                  SemanticCache.cosineSimilarity (setup.embed query) entry.embedding →
                entry.response = response

instance (setup : Setup) (cache : SemanticCache) (now : ℚ) (query response : String) :
    Decidable (Renewable setup cache now query response) :=
  match stored : cache.buckets.get? (setup.bucketKey query) with
  | none => isTrue (by simp [Renewable, stored])
  | some (listed, expires) =>
      decidable_of_iff (expires < now ∨ setup.entryKey query ∉ listed ∨
        now + setup.ttl ≤ expires ∧
          ∀ other ∈ listed.takeWhile (· ≠ setup.entryKey query),
            ∀ entry ∈ live now other cache.entries,
              setup.threshold ≤
                  SemanticCache.cosineSimilarity (setup.embed query) entry.embedding →
                entry.response = response) (by simp only [Renewable, stored])

theorem answerOf_own (setup : Setup) (query response : String) :
    answerOf setup.threshold (setup.embed query) ⟨setup.embed query, response⟩ =
      some response := by
  have whole : SemanticCache.cosineSimilarity (setup.embed query) (setup.embed query) = 1 := by
    rw [SemanticCache.cosineSimilarity, setup.unit]
    norm_num
  rw [answerOf, whole, if_pos setup.threshold_le_one]

theorem findSome?_behind {ids : List String} {own : String} {find : String → Option String}
    {response : String} (listed : own ∈ ids) (found : find own = some response)
    (front : ∀ other ∈ ids.takeWhile (· ≠ own), ∀ answer ∈ find other, answer = response) :
    ids.findSome? find = some response := by
  induction ids with
  | nil => simp at listed
  | cons id rest ih =>
      rw [List.findSome?_cons]
      by_cases same : id = own
      · rw [same, found]
      · rw [List.takeWhile_cons_of_pos (by simpa using same)] at front
        have later : own ∈ rest := List.mem_of_ne_of_mem (Ne.symm same) listed
        cases answer : find id with
        | none => exact ih later fun other member => front other (List.mem_cons_of_mem id member)
        | some value => rw [front id List.mem_cons_self value answer]

theorem own_answers (setup : Setup) (query response : String)
    (entries : InMemoryCache SemanticEntry) {now later : ℚ}
    (unexpired : later < now + setup.ttl) :
    (live later (setup.entryKey query) (InMemoryCache.set now setup.ttl (setup.entryKey query)
      ⟨setup.embed query, response⟩ entries)).bind
        (answerOf setup.threshold (setup.embed query)) = some response := by
  rw [live_set, if_pos rfl, if_neg (by linarith), Option.bind_some, answerOf_own]

theorem lookUp_set_listed {cache : SemanticCache} {now later : ℚ} {query response : String}
    (bounded : Bounded cache) (renewable : Renewable setup cache now query response)
    (notBefore : now ≤ later) (unexpired : later < now + setup.ttl)
    (member : setup.entryKey query ∈ (live now (setup.bucketKey query) cache.buckets).getD []) :
    (setup.lookUp later query (SemanticCache.set setup.md5 setup.twoDecimals now setup.ttl query
      (some (setup.embed query)) response cache)).1 = some response := by
  have after : SemanticCache.set setup.md5 setup.twoDecimals now setup.ttl query
      (some (setup.embed query)) response cache =
        { buckets := (InMemoryCache.get now (setup.bucketKey query) cache.buckets).2
          entries := InMemoryCache.set now setup.ttl (setup.entryKey query)
            ⟨setup.embed query, response⟩ cache.entries } := if_pos member
  rw [lookUp_fst, after, live_get notBefore]
  cases stored : cache.buckets.get? (setup.bucketKey query) with
  | none => simp [live_eq, stored] at member
  | some bucket =>
      obtain ⟨listed, expires⟩ := bucket
      have current : ¬ expires < now := by
        intro expired
        simp [live_eq, stored, expired] at member
      have inside : setup.entryKey query ∈ listed := by
        simpa [live_eq, stored, current] using member
      simp only [Renewable, stored, current, inside, not_true, false_or] at renewable
      obtain ⟨lasts, front⟩ := renewable
      have short : listed.length ≤ SemanticCache.maxScanEntries :=
        calc
          listed.length ≤ SemanticCache.bucketSize :=
            bounded (setup.bucketKey query) listed expires stored
          _ ≤ SemanticCache.maxScanEntries := by decide
      have found : live later (setup.bucketKey query) cache.buckets = some listed := by
        rw [live_eq, stored, Option.bind_some, if_neg (by linarith)]
      rw [found, Option.getD_some, List.take_of_length_le short]
      apply findSome?_behind inside (own_answers setup query response cache.entries unexpired)
      intro other before answer answered
      have differs : other ≠ setup.entryKey query := by
        simpa using List.mem_takeWhile_imp before
      rw [live_set, if_neg differs, Option.mem_def, Option.bind_eq_some_iff] at answered
      obtain ⟨entry, alive, similar⟩ := answered
      unfold answerOf at similar
      split at similar
      · rename_i near
        have same := front other before entry (live_before notBefore alive) near
        rw [← same]
        exact (Option.some.inj similar).symm
      · simp at similar

theorem lookUp_set {cache : SemanticCache} {now later : ℚ} {query response : String}
    (bounded : Bounded cache) (renewable : Renewable setup cache now query response)
    (notBefore : now ≤ later) (unexpired : later < now + setup.ttl) :
    (setup.lookUp later query (SemanticCache.set setup.md5 setup.twoDecimals now setup.ttl query
      (some (setup.embed query)) response cache)).1 = some response := by
  by_cases member : setup.entryKey query ∈
      (live now (setup.bucketKey query) cache.buckets).getD []
  · exact lookUp_set_listed bounded renewable notBefore unexpired member
  · have after : SemanticCache.set setup.md5 setup.twoDecimals now setup.ttl query
        (some (setup.embed query)) response cache =
          { buckets := InMemoryCache.set now (setup.ttl * 2) (setup.bucketKey query)
              ((setup.entryKey query ::
                (live now (setup.bucketKey query) cache.buckets).getD []).take
                  SemanticCache.bucketSize)
              (InMemoryCache.get now (setup.bucketKey query) cache.buckets).2
            entries := InMemoryCache.set now setup.ttl (setup.entryKey query)
              ⟨setup.embed query, response⟩ cache.entries } := if_neg member
    rw [lookUp_fst, after, live_set, if_pos rfl, if_neg (by linarith)]
    dsimp only [Option.getD_some]
    rw [SemanticCache.bucketSize, SemanticCache.maxScanEntries, List.take_succ_cons,
      List.take_succ_cons, List.findSome?_cons,
      own_answers setup query response cache.entries unexpired]

end Calls

/-! Runs. -/

/-- A `get` of the query that was set last, before the response expires, returns the response. -/
def Answered (setup : Setup) (event : Event Service Action) : Prop :=
  match event.action with
  | .set _ _ _ => True
  | .get now query =>
      ∀ latest ∈ event.before.latest, query = latest.query → now < latest.time + setup.ttl →
        (setup.lookUp now query event.before.cache).1 = some latest.response

instance (setup : Setup) (event : Event Service Action) : Decidable (Answered setup event) :=
  match taken : event.action with
  | .set _ _ _ => isTrue (by simp [Answered, taken])
  | .get now query =>
      decidable_of_iff (∀ latest ∈ event.before.latest, query = latest.query →
        now < latest.time + setup.ttl →
          (setup.lookUp now query event.before.cache).1 = some latest.response)
        (by simp only [Answered, taken])

def AllAnswered (setup : Setup) (events : List (Event Service Action)) : Prop :=
  ∀ event ∈ events, Answered setup event

/-- The condition on a `set`, in the state before it. -/
def Renews (setup : Setup) (event : Event Service Action) : Prop :=
  match event.action with
  | .set now query response => Renewable setup event.before.cache now query response
  | .get _ _ => True

instance (setup : Setup) (event : Event Service Action) : Decidable (Renews setup event) :=
  match taken : event.action with
  | .set now query response =>
      decidable_of_iff (Renewable setup event.before.cache now query response)
        (by simp only [Renews, taken])
  | .get _ _ => isTrue (by simp [Renews, taken])

structure Consistent (setup : Setup) (service : Service) : Prop where
  bounded : Bounded service.cache
  ready : ∀ latest ∈ service.latest, Ready setup service latest

variable {setup : Setup} {service next : Service} {action : Action}
  {events : List (Event Service Action)}

theorem consistent_step (consistent : Consistent setup service)
    (stepped : setup.step service action = some next)
    (renews : Renews setup ⟨service, action, next⟩) : Consistent setup next := by
  cases action with
  | set now query response =>
      simp only [Setup.step] at stepped
      split at stepped
      · simp at stepped
      · obtain rfl := Option.some.inj stepped
        refine ⟨bounded_set consistent.bounded, ?_⟩
        intro latest member later notBefore unexpired
        obtain rfl := Option.some.inj member
        exact lookUp_set consistent.bounded renews notBefore unexpired
  | get now query =>
      simp only [Setup.step] at stepped
      split at stepped
      · simp at stepped
      · rename_i inTime
        obtain rfl := Option.some.inj stepped
        refine ⟨bounded_lookUp consistent.bounded, ?_⟩
        intro latest member later notBefore unexpired
        rw [lookUp_lookUp notBefore]
        exact consistent.ready latest member later ((not_lt.mp inTime).trans notBefore) unexpired

theorem answered_of_consistent (consistent : Consistent setup service)
    (stepped : setup.step service action = some next) :
    Answered setup ⟨service, action, next⟩ := by
  cases action with
  | set now query response => trivial
  | get now query =>
      simp only [Setup.step] at stepped
      split at stepped
      · simp at stepped
      · rename_i inTime
        intro latest member same unexpired
        rw [same]
        exact consistent.ready latest member now (not_lt.mp inTime) unexpired

/-- Where every `set` finds its bucket long-lived and without a similar entry in front, every `get`
returns what was set last for its query. -/
theorem latest_answered (setup : Setup) (clock : ℚ)
    (run : Run setup.step { clock := clock } events service)
    (renews : ∀ event ∈ events, Renews setup event) : AllAnswered setup events := by
  have start : Consistent setup { clock := clock } := by
    constructor
    · exact InMemoryCache.all_empty
    · intro latest member
      simp at member
  intro event member
  obtain ⟨stepped, consistent⟩ := run.invariant_before (Renews setup) (Consistent setup) start
    (fun service action next past enabled fine => consistent_step past enabled fine) renews member
  exact answered_of_consistent consistent stepped

def portalEmbedding (query : String) : Vec :=
  if query = "How do I reset my password?" then List.replicate 8 0 ++ [1, 0]
  else if query = "Where can I change a password?" then List.replicate 8 0 ++ [24 / 25, 7 / 25]
  else List.replicate 8 0 ++ [0, 1]

def portal : Setup where
  md5 := id
  twoDecimals _ := "0.00"
  embed := portalEmbedding
  threshold := 92 / 100
  ttl := 300
  unit query := by
    unfold portalEmbedding
    split
    · decide +kernel
    · split
      · decide +kernel
      · decide +kernel
  threshold_le_one := by norm_num

def renewedInTime : List (Event Service Action) :=
  (record portal.step {}
    [.set 0 "How do I reset my password?" "Ask the administrator.",
      .set 200 "How do I reset my password?" "Use the portal.",
      .get 450 "How do I reset my password?"]).getD []

theorem renewedInTime_answered : AllAnswered portal renewedInTime :=
  latest_answered portal 0 (run_of_isSome (by decide +kernel)) (by decide +kernel)

def renewedLate : List (Event Service Action) :=
  (record portal.step {}
    [.set 0 "How do I reset my password?" "Ask the administrator.",
      .set 500 "How do I reset my password?" "Use the portal.",
      .get 700 "How do I reset my password?"]).getD []

def overtaken : List (Event Service Action) :=
  (record portal.step {}
    [.set 0 "How do I reset my password?" "Ask the administrator.",
      .set 10 "Where can I change a password?" "In the settings.",
      .set 20 "How do I reset my password?" "Use the portal.",
      .get 30 "How do I reset my password?"]).getD []

theorem renewed_answers_lost :
    Run portal.step {} renewedLate (final {} renewedLate) ∧ ¬ AllAnswered portal renewedLate ∧
      Run portal.step {} overtaken (final {} overtaken) ∧ ¬ AllAnswered portal overtaken := by
  refine ⟨run_of_isSome (by decide +kernel), ?_, run_of_isSome (by decide +kernel), ?_⟩
  · unfold AllAnswered
    decide +kernel
  · unfold AllAnswered
    decide +kernel

end RagSystem.SemanticAnswers
