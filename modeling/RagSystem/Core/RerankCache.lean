import RagSystem.Core.Rerank
import RagSystem.Transition.Run

/-! Runs of rerank calls that share the cache of scores. -/

namespace RagSystem.Core.RerankCache

open Transition

/-- What becomes of a call to the scorer: `shortCircuited` is an open breaker, or no model. -/
inductive Scorer
  | works
  | fails
  | shortCircuited
  deriving DecidableEq, Repr

/-- The scores that `_call_reranker_safe` gets; `none` is a raised exception. -/
def Scorer.answers (predict : String → String → ℚ) : Scorer → Option (String → String → ℚ)
  | works => some predict
  | fails => none
  | shortCircuited => some (fun _ _ => 1 / 2)

/-- A call of `rerank_chunks`, at its time. -/
structure RerankCall where
  now : ℚ
  scorer : Scorer
  query : String
  texts : List String
  topK : Nat
  deriving DecidableEq, Repr

variable (helpers : Helpers) (config : Config) (services : Services)
  (predict : String → String → ℚ)

def servicesOf (call : RerankCall) : Services :=
  { services with startedAt := call.now, reranker := call.scorer.answers predict }

def serve (call : RerankCall) : Attempt Caches (List Nat) :=
  rerankChunks helpers config (servicesOf services predict call) call.query call.texts call.topK

def step (caches : Caches) (call : RerankCall) : Option Caches :=
  some (serve helpers config services predict call caches).2

def uncachedOrder (call : RerankCall) : List Nat :=
  if call.texts = [] then []
  else
    rankIndices config call.topK
      ((call.texts.map (truncateText config)).map (predict call.query))

def pairsOf (call : RerankCall) : List (String × String) :=
  (call.texts.map (truncateText config)).map (fun text => (call.query, text))

def keyString (pair : String × String) : String := pair.1 ++ "|" ++ pair.2

def Cached (now : ℚ) (caches : Caches) (pair : String × String) : Prop :=
  (InMemoryCache.get now (rerankKey helpers pair.1 pair.2) caches.ranks).1 ≠ none

section Scores

variable {helpers config services predict} {query : String} {texts : List String} {caches : Caches}

theorem zip_map_self {α β : Type} (f : α → β) (items : List α) :
    (items.map f).zip items = items.map (fun item => (f item, item)) := by
  nth_rewrite 2 [← List.map_id items]
  exact List.zip_map'

theorem get_get (now : ℚ) (key other : String) (ranks : InMemoryCache ℚ) :
    (InMemoryCache.get now other (InMemoryCache.get now key ranks).2).1 =
      (InMemoryCache.get now other ranks).1 := by
  cases found : ranks.get? key with
  | none => simp only [InMemoryCache.get, found]
  | some entry =>
      by_cases expired : entry.2 < now
      · by_cases same : other = key
        · simp [InMemoryCache.get, found, expired, same, Dict.get?_erase]
        · have kept : (ranks.erase key).get? other = ranks.get? other := by
            rw [Dict.get?_erase, if_neg same]
          simp only [InMemoryCache.get, found, if_pos expired, kept]
          cases ranks.get? other with
          | none => rfl
          | some entry => by_cases stale : entry.2 < now <;> simp [stale]
      · simp only [InMemoryCache.get, found, if_neg expired]

theorem cachedScores_eq (now : ℚ) (keys : List String) (ranks : InMemoryCache ℚ) :
    (cachedScores now keys ranks).1 =
      keys.map (fun key => (InMemoryCache.get now key ranks).1) := by
  induction keys generalizing ranks with
  | nil => rfl
  | cons key rest ih =>
      rw [cachedScores, List.map_cons, ih]
      simp only [get_get]

theorem cachedScores_all {holds : String → ℚ → Prop} {ranks : InMemoryCache ℚ}
    (known : InMemoryCache.All holds ranks) (now : ℚ) (keys : List String) :
    InMemoryCache.All holds (cachedScores now keys ranks).2 := by
  induction keys generalizing ranks with
  | nil => exact known
  | cons key rest ih => exact ih (known.get now key)

theorem getD_eq {hit : Option ℚ} {fallback score : ℚ}
    (present : ∀ cached, hit = some cached → cached = score)
    (absent : hit = none → fallback = score) : hit.getD fallback = score := by
  cases hit with
  | none => exact absent rfl
  | some cached => exact present cached rfl

theorem rerankScores_works (works : services.reranker = some predict)
    (truthful : ∀ text ∈ texts, ∀ score,
      (InMemoryCache.get services.startedAt (rerankKey helpers query text) caches.ranks).1 =
        some score → score = predict query text) :
    (rerankScores helpers services query texts caches).1 = some (texts.map (predict query)) := by
  have found : (cachedScores services.startedAt (texts.map (rerankKey helpers query))
      caches.ranks).1 = texts.map (fun text => (InMemoryCache.get services.startedAt
        (rerankKey helpers query text) caches.ranks).1) := by
    rw [cachedScores_eq, List.map_map]
    rfl
  simp only [rerankScores, works, found]
  split
  · rw [List.zipWith_map_left, List.zipWith_self]
    apply congrArg some
    apply List.map_congr_left
    intro text inside
    exact getD_eq (truthful text inside) (fun _ => rfl)
  · next all =>
      rw [List.map_map]
      apply congrArg some
      apply List.map_congr_left
      intro text inside
      apply getD_eq (truthful text inside)
      intro missing
      exact absurd (List.mem_map.mpr ⟨text, inside, missing⟩) all

theorem foldl_set_all {holds : String → ℚ → Prop} {ranks : InMemoryCache ℚ} {now : ℚ}
    {uncached : List String} {answers : String → String → ℚ}
    (known : InMemoryCache.All holds ranks)
    (new : ∀ text ∈ uncached, holds (rerankKey helpers query text) (answers query text)) :
    InMemoryCache.All holds (uncached.foldl (fun ranks text =>
      InMemoryCache.set now 3600 (rerankKey helpers query text) (answers query text) ranks)
      ranks) := by
  induction uncached generalizing ranks with
  | nil => exact known
  | cons text rest ih =>
      apply ih
      · exact known.set (new text List.mem_cons_self)
      · intro other inside
        exact new other (List.mem_cons_of_mem text inside)

theorem rerankScores_all {holds : String → ℚ → Prop}
    (known : InMemoryCache.All holds caches.ranks)
    (new : ∀ answers, services.reranker = some answers → ∀ text ∈ texts,
      (InMemoryCache.get services.startedAt (rerankKey helpers query text) caches.ranks).1 =
        none → holds (rerankKey helpers query text) (answers query text)) :
    InMemoryCache.All holds (rerankScores helpers services query texts caches).2.ranks := by
  have looked := cachedScores_all known services.startedAt (texts.map (rerankKey helpers query))
  unfold rerankScores
  dsimp only
  split
  · split
    · exact looked
    · next answers working =>
        apply foldl_set_all looked
        intro text inside
        obtain ⟨⟨hit, source⟩, listed, rfl⟩ := List.mem_map.mp inside
        obtain ⟨paired, missing⟩ := List.mem_filter.mp listed
        rw [cachedScores_eq, List.map_map, zip_map_self] at paired
        obtain ⟨other, member, same⟩ := List.mem_map.mp paired
        obtain ⟨looked, rfl⟩ := Prod.mk.inj same
        have absent : hit = none := by simpa using missing
        rw [absent] at looked
        exact new answers working other member looked
  · exact looked

end Scores

/-! Runs. -/

def CollisionFree (events : List (Event Caches RerankCall)) : Prop :=
  ∀ first ∈ events, ∀ second ∈ events, ∀ one ∈ pairsOf config first.action,
    ∀ other ∈ pairsOf config second.action,
    helpers.md5 (keyString one) = helpers.md5 (keyString other) → keyString one = keyString other

/-- The step leaves the cache truthful: a call that does not reach the scorer finds all its scores,
and where a call of the working scorer finds one, no earlier one has scored another pair of the
same key string differently. -/
structure CleanStep (earlier : List (Event Caches RerankCall)) (event : Event Caches RerankCall) :
    Prop where
  complete : event.action.scorer = .shortCircuited → ∀ pair ∈ pairsOf config event.action,
    Cached helpers event.action.now event.before pair
  apart : event.action.scorer = .works → ∀ pair ∈ pairsOf config event.action,
    Cached helpers event.action.now event.before pair →
    ∀ previous ∈ earlier, previous.action.scorer = .works →
      ∀ other ∈ pairsOf config previous.action, keyString other = keyString pair →
        predict other.1 other.2 = predict pair.1 pair.2

/-- The score was predicted for a pair of the key in one of the calls. -/
def Recorded (events : List (Event Caches RerankCall)) (key : String) (score : ℚ) : Prop :=
  ∃ event ∈ events, event.action.scorer = .works ∧ ∃ pair ∈ pairsOf config event.action,
    key = rerankKey helpers pair.1 pair.2 ∧ score = predict pair.1 pair.2

section Runs

variable {helpers config services predict} {events : List (Event Caches RerankCall)}
  {event : Event Caches RerankCall} {start state caches next : Caches} {call : RerankCall}

theorem mem_pairsOf {text : String} (inside : text ∈ call.texts.map (truncateText config)) :
    (call.query, text) ∈ pairsOf config call :=
  List.mem_map.mpr ⟨text, inside, rfl⟩

theorem rerankChunks_caches (someTexts : call.texts ≠ []) :
    (serve helpers config services predict call caches).2 =
      (rerankScores helpers (servicesOf services predict call) call.query
        (call.texts.map (truncateText config)) caches).2 := by
  rw [serve, rerankChunks, if_neg someTexts, Attempt.bind_eq]
  cases scored : (rerankScores helpers (servicesOf services predict call) call.query
      (call.texts.map (truncateText config)) caches).1 with
  | none => rw [Attempt.andThen_of_none scored]
  | some scores =>
      rw [Attempt.andThen_of_some scored]
      rfl

theorem ranks_serve {holds : String → ℚ → Prop}
    (known : InMemoryCache.All holds caches.ranks)
    (new : ∀ answers, call.scorer.answers predict = some answers →
      ∀ pair ∈ pairsOf config call, ¬ Cached helpers call.now caches pair →
        holds (rerankKey helpers pair.1 pair.2) (answers pair.1 pair.2)) :
    InMemoryCache.All holds (serve helpers config services predict call caches).2.ranks := by
  by_cases empty : call.texts = []
  · rw [serve, rerankChunks, if_pos empty]
    exact known
  · rw [rerankChunks_caches empty]
    apply rerankScores_all known
    intro answers working text inside missing
    exact new answers working (call.query, text) (mem_pairsOf inside)
      (fun cached => cached missing)

theorem recorded_step (clean : CleanStep helpers config predict events event)
    (known : InMemoryCache.All (Recorded helpers config predict events) event.before.ranks)
    (stepped : step helpers config services predict event.before event.action =
      some event.after) :
    InMemoryCache.All (Recorded helpers config predict (events ++ [event])) event.after.ranks := by
  have left : (serve helpers config services predict event.action event.before).2 = event.after :=
    Option.some.inj stepped
  rw [← left]
  apply ranks_serve
  · refine known.mono ?_
    intro key score recorded
    obtain ⟨previous, member, rest⟩ := recorded
    exact ⟨previous, List.mem_append_left _ member, rest⟩
  · intro answers answering pair inside missing
    cases scorer : event.action.scorer with
    | works =>
        rw [scorer] at answering
        obtain rfl : predict = answers := Option.some.inj answering
        have last : event ∈ events ++ [event] :=
          List.mem_append_right _ (List.mem_singleton_self _)
        exact ⟨event, last, scorer, pair, inside, rfl, rfl⟩
    | fails =>
        rw [scorer] at answering
        cases answering
    | shortCircuited => exact absurd (clean.complete scorer pair inside) missing

theorem serve_works (works : call.scorer = .works)
    (truthful : ∀ pair ∈ pairsOf config call, ∀ score,
      (InMemoryCache.get call.now (rerankKey helpers pair.1 pair.2) caches.ranks).1 = some score →
        score = predict pair.1 pair.2) :
    (serve helpers config services predict call caches).1 =
      some (uncachedOrder config predict call) := by
  by_cases empty : call.texts = []
  · rw [serve, rerankChunks, if_pos empty, uncachedOrder, if_pos empty]
    rfl
  · have scored : (rerankScores helpers (servicesOf services predict call) call.query
        (call.texts.map (truncateText config)) caches).1 =
        some ((call.texts.map (truncateText config)).map (predict call.query)) := by
      apply rerankScores_works
      · rw [servicesOf, works]
        rfl
      · intro text inside
        exact truthful (call.query, text) (mem_pairsOf inside)
    rw [serve, rerankChunks, if_neg empty, Attempt.bind_eq, Attempt.andThen_of_some scored,
      uncachedOrder, if_neg empty]
    rfl

variable (helpers config predict) in
def CleanRun (events : List (Event Caches RerankCall)) : Prop :=
  ∀ earlier event later, events = earlier ++ event :: later →
    CleanStep helpers config predict earlier event

theorem CleanRun.of_append {later : List (Event Caches RerankCall)}
    (clean : CleanRun helpers config predict (events ++ later)) :
    CleanRun helpers config predict events := by
  intro earlier event rest split
  apply clean earlier event (rest ++ later)
  rw [split, List.append_assoc, List.cons_append]

theorem run_recorded (run : Run (step helpers config services predict) start events state)
    (fresh : start.ranks = ∅) (clean : CleanRun helpers config predict events) :
    InMemoryCache.All (Recorded helpers config predict events) state.ranks := by
  induction run with
  | nil =>
      rw [fresh]
      exact InMemoryCache.all_empty
  | @snoc events state earlier action next stepped ih =>
      exact recorded_step (clean events ⟨state, action, next⟩ [] rfl) (ih clean.of_append) stepped

theorem keyString_of_rerankKey {one other : String × String}
    (same : rerankKey helpers one.1 one.2 = rerankKey helpers other.1 other.2) :
    helpers.md5 (keyString one) = helpers.md5 (keyString other) := by
  exact (String.append_right_inj "rerank:").mp same

theorem truthful_of_recorded {earlier : List (Event Caches RerankCall)}
    (known : InMemoryCache.All (Recorded helpers config predict earlier) event.before.ranks)
    (hashed : CollisionFree helpers config (earlier ++ [event]))
    (clean : CleanStep helpers config predict earlier event)
    (works : event.action.scorer = .works) {pair : String × String} {score : ℚ}
    (inside : pair ∈ pairsOf config event.action)
    (found : (InMemoryCache.get event.action.now (rerankKey helpers pair.1 pair.2)
      event.before.ranks).1 = some score) : score = predict pair.1 pair.2 := by
  obtain ⟨previous, member, worked, other, paired, sameKey, rfl⟩ := known.found found
  have cached : Cached helpers event.action.now event.before pair := by
    rw [Cached, found]
    exact Option.some_ne_none _
  have last : event ∈ earlier ++ [event] := List.mem_append_right _ (List.mem_singleton_self _)
  have sameString : keyString pair = keyString other :=
    hashed event last previous (List.mem_append_left _ member) pair inside other paired
      (keyString_of_rerankKey sameKey)
  exact clean.apart works pair inside cached previous member worked other paired sameString.symm

end Runs

def Transparent (events : List (Event Caches RerankCall)) : Prop :=
  ∀ event ∈ events, event.action.scorer = .works →
    (serve helpers config services predict event.action event.before).1 =
      some (uncachedOrder config predict event.action)

/-- The cache is transparent in a run of clean steps. -/
theorem rerank_cache_transparent {start state : Caches} {events : List (Event Caches RerankCall)}
    (run : Run (step helpers config services predict) start events state)
    (fresh : start.ranks = ∅) (hashed : CollisionFree helpers config events)
    (clean : CleanRun helpers config predict events) :
    Transparent helpers config services predict events := by
  intro event member works
  obtain ⟨earlier, later, rfl⟩ := List.append_of_mem member
  have known := run_recorded run.split.1 fresh clean.of_append
  apply serve_works works
  intro pair inside score found
  apply truthful_of_recorded known _ (clean earlier event later rfl) works inside found
  intro first firstIn second secondIn
  have within {one : Event Caches RerankCall} (listed : one ∈ earlier ++ [event]) :
      one ∈ earlier ++ event :: later := by
    simp only [List.mem_append, List.mem_cons] at listed ⊢
    tauto
  exact hashed first (within firstIn) second (within secondIn)

/-! Runs of concrete calls. -/

section Runs

variable {helpers config predict} {events : List (Event Caches RerankCall)}

instance (now : ℚ) (caches : Caches) (pair : String × String) :
    Decidable (Cached helpers now caches pair) :=
  inferInstanceAs (Decidable (_ ≠ _))

instance : Decidable (CollisionFree helpers config events) :=
  inferInstanceAs (Decidable (∀ _ ∈ _, _))

instance (earlier : List (Event Caches RerankCall)) (event : Event Caches RerankCall) :
    Decidable (CleanStep helpers config predict earlier event) :=
  decidable_of_iff (_ ∧ _) ⟨fun parts => ⟨parts.1, parts.2⟩, fun clean => ⟨clean.1, clean.2⟩⟩

theorem cleanRun_iff : CleanRun helpers config predict events ↔
    ∀ item ∈ events.zipIdx, CleanStep helpers config predict (events.take item.2) item.1 := by
  constructor
  · intro clean item member
    have found := List.mem_zipIdx_iff_getElem?.mp member
    obtain ⟨bound, same⟩ := List.getElem?_eq_some_iff.mp found
    apply clean _ _ (events.drop (item.2 + 1))
    rw [← same, List.getElem_cons_drop, List.take_append_drop]
  · intro clean earlier event later given
    rcases given with rfl
    have member : (event, earlier.length) ∈ (earlier ++ event :: later).zipIdx := by
      apply List.mem_zipIdx_iff_getElem?.mpr
      rw [List.getElem?_append_right (le_refl _), Nat.sub_self]
      rfl
    have taken := clean _ member
    rwa [List.take_left] at taken

instance : Decidable (CleanRun helpers config predict events) := decidable_of_iff' _ cleanRun_iff

end Runs

def idle : Services where
  startedAt := 0
  finishedAt := 0
  encode _ := none
  qdrant := findingAll
  graphExpandQuery _ := none
  callSlm _ := none
  reranker := none
  complete _ _ _ := none
  semanticEncode _ := none

def byLength (_query text : String) : ℚ := text.length / 10

def eventsOf (predict : String → String → ℚ) (calls : List RerankCall) :
    List (Event Caches RerankCall) :=
  (record (step Helpers.plain {} idle predict) {} calls).getD []

theorem rerank_cache_transparent_thrice :
    Transparent Helpers.plain {} idle byLength (eventsOf byLength
      [⟨0, .works, "q", ["a", "bb"], 2⟩, ⟨1, .fails, "q", ["ccc"], 2⟩,
        ⟨2, .works, "q", ["bb", "ccc"], 2⟩]) :=
  rerank_cache_transparent Helpers.plain {} idle byLength (run_of_isSome (by decide +kernel)) rfl
    (by decide +kernel) (by decide +kernel)

def afterOpen : List RerankCall :=
  [⟨0, .shortCircuited, "q", ["abcdefg"], 2⟩, ⟨1, .works, "q", ["abcdefg", "abcdef"], 2⟩]

def sharedKey : List RerankCall :=
  [⟨0, .works, "a", ["b|c"], 2⟩, ⟨1, .works, "a|b", ["c", "dd"], 2⟩]

theorem rerank_cache_fails :
    ((∃ state, Run (step Helpers.plain {} idle byLength) {} (eventsOf byLength afterOpen) state) ∧
      CollisionFree Helpers.plain {} (eventsOf byLength afterOpen) ∧
      ∃ event ∈ eventsOf byLength afterOpen, event.action.scorer = .works ∧
        (serve Helpers.plain {} idle byLength event.action event.before).1 = some [1, 0] ∧
        uncachedOrder {} byLength event.action = [0, 1]) ∧
    (∃ state, Run (step Helpers.plain {} idle byLength) {} (eventsOf byLength sharedKey) state) ∧
      CollisionFree Helpers.plain {} (eventsOf byLength sharedKey) ∧
      ∃ event ∈ eventsOf byLength sharedKey, event.action.scorer = .works ∧
        (serve Helpers.plain {} idle byLength event.action event.before).1 = some [0, 1] ∧
        uncachedOrder {} byLength event.action = [1, 0] := by
  have runs (calls : List RerankCall)
      (recorded : (record (step Helpers.plain {} idle byLength) {} calls).isSome = true) :
      ∃ state, Run (step Helpers.plain {} idle byLength) {} (eventsOf byLength calls) state :=
    ⟨_, run_of_isSome recorded⟩
  exact ⟨⟨runs afterOpen (by decide +kernel), by decide +kernel⟩,
    runs sharedKey (by decide +kernel), by decide +kernel⟩

end RagSystem.Core.RerankCache
