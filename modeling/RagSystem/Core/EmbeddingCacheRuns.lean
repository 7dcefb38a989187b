import RagSystem.Core.Retrieval
import RagSystem.Data.Dict
import RagSystem.Transition.Run

/-! What the embedding cache returns over sequences of calls (`EmbeddingCache` of
`proxy/app/core/retrieval.py`, with any size and threshold). -/

namespace RagSystem.Core.EmbeddingCacheRuns

open Transition

variable (helpers : Helpers) (maxSize : Nat) (threshold : ℚ)

def normalized (query : String) : String := stripText (helpers.lower query)

/-- The words in common, as a part of the words of the longer query; `none` if one has no words. -/
def overlapOf (query cached : String) : Option ℚ :=
  let first := EmbeddingCache.words helpers query
  let second := EmbeddingCache.words helpers cached
  if first ≠ [] ∧ second ≠ [] then
    some (((first.filter (· ∈ second)).length : ℚ) / max first.length second.length)
  else none

def Similar (query cached : String) : Prop := ∃ overlap ∈ overlapOf helpers query cached,
  threshold ≤ overlap

instance (query cached : String) : Decidable (Similar helpers threshold query cached) :=
  inferInstanceAs (Decidable (∃ overlap ∈ overlapOf helpers query cached, threshold ≤ overlap))

def get (query : String) (cache : EmbeddingCache) : Option Vec :=
  match cache.exact.get? (EmbeddingCache.hashQuery helpers query) with
  | some vector => some vector
  | none =>
      (cache.queryEmbeddings.find? (fun cached => Similar helpers threshold query cached.1)).map
        Prod.snd

/-- `queries[-max_size:]`, which is the whole list when the size is zero. -/
def lastQueries (queries : List (String × Vec)) : List (String × Vec) :=
  if maxSize = 0 then queries else queries.drop (queries.length - maxSize)

def set (query : String) (vector : Vec) (cache : EmbeddingCache) : EmbeddingCache :=
  let exact := cache.exact.set (EmbeddingCache.hashQuery helpers query) vector
  let queries := cache.queryEmbeddings ++ [(query, vector)]
  if maxSize < exact.size then
    { exact := exact.eraseAll (exact.keys.take (exact.size - maxSize))
      queryEmbeddings := lastQueries maxSize queries }
  else { exact := exact, queryEmbeddings := queries }

theorem get_default (query : String) (cache : EmbeddingCache) :
    get helpers EmbeddingCache.similarityThreshold query cache = cache.get helpers query := by
  have same (cached : String) :
      decide (Similar helpers EmbeddingCache.similarityThreshold query cached) =
        EmbeddingCache.overlaps helpers query cached := by
    unfold Similar overlapOf EmbeddingCache.overlaps
    by_cases words : EmbeddingCache.words helpers query ≠ [] ∧
        EmbeddingCache.words helpers cached ≠ []
    · simp [words]
    · have never : ¬ ∃ overlap ∈ (none : Option ℚ),
          EmbeddingCache.similarityThreshold ≤ overlap := by simp
      simp only [words, if_false, never, decide_false]
      rw [eq_comm, decide_eq_false_iff_not]
      exact fun all => words ⟨all.1, all.2.1⟩
  unfold get EmbeddingCache.get
  cases cache.exact.get? (EmbeddingCache.hashQuery helpers query) with
  | some vector => rfl
  | none => simp only [same]

theorem set_default (query : String) (vector : Vec) (cache : EmbeddingCache) :
    set helpers EmbeddingCache.maxSize query vector cache = cache.set helpers query vector := by
  have positive : EmbeddingCache.maxSize ≠ 0 := by decide
  unfold set EmbeddingCache.set lastQueries
  simp only [positive, if_false]
  unfold Dict.size
  rfl

/-! Runs. -/

structure Service where
  cache : EmbeddingCache := {}
  past : List (String × Vec) := []
  deriving DecidableEq, Repr

inductive Action
  | get (query : String)
  | set (query : String) (vector : Vec)
  deriving DecidableEq, Repr

def step (service : Service) : Action → Option Service
  | .get _ => some service
  | .set query vector =>
      some
        { cache := set helpers maxSize query vector service.cache
          past := (query, vector) :: service.past }

/-- An embedding that is returned was set, for a query with the hash of this one or for one with
enough of its words. -/
def Sound (event : Event Service Action) : Prop :=
  match event.action with
  | .set _ _ => True
  | .get query =>
      ∀ vector ∈ get helpers threshold query event.before.cache,
        ∃ earlier ∈ event.before.past, earlier.2 = vector ∧
          (helpers.md5 (normalized helpers earlier.1) = helpers.md5 (normalized helpers query) ∨
            Similar helpers threshold query earlier.1)

/-- Every event is sound and leaves the exact store no larger than it may be. -/
def AllSound (events : List (Event Service Action)) : Prop :=
  ∀ event ∈ events, Sound helpers threshold event ∧ event.after.cache.exact.size ≤ maxSize

/-- What is stored was set, and the exact store is no larger than it may be. -/
structure Traced (service : Service) : Prop where
  exact : ∀ key vector, service.cache.exact.get? key = some vector →
    ∃ earlier ∈ service.past, earlier.2 = vector ∧
      EmbeddingCache.hashQuery helpers earlier.1 = key
  queries : ∀ stored ∈ service.cache.queryEmbeddings, stored ∈ service.past
  bounded : service.cache.exact.size ≤ maxSize

variable {helpers maxSize threshold}
variable {service next : Service} {action : Action} {events : List (Event Service Action)}

theorem traced_empty : Traced helpers maxSize {} where
  exact key vector found := by simp at found
  queries stored member := by simp at member
  bounded := Nat.zero_le _

theorem mem_lastQueries {queries : List (String × Vec)} {stored : String × Vec}
    (member : stored ∈ lastQueries maxSize queries) : stored ∈ queries := by
  unfold lastQueries at member
  split at member
  · exact member
  · exact List.mem_of_mem_drop member

theorem size_evicted {exact : Dict String Vec} (surplus : maxSize < exact.size) :
    (exact.eraseAll (exact.keys.take (exact.size - maxSize))).size = maxSize := by
  have left := exact.size_eraseAll (exact.keys.take (exact.size - maxSize))
    (exact.nodup_keys.sublist (List.take_sublist _ _))
    (fun key member => List.mem_of_mem_take member)
  rw [List.length_take, ← Dict.size, Nat.min_eq_left (Nat.sub_le _ _)] at left
  omega

theorem Traced.set (traced : Traced helpers maxSize service) (query : String) (vector : Vec) :
    Traced helpers maxSize
      { cache := EmbeddingCacheRuns.set helpers maxSize query vector service.cache
        past := (query, vector) :: service.past } := by
  have stored : ∀ key value, (service.cache.exact.set (EmbeddingCache.hashQuery helpers query)
      vector).get? key = some value → ∃ earlier ∈ (query, vector) :: service.past,
        earlier.2 = value ∧ EmbeddingCache.hashQuery helpers earlier.1 = key := by
    intro key value found
    rw [Dict.get?_set] at found
    split at found
    · rename_i same
      exact ⟨(query, vector), List.mem_cons_self, Option.some.inj found, same.symm⟩
    · obtain ⟨earlier, member, both⟩ := traced.exact key value found
      exact ⟨earlier, List.mem_cons_of_mem _ member, both⟩
  have listed : ∀ item ∈ service.cache.queryEmbeddings ++ [(query, vector)],
      item ∈ (query, vector) :: service.past := by
    intro item member
    rcases List.mem_append.mp member with before | last
    · exact List.mem_cons_of_mem _ (traced.queries item before)
    · rw [List.mem_singleton.mp last]
      exact List.mem_cons_self
  unfold EmbeddingCacheRuns.set
  dsimp only
  split
  · rename_i surplus
    refine ⟨?_, fun item member => listed item (mem_lastQueries member), (size_evicted surplus).le⟩
    intro key value found
    rw [Dict.get?_eraseAll] at found
    split at found
    · simp at found
    · exact stored key value found
  · rename_i few
    exact ⟨stored, listed, not_lt.mp few⟩

theorem traced_step (traced : Traced helpers maxSize service)
    (stepped : step helpers maxSize service action = some next) : Traced helpers maxSize next := by
  cases action with
  | get query =>
      obtain rfl := Option.some.inj stepped
      exact traced
  | set query vector =>
      obtain rfl := Option.some.inj stepped
      exact traced.set query vector

theorem Traced.sound (traced : Traced helpers maxSize service) (action : Action) (next : Service) :
    Sound helpers threshold ⟨service, action, next⟩ := by
  cases action with
  | set query vector => trivial
  | get query =>
      intro vector found
      dsimp only at found
      rw [Option.mem_def, get] at found
      cases hit : service.cache.exact.get? (EmbeddingCache.hashQuery helpers query) with
      | some stored =>
          simp only [hit, Option.some.injEq] at found
          obtain ⟨earlier, member, same, hash⟩ := traced.exact _ stored hit
          exact ⟨earlier, member, same.trans found, Or.inl hash⟩
      | none =>
          simp only [hit, Option.map_eq_some_iff] at found
          obtain ⟨cached, first, rfl⟩ := found
          have similar := List.find?_some first
          exact ⟨cached, traced.queries cached (List.mem_of_find?_eq_some first), rfl,
            Or.inr (by simpa using similar)⟩

/-- In every sequence of calls an embedding that is returned was set for a query with the same
normalised hash or with enough of the words, and the exact store keeps its size. -/
theorem embeddingCache_sound (helpers : Helpers) (maxSize : Nat) (threshold : ℚ)
    (run : Run (step helpers maxSize) {} events service) :
    AllSound helpers maxSize threshold events := by
  intro event member
  obtain ⟨stepped, traced⟩ := run.invariant_before_always (Traced helpers maxSize) traced_empty
    (fun service action next past enabled => traced_step past enabled) member
  exact ⟨traced.sound event.action event.after, (traced_step traced stepped).bounded⟩

def reordered : List (Event Service Action) :=
  (record (step Helpers.plain 2) {}
    [.set "dog bites man" [1, 0], .get "man bites dog"]).getD []

theorem reordered_sound : AllSound Helpers.plain 2 (95 / 100) reordered :=
  embeddingCache_sound Helpers.plain 2 (95 / 100) (run_of_isSome (by decide +kernel))

/-- The queries are the same text up to case and outer whitespace, or the same words in a row. -/
def SameText (helpers : Helpers) (query other : String) : Prop :=
  normalized helpers query = normalized helpers other ∨
    runsOf (fun char => !helpers.isSpace char) (helpers.lower query) =
      runsOf (fun char => !helpers.isSpace char) (helpers.lower other)

instance (helpers : Helpers) (query other : String) : Decidable (SameText helpers query other) :=
  inferInstanceAs (Decidable (_ ∨ _))

theorem reordered_words_hit :
    Run (step Helpers.plain 2) {} reordered (final {} reordered) ∧
      get Helpers.plain (95 / 100) "man bites dog" (final {} reordered).cache = some [1, 0] ∧
      (final {} reordered).past = [("dog bites man", [1, 0])] ∧
      ¬ SameText Helpers.plain "dog bites man" "man bites dog" := by
  refine ⟨run_of_isSome (by decide +kernel), ?_⟩
  decide +kernel

end RagSystem.Core.EmbeddingCacheRuns
