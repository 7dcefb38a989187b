import RagSystem.Data.Builtins
import RagSystem.Data.Dict

/-! The in-memory cache with expiring entries and the cache of answers to similar queries
(`proxy/app/shared/cache.py`). -/

namespace RagSystem

abbrev Vec := List ℚ

/-- `InMemoryCache._store`: a value and the time it expires. -/
abbrev InMemoryCache (β : Type) := Dict String (β × ℚ)

namespace InMemoryCache

variable {β : Type}

/-- `_get_value`: an expired entry is deleted on the way. -/
def get (now : ℚ) (key : String) (cache : InMemoryCache β) : Option β × InMemoryCache β :=
  match cache.get? key with
  | none => (none, cache)
  | some (value, expires) => if expires < now then (none, cache.erase key) else (some value, cache)

def set (now ttl : ℚ) (key : String) (value : β) (cache : InMemoryCache β) : InMemoryCache β :=
  Dict.set cache key (value, now + ttl)

/-- Every entry satisfies `holds`, whenever it expires. -/
def All (holds : String → β → Prop) (cache : InMemoryCache β) : Prop :=
  ∀ key value expires, cache.get? key = some (value, expires) → holds key value

variable {holds : String → β → Prop} {cache : InMemoryCache β}

theorem all_empty : All holds (∅ : InMemoryCache β) := by
  intro key value expires found
  simp at found

theorem All.mono {weaker : String → β → Prop} (known : All holds cache)
    (weaken : ∀ key value, holds key value → weaker key value) : All weaker cache :=
  fun key value expires found => weaken key value (known key value expires found)

theorem All.found (known : All holds cache) {now : ℚ} {key : String} {value : β}
    (hit : (get now key cache).1 = some value) : holds key value := by
  unfold get at hit
  cases stored : cache.get? key with
  | none => simp [stored] at hit
  | some entry =>
      simp only [stored] at hit
      by_cases expired : entry.2 < now
      · simp [expired] at hit
      · obtain rfl : entry.1 = value := by simpa [expired] using hit
        exact known key entry.1 entry.2 stored

theorem All.get (known : All holds cache) (now : ℚ) (key : String) :
    All holds (InMemoryCache.get now key cache).2 := by
  unfold InMemoryCache.get
  split
  · exact known
  · split
    · intro other value expires found
      rw [Dict.get?_erase] at found
      split at found
      · contradiction
      · exact known other value expires found
    · exact known

theorem All.set (known : All holds cache) {now ttl : ℚ} {key : String} {value : β}
    (new : holds key value) : All holds (InMemoryCache.set now ttl key value cache) := by
  intro other stored expires found
  rw [InMemoryCache.set, Dict.get?_set] at found
  split at found
  · rename_i same
    obtain ⟨rfl, -⟩ : value = stored ∧ now + ttl = expires := by simpa using found
    rw [same]
    exact new
  · exact known other stored expires found

variable {now later : ℚ} {key : String} {store : InMemoryCache β}

/-- What a `get` at this time finds. -/
def live (now : ℚ) (key : String) (store : InMemoryCache β) : Option β :=
  (get now key store).1

theorem live_eq (now : ℚ) (key : String) (store : InMemoryCache β) :
    live now key store =
      (store.get? key).bind (fun stored => if stored.2 < now then none else some stored.1) := by
  unfold live get
  cases store.get? key with
  | none => rfl
  | some stored =>
      obtain ⟨value, expires⟩ := stored
      by_cases expired : expires < now
      · simp [expired]
      · simp [expired]

theorem live_get (notBefore : now ≤ later) (key other : String) (store : InMemoryCache β) :
    live later other (get now key store).2 = live later other store := by
  cases found : store.get? key with
  | none => simp [get, found]
  | some stored =>
      obtain ⟨value, expires⟩ := stored
      by_cases expired : expires < now
      · have after : (get now key store).2 = Dict.erase store key := by
          simp [get, found, expired]
        rw [after, live_eq, live_eq, Dict.get?_erase]
        by_cases same : other = key
        · subst same
          simp [found, lt_of_lt_of_le expired notBefore]
        · rw [if_neg same]
      · simp [get, found, expired]

theorem live_set (ttl : ℚ) (key other : String) (value : β) (store : InMemoryCache β) :
    live later other (set now ttl key value store) =
      if other = key then if now + ttl < later then none else some value
      else live later other store := by
  rw [live_eq, live_eq, set, Dict.get?_set]
  by_cases same : other = key
  · simp [same]
  · rw [if_neg same, if_neg same]

theorem live_before (notBefore : now ≤ later) {value : β}
    (found : live later key store = some value) : live now key store = some value := by
  rw [live_eq, Option.bind_eq_some_iff] at found ⊢
  obtain ⟨stored, hit, unexpired⟩ := found
  refine ⟨stored, hit, ?_⟩
  by_cases expired : stored.2 < later
  · simp [expired] at unexpired
  · rw [if_neg expired] at unexpired
    rwa [if_neg (not_lt.mpr (notBefore.trans (not_lt.mp expired)))]

end InMemoryCache

/-- What `SemanticCache.set` stores of an answered query. -/
structure SemanticEntry where
  embedding : Vec
  response : String
  deriving DecidableEq, Repr

/-- The part of the store that the semantic cache writes: the entries under
`sem_cache:entry:`, and under `sem_cache:bucket:` the entry keys of each bucket. -/
structure SemanticCache where
  buckets : InMemoryCache (List String) := ∅
  entries : InMemoryCache SemanticEntry := ∅
  deriving DecidableEq, Repr

namespace SemanticCache

def bucketSize : Nat := 50

def maxScanEntries : Nat := 200

def cosineSimilarity (first second : Vec) : ℚ :=
  max 0 (min 1 ((List.zipWith (· * ·) first second).sum))

section Keys

variable (md5 : String → String) (twoDecimals : ℚ → String)

def bucketKey (embedding : Vec) : String :=
  "sem_cache:bucket:" ++ clip 8 (md5 (",".intercalate ((embedding.take 8).map twoDecimals)))

def entryKey (query : String) : String :=
  "sem_cache:entry:" ++ clip 16 (md5 query)

def scan (now threshold : ℚ) (embedding : Vec) :
    List String → InMemoryCache SemanticEntry → Option String × InMemoryCache SemanticEntry
  | [], entries => (none, entries)
  | entryId :: rest, entries =>
      let found := InMemoryCache.get now entryId entries
      match found.1 with
      | none => scan now threshold embedding rest found.2
      | some entry =>
          if threshold ≤ cosineSimilarity embedding entry.embedding then
            (some entry.response, found.2)
          else scan now threshold embedding rest found.2

/-- `embedding` is what the embedder answers for the query; without it the cache is off. -/
def get (now threshold : ℚ) (embedding : Option Vec) (cache : SemanticCache) :
    Option String × SemanticCache :=
  match embedding with
  | none => (none, cache)
  | some embedding =>
      let listed := InMemoryCache.get now (bucketKey md5 twoDecimals embedding) cache.buckets
      let scanned :=
        scan now threshold embedding ((listed.1.getD []).take maxScanEntries) cache.entries
      (scanned.1, { buckets := listed.2, entries := scanned.2 })

def set (now ttl : ℚ) (query : String) (embedding : Option Vec) (response : String)
    (cache : SemanticCache) : SemanticCache :=
  match embedding with
  | none => cache
  | some embedding =>
      let entryId := entryKey md5 query
      let bucket := bucketKey md5 twoDecimals embedding
      let entries := InMemoryCache.set now ttl entryId ⟨embedding, response⟩ cache.entries
      let found := InMemoryCache.get now bucket cache.buckets
      let listed := found.1.getD []
      if entryId ∈ listed then { buckets := found.2, entries := entries }
      else
        { buckets := InMemoryCache.set now (ttl * 2) bucket ((entryId :: listed).take bucketSize)
            found.2
          entries := entries }

end Keys

end SemanticCache

end RagSystem
