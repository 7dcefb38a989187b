import RagSystem.Core.Services
import RagSystem.Transition.Attempt

/-! Hybrid search (`proxy/app/core/retrieval.py`): cached query embeddings, dense and sparse
queries under one filter, rank fusion, score filtering and knee-point pruning. -/

namespace RagSystem.Core

open AccessControl Payload Transition

/-- `EmbeddingCache`: exact by the hash of the normalised query, or by the words in common. -/
structure EmbeddingCache where
  exact : Dict String Vec := ∅
  queryEmbeddings : List (String × Vec) := []
  deriving DecidableEq, Repr

/-- The caches of the process. The response cache and the semantic cache share one store, under
different key prefixes. -/
structure Caches where
  embedding : EmbeddingCache := {}
  /-- `embed:` and `rerank:` keys, of the cache managers of the two modules. -/
  vectors : InMemoryCache Vec := ∅
  ranks : InMemoryCache ℚ := ∅
  responses : InMemoryCache String := ∅
  semantic : SemanticCache := {}
  deriving DecidableEq, Repr

variable (helpers : Helpers) (config : Config) (services : Services)

/-! Query embeddings. -/

namespace EmbeddingCache

def maxSize : Nat := 1000

def similarityThreshold : ℚ := 95 / 100

def hashQuery (query : String) : String := helpers.md5 (stripText (helpers.lower query))

def words (query : String) : List String :=
  (runsOf (fun char => !helpers.isSpace char) (helpers.lower query)).dedup

def overlaps (query cached : String) : Bool :=
  let first := words helpers query
  let second := words helpers cached
  first ≠ [] ∧ second ≠ [] ∧
    similarityThreshold ≤
      ((first.filter (· ∈ second)).length : ℚ) / max first.length second.length

def get (query : String) (cache : EmbeddingCache) : Option Vec :=
  match cache.exact.get? (hashQuery helpers query) with
  | some vector => some vector
  | none =>
      (cache.queryEmbeddings.find? (fun cached => overlaps helpers query cached.1)).map Prod.snd

/-- `set`; the oldest entries are evicted when there are more than `maxSize`. -/
def set (query : String) (vector : Vec) (cache : EmbeddingCache) : EmbeddingCache :=
  let exact := cache.exact.set (hashQuery helpers query) vector
  let queries := cache.queryEmbeddings ++ [(query, vector)]
  let surplus := exact.keys.length - maxSize
  if maxSize < exact.keys.length then
    { exact := exact.eraseAll (exact.keys.take surplus)
      queryEmbeddings := queries.drop (queries.length - maxSize) }
  else { exact := exact, queryEmbeddings := queries }

end EmbeddingCache

def vectorKey (text : String) : String := "embed:" ++ helpers.md5 text

/-- `_compute_dense_embedding`. -/
def computeDenseEmbedding (text : String) : Attempt Caches Vec := fun caches =>
  match caches.embedding.get helpers text with
  | some vector => (some vector, caches)
  | none =>
      let cached := InMemoryCache.get services.startedAt (vectorKey helpers text) caches.vectors
      match cached.1 with
      | some vector => (some vector, { caches with vectors := cached.2 })
      | none =>
          match services.encode text with
          | none => (none, { caches with vectors := cached.2 })
          | some vector =>
              (some vector,
                { caches with
                  vectors := InMemoryCache.set services.startedAt 3600 (vectorKey helpers text)
                    vector cached.2
                  embedding := caches.embedding.set helpers text vector })

/-! Rank fusion and pruning. -/

/-- `compute_rrf_score`. -/
def computeRrfScore (k denseRank sparseRank : Nat) : ℚ :=
  1 / (k + denseRank : ℚ) + 1 / (k + sparseRank : ℚ)

/-- One of the two loops of the fusion: `score rank` is added to the hit of each rank. -/
def addRanks (score : Nat → ℚ) (hits : List Hit) (scores : Dict String ℚ) : Dict String ℚ :=
  (hits.zipIdx 1).foldl
    (fun scores ranked =>
      scores.set ranked.1.point.id ((scores.get? ranked.1.point.id).getD 0 + score ranked.2))
    scores

def reciprocalRankFusion (dense sparse : List Hit) : List Hit :=
  let k := 60
  let sparseSentinel := k + max sparse.length 1
  let denseSentinel := k + max dense.length 1
  let scores := addRanks (fun rank => computeRrfScore k rank sparseSentinel) dense ∅
  let scores := addRanks (fun rank => computeRrfScore k denseSentinel rank) sparse scores
  let sortedIds := (sortDescending Prod.snd scores.entries).map Prod.fst
  let allResults := Dict.ofList ((dense ++ sparse).map (fun hit => (hit.point.id, hit)))
  sortedIds.filterMap allResults.get?

/-- `filter_results_by_score`. -/
def filterResultsByScore (results : List Hit) : List Hit :=
  let strong := results.filter (fun hit => config.strongScoreThreshold ≤ hit.score)
  let borderline := results.filter (fun hit =>
    config.borderlineScoreThreshold ≤ hit.score ∧ hit.score < config.strongScoreThreshold)
  if 2 ≤ strong.length then strong ++ borderline.take 2
  else if strong ≠ [] then strong ++ borderline.take 1
  else borderline.take 3

def argmax : List ℚ → Nat
  | [] => 0
  | first :: rest =>
      ((rest.zipIdx 1).foldl
        (fun (best : ℚ × Nat) item => if best.1 < item.1 then item else best) (first, 0)).2

/-- `knee_point_pruning` with sensitivity 1/2. The distances from the line through the ends are
compared by their numerators: the length of the line divides them all. -/
def kneePointPruning (results : List Hit) : List Hit :=
  let scores := results.map Hit.score
  let highest := scores.foldl max (scores.headD 0)
  let lowest := scores.foldl min (scores.headD 0)
  if results.length ≤ 2 then results
  else if highest = lowest then results.take (max 2 (results.length / 2))
  else
    let heights := scores.map (fun score => (score - lowest) / (highest - lowest))
    let start := heights.headD 0
    let rise := heights.getLastD 0 - start
    let distances := heights.zipIdx.map (fun item =>
      |(item.2 : ℚ) / (results.length - 1 : ℚ) * rise - (item.1 - start)|)
    results.take (max (argmax distances) 1 + 1)

/-- The points that a filter of `hybrid_search` lets through. -/
def matching (version : Option String) (accessFilter : Option (List (Condition Key String)))
    (store : List Point) : List Point :=
  store.filter (fun point =>
    must (filterConditions version none accessFilter) point.payload.access.values)

def fuse (topK : Nat) (dense sparse : List Hit) : List Hit :=
  let combined := if sparse = [] then dense else (reciprocalRankFusion dense sparse).take topK
  let filtered := filterResultsByScore config combined
  if 5 < filtered.length then kneePointPruning filtered else filtered

def hybridSearch (store : List Point) (query : String) (version : Option String) (topK : Nat)
    (accessFilter : Option (List (Condition Key String))) : Attempt Caches (List Hit) := do
  let points := matching version accessFilter store
  let vector ← computeDenseEmbedding helpers services query
  let dense ← Attempt.ofOption (services.qdrant.dense points vector topK)
  let sparse ← Attempt.ofOption (services.qdrant.sparse points query topK)
  pure (fuse config topK dense sparse)

def HitsIn (points : List Point) (hits : List Hit) : Prop := ∀ hit ∈ hits, hit.point ∈ points

section Search

variable {helpers config services} {results dense sparse : List Hit} {hit : Hit}

theorem mem_of_mem_reciprocalRankFusion (member : hit ∈ reciprocalRankFusion dense sparse) :
    hit ∈ dense ∨ hit ∈ sparse := by
  simp only [reciprocalRankFusion, List.mem_filterMap] at member
  obtain ⟨id, -, found⟩ := member
  obtain ⟨source, inside, equal⟩ := List.mem_map.mp (Dict.mem_of_get?_ofList found)
  obtain rfl : source = hit := (Prod.mk.inj equal).2
  exact List.mem_append.mp inside

theorem mem_of_mem_filterResultsByScore (member : hit ∈ filterResultsByScore config results) :
    hit ∈ results := by
  unfold filterResultsByScore at member
  simp only at member
  split at member
  · rcases List.mem_append.mp member with strong | borderline
    · exact List.mem_of_mem_filter strong
    · exact List.mem_of_mem_filter (List.mem_of_mem_take borderline)
  · split at member
    · rcases List.mem_append.mp member with strong | borderline
      · exact List.mem_of_mem_filter strong
      · exact List.mem_of_mem_filter (List.mem_of_mem_take borderline)
    · exact List.mem_of_mem_filter (List.mem_of_mem_take member)

theorem mem_of_mem_kneePointPruning (member : hit ∈ kneePointPruning results) : hit ∈ results := by
  unfold kneePointPruning at member
  simp only at member
  split at member
  · exact member
  · split at member
    · exact List.mem_of_mem_take member
    · exact List.mem_of_mem_take member

theorem mem_of_mem_fuse {topK : Nat} (member : hit ∈ fuse config topK dense sparse) :
    hit ∈ dense ∨ hit ∈ sparse := by
  have kept : hit ∈ filterResultsByScore config
      (if sparse = [] then dense else (reciprocalRankFusion dense sparse).take topK) := by
    unfold fuse at member
    dsimp only at member
    generalize filterResultsByScore config _ = filtered at member ⊢
    split at member
    · exact mem_of_mem_kneePointPruning member
    · exact member
  have combined := mem_of_mem_filterResultsByScore kept
  split at combined
  · exact Or.inl combined
  · exact mem_of_mem_reciprocalRankFusion (List.mem_of_mem_take combined)

theorem hybridSearch_hits {store : List Point} {query : String} {version : Option String}
    {topK : Nat} {accessFilter : Option (List (Condition Key String))} :
    Attempt.Returns
      (fun hits => HitsIn (matching version accessFilter store) hits ∧ (hits ≠ [] → topK ≠ 0))
      (hybridSearch helpers config services store query version topK accessFilter) := by
  refine Attempt.returns_andThen (Attempt.returns_trivial _) ?_
  intro vector _
  refine Attempt.returns_andThen (Attempt.returns_ofOption (fun hits found =>
    And.intro (services.qdrant.dense_mem _ vector topK hits found)
      (services.qdrant.dense_limit _ vector topK hits found))) ?_
  intro dense given
  rcases given with ⟨denseStored, denseLimit⟩
  refine Attempt.returns_andThen (Attempt.returns_ofOption (fun hits found =>
    And.intro (services.qdrant.sparse_mem _ query topK hits found)
      (services.qdrant.sparse_limit _ query topK hits found))) ?_
  intro sparse given
  rcases given with ⟨sparseStored, sparseLimit⟩
  refine Attempt.returns_value ⟨?_, ?_⟩
  · intro hit member
    rcases mem_of_mem_fuse member with found | found
    · exact denseStored hit found
    · exact sparseStored hit found
  · intro some
    obtain ⟨hit, member⟩ := List.exists_mem_of_ne_nil _ some
    rcases mem_of_mem_fuse member with found | found
    · have length := List.length_pos_of_mem found
      omega
    · have length := List.length_pos_of_mem found
      omega

end Search

end RagSystem.Core
