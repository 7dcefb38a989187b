import RagSystem.Core.Pipeline

/-! What one user's request can learn from the caches that earlier requests filled. Every entry of
a cache is traced to the request that made it; a request that finds no foreign entry under its own
keys is answered as if it were the first. -/

namespace RagSystem.Core

open AccessControl Payload Transition

/-! Calls and histories. -/

/-- A request, and the answers of the services while it is served. -/
structure Call where
  request : Request
  services : Services

variable (helpers : Helpers) (config : Config)

def cachesAfter (store : List Point) (calls : List Call) : Caches :=
  calls.foldl
    (fun caches call =>
      (processRagQuery helpers config call.services store call.request caches).2)
    {}

/-- The outcome of a call after earlier ones; `none` when the request fails. -/
def respond (store : List Point) (earlier : List Call) (call : Call) : Option Outcome :=
  (processRagQuery helpers config call.services store call.request
    (cachesAfter helpers config store earlier)).1

namespace Call

/-- The call can store its answer: it is not forced, not streaming and not routed around
retrieval. -/
def storesAnswer (call : Call) : Bool :=
  !call.request.forceRefresh && !call.request.stream &&
    !(config.adaptiveRoutingEnabled && helpers.classifiesDirect call.request.query)

def groundingTexts (call : Call) : List String :=
  [call.request.query, generateHypotheticalAnswer call.services call.request.query]

def embeddedTexts (call : Call) : List String :=
  ("More specific: " ++ call.request.query) :: call.groundingTexts

end Call

/-! The pipeline is made of a few blocks that read caches: a discipline they follow, it follows. -/

section Discipline

variable {helpers config} {inv : Caches → Prop} (rule : Attempt.Discipline inv)
  {services : Services} {store : List Point} {request : Request} {version : Option String}
  {accessFilter : Option (List (Condition Key String))}

theorem hybridSearch_follows {text : String} {topK : Nat}
    (embeds : rule.Holds (computeDenseEmbedding helpers services text)) :
    rule.Holds (hybridSearch helpers config services store text version topK accessFilter) := by
  refine rule.andThen embeds ?_
  intro vector
  refine rule.andThen (rule.ofOption _) ?_
  intro dense
  refine rule.andThen (rule.ofOption _) ?_
  intro sparse
  exact rule.value _

theorem searchStage_follows {text : String} {topK : Nat} {all : List Hit}
    (embeds : rule.Holds (computeDenseEmbedding helpers services text)) :
    rule.Holds (searchStage helpers config services store version accessFilter text topK all) := by
  refine rule.andThen (hybridSearch_follows rule embeds) ?_
  intro results
  exact rule.value _

theorem directStages_follows {query text : String} {all : List Hit}
    (embeds : rule.Holds (computeDenseEmbedding helpers services text)) :
    rule.Holds
      (directStages helpers config services store query version accessFilter text all) := by
  refine rule.andThen (searchStage_follows rule embeds) ?_
  intro first
  split
  · exact rule.value _
  split
  · exact rule.value _
  refine rule.andThen (searchStage_follows rule embeds) ?_
  intro second
  split
  · exact rule.value _
  split
  · exact rule.value _
  refine rule.andThen (searchStage_follows rule embeds) ?_
  intro third
  refine rule.andThen (rule.ofOption _) ?_
  intro graphContext
  exact rule.value _

theorem hydeStage_follows {query : String} (embeds : rule.Holds
      (computeDenseEmbedding helpers services (generateHypotheticalAnswer services query))) :
    rule.Holds (hydeStage helpers config services store query version accessFilter) := by
  unfold hydeStage
  split
  · refine rule.andThen (rule.settle (hybridSearch_follows rule embeds)) ?_
    intro found
    exact rule.value _
  · exact rule.value _

theorem progressiveRetrieve_follows {query : String}
    (direct : rule.Holds (computeDenseEmbedding helpers services query))
    (hypothetical : rule.Holds
      (computeDenseEmbedding helpers services (generateHypotheticalAnswer services query))) :
    rule.Holds
      (progressiveRetrieve helpers config services store query version accessFilter) := by
  refine rule.andThen (hydeStage_follows rule hypothetical) ?_
  intro all
  dsimp only
  split
  · exact rule.value _
  · apply directStages_follows rule
    split
    · exact direct
    · exact hypothetical

theorem retrieveHits_follows
    (direct : rule.Holds (computeDenseEmbedding helpers services request.query))
    (hypothetical : rule.Holds (computeDenseEmbedding helpers services
      (generateHypotheticalAnswer services request.query))) :
    rule.Holds (retrieveHits helpers config services store request) := by
  unfold retrieveHits
  dsimp only
  split
  · exact rule.value _
  split
  · refine rule.andThen (progressiveRetrieve_follows rule direct hypothetical) ?_
    intro result
    exact rule.value _
  · exact hybridSearch_follows rule direct

theorem rerankChunks_follows {query : String} {texts : List String} {topK : Nat}
    (ranks : texts ≠ [] → rule.Holds
      (rerankScores helpers services query (texts.map (truncateText config)))) :
    rule.Holds (rerankChunks helpers config services query texts topK) := by
  unfold rerankChunks
  split
  · exact rule.value _
  · rename_i some
    refine rule.andThen (ranks some) ?_
    intro scores
    exact rule.value _

theorem ground_follows {hits : List Hit}
    (ranks : ∀ texts, texts ≠ [] → rule.Holds (rerankScores helpers services request.query texts))
    (corrects : ∀ action,
      Attempt.Keeps inv (correctiveSearch helpers config services store request action)) :
    rule.Holds (ground helpers config services store request hits) := by
  unfold ground
  dsimp only
  split
  · exact rule.raise
  split
  · exact rule.value _
  refine rule.andThen (rerankChunks_follows rule ?_) ?_
  · intro some
    exact ranks _ (by simpa using some)
  · intro indices
    exact rule.skip (corrects _) (rule.value _)

theorem generateAnswer_follows {grounding : Grounding}
    (stores : request.stream = false → ∀ response,
      rule.Holds (storeAnswer helpers config services request response)) :
    rule.Holds (generateAnswer helpers config services request grounding) := by
  unfold generateAnswer
  dsimp only
  split
  · exact rule.value _
  · rename_i plain
    refine rule.andThen (stores (by simpa using plain) _) ?_
    intro stored
    exact rule.value _

theorem answerAnew_follows
    (direct : rule.Holds (computeDenseEmbedding helpers services request.query))
    (hypothetical : rule.Holds (computeDenseEmbedding helpers services
      (generateHypotheticalAnswer services request.query)))
    (ranks : ∀ texts, texts ≠ [] → rule.Holds (rerankScores helpers services request.query texts))
    (corrects : ∀ action,
      Attempt.Keeps inv (correctiveSearch helpers config services store request action))
    (stores : request.stream = false →
      ¬ (config.adaptiveRoutingEnabled ∧ helpers.classifiesDirect request.query) →
        ∀ response, rule.Holds (storeAnswer helpers config services request response)) :
    rule.Holds (answerAnew helpers config services store request) := by
  unfold answerAnew
  split
  · refine rule.andThen (rule.ofOption _) ?_
    intro response
    exact rule.value _
  · rename_i retrieves
    refine rule.andThen (rule.settle (retrieveHits_follows rule direct hypothetical)) ?_
    intro found
    refine rule.andThen (ground_follows rule ranks corrects) ?_
    intro grounding
    exact generateAnswer_follows rule (fun plain => stores plain retrieves)

end Discipline

/-! Where the entries of the caches come from. -/

section Traces

variable (past : List Call)

def Embedded (text : String) (vector : Vec) : Prop :=
  ∃ call ∈ past, text ∈ call.embeddedTexts ∧ call.services.encode text = some vector

def Scored (key : String) (rank : ℚ) : Prop :=
  ∃ call ∈ past, ∃ predict, call.services.reranker = some predict ∧
    ∃ text, key = rerankKey helpers call.request.query text ∧ rank = predict call.request.query text

/-- A past call can have stored an answer, to a query with this embedding for the semantic
cache. -/
def Answered (call : Call) : Prop := call ∈ past ∧ call.storesAnswer helpers config = true

def AnsweredAs (call : Call) (vector : Vec) : Prop :=
  Answered helpers config past call ∧ call.services.semanticEncode call.request.query = some vector

structure Traced (caches : Caches) : Prop where
  exact : ∀ key vector, caches.embedding.exact.get? key = some vector →
    ∃ text, Embedded past text vector ∧ key = EmbeddingCache.hashQuery helpers text
  queries : ∀ item ∈ caches.embedding.queryEmbeddings, Embedded past item.1 item.2
  vectors : caches.vectors.All (fun key vector =>
    ∃ text, Embedded past text vector ∧ key = vectorKey helpers text)
  ranks : caches.ranks.All (Scored helpers past)
  responses : caches.responses.All (fun key _ =>
    ∃ call, Answered helpers config past call ∧ key = cacheKey call.request)
  buckets : caches.semantic.buckets.All (fun key ids => ∀ id ∈ ids, ∃ call vector,
    AnsweredAs helpers config past call vector ∧
      key = SemanticCache.bucketKey helpers.md5 (helpers.fixed 2) vector ∧
        id = SemanticCache.entryKey helpers.md5 call.request.query)
  entries : caches.semantic.entries.All (fun key entry => ∃ call,
    AnsweredAs helpers config past call entry.embedding ∧
      key = SemanticCache.entryKey helpers.md5 call.request.query)

def Confused (text other : String) : Prop :=
  EmbeddingCache.hashQuery helpers text = EmbeddingCache.hashQuery helpers other ∨
    EmbeddingCache.overlaps helpers text other = true ∨
      vectorKey helpers text = vectorKey helpers other

end Traces

section Kept

variable {helpers config} {past : List Call} {caches : Caches}

theorem traced_empty : Traced helpers config past {} where
  exact key vector found := by cases found
  queries item member := by cases member
  vectors := InMemoryCache.all_empty
  ranks := InMemoryCache.all_empty
  responses := InMemoryCache.all_empty
  buckets := InMemoryCache.all_empty
  entries := InMemoryCache.all_empty

theorem Embedded.mono {later : List Call} (grows : past ⊆ later) {text : String} {vector : Vec} :
    Embedded past text vector → Embedded later text vector
  | ⟨call, member, known⟩ => ⟨call, grows member, known⟩

theorem Traced.mono {later : List Call} (known : Traced helpers config past caches)
    (grows : past ⊆ later) : Traced helpers config later caches where
  exact key vector found := by
    obtain ⟨text, embedded, same⟩ := known.exact key vector found
    exact ⟨text, embedded.mono grows, same⟩
  queries item member := (known.queries item member).mono grows
  vectors := known.vectors.mono fun _ _ ⟨text, embedded, same⟩ =>
    ⟨text, embedded.mono grows, same⟩
  ranks := known.ranks.mono fun _ _ ⟨call, member, scored⟩ => ⟨call, grows member, scored⟩
  responses := known.responses.mono fun _ _ ⟨call, answered, same⟩ =>
    ⟨call, ⟨grows answered.1, answered.2⟩, same⟩
  buckets := known.buckets.mono fun _ _ listed id member => by
    obtain ⟨call, vector, answered, same⟩ := listed id member
    exact ⟨call, vector, ⟨⟨grows answered.1.1, answered.1.2⟩, answered.2⟩, same⟩
  entries := known.entries.mono fun _ _ ⟨call, answered, same⟩ =>
    ⟨call, ⟨⟨grows answered.1.1, answered.1.2⟩, answered.2⟩, same⟩

theorem Traced.embedding_get (known : Traced helpers config past caches) {text : String}
    {vector : Vec} (found : caches.embedding.get helpers text = some vector) :
    ∃ other, Embedded past other vector ∧ Confused helpers text other := by
  unfold EmbeddingCache.get at found
  split at found
  · rename_i hit stored
    obtain rfl := Option.some.inj found
    obtain ⟨other, embedded, same⟩ := known.exact _ _ stored
    exact ⟨other, embedded, Or.inl same⟩
  · obtain ⟨item, hit, rfl⟩ := Option.map_eq_some_iff.mp found
    have similar : EmbeddingCache.overlaps helpers text item.1 = true := by
      simpa using List.find?_some hit
    exact ⟨item.1, known.queries item (List.mem_of_find?_eq_some hit), Or.inr (Or.inl similar)⟩

theorem Traced.embedding_set (known : Traced helpers config past caches) {text : String}
    {vector : Vec} (new : Embedded past text vector) :
    Traced helpers config past
      { caches with embedding := caches.embedding.set helpers text vector } := by
  have stored : ∀ key other, (caches.embedding.exact.set (EmbeddingCache.hashQuery helpers text)
      vector).get? key = some other →
        ∃ source, Embedded past source other ∧ key = EmbeddingCache.hashQuery helpers source := by
    intro key other found
    rw [Dict.get?_set] at found
    split at found
    · rename_i same
      obtain rfl := Option.some.inj found
      exact ⟨text, new, same⟩
    · exact known.exact key other found
  have listed : ∀ item ∈ caches.embedding.queryEmbeddings ++ [(text, vector)],
      Embedded past item.1 item.2 := by
    intro item member
    rcases List.mem_append.mp member with old | fresh
    · exact known.queries item old
    · obtain rfl := List.mem_singleton.mp fresh
      exact new
  refine { known with exact := ?_, queries := ?_ }
  · intro key other found
    simp only [EmbeddingCache.set] at found
    split at found
    · dsimp only at found
      rw [Dict.get?_eraseAll] at found
      split at found
      · cases found
      · exact stored key other found
    · exact stored key other found
  · intro item member
    simp only [EmbeddingCache.set] at member
    split at member
    · dsimp only at member
      exact listed item (List.mem_of_mem_drop member)
    · exact listed item member

theorem computeDenseEmbedding_keeps {call : Call} (member : call ∈ past) {text : String}
    (embeds : text ∈ call.embeddedTexts) :
    Attempt.Keeps (Traced helpers config past)
      (computeDenseEmbedding helpers call.services text) := by
  intro caches known
  have looked := known.vectors.get call.services.startedAt (vectorKey helpers text)
  unfold computeDenseEmbedding
  split
  · exact known
  dsimp only
  split
  · exact { known with vectors := looked }
  split
  · exact { known with vectors := looked }
  · rename_i vector encoded
    have new : Embedded past text vector := ⟨call, member, embeds, encoded⟩
    exact { known.embedding_set new with vectors := looked.set ⟨text, new, rfl⟩ }

theorem computeDenseEmbedding_eq {call : Call} {text : String}
    (clear : ∀ other vector, Embedded past other vector → Confused helpers text other →
      call.services.encode text = some vector)
    (known : Traced helpers config past caches) :
    (computeDenseEmbedding helpers call.services text caches).1 = call.services.encode text := by
  unfold computeDenseEmbedding
  split
  · rename_i vector found
    obtain ⟨other, embedded, confused⟩ := known.embedding_get found
    exact (clear other vector embedded confused).symm
  dsimp only
  split
  · rename_i vector found
    obtain ⟨other, embedded, same⟩ := known.vectors.found found
    exact (clear other vector embedded (Or.inr (Or.inr same))).symm
  split
  · rename_i raised
    exact raised.symm
  · rename_i vector encoded
    exact encoded.symm

theorem cachedScores_keeps {holds : String → ℚ → Prop} (now : ℚ) (keys : List String)
    {ranks : InMemoryCache ℚ} (known : ranks.All holds) :
    (cachedScores now keys ranks).2.All holds := by
  induction keys generalizing ranks with
  | nil => exact known
  | cons key rest ih => exact ih (known.get now key)

theorem cachedScores_found {holds : String → ℚ → Prop} (now : ℚ) (keys : List String)
    {ranks : InMemoryCache ℚ} (known : ranks.All holds) :
    List.Forall₂ (fun cached key => ∀ rank, cached = some rank → holds key rank)
      (cachedScores now keys ranks).1 keys := by
  induction keys generalizing ranks with
  | nil => exact List.Forall₂.nil
  | cons key rest ih =>
      exact List.Forall₂.cons (fun rank hit => known.found hit) (ih (known.get now key))

theorem rerankScores_keeps {call : Call} (member : call ∈ past) (texts : List String) :
    Attempt.Keeps (Traced helpers config past)
      (rerankScores helpers call.services call.request.query texts) := by
  intro caches known
  have looked := cachedScores_keeps call.services.startedAt
    (texts.map (rerankKey helpers call.request.query)) known.ranks
  unfold rerankScores
  dsimp only
  split
  · split
    · exact { known with ranks := looked }
    · rename_i predict reranks
      refine { known with ranks := ?_ }
      refine List.foldlRecOn (motive := fun ranks : InMemoryCache ℚ =>
        ranks.All (Scored helpers past)) _ _ looked ?_
      intro ranks kept text _
      exact kept.set ⟨call, member, predict, reranks, text, rfl, rfl⟩
  · exact { known with ranks := looked }

theorem scores_of_cached (predict : String → ℚ) {cached : List (Option ℚ)} {texts : List String}
    (right : List.Forall₂ (fun hit text => ∀ rank, hit = some rank → predict text = rank) cached
      texts) :
    List.zipWith (fun hit text => hit.getD (predict text)) cached texts = texts.map predict ∧
      (none ∉ cached → cached.map (fun hit => hit.getD 0) = texts.map predict) := by
  induction right with
  | nil => exact ⟨rfl, fun _ => rfl⟩
  | @cons hit text hits texts head tail ih =>
      cases hit with
      | none => exact ⟨by simp [ih.1], fun complete => absurd List.mem_cons_self complete⟩
      | some rank =>
          have same := head rank rfl
          refine ⟨by simp [ih.1, same], ?_⟩
          intro complete
          have later := ih.2 (fun member => complete (List.mem_cons_of_mem _ member))
          simp [later, same]

theorem rerankScores_eq {call : Call} {texts : List String} (asked : texts ≠ [])
    (clear : ∀ text rank, Scored helpers past (rerankKey helpers call.request.query text) rank →
      ∃ predict, call.services.reranker = some predict ∧ predict call.request.query text = rank)
    (known : Traced helpers config past caches) :
    (rerankScores helpers call.services call.request.query texts caches).1 =
      call.services.reranker.map (fun predict => texts.map (predict call.request.query)) := by
  have found := cachedScores_found call.services.startedAt
    (texts.map (rerankKey helpers call.request.query)) known.ranks
  rw [List.forall₂_map_right_iff] at found
  unfold rerankScores
  dsimp only
  generalize (cachedScores call.services.startedAt
    (texts.map (rerankKey helpers call.request.query)) caches.ranks).1 = cached at found ⊢
  cases reranks : call.services.reranker with
  | none =>
      have missing : none ∈ cached := by
        cases found with
        | nil => exact absurd rfl asked
        | @cons hit text hits rest head tail =>
            cases hit with
            | none => exact List.mem_cons_self
            | some rank =>
                obtain ⟨predict, impossible, -⟩ := clear text rank (head rank rfl)
                rw [reranks] at impossible
                cases impossible
      rw [if_pos missing]
      rfl
  | some predict =>
      have right := scores_of_cached (predict call.request.query)
        (found.imp fun hit text known rank hitRank => by
          obtain ⟨other, same, value⟩ := clear text rank (known rank hitRank)
          rw [reranks] at same
          obtain rfl := Option.some.inj same
          exact value)
      split
      · exact congrArg some right.1
      · rename_i complete
        exact congrArg some (right.2 complete)

end Kept

/-! The caches of answers. -/

section Answers

variable {helpers config} {past : List Call} {caches : Caches}

theorem scan_keeps {holds : String → SemanticEntry → Prop} (now threshold : ℚ) (vector : Vec)
    (ids : List String) {entries : InMemoryCache SemanticEntry} (known : entries.All holds) :
    (SemanticCache.scan now threshold vector ids entries).2.All holds := by
  induction ids generalizing entries with
  | nil => exact known
  | cons id rest ih =>
      simp only [SemanticCache.scan]
      split
      · exact ih (known.get now id)
      · split
        · exact known.get now id
        · exact ih (known.get now id)

theorem scan_misses {holds : String → SemanticEntry → Prop} {threshold : ℚ} {vector : Vec}
    {ids : List String} (now : ℚ)
    (distant : ∀ id ∈ ids, ∀ entry, holds id entry →
      SemanticCache.cosineSimilarity vector entry.embedding < threshold)
    {entries : InMemoryCache SemanticEntry} (known : entries.All holds) :
    (SemanticCache.scan now threshold vector ids entries).1 = none := by
  induction ids generalizing entries with
  | nil => rfl
  | cons id rest ih =>
      have later := ih (fun other member => distant other (List.mem_cons_of_mem id member))
        (known.get now id)
      simp only [SemanticCache.scan]
      split
      · exact later
      · rename_i entry hit
        have far := distant id List.mem_cons_self entry (known.found hit)
        rw [if_neg (not_le.mpr far)]
        exact later

theorem cachedAnswer_keeps (services : Services) (request : Request) :
    Attempt.Keeps (Traced helpers config past) (cachedAnswer helpers config services request) := by
  intro caches known
  have exact := known.responses.get services.startedAt (cacheKey request)
  have looked : Traced helpers config past { caches with semantic :=
      (if config.semanticCacheEnabled then
        SemanticCache.get helpers.md5 (helpers.fixed 2) services.startedAt
          config.semanticCacheSimilarity (services.semanticEncode request.query) caches.semantic
      else (none, caches.semantic)).2 } := by
    split
    · unfold SemanticCache.get
      split
      · exact known
      · exact { known with
                buckets := known.buckets.get _ _, entries := scan_keeps _ _ _ _ known.entries }
    · exact known
  simp only [cachedAnswer, Attempt.ofState]
  split
  · exact known
  split
  · exact looked
  · exact { looked with responses := exact }

/-- No past call can have left an answer that this request takes. -/
structure Fresh (helpers : Helpers) (config : Config) (past : List Call) (call : Call) : Prop where
  /-- None was stored under the key of the request. -/
  exact : ∀ other, Answered helpers config past other →
    cacheKey other.request ≠ cacheKey call.request
  /-- None that is filed in the bucket of the query has an embedding similar to the query's. -/
  similar : config.semanticCacheEnabled = true → ∀ vector,
    call.services.semanticEncode call.request.query = some vector →
      ∀ filed filedVector, AnsweredAs helpers config past filed filedVector →
        SemanticCache.bucketKey helpers.md5 (helpers.fixed 2) vector =
          SemanticCache.bucketKey helpers.md5 (helpers.fixed 2) filedVector →
          ∀ other otherVector, AnsweredAs helpers config past other otherVector →
            SemanticCache.entryKey helpers.md5 filed.request.query =
              SemanticCache.entryKey helpers.md5 other.request.query →
              SemanticCache.cosineSimilarity vector otherVector < config.semanticCacheSimilarity

theorem semanticCache_misses {call : Call} (fresh : Fresh helpers config past call)
    (enabled : config.semanticCacheEnabled = true) (known : Traced helpers config past caches) :
    (SemanticCache.get helpers.md5 (helpers.fixed 2) call.services.startedAt
      config.semanticCacheSimilarity (call.services.semanticEncode call.request.query)
      caches.semantic).1 = none := by
  unfold SemanticCache.get
  split
  · rfl
  rename_i vector embedded
  refine scan_misses call.services.startedAt ?_ known.entries
  intro id member entry given
  rcases given with ⟨other, otherAnswered, sameEntry⟩
  cases listed : (InMemoryCache.get call.services.startedAt
      (SemanticCache.bucketKey helpers.md5 (helpers.fixed 2) vector) caches.semantic.buckets).1 with
  | none =>
      rw [listed] at member
      simp at member
  | some ids =>
      rw [listed] at member
      have inBucket : id ∈ ids := List.mem_of_mem_take member
      obtain ⟨filed, filedVector, filedAnswered, sameBucket, filedId⟩ :=
        known.buckets.found listed id inBucket
      exact fresh.similar enabled vector embedded filed filedVector filedAnswered sameBucket other
        entry.embedding otherAnswered (filedId.symm.trans sameEntry)

theorem cachedAnswer_misses {call : Call}
    (fresh : call.request.forceRefresh = true ∨ Fresh helpers config past call)
    (known : Traced helpers config past caches) :
    (cachedAnswer helpers config call.services call.request caches).1 = some none := by
  simp only [cachedAnswer, Attempt.ofState]
  rcases fresh with forced | fresh
  · rw [if_pos forced]
  split
  · rfl
  · have similar : (if config.semanticCacheEnabled then
        SemanticCache.get helpers.md5 (helpers.fixed 2) call.services.startedAt
          config.semanticCacheSimilarity (call.services.semanticEncode call.request.query)
          caches.semantic
        else (none, caches.semantic)).1 = none := by
      split
      · rename_i enabled
        exact semanticCache_misses fresh enabled known
      · rfl
    have exact : (InMemoryCache.get call.services.startedAt (cacheKey call.request)
        caches.responses).1 = none := by
      cases found : (InMemoryCache.get call.services.startedAt (cacheKey call.request)
          caches.responses).1 with
      | none => rfl
      | some answer =>
          obtain ⟨other, answered, same⟩ := known.responses.found found
          exact absurd same.symm (fresh.exact other answered)
    simp only [similar, exact, Option.filter_none]

theorem filedAnswer_traced (known : Traced helpers config past caches) {call : Call} {vector : Vec}
    (answered : AnsweredAs helpers config past call vector) (response : String) :
    Traced helpers config past
      { caches with
        semantic :=
          SemanticCache.set helpers.md5 (helpers.fixed 2) call.services.finishedAt
            config.semanticCacheTtl call.request.query (some vector) response
            caches.semantic } := by
  have entries := known.entries
  have looked := known.buckets.get call.services.finishedAt
    (SemanticCache.bucketKey helpers.md5 (helpers.fixed 2) vector)
  simp only [SemanticCache.set]
  split
  · exact { known with buckets := looked, entries := entries.set ⟨call, answered, rfl⟩ }
  · refine { known with buckets := looked.set ?_, entries := entries.set ⟨call, answered, rfl⟩ }
    intro id member
    rcases List.mem_cons.mp (List.mem_of_mem_take member) with rfl | old
    · exact ⟨call, vector, answered, rfl, rfl⟩
    · cases listed : (InMemoryCache.get call.services.finishedAt
          (SemanticCache.bucketKey helpers.md5 (helpers.fixed 2) vector)
          caches.semantic.buckets).1 with
      | none =>
          rw [listed] at old
          cases old
      | some ids =>
          rw [listed] at old
          exact known.buckets.found listed id old

theorem storeAnswer_keeps {call : Call} (member : call ∈ past)
    (plain : call.request.stream = false)
    (retrieves : ¬ (config.adaptiveRoutingEnabled ∧ helpers.classifiesDirect call.request.query))
    (response : String) :
    Attempt.Keeps (Traced helpers config past)
      (storeAnswer helpers config call.services call.request response) := by
  intro caches known
  simp only [storeAnswer, Attempt.ofState]
  split
  · exact known
  rename_i forced
  have answered : Answered helpers config past call := by
    have direct : (config.adaptiveRoutingEnabled &&
        helpers.classifiesDirect call.request.query) = false := by
      rwa [← Bool.not_eq_true, Bool.and_eq_true]
    exact ⟨member, by simp [Call.storesAnswer, plain, forced, direct]⟩
  have filed : Traced helpers config past
      { caches with
        semantic :=
          if config.semanticCacheEnabled then
            SemanticCache.set helpers.md5 (helpers.fixed 2) call.services.finishedAt
              config.semanticCacheTtl call.request.query
              (call.services.semanticEncode call.request.query) response caches.semantic
          else caches.semantic } := by
    split
    · cases embedded : call.services.semanticEncode call.request.query with
      | none => exact known
      | some vector => exact filedAnswer_traced known ⟨answered, embedded⟩ response
    · exact known
  exact { filed with responses := known.responses.set ⟨call, answered, rfl⟩ }

end Answers

/-! Whole requests, and histories of them. -/

section Requests

variable {helpers config} {past : List Call} {call : Call}

theorem correctiveSearch_keeps (store : List Point) (member : call ∈ past) (action : Action) :
    Attempt.Keeps (Traced helpers config past)
      (correctiveSearch helpers config call.services store call.request action) := by
  have embeds : ∀ text ∈ call.embeddedTexts, Attempt.Keeps (Traced helpers config past)
      (computeDenseEmbedding helpers call.services text) :=
    fun text listed => computeDenseEmbedding_keeps member listed
  cases action with
  | rewrite =>
      exact hybridSearch_follows (Attempt.keeping _) (embeds _ (by simp [Call.embeddedTexts]))
  | expand =>
      exact hybridSearch_follows (Attempt.keeping _)
        (embeds _ (by simp [Call.embeddedTexts, Call.groundingTexts]))
  | use => exact Attempt.keeps_value _
  | fallback => exact Attempt.keeps_value _

theorem processRagQuery_keeps (store : List Point) (member : call ∈ past) :
    Attempt.Keeps (Traced helpers config past)
      (processRagQuery helpers config call.services store call.request) := by
  refine Attempt.keeps_andThen (cachedAnswer_keeps _ _) ?_
  intro cached
  cases cached with
  | some response => exact Attempt.keeps_value _
  | none =>
      refine answerAnew_follows (Attempt.keeping _) ?_ ?_ ?_ ?_ ?_
      · exact computeDenseEmbedding_keeps member (by simp [Call.embeddedTexts, Call.groundingTexts])
      · exact computeDenseEmbedding_keeps member (by simp [Call.embeddedTexts, Call.groundingTexts])
      · exact fun texts _ => rerankScores_keeps member texts
      · exact correctiveSearch_keeps store member
      · exact storeAnswer_keeps member

theorem cachesAfter_traced (store : List Point) (calls : List Call) :
    Traced helpers config calls (cachesAfter helpers config store calls) :=
  List.foldlRecOn (motive := fun caches => Traced helpers config calls caches) _ _ traced_empty
    (fun _ known _ member => processRagQuery_keeps store member _ known)

/-- The caches hold nothing under the keys of the call that could change its answer. -/
structure Undisturbed (helpers : Helpers) (config : Config) (earlier : List Call) (call : Call) :
    Prop where
  answers : call.request.forceRefresh = true ∨ Fresh helpers config earlier call
  /-- The texts that the embedding cache takes for those of the request embed like them. -/
  embeddings : ∀ text ∈ call.groundingTexts, ∀ other vector,
    Embedded (earlier ++ [call]) other vector → Confused helpers text other →
      call.services.encode text = some vector
  /-- The scores that can be cached for the request are the ones its reranker gives. -/
  scores : ∀ text rank,
    Scored helpers (earlier ++ [call]) (rerankKey helpers call.request.query text) rank →
      ∃ predict, call.services.reranker = some predict ∧ predict call.request.query text = rank

theorem answerAnew_steady {earlier : List Call} (store : List Point)
    (undisturbed : Undisturbed helpers config earlier call) :
    Attempt.Steady (Traced helpers config (earlier ++ [call]))
      (answerAnew helpers config call.services store call.request) := by
  have member : call ∈ earlier ++ [call] := by simp
  have embeds : ∀ text ∈ call.groundingTexts,
      Attempt.Steady (Traced helpers config (earlier ++ [call]))
        (computeDenseEmbedding helpers call.services text) := by
    intro text listed
    refine ⟨call.services.encode text, fun caches known => ?_⟩
    exact ⟨computeDenseEmbedding_eq (undisturbed.embeddings text listed) known,
      computeDenseEmbedding_keeps member (List.mem_cons_of_mem _ listed) caches known⟩
  refine answerAnew_follows (Attempt.steadying _) ?_ ?_ ?_ ?_ ?_
  · exact embeds _ (by simp [Call.groundingTexts])
  · exact embeds _ (by simp [Call.groundingTexts])
  · intro texts asked
    exact ⟨_, fun caches known => ⟨rerankScores_eq asked undisturbed.scores known,
      rerankScores_keeps member texts caches known⟩⟩
  · exact correctiveSearch_keeps store member
  · intro plain retrieves response
    exact ⟨some (), fun caches known =>
      ⟨rfl, storeAnswer_keeps member plain retrieves response caches known⟩⟩

theorem respond_answersAnew {earlier : List Call} (store : List Point)
    (undisturbed : Undisturbed helpers config earlier call) :
    ∃ caches, Traced helpers config (earlier ++ [call]) caches ∧
      respond helpers config store earlier call =
        (answerAnew helpers config call.services store call.request caches).1 := by
  have known : Traced helpers config earlier (cachesAfter helpers config store earlier) :=
    cachesAfter_traced store earlier
  have missed := cachedAnswer_misses undisturbed.answers known
  refine ⟨_, (cachedAnswer_keeps call.services call.request _ known).mono
    (List.subset_append_left earlier [call]), ?_⟩
  unfold respond processRagQuery
  simp only [Attempt.bind_eq]
  rw [Attempt.andThen_of_some missed]

end Requests

/-! Two stores. -/

section Stores

def accessible (user : UserContext) (store : List Point) : List Point :=
  store.filter (fun point => pushedDown user point.payload.access)

variable {helpers config} {user : UserContext} {store other : List Point}

theorem matching_eq_accessible (version : Option String) :
    matching version (buildAccessFilter user) store =
      matching version none (accessible user store) := by
  unfold matching accessible
  rw [List.filter_filter]
  apply List.filter_congr
  intro point _
  simp [filterConditions, pushedDown, must_append]

theorem matching_congr (same : accessible user store = accessible user other)
    (version : Option String) :
    matching version (buildAccessFilter user) store =
      matching version (buildAccessFilter user) other := by
  rw [matching_eq_accessible, matching_eq_accessible, same]

variable {services : Services} {request : Request}

theorem hybridSearch_congr (same : accessible request.user store = accessible request.user other)
    (text : String) (version : Option String) (topK : Nat) :
    hybridSearch helpers config services store text version topK
        (buildAccessFilter request.user) =
      hybridSearch helpers config services other text version topK
        (buildAccessFilter request.user) := by
  unfold hybridSearch
  rw [matching_congr same]

theorem answerAnew_congr (same : accessible request.user store = accessible request.user other) :
    answerAnew helpers config services store request =
      answerAnew helpers config services other request := by
  simp only [answerAnew, retrieveHits, ground, progressiveRetrieve, hydeStage, directStages,
    searchStage, hybridSearch_congr same]
  have corrective : correctiveSearch helpers config services store request =
      correctiveSearch helpers config services other request := by
    funext action
    cases action <;> simp only [correctiveSearch, hybridSearch_congr same]
  rw [corrective]

/-- Over two stores that hold the same points accessible to its user, a request that the caches
leave undisturbed gets the same outcome after any earlier calls. -/
theorem later_response_same {earlier : List Call} {call : Call}
    (same : accessible call.request.user store = accessible call.request.user other)
    (undisturbed : Undisturbed helpers config earlier call) :
    respond helpers config store earlier call = respond helpers config other earlier call := by
  obtain ⟨first, firstTraced, firstAnswer⟩ := respond_answersAnew store undisturbed
  obtain ⟨second, secondTraced, secondAnswer⟩ := respond_answersAnew other undisturbed
  rw [firstAnswer, secondAnswer, answerAnew_congr same]
  exact (answerAnew_steady other undisturbed).agree firstTraced secondTraced

end Stores

section Runs

def repeating (semanticEncode : String → Option Vec) : Services :=
  { startedAt := 0
    finishedAt := 0
    encode := fun _ => some [1]
    qdrant := findingAll
    graphExpandQuery := fun _ => some ""
    callSlm := fun _ => some ""
    reranker := some (fun _ _ => 0)
    complete := fun messages _ _ => messages.head?.map Message.content
    semanticEncode := semanticEncode }

def cachingConfig : Config := { semanticCacheEnabled := true }

def engineer : UserContext :=
  { userId := "1", username := "ann", roles := ["developer"], groups := ["eng"] }

def viewer : UserContext := { userId := "2", username := "bob", roles := ["viewer"] }

def handbook : Point :=
  { id := "1", payload := { access := { accessLevel := some "public" }, text := some "Opening" } }

def payroll : Point :=
  { id := "2"
    payload :=
      { access := { accessLevel := some "confidential", allowedGroups := some ["eng"] }
        text := some "Salaries" } }

/-- A query about something else is answered from the store, as over the store without the
payroll. -/
theorem unrelated_query_undisturbed :
    let meaning (query : String) : Option Vec := some (if query = "pay" then [1, 0] else [0, 1])
    let asks (user : UserContext) (query : String) : Call :=
      ⟨{ query := query, user := user }, repeating meaning⟩
    respond Helpers.plain cachingConfig [handbook, payroll] [asks engineer "pay"]
        (asks viewer "hours") =
      respond Helpers.plain cachingConfig [handbook] [asks engineer "pay"]
        (asks viewer "hours") := by
  intro meaning asks
  apply later_response_same
  · decide +kernel
  · refine ⟨Or.inr ⟨?_, ?_⟩, ?_, ?_⟩
    · intro other given
      rcases given with ⟨member, -⟩
      obtain rfl := List.mem_singleton.mp member
      decide +kernel
    · intro given vector embedded filed filedVector also further other otherVector besides moreover
      rcases given with -
      rcases also with -
      rcases further with -
      rcases besides with ⟨⟨member, -⟩, asked⟩
      rcases moreover with -
      obtain rfl := List.mem_singleton.mp member
      obtain rfl := Option.some.inj embedded
      obtain rfl := Option.some.inj asked
      decide +kernel
    · intro text given other vector also further
      rcases given with -
      rcases also with ⟨call, member, -, embedded⟩
      rcases further with -
      simp only [List.singleton_append, List.mem_cons, List.not_mem_nil, or_false] at member
      rcases member with rfl | rfl <;> exact embedded
    · intro text rank given
      rcases given with ⟨call, member, predict, reranks, other, -, rfl⟩
      simp only [List.singleton_append, List.mem_cons, List.not_mem_nil, or_false] at member
      rcases member with rfl | rfl
      all_goals
        obtain rfl := Option.some.inj reranks
        exact ⟨_, rfl, rfl⟩

/-- The semantic cache hands the answer from a confidential passage to a viewer who asks the same
question. -/
theorem semantic_cache_discloses_answer :
    ∃ (helpers : Helpers) (config : Config) (store other : List Point) (earlier : List Call)
      (call : Call),
      (∀ before ∈ earlier, before.request.user.userId ≠ call.request.user.userId) ∧
        store.filter (fun point => visible call.request.user (flat point.payload.access)) =
          other.filter (fun point => visible call.request.user (flat point.payload.access)) ∧
        respond helpers config store earlier call ≠ respond helpers config other earlier call :=
  ⟨Helpers.plain, cachingConfig, [payroll], [],
    [⟨{ query := "pay", user := engineer }, repeating (fun _ => some [1])⟩],
    ⟨{ query := "pay", user := viewer }, repeating (fun _ => some [1])⟩, by decide +kernel,
    by decide +kernel, by decide +kernel⟩

end Runs

end RagSystem.Core
