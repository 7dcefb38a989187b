import RagSystem.Core.Orchestrator
import RagSystem.Core.Pipeline

/-! The chat endpoint (`proxy/app/api/chat.py`): the path a request takes, and the chunks it shows,
to the language model or as sources of the answer. -/

namespace RagSystem.Api

open AccessControl RagSystem.Core Transition

/-- A chat request after validation: the query is the first user message, the version the
requested one or the one that the query names. -/
structure ChatRequest where
  model : String
  userQuery : String
  otherMessages : List Message := []
  version : Option String := none
  temperature : ℚ := 2 / 10
  maxTokens : Option Nat := some 4096
  stream : Bool := false
  ragForceRefresh : Bool := false
  ragSkipGeneration : Bool := false
  ragTopK : Option Nat := none
  lang : Option String := none
  deriving DecidableEq, Repr

inductive Path
  | skipGeneration
  | passThrough
  | orchestrator
  | standard
  deriving DecidableEq, Repr

def useRag (model : String) : Bool :=
  "+RAG".toList.isSuffixOf model.toList || model = "rag-proxy"

def pathOf (config : Config) (chat : ChatRequest) : Path :=
  if chat.ragSkipGeneration then .skipGeneration
  else if ¬ useRag chat.model then .passThrough
  else if config.useLanggraph ∧ config.langgraphAvailable then .orchestrator
  else .standard

/-- The call of `process_rag_query`; unset numbers take the defaults. -/
def pipelineRequest (user : UserContext) (chat : ChatRequest) (query : String) (stream : Bool) :
    Request :=
  { query := query
    version := chat.version
    forceRefresh := chat.ragForceRefresh
    temperature := if chat.temperature = 0 then 2 / 10 else chat.temperature
    maxTokens := if chat.maxTokens.getD 0 = 0 then 4096 else chat.maxTokens.getD 0
    stream := stream
    otherMessages := chat.otherMessages
    user := user
    topKOverride := chat.ragTopK
    lang := chat.lang }

/-- The walk of an orchestrated request starts with the request's keys only: the user is not one
of them. -/
def startWalk (chat : ChatRequest) (caches : Caches) : Walk :=
  { node := .rewrite
    state :=
      { query := chat.userQuery, version := chat.version, temperature := chat.temperature,
        maxTokens := chat.maxTokens }
    caches := caches }

section Paths

variable (helpers : Helpers) (config : Config) (store : List Point) (user : UserContext)
  (chat : ChatRequest)

/-- The request can show the chunk: in the context it gives the language model, or behind an entry
of its `rag_sources`. The caches and the services' answers are arbitrary, and so is the query of
the standard path, which the conversation enriches. -/
inductive Shows : ChunkDict → Prop
  /-- Sources only: no answer is generated. -/
  | skipped {services : Services} {caches : Caches} {outcome : Outcome} {chunk : ChunkDict}
      (path : pathOf config chat = .skipGeneration)
      (answered : (processRagQuery helpers config services store
        (pipelineRequest user chat chat.userQuery true) caches).1 = some outcome)
      (cited : chunk ∈ outcome.cited) : Shows chunk
  | standard {services : Services} {caches : Caches} {query : String} {outcome : Outcome}
      {chunk : ChunkDict} (path : pathOf config chat = .standard)
      (answered : (processRagQuery helpers config services store
        (pipelineRequest user chat query chat.stream) caches).1 = some outcome)
      (shown : chunk ∈ outcome.context.chunks ++ outcome.cited) : Shows chunk
  | prompted {caches : Caches} {events : List (Event Walk Services)} {walk : Walk}
      {chunk : ChunkDict} (path : pathOf config chat = .orchestrator)
      (run : Run (walkStep helpers config store) (startWalk chat caches) events walk)
      (generates : walk.node = .generate) (inContext : chunk ∈ walk.state.context.chunks) :
      Shows chunk
  /-- A streaming request gets the keys of the final state instead of sources. -/
  | cited {caches : Caches} {events : List (Event Walk Services)} {walk : Walk}
      {ranked : Ranked} (path : pathOf config chat = .orchestrator) (plain : chat.stream = false)
      (run : Run (walkStep helpers config store) (startWalk chat caches) events walk)
      (ended : walk.node = .finish) (listed : ranked ∈ walk.state.rerankedChunks) :
      Shows ranked.1

end Paths

theorem startWalk_storedChunks {config : Config} {store : List Point} (chat : ChatRequest)
    (caches : Caches) : (startWalk chat caches).state.StoredChunks config store where
  retrieved ranked member := by cases member
  reranked ranked member := by cases member
  context chunk member := by cases member

/-! The orchestrated path hands any stored chunk to any user. -/

section Leak

def finding (point : Point) (score : ℚ) : Qdrant where
  dense points _ limit := some (if point ∈ points ∧ 0 < limit then [⟨point, score⟩] else [])
  sparse _ _ _ := some []
  dense_mem points _ limit hits found hit member := by
    obtain rfl := Option.some.inj found
    split at member
    · rename_i inside
      obtain rfl := List.mem_singleton.mp member
      exact inside.1
    · simp at member
  sparse_mem := Qdrant.nothing_mem
  dense_limit points _ limit hits found := by
    obtain rfl := Option.some.inj found
    split
    · rename_i inside
      exact inside.2
    · simp
  sparse_limit := Qdrant.nothing_limit

def findingServices (point : Point) (score : ℚ) : Services :=
  { startedAt := 0
    finishedAt := 0
    encode := fun _ => some []
    qdrant := finding point score
    graphExpandQuery := fun _ => none
    callSlm := fun _ => some ""
    reranker := some (fun _ _ => 0)
    complete := fun _ _ _ => some ""
    semanticEncode := fun _ => none }

section Answers

variable (helpers : Helpers) (config : Config) (point : Point) (score : ℚ)

theorem computeDenseEmbedding_answers (text : String) (caches : Caches) :
    ∃ vector, (computeDenseEmbedding helpers (findingServices point score) text caches).1 =
      some vector := by
  unfold computeDenseEmbedding
  split
  · exact ⟨_, rfl⟩
  · dsimp only
    split
    · exact ⟨_, rfl⟩
    · exact ⟨[], rfl⟩

theorem fuse_singleton {config : Config} {hit : Hit} (strong : config.strongScoreThreshold ≤ hit.score)
    (topK : Nat) : fuse config topK [hit] [] = [hit] := by
  have notBorderline : ¬ hit.score < config.strongScoreThreshold := not_lt.mpr strong
  simp [fuse, filterResultsByScore, strong, notBorderline]

theorem hybridSearch_finds {config : Config} {store : List Point} {point : Point} {score : ℚ}
    {topK : Nat} (stored : point ∈ store) (asked : topK ≠ 0)
    (strong : config.strongScoreThreshold ≤ score) (query : String) (caches : Caches) :
    (hybridSearch helpers config (findingServices point score) store query none topK none
      caches).1 = some [⟨point, score⟩] := by
  have inside : point ∈ matching none none store := by
    simp [matching, filterConditions, stored]
  obtain ⟨vector, embedded⟩ := computeDenseEmbedding_answers helpers point score query caches
  have found : (finding point score).dense (matching none none store) vector topK =
      some [⟨point, score⟩] := by
    simp [finding, inside, Nat.pos_of_ne_zero asked]
  have nothing : (finding point score).sparse (matching none none store) query topK = some [] := rfl
  have strongHit : config.strongScoreThreshold ≤ (Hit.mk point score).score := strong
  unfold hybridSearch
  simp only [Attempt.bind_eq]
  rw [Attempt.andThen_of_some embedded, Attempt.andThen_of_some found,
    Attempt.andThen_of_some nothing, fuse_singleton strongHit]
  rfl

theorem rerankChunks_singleton {topK : Nat} (asked : topK ≠ 0) (query text : String)
    (caches : Caches) :
    (rerankChunks helpers config (findingServices point score) query [text] topK caches).1 =
      some [0] := by
  have scored : ∃ rank, (rerankScores helpers (findingServices point score) query
      [truncateText config text] caches).1 = some [rank] := by
    simp only [rerankScores, cachedScores, List.map_cons, List.map_nil]
    split
    · exact ⟨_, rfl⟩
    · exact ⟨_, rfl⟩
  obtain ⟨rank, returned⟩ := scored
  unfold rerankChunks
  simp only [List.cons_ne_nil, if_false, List.map_cons, List.map_nil, Attempt.bind_eq]
  rw [Attempt.andThen_of_some returned, rankIndices_singleton config asked]
  rfl

end Answers

variable {config : Config} {store : List Point} {point : Point}

/-- What the state of the walk carries along once the chunk is retrieved. -/
structure Carries (ranked : Ranked) (state : RagState) : Prop where
  budget : state.maxTokens = some 4096
  noTools : state.toolCalls = []
  retrieved : state.retrievedChunks = [ranked]

def plainChat : ChatRequest := { model := "rag-proxy", userQuery := "?" }

theorem walk_reaches_finish (helpers : Helpers) (stored : point ∈ store)
    (retrieves : config.maxChunksRetrieval ≠ 0) (keeps : config.maxChunksAfterRerank ≠ 0) :
    ∃ score, Reaches helpers config store (startWalk plainChat {}) .finish
      (fun state => state.rerankedChunks = [(nestedChunk point.payload, score)]) := by
  -- strong for the search, and sufficient for the graph
  let raw := max config.strongScoreThreshold 1
  let services := findingServices point raw
  let score := decayedScore helpers services.startedAt point.payload raw
  let ranked : Ranked := (nestedChunk point.payload, score)
  have strong : config.strongScoreThreshold ≤ raw := le_max_left _ _
  have positive : (1 : ℚ) ≤ score := (le_max_right _ _).trans
    (le_decayedScore helpers point.payload (zero_le_one.trans (le_max_right _ _)))
  refine ⟨score, ?_⟩
  have started : Reaches helpers config store (startWalk plainChat {}) .rewrite
      (fun state => state.version = none ∧ state.maxTokens = some 4096 ∧ state.toolCalls = []) :=
    ⟨[], _, Run.nil, rfl, rfl, rfl, rfl⟩
  have rewritten : Reaches helpers config store (startWalk plainChat {}) .retrieve
      (fun state => state.version = none ∧ state.maxTokens = some 4096 ∧ state.toolCalls = []) := by
    refine started.step services ?_
    intro state caches known
    refine ⟨rewriteQuery config services state, rfl, ?_, rfl⟩
    unfold rewriteQuery
    split <;> exact known
  have retrieved : Reaches helpers config store (startWalk plainChat {}) .checkSufficiency
      (Carries ranked) := by
    refine rewritten.step services ?_
    intro state caches given
    rcases given with ⟨anyVersion, budget, noTools⟩
    have found := hybridSearch_finds helpers stored retrieves strong state.searchQuery caches
    refine ⟨{ state with retrievedChunks := [ranked] }, ?_, ⟨budget, noTools, rfl⟩, rfl⟩
    simp only [runNode, retrieve, Attempt.bind_eq, anyVersion, Attempt.andThen, Attempt.settle]
    rw [found]
    rfl
  have sufficient : Reaches helpers config store (startWalk plainChat {}) .rerank
      (Carries ranked) := by
    refine retrieved.step services ?_
    intro state caches known
    refine ⟨state, rfl, known, ?_⟩
    have average : ¬ score < 6 / 10 := by linarith
    simp [route, insufficient, known.retrieved, ranked, average]
  have reranked : Reaches helpers config store (startWalk plainChat {}) .graphExpand
      (fun state => Carries ranked state ∧ state.rerankedChunks = [ranked]) := by
    refine sufficient.step services ?_
    intro state caches known
    have returned := rerankChunks_singleton helpers config point raw keeps state.searchQuery
      ranked.1.text caches
    refine ⟨{ state with rerankedChunks := [ranked] }, ?_,
      ⟨⟨known.budget, known.noTools, known.retrieved⟩, rfl⟩, rfl⟩
    simp only [runNode, rerank, Attempt.bind_eq, known.retrieved, List.map_cons, List.map_nil]
    rw [Attempt.andThen_of_some returned]
    simp [Attempt.value, deduplicateChunks_singleton]
  have expanded : Reaches helpers config store (startWalk plainChat {}) .buildContext
      (fun state => Carries ranked state ∧ state.rerankedChunks = [ranked]) := by
    refine reranked.step services ?_
    intro state caches given
    rcases given with ⟨known, listed⟩
    exact ⟨_, rfl, ⟨⟨known.budget, known.noTools, known.retrieved⟩, listed⟩, rfl⟩
  have built : Reaches helpers config store (startWalk plainChat {}) .generate
      (fun state => Carries ranked state ∧ state.rerankedChunks = [ranked]) := by
    refine expanded.step services ?_
    intro state caches given
    rcases given with ⟨known, listed⟩
    have kept : afterBuild config [ranked] = [ranked] := by
      simp [afterBuild, sortDescending]
    simp only [runNode, buildContextNode, known.budget, listed, kept, Attempt.bind_eq]
    exact ⟨_, rfl, ⟨⟨rfl, known.noTools, known.retrieved⟩, rfl⟩, rfl⟩
  have generated : Reaches helpers config store (startWalk plainChat {}) .selfReflection
      (fun state => state.answer = "" ∧ state.rerankedChunks = [ranked]) := by
    refine built.step services ?_
    intro state caches given
    rcases given with ⟨known, listed⟩
    refine ⟨{ state with answer := "" }, rfl, ⟨rfl, listed⟩, ?_⟩
    simp [route, known.noTools]
  have reflected : Reaches helpers config store (startWalk plainChat {}) .checkConfidence
      (fun state => state.answer = "" ∧ state.rerankedChunks = [ranked]) := by
    refine generated.step services ?_
    intro state caches given
    rcases given with ⟨empty, listed⟩
    have nothing : stripText state.answer = "" := by
      rw [empty]
      rfl
    refine ⟨{ state with needsReflection := false }, ?_, ⟨empty, listed⟩, rfl⟩
    simp [runNode, selfReflection, nothing, Attempt.value]
  refine reflected.step services ?_
  intro state caches given
  rcases given with ⟨empty, listed⟩
  refine ⟨{ state with needsEscalation := false, needsSelfCritique := false }, ?_, listed, rfl⟩
  simp [runNode, checkConfidence, empty, Attempt.value]

/-- Whatever a request asks for, the user sees only chunks that `filter_chunks` keeps, exactly
when the orchestrator is not in use or passes nothing on, or there is nothing to hide. -/
theorem chat_shows_visible_iff (helpers : Helpers) (config : Config) (store : List Point)
    (user : UserContext) :
    (∀ chat chunk, Shows helpers config store user chat chunk →
        visible user chunk.view = true) ↔
      config.useLanggraph = false ∨ config.langgraphAvailable = false ∨
        config.maxChunksRetrieval = 0 ∨ config.maxChunksAfterRerank = 0 ∨
          ∀ point ∈ store, visible user (nested point.payload.access) = true := by
  constructor
  · intro safe
    by_contra unsafeConfig
    push Not at unsafeConfig
    obtain ⟨used, available, retrieves, keeps, point, stored, hidden⟩ := unsafeConfig
    have path : pathOf config plainChat = .orchestrator := by
      have enabled : config.useLanggraph = true ∧ config.langgraphAvailable = true :=
        ⟨by simpa using used, by simpa using available⟩
      simp [pathOf, plainChat, useRag, enabled]
    obtain ⟨score, events, walk, run, ended, listed⟩ :=
      walk_reaches_finish helpers stored retrieves keeps
    have member : (nestedChunk point.payload, score) ∈ walk.state.rerankedChunks := by
      rw [listed]
      exact List.mem_singleton_self _
    exact hidden (safe plainChat _ (Shows.cited path rfl run ended member))
  · intro condition chat chunk shown
    have orchestrated : pathOf config chat = .orchestrator → Passed config store chunk →
        visible user chunk.view = true := by
      intro path given
      rcases given with ⟨keeps, retrieves, point, stored, rfl⟩
      have enabled : config.useLanggraph = true ∧ config.langgraphAvailable = true := by
        unfold pathOf at path
        split_ifs at path with skipped plain enabled
        exact enabled
      rcases condition with unused | missing | nothing | none | visible
      · simp [unused] at enabled
      · simp [missing] at enabled
      · exact absurd nothing retrieves
      · exact absurd none keeps
      · exact visible point stored
    cases shown with
    | skipped path answered cited =>
        exact processRagQuery_returns _ _ answered chunk (List.mem_append_right _ cited)
    | standard path answered shown => exact processRagQuery_returns _ _ answered chunk shown
    | prompted path run generates inContext =>
        exact orchestrated path ((walk_storedChunks run (startWalk_storedChunks chat _)).context
          chunk inContext)
    | cited path plain run ended listed =>
        exact orchestrated path ((walk_storedChunks run (startWalk_storedChunks chat _)).reranked
          _ listed)

/-- With the orchestrator on, a viewer without groups is handed a confidential passage. -/
theorem orchestrator_cites_confidential_chunk :
    ∃ helpers config store user chat chunk, UserContext.isAdmin user = false ∧
      Shows helpers config store user chat chunk ∧ visible user chunk.view = false := by
  let viewer : UserContext := { userId := "2", username := "bob", roles := ["viewer"] }
  let secret : Point :=
    { id := "1"
      payload :=
        { access := { accessLevel := some "confidential", allowedGroups := some ["board"] }
          text := some "Salaries" } }
  let config : Config := { useLanggraph := true, langgraphAvailable := true }
  obtain ⟨score, events, walk, run, ended, listed⟩ :=
    walk_reaches_finish Helpers.plain (List.mem_singleton_self secret)
      (show config.maxChunksRetrieval ≠ 0 by decide) (by decide)
  have member : (nestedChunk secret.payload, score) ∈ walk.state.rerankedChunks := by
    rw [listed]
    exact List.mem_singleton_self _
  refine ⟨Helpers.plain, config, [secret], viewer, plainChat, nestedChunk secret.payload,
    by decide +kernel, ?_, by decide +kernel⟩
  exact Shows.cited (by decide +kernel) rfl run ended member

end Leak

end RagSystem.Api
