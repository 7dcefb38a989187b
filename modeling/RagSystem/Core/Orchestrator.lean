import Mathlib.Tactic.Linarith
import RagSystem.Core.Context
import RagSystem.Core.Rerank
import RagSystem.Transition.Run

/-! The agentic graph of `proxy/app/core/orchestrator`: its nodes, and the walk along its edges. A
node merges what it returns into the state, then the edge out of it is chosen. -/

namespace RagSystem.Core

open AccessControl Transition

/-- The keys of the graph state; a node that finds a key missing takes the default here. -/
structure RagState where
  query : String
  version : Option String := none
  temperature : ℚ := 2 / 10
  maxTokens : Option Nat := some 4096
  rewrittenQuery : String := ""
  rewriteCount : Nat := 0
  retrievedChunks : List Ranked := []
  rerankedChunks : List Ranked := []
  graphContext : String := ""
  context : Context := {}
  answer : String := ""
  needsReflection : Bool := false
  reflectionCount : Nat := 0
  needsEscalation : Bool := false
  needsSelfCritique : Bool := false
  needsRewrite : Bool := false
  selfCritiqueCount : Nat := 0
  toolCalls : List String := []
  toolLoopCount : Nat := 0
  deriving DecidableEq, Repr

inductive Node
  | rewrite
  | retrieve
  | checkSufficiency
  | rerank
  | graphExpand
  | buildContext
  | generate
  | callTools
  | selfReflection
  | checkConfidence
  | selfCritique
  | finish
  deriving DecidableEq, Repr

variable (helpers : Helpers) (config : Config) (services : Services)

/-! The nodes. -/

/-- `state.get("rewritten_query") or state["query"]`. -/
def RagState.searchQuery (state : RagState) : String :=
  if state.rewrittenQuery = "" then state.query else state.rewrittenQuery

def rewritePrompt (query : String) : String :=
  "Перепиши следующий вопрос пользователя в более " ++
    "эффективный поисковый запрос для технической документации.\n" ++
    "Сохрани все ключевые сущности (номера задач, технологии, имена).\n" ++
    "Выдай только переписанный запрос, без пояснений.\n\nОригинальный вопрос: " ++ query ++
    "\n\nПереписанный запрос:"

def rewriteQuery (state : RagState) : RagState :=
  if config.maxRetrievalLoops ≤ state.rewriteCount then
    { state with rewrittenQuery := state.query }
  else
    let rewritten := match services.complete [⟨"user", rewritePrompt state.query⟩] (1 / 10) 100 with
      | some answer => stripText answer
      | none => state.query
    { state with rewrittenQuery := rewritten, rewriteCount := state.rewriteCount + 1 }

/-- `_parse_timestamp` of the first timestamp that is not empty. -/
def parseTimestamp (payload : ChunkPayload) : Option ℚ :=
  let given (stamp : Stamp) : Bool := decide (stamp ≠ .text "" ∧ stamp ≠ .seconds 0)
  match (payload.updatedAt.filter given).or (payload.createdAt.filter given) with
  | none => none
  | some (.seconds value) => some value
  | some (.text value) =>
      if value.toList.getLast? = some 'Z' then
        helpers.isoTimestamp (String.ofList value.toList.dropLast ++ "+00:00")
      else helpers.isoTimestamp value

/-- The boost of `apply_time_decay` for a score. -/
def decayedScore (now : ℚ) (payload : ChunkPayload) (score : ℚ) : ℚ :=
  match parseTimestamp helpers payload with
  | none => score
  | some timestamp =>
      let ageDays := max 0 ((now - timestamp) / 86400)
      score * (1 + helpers.exp (-ageDays / 180))

/-- A hit as the chunk dict of `retrieve`, which keeps the payload under a key of its own. -/
def nestedChunk (payload : ChunkPayload) : ChunkDict :=
  { own := { text := some (payload.text.getD "") }, payload := some payload }

def retrieve (store : List Point) (state : RagState) : Attempt Caches RagState := do
  let found ← (hybridSearch helpers config services store state.searchQuery state.version
    config.maxChunksRetrieval none).settle
  let chunks := (found.getD []).map (fun hit =>
    (nestedChunk hit.point.payload,
      decayedScore helpers services.startedAt hit.point.payload hit.score))
  pure { state with retrievedChunks := chunks }

def rerank (state : RagState) : Attempt Caches RagState := do
  let chunks := state.retrievedChunks
  let indices ← rerankChunks helpers config services state.searchQuery
    (chunks.map (fun ranked => ranked.1.text)) config.maxChunksAfterRerank
  let reranked := indices.filterMap (fun index => chunks[index]?)
  pure { state with rerankedChunks := deduplicateChunks helpers reranked }

def graphExpand (state : RagState) : RagState :=
  let context := match services.graphExpandQuery state.searchQuery with
    | some entities => "\n\nСвязанные сущности из графа знаний:\n" ++ entities ++ "\n"
    | none => ""
  { state with graphContext := if config.useGraphExpansion then context else "" }

/-- The context of the reranked chunks, or that of the best one with the extracted sentences of
all of them when it exceeds nine tenths of the budget. -/
def buildContextNode (state : RagState) : Attempt Caches RagState := do
  let maxTokens ← Attempt.ofOption state.maxTokens
  let chunks := afterBuild config state.rerankedChunks
  let full := buildContext helpers config state.rerankedChunks maxTokens
  let compressed := extractiveCompress helpers (chunks.map (fun ranked => ranked.1.text))
    state.searchQuery 3
  let best := (chunks.take 1).map (fun ranked =>
    (({ ranked.1 with own := { ranked.1.own with text := some compressed } } : ChunkDict), ranked.2))
  let context : Context :=
    if maxTokens * 9 < estimateTokenCost helpers full.text * 10 then
      { chunks := chunks.map Prod.fst
        text := (buildContext helpers config best maxTokens).text }
    else full
  pure { state with
         rerankedChunks := chunks
         context := { context with text := context.text ++ state.graphContext } }

def generatePrompt (context : String) : String :=
  "Ты – технический ассистент. Используй предоставленный контекст для ответа. " ++
    "Если контекст противоречив, укажи на противоречия. Если не знаешь, скажи честно.\n\n" ++
    "Контекст:\n" ++ context

def generate (state : RagState) : Attempt Caches RagState := do
  let answer ← Attempt.ofOption (services.complete
    [⟨"system", generatePrompt state.context.text⟩, ⟨"user", state.query⟩] state.temperature
    (state.maxTokens.getD 4096))
  pure { state with answer := answer }

/-- `call_tools`; nothing reads the results. -/
def callTools (state : RagState) : RagState :=
  { state with toolCalls := [], toolLoopCount := state.toolLoopCount + 1 }

def reflectionPrompt (query context answer : String) : String :=
  "You are an answer quality evaluator. " ++
    "Determine if the answer is fully supported by the context.\n" ++
    "Reply with ONLY one of these exact words: " ++
    "FULLY_SUPPORTED, PARTIALLY_SUPPORTED, or NOT_SUPPORTED.\n" ++
    "If PARTIALLY_SUPPORTED or NOT_SUPPORTED, on the next line write: " ++
    "MISSING: <what information is missing>\n\n" ++
    "User question: " ++ query ++ "\n\nContext:\n" ++ context ++ "\n\nAnswer:\n" ++ answer ++
    "\n\nEvaluation:"

def selfReflection (state : RagState) : RagState :=
  if config.reflectionEnabled = false ∨ stripText state.answer = "" ∨
      config.reflectionDepth ≤ state.reflectionCount then
    { state with needsReflection := false }
  else
    let reply := services.callSlm
      (reflectionPrompt state.searchQuery state.context.text state.answer)
    let supported := match reply with
      | some reply => "FULLY_SUPPORTED".toList.isPrefixOf (helpers.upper (stripText reply)).toList
      | none => true
    { state with needsReflection := !supported, reflectionCount := state.reflectionCount + 1 }

def checkConfidence (state : RagState) : RagState :=
  let score := helpers.computeConfidence state.searchQuery state.context.text state.answer
  let needsEscalation := score < config.confidenceThreshold ∧
    state.rewriteCount < config.maxVerifyLoops
  if state.answer = "" ∨ config.hallucinationCheckEnabled = false then
    { state with needsEscalation := false, needsSelfCritique := false }
  else
    { state with
      needsEscalation := needsEscalation
      needsSelfCritique := config.selfCritiqueEnabled ∧ stripText state.answer ≠ "" ∧
        ¬ needsEscalation ∧ state.selfCritiqueCount < 1 }

def critiquePrompt (query answer : String) : String :=
  "Rate the following answer's usefulness on a scale of 1 to 5.\n" ++
    "Consider: relevance, accuracy, completeness, clarity.\n" ++
    "On a new line, write ONLY the integer score, " ++
    "then optionally one improvement suggestion.\n\n" ++
    "User question: " ++ query ++ "\n\nAnswer: " ++ answer ++ "\n\nScore (1-5):"

def critiqueScore (reply : String) : Nat :=
  match reply.toList.find? Char.isDigit with
  | some digit => max 1 (min 5 (digit.toNat - '0'.toNat))
  | none => 3

def selfCritique (state : RagState) : RagState :=
  let maxRewrites := 2
  if stripText state.answer = "" ∨ maxRewrites ≤ state.rewriteCount then
    { state with needsRewrite := false }
  else
    let low := match services.callSlm (critiquePrompt state.searchQuery state.answer) with
      | some reply => decide (critiqueScore (stripText reply) < 3)
      | none => false
    { state with needsRewrite := low, selfCritiqueCount := state.selfCritiqueCount + 1 }

/-! The graph. -/

/-- What a node makes of the state; `check_sufficiency` only routes. -/
def runNode (store : List Point) : Node → RagState → Attempt Caches RagState
  | .rewrite, state => pure (rewriteQuery config services state)
  | .retrieve, state => retrieve helpers config services store state
  | .checkSufficiency, state => pure state
  | .rerank, state => rerank helpers config services state
  | .graphExpand, state => pure (graphExpand config services state)
  | .buildContext, state => buildContextNode helpers config state
  | .generate, state => generate services state
  | .callTools, state => pure (callTools state)
  | .selfReflection, state => pure (selfReflection helpers config services state)
  | .checkConfidence, state => pure (checkConfidence helpers config state)
  | .selfCritique, state => pure (selfCritique services state)
  | .finish, _ => Attempt.raise

/-- `check_sufficiency`: no chunks, or a low average score while rewrites are left. -/
def insufficient (state : RagState) : Bool :=
  let scores := state.retrievedChunks.map Prod.snd
  scores = [] ∨ (scores.sum / (scores.length : ℚ) < 6 / 10 ∧
    state.rewriteCount < config.maxRetrievalLoops)

/-- The edges of `build_rag_graph`. -/
def route : Node → RagState → Node
  | .rewrite, _ => .retrieve
  | .retrieve, _ => .checkSufficiency
  | .checkSufficiency, state => if insufficient config state then .rewrite else .rerank
  | .rerank, _ => .graphExpand
  | .graphExpand, _ => .buildContext
  | .buildContext, _ => .generate
  | .generate, state =>
      if state.toolCalls ≠ [] ∧ state.toolLoopCount < 5 then .callTools else .selfReflection
  | .callTools, _ => .generate
  | .selfReflection, state => if state.needsReflection then .retrieve else .checkConfidence
  | .checkConfidence, state =>
      if state.needsEscalation then .rewrite
      else if state.needsSelfCritique then .selfCritique
      else .finish
  | .selfCritique, state => if state.needsRewrite then .rewrite else .finish
  | .finish, _ => .finish

/-- A walk through the graph: the node to run next, the graph state and the caches. -/
structure Walk where
  node : Node
  state : RagState
  caches : Caches
  deriving DecidableEq, Repr

/-- One node of the walk, under the services of the moment. A node that raises ends the request
with an error. -/
def walkStep (store : List Point) (walk : Walk) (services : Services) : Option Walk :=
  let ran := runNode helpers config services store walk.node walk.state walk.caches
  ran.1.map (fun state => { node := route config walk.node state, state := state, caches := ran.2 })

theorem le_decayedScore {now score : ℚ} (payload : ChunkPayload) (positive : 0 ≤ score) :
    score ≤ decayedScore helpers now payload score := by
  unfold decayedScore
  cases parseTimestamp helpers payload with
  | none => exact le_refl score
  | some timestamp =>
      have boost := mul_nonneg positive
        (helpers.exp_nonneg (-(max 0 ((now - timestamp) / 86400)) / 180))
      simp only [mul_add, mul_one]
      linarith

section Reach

variable {helpers config} {store : List Point} {start : Walk}

/-- Some walk from `start` is about to run `node` in a state with the property. -/
def Reaches (helpers : Helpers) (config : Config) (store : List Point) (start : Walk)
    (node : Node) (holds : RagState → Prop) : Prop :=
  ∃ events walk, Run (walkStep helpers config store) start events walk ∧ walk.node = node ∧
    holds walk.state

theorem Reaches.step {node target : Node} {holds later : RagState → Prop}
    (reached : Reaches helpers config store start node holds) (services : Services)
    (ran : ∀ state caches, holds state → ∃ next,
      (runNode helpers config services store node state caches).1 = some next ∧ later next ∧
        route config node next = target) :
    Reaches helpers config store start target later := by
  obtain ⟨events, walk, run, rfl, known⟩ := reached
  obtain ⟨next, returned, established, routed⟩ := ran walk.state walk.caches known
  have stepped : walkStep helpers config store walk services =
      some ⟨route config walk.node next, next,
        (runNode helpers config services store walk.node walk.state walk.caches).2⟩ := by
    simp only [walkStep, returned, Option.map_some]
  exact ⟨_, _, Run.snoc run services stepped, routed, established⟩

end Reach

/-! The chunks of a walk come from the store, whatever the language model answers. -/

section Provenance

variable {helpers config services} {store : List Point} {state next : RagState}

/-- The chunk dict of a stored point, when the graph retrieves any. -/
def Found (config : Config) (store : List Point) (chunk : ChunkDict) : Prop :=
  config.maxChunksRetrieval ≠ 0 ∧ ∃ point ∈ store, chunk = nestedChunk point.payload

def Passed (config : Config) (store : List Point) (chunk : ChunkDict) : Prop :=
  config.maxChunksAfterRerank ≠ 0 ∧ Found config store chunk

structure RagState.StoredChunks (config : Config) (store : List Point) (state : RagState) :
    Prop where
  retrieved : ∀ ranked ∈ state.retrievedChunks, Found config store ranked.1
  reranked : ∀ ranked ∈ state.rerankedChunks, Passed config store ranked.1
  context : ∀ chunk ∈ state.context.chunks, Passed config store chunk

theorem retrieve_returns (known : state.StoredChunks config store) :
    Attempt.Returns (fun next => next.StoredChunks config store)
      (retrieve helpers config services store state) := by
  refine Attempt.returns_andThen (Attempt.returns_settle hybridSearch_hits) ?_
  intro found stored
  refine Attempt.returns_value ⟨?_, known.reranked, known.context⟩
  intro ranked member
  obtain ⟨hit, inside, rfl⟩ := List.mem_map.mp member
  cases found with
  | none => simp at inside
  | some hits =>
      obtain ⟨points, asked⟩ := stored hits rfl
      have point := List.mem_of_mem_filter (points hit inside)
      exact ⟨asked (List.ne_nil_of_mem inside), hit.point, point, rfl⟩

theorem rerank_returns (known : state.StoredChunks config store) :
    Attempt.Returns (fun next => next.StoredChunks config store)
      (rerank helpers config services state) := by
  refine Attempt.returns_andThen rerankChunks_returns ?_
  intro indices asked
  refine Attempt.returns_value ⟨known.retrieved, ?_, known.context⟩
  intro ranked member
  obtain ⟨index, listed, found⟩ := List.mem_filterMap.mp (mem_of_mem_deduplicateChunks member)
  exact ⟨asked (List.ne_nil_of_mem listed),
    known.retrieved ranked (List.mem_of_getElem? found)⟩

theorem buildContextNode_returns (known : state.StoredChunks config store) :
    Attempt.Returns (fun next => next.StoredChunks config store)
      (buildContextNode helpers config state) := by
  refine Attempt.returns_andThen (Attempt.returns_trivial _) ?_
  intro maxTokens _
  have sorted : ∀ ranked ∈ afterBuild config state.rerankedChunks,
      Passed config store ranked.1 :=
    fun ranked member => known.reranked ranked (mem_of_mem_afterBuild member)
  refine Attempt.returns_value ⟨known.retrieved, sorted, ?_⟩
  intro chunk member
  dsimp only at member
  split at member
  · obtain ⟨ranked, inside, rfl⟩ := List.mem_map.mp member
    exact sorted ranked inside
  · obtain ⟨score, inside⟩ := mem_of_mem_buildContext member
    exact known.reranked _ inside

theorem RagState.StoredChunks.of_eq (known : state.StoredChunks config store)
    (retrieved : next.retrievedChunks = state.retrievedChunks)
    (reranked : next.rerankedChunks = state.rerankedChunks)
    (context : next.context = state.context) : next.StoredChunks config store :=
  ⟨retrieved ▸ known.retrieved, reranked ▸ known.reranked, context ▸ known.context⟩

theorem runNode_returns (node : Node) (known : state.StoredChunks config store) :
    Attempt.Returns (fun next => next.StoredChunks config store)
      (runNode helpers config services store node state) := by
  cases node with
  | retrieve => exact retrieve_returns known
  | rerank => exact rerank_returns known
  | buildContext => exact buildContextNode_returns known
  | generate =>
      refine Attempt.returns_andThen (Attempt.returns_trivial _) ?_
      intro answer _
      exact Attempt.returns_value (known.of_eq rfl rfl rfl)
  | rewrite =>
      refine Attempt.returns_value ?_
      unfold rewriteQuery
      split <;> exact known.of_eq rfl rfl rfl
  | selfReflection =>
      refine Attempt.returns_value ?_
      unfold selfReflection
      split <;> exact known.of_eq rfl rfl rfl
  | checkConfidence =>
      refine Attempt.returns_value ?_
      simp only [checkConfidence]
      split <;> exact known.of_eq rfl rfl rfl
  | selfCritique =>
      refine Attempt.returns_value ?_
      simp only [selfCritique]
      split <;> exact known.of_eq rfl rfl rfl
  | graphExpand => exact Attempt.returns_value (known.of_eq rfl rfl rfl)
  | callTools => exact Attempt.returns_value (known.of_eq rfl rfl rfl)
  | checkSufficiency => exact Attempt.returns_value known
  | finish => exact Attempt.returns_raise

theorem walk_storedChunks {start walk : Walk} {events : List (Event Walk Services)}
    (run : Run (walkStep helpers config store) start events walk)
    (initial : start.state.StoredChunks config store) : walk.state.StoredChunks config store := by
  refine Run.invariant_always (fun walk => walk.state.StoredChunks config store) initial ?_ run
  intro walk services next known stepped
  simp only [walkStep, Option.map_eq_some_iff] at stepped
  obtain ⟨state, returned, rfl⟩ := stepped
  exact runNode_returns walk.node known _ state returned

end Provenance

end RagSystem.Core
