import RagSystem.Core.Context
import RagSystem.Core.ProgressiveRetrieval
import RagSystem.Core.Rerank

/-! The answer pipeline `process_rag_query` of `proxy/app/main.py`, with its caches and the
retrieval evaluator (`proxy/app/core/retrieval_evaluator.py`). -/

namespace RagSystem.Core

open AccessControl Transition

variable (helpers : Helpers) (config : Config) (services : Services)

/-! The evaluation of a retrieval. -/

inductive Action
  | use
  | rewrite
  | expand
  | fallback
  deriving DecidableEq, Repr

/-- `evaluate_quality` of chunks that all carry a score. -/
def evaluateQuality (scores : List ℚ) : ℚ :=
  let count : ℚ := scores.length
  let average := scores.sum / count
  let variance := (scores.map (fun score => (score - average) ^ 2)).sum / count
  let high : ℚ := (scores.filter (fun score => 7 / 10 < score)).length
  let medium : ℚ := (scores.filter (fun score => 4 / 10 < score ∧ score ≤ 7 / 10)).length
  let coverage := (high + medium / 2) / count
  let confidence := average * (4 / 10) + coverage * (3 / 10) + min 1 (count / 5) * (2 / 10) +
    1 / (1 + variance) * (1 / 10)
  if scores = [] then 0 else min 1 (max 0 confidence)

def getAction (confidence : ℚ) : Action :=
  if 7 / 10 ≤ confidence then .use
  else if 4 / 10 ≤ confidence then .rewrite
  else if 2 / 10 ≤ confidence then .expand
  else .fallback

/-! Requests and outcomes. -/

structure Request where
  query : String
  version : Option String := none
  forceRefresh : Bool := false
  temperature : ℚ := 2 / 10
  maxTokens : Nat := 4096
  stream : Bool := false
  otherMessages : List Message := []
  user : UserContext
  topKOverride : Option Nat := none
  lang : Option String := none
  deriving DecidableEq, Repr

/-- An entry of `rag_sources`. -/
structure Source where
  chunkId : String
  source : String
  title : String
  version : String
  relevance : ℚ
  textPreview : String
  deriving DecidableEq, Repr

def cite (ranked : Ranked) : Source :=
  let chunk := ranked.1.own
  let title := chunk.title.getD ""
  { chunkId := computeChunkHash helpers ranked.1
    source := chunk.sourceType.getD "unknown"
    title := if title = "" then chunk.docTitle.getD "" else title
    version := chunk.access.version.getD "unknown"
    relevance := roundTo 4 ranked.2
    textPreview := clip 200 ranked.1.text }

/-- What the pipeline returns; `cited` lists the chunks that `sources` cite. -/
structure Outcome where
  response : String
  context : Context := {}
  messages : List Message := []
  fromCache : Bool := false
  sources : List Source := []
  cited : List ChunkDict := []
  ragasScores : List (String × ℚ) := []
  deriving DecidableEq, Repr

/-! The caches of answers. -/

/-- `value or default` for an optional string. -/
def orElse (value : Option String) (default : String) : String :=
  if value.getD "" = "" then default else value.getD ""

def cacheKey (request : Request) : String :=
  "rag:" ++ request.user.userId ++ ":" ++ request.query ++ ":" ++ orElse request.version "latest"

/-- The answer to a similar query, else the stored answer to this one; an empty one counts as
none. -/
def cachedAnswer (request : Request) : Attempt Caches (Option String) :=
  Attempt.ofState fun caches =>
    if request.forceRefresh then (none, caches)
    else
      let similar :=
        if config.semanticCacheEnabled then
          SemanticCache.get helpers.md5 (helpers.fixed 2) services.startedAt
            config.semanticCacheSimilarity (services.semanticEncode request.query) caches.semantic
        else (none, caches.semantic)
      let caches := { caches with semantic := similar.2 }
      match similar.1.filter (· ≠ "") with
      | some answer => (some answer, caches)
      | none =>
          let exact := InMemoryCache.get services.startedAt (cacheKey request) caches.responses
          (exact.1.filter (· ≠ ""), { caches with responses := exact.2 })

def storeAnswer (request : Request) (response : String) : Attempt Caches Unit :=
  Attempt.ofState fun caches =>
    if request.forceRefresh then ((), caches)
    else
      let responses := InMemoryCache.set services.finishedAt config.defaultCacheTtlSeconds
        (cacheKey request) response caches.responses
      let semantic :=
        if config.semanticCacheEnabled then
          SemanticCache.set helpers.md5 (helpers.fixed 2) services.finishedAt
            config.semanticCacheTtl request.query (services.semanticEncode request.query) response
            caches.semantic
        else caches.semantic
      ((), { caches with responses := responses, semantic := semantic })

section Retrieval

variable (store : List Point) (request : Request)

/-- `top_k_override or MAX_CHUNKS_RETRIEVAL`. -/
def topK : Nat :=
  if request.topKOverride.getD 0 = 0 then config.maxChunksRetrieval
  else request.topKOverride.getD 0

def retrieveHits : Attempt Caches (List Hit) := do
  let accessFilter := buildAccessFilter request.user
  if ¬ services.embedderReady ∨ services.qdrantDegraded then pure []
  else if config.progressiveRetrievalEnabled ∧ request.topKOverride.getD 0 = 0 then
    let (hits, _stage) ← progressiveRetrieve helpers config services store request.query
      request.version accessFilter
    pure hits
  else
    hybridSearch helpers config services store request.query request.version
      (topK config request) accessFilter

def correctiveSearch : Action → Attempt Caches (List Hit)
  | .rewrite =>
      hybridSearch helpers config services store ("More specific: " ++ request.query)
        request.version (topK config request) (buildAccessFilter request.user)
  | .expand =>
      hybridSearch helpers config services store request.query none (topK config request * 2)
        (buildAccessFilter request.user)
  | _ => pure []

def contextFor (action : Action) (unique : List Ranked) : Context :=
  match action with
  | .fallback => {}
  | .expand => buildContext helpers config unique 100000
  | _ =>
      let total := contextTotal 130000
      let raw := buildContext helpers config unique total
      if total < raw.text.length / 4 then
        compressContext helpers ((afterBuild config unique).map Prod.fst) total
      else raw

/-- The hits as flat chunk dicts, after `filter_chunks`. -/
def keptChunks (hits : List Hit) : List Ranked :=
  filterChunks (fun ranked : Ranked => ranked.1.view)
    (hits.map (fun hit => (({ own := hit.point.payload } : ChunkDict), hit.score))) request.user

/-- What the retrieval contributes to the answer: the context, and the chunks it evaluated, which
are the ones it cites. -/
structure Grounding where
  context : Context := {}
  evaluated : List Ranked := []
  deriving DecidableEq, Repr

/-- Steps 3 to 8 of the pipeline. A hit without a text raises. The hits of the corrective search
are merged into a list that nothing reads, and its exceptions are caught. -/
def ground (hits : List Hit) : Attempt Caches Grounding := do
  let kept := keptChunks request hits
  if ∃ hit ∈ hits, hit.point.payload.text = none then Attempt.raise
  else if kept = [] then pure {}
  else
    let indices ← rerankChunks helpers config services request.query
      (kept.map (fun ranked => ranked.1.text)) config.maxChunksAfterRerank
    let unique := deduplicateChunks helpers (indices.filterMap (fun index => kept[index]?))
    let action := getAction (evaluateQuality (unique.map Prod.snd))
    let _merged ← (correctiveSearch helpers config services store request action).settle
    pure { context := contextFor helpers config action unique, evaluated := unique }

end Retrieval

/-! Generation. -/

/-- `should_generate_answer`: two sources are strong. -/
def shouldGenerateAnswer (scores : List ℚ) : Bool :=
  2 ≤ (scores.filter (fun score => 32 / 100 ≤ score)).length

def promptMessages (systemPrompt : String) (request : Request) : List Message :=
  ⟨"system", systemPrompt⟩ :: request.otherMessages.filter (fun message => message.role ≠ "system")
    ++ [⟨"user", request.query⟩]

def systemPrompt (request : Request) (grounding : Grounding) : String :=
  let resolvedLang := orElse request.lang (helpers.detectLanguage request.query)
  let prompt := helpers.getSystemPrompt resolvedLang ++ "\n\nContext:\n" ++ grounding.context.text
  if shouldGenerateAnswer (grounding.evaluated.map Prod.snd) then prompt
  else config.ungroundedNotice ++ "\n\n" ++ prompt

def unavailable : String :=
  "Извините, сервис LLM временно недоступен. " ++
    "Пожалуйста, попробуйте позже или обратитесь к администратору."

/-- Steps 9 to 12: a streaming request gets the messages, the others an answer, which is cached. -/
def generateAnswer (request : Request) (grounding : Grounding) : Attempt Caches Outcome := do
  let messages := promptMessages (systemPrompt helpers config request grounding) request
  let sources := grounding.evaluated.map (cite helpers)
  let cited := grounding.evaluated.map Prod.fst
  if request.stream then
    pure { response := grounding.context.text, context := grounding.context, messages := messages,
           sources := sources, cited := cited }
  else
    let response :=
      (services.complete messages request.temperature request.maxTokens).getD unavailable
    storeAnswer helpers config services request response
    pure { response := response, context := grounding.context, sources := sources, cited := cited
           ragasScores :=
             if cited = [] then []
             else helpers.evaluateRagResponse request.query response (cited.map ChunkDict.text) }

def answerDirectly (request : Request) : Attempt Caches Outcome := do
  let response ← Attempt.ofOption (services.complete
    (promptMessages "You are a helpful assistant. Answer briefly and directly." request)
    request.temperature request.maxTokens)
  pure { response := response }

def answerAnew (store : List Point) (request : Request) : Attempt Caches Outcome := do
  if config.adaptiveRoutingEnabled ∧ helpers.classifiesDirect request.query then
    answerDirectly services request
  else
    let found ← (retrieveHits helpers config services store request).settle
    let grounding ← ground helpers config services store request (found.getD [])
    generateAnswer helpers config services request grounding

def processRagQuery (store : List Point) (request : Request) : Attempt Caches Outcome := do
  match ← cachedAnswer helpers config services request with
  | some response => pure { response := response, fromCache := true }
  | none => answerAnew helpers config services store request

/-! Every chunk in the context or among the sources passed `filter_chunks`. -/

section Visible

variable {helpers config services} {store : List Point} {request : Request}

def Seen (user : UserContext) (chunks : List ChunkDict) : Prop :=
  ∀ chunk ∈ chunks, visible user chunk.view = true

theorem mem_of_mem_contextFor {action : Action} {unique : List Ranked} {chunk : ChunkDict}
    (member : chunk ∈ (contextFor helpers config action unique).chunks) :
    chunk ∈ unique.map Prod.fst := by
  have built : ∀ {limit : Nat}, chunk ∈ (buildContext helpers config unique limit).chunks →
      chunk ∈ unique.map Prod.fst := by
    intro limit inside
    obtain ⟨score, found⟩ := mem_of_mem_buildContext inside
    exact List.mem_map.mpr ⟨_, found, rfl⟩
  have budgeted : chunk ∈ (if contextTotal 130000 <
        (buildContext helpers config unique (contextTotal 130000)).text.length / 4 then
        compressContext helpers ((afterBuild config unique).map Prod.fst) (contextTotal 130000)
      else buildContext helpers config unique (contextTotal 130000)).chunks →
      chunk ∈ unique.map Prod.fst := by
    intro inside
    split at inside
    · obtain ⟨ranked, found, rfl⟩ := List.mem_map.mp (mem_of_mem_compressContext inside)
      exact List.mem_map.mpr ⟨ranked, mem_of_mem_afterBuild found, rfl⟩
    · exact built inside
  cases action with
  | fallback => simp [contextFor] at member
  | expand => exact built member
  | use => exact budgeted member
  | rewrite => exact budgeted member

theorem ground_returns (hits : List Hit) :
    Attempt.Returns
      (fun grounding => Seen request.user
        (grounding.context.chunks ++ grounding.evaluated.map Prod.fst))
      (ground helpers config services store request hits) := by
  have nothing : Seen request.user
      (({} : Grounding).context.chunks ++ ({} : Grounding).evaluated.map Prod.fst) := by
    intro chunk member
    cases member
  unfold ground
  dsimp only
  split
  · exact Attempt.returns_raise
  split
  · exact Attempt.returns_value nothing
  refine Attempt.returns_andThen (Attempt.returns_trivial _) ?_
  intro indices _
  refine Attempt.returns_andThen (Attempt.returns_trivial _) ?_
  intro merged _
  refine Attempt.returns_value ?_
  have shown : ∀ chunk ∈ (deduplicateChunks helpers (indices.filterMap
      (fun index => (keptChunks request hits)[index]?))).map Prod.fst,
      visible request.user chunk.view = true := by
    intro chunk member
    obtain ⟨ranked, unique, rfl⟩ := List.mem_map.mp member
    obtain ⟨index, -, found⟩ := List.mem_filterMap.mp (mem_of_mem_deduplicateChunks unique)
    exact (mem_filterChunks.mp (List.mem_of_getElem? found)).2
  intro chunk member
  rcases List.mem_append.mp member with inContext | cited
  · exact shown chunk (mem_of_mem_contextFor inContext)
  · exact shown chunk cited

theorem generateAnswer_returns {grounding : Grounding} {shown : List ChunkDict → Prop}
    (grounded : shown (grounding.context.chunks ++ grounding.evaluated.map Prod.fst)) :
    Attempt.Returns (fun outcome => shown (outcome.context.chunks ++ outcome.cited))
      (generateAnswer helpers config services request grounding) := by
  unfold generateAnswer
  dsimp only
  split
  · exact Attempt.returns_value grounded
  · refine Attempt.returns_andThen (Attempt.returns_trivial _) ?_
    intro stored _
    exact Attempt.returns_value grounded

theorem processRagQuery_returns :
    Attempt.Returns
      (fun outcome => Seen request.user (outcome.context.chunks ++ outcome.cited))
      (processRagQuery helpers config services store request) := by
  have nothing : Seen request.user [] := by
    intro chunk member
    cases member
  refine Attempt.returns_andThen (Attempt.returns_trivial _) ?_
  intro cached _
  cases cached with
  | some response => exact Attempt.returns_value nothing
  | none =>
      show Attempt.Returns _ (answerAnew helpers config services store request)
      unfold answerAnew
      split
      · refine Attempt.returns_andThen (Attempt.returns_trivial _) ?_
        intro response _
        exact Attempt.returns_value nothing
      · refine Attempt.returns_andThen (Attempt.returns_trivial _) ?_
        intro found _
        refine Attempt.returns_andThen (ground_returns _) ?_
        intro grounding grounded
        exact generateAnswer_returns grounded

end Visible

end RagSystem.Core
