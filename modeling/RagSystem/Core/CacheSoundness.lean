import RagSystem.Core.CacheIsolation

/-! Whether an answer from the exact cache is the answer the pipeline would compute: two requests,
any number of others between them, and every language model. -/

namespace RagSystem.Core

open AccessControl Transition

/-! ## What is asked of the language model -/

section Computed

variable (helpers : Helpers) (config : Config) (services : Services) (store : List Point)
  (request : Request)

def grounded : Attempt Caches Grounding := do
  let found ← (retrieveHits helpers config services store request).settle
  ground helpers config services store request (found.getD [])

def computed (caches : Caches) : Option String :=
  (answerAnew helpers config services store { request with stream := false } caches).1.map
    Outcome.response

variable {helpers config services store request}

theorem answerAnew_retrieving
    (retrieves : ¬ (config.adaptiveRoutingEnabled ∧ helpers.classifiesDirect request.query)) :
    answerAnew helpers config services store request =
      (grounded helpers config services store request).andThen
        (generateAnswer helpers config services request) := by
  unfold answerAnew grounded
  rw [if_neg retrieves]
  exact (Attempt.andThen_assoc _ _ _).symm

theorem computed_retrieving (caches : Caches)
    (retrieves : ¬ (config.adaptiveRoutingEnabled ∧ helpers.classifiesDirect request.query)) :
    computed helpers config services store request caches =
      (grounded helpers config services store request caches).1.map (fun grounding =>
        (services.complete (promptMessages (systemPrompt helpers config request grounding) request)
          request.temperature request.maxTokens).getD unavailable) := by
  unfold computed
  have stepwise : answerAnew helpers config services store { request with stream := false } =
      (grounded helpers config services store { request with stream := false }).andThen
        (generateAnswer helpers config services { request with stream := false }) :=
    answerAnew_retrieving retrieves
  have same : grounded helpers config services store { request with stream := false } =
      grounded helpers config services store request := rfl
  rw [stepwise, same]
  cases found : (grounded helpers config services store request caches).1 with
  | none =>
      rw [Attempt.andThen_of_none found]
      rfl
  | some grounding =>
      rw [Attempt.andThen_of_some found]
      rfl

theorem computed_directly (caches : Caches)
    (direct : config.adaptiveRoutingEnabled ∧ helpers.classifiesDirect request.query) :
    computed helpers config services store request caches =
      services.complete
        (promptMessages "You are a helpful assistant. Answer briefly and directly." request)
        request.temperature request.maxTokens := by
  unfold computed answerAnew
  rw [if_pos direct]
  have asked : promptMessages "You are a helpful assistant. Answer briefly and directly."
      { request with stream := false } =
      promptMessages "You are a helpful assistant. Answer briefly and directly." request := rfl
  simp only [answerDirectly, Attempt.bind_eq, asked, Attempt.andThen, Attempt.ofOption]
  cases services.complete (promptMessages
    "You are a helpful assistant. Answer briefly and directly." request)
    request.temperature request.maxTokens <;> rfl

theorem grounded_congr {other : Request} (query : other.query = request.query)
    (version : other.version = request.version)
    (number : other.topKOverride = request.topKOverride) (user : other.user = request.user) :
    grounded helpers config services store other =
      grounded helpers config services store request := by
  cases other
  cases request
  dsimp only at query version number user
  subst query version number user
  rfl

end Computed

/-! ## The entry of a request -/

section Entries

variable {helpers : Helpers} {config : Config} {store : List Point} {key answer : String}

def Holds (key answer : String) (caches : Caches) : Prop :=
  caches.responses.All (fun stored response => stored = key → response = answer)

theorem storesAnswer_iff {call : Call} :
    call.storesAnswer helpers config = true ↔
      call.request.forceRefresh = false ∧ call.request.stream = false ∧
        ¬ (config.adaptiveRoutingEnabled ∧ helpers.classifiesDirect call.request.query) := by
  unfold Call.storesAnswer
  cases config.adaptiveRoutingEnabled <;> cases helpers.classifiesDirect call.request.query <;>
    simp

theorem holds_answerAnew {services : Services} {request : Request} {caches : Caches}
    {outcome : Outcome} (stores : Call.storesAnswer helpers config ⟨request, services⟩ = true)
    (answered : (answerAnew helpers config services store request caches).1 = some outcome) :
    Holds (cacheKey request) outcome.response
      (answerAnew helpers config services store request caches).2 := by
  obtain ⟨unforced, plain, retrieves⟩ : request.forceRefresh = false ∧ request.stream = false ∧
      ¬ (config.adaptiveRoutingEnabled ∧ helpers.classifiesDirect request.query) :=
    storesAnswer_iff.mp stores
  rw [answerAnew_retrieving retrieves] at answered ⊢
  cases found : (grounded helpers config services store request caches).1 with
  | none =>
      rw [Attempt.andThen_of_none found] at answered
      cases answered
  | some grounding =>
      rw [Attempt.andThen_of_some found] at answered ⊢
      simp only [generateAnswer, plain, Bool.false_eq_true, if_false, storeAnswer, unforced,
        Attempt.bind_eq, Attempt.pure_eq, Attempt.andThen, Attempt.ofState, Attempt.value]
        at answered ⊢
      obtain rfl := Option.some.inj answered
      intro other response expires stored same
      subst same
      rw [InMemoryCache.set, Dict.get?_set_self] at stored
      exact (congrArg Prod.fst (Option.some.inj stored)).symm

theorem holds_found {now : ℚ} {caches : Caches} (holds : Holds key answer caches)
    {response : String} (hit : (InMemoryCache.get now key caches.responses).1 = some response) :
    response = answer :=
  InMemoryCache.All.found holds hit rfl

theorem cachedAnswer_holds (services : Services) (request : Request) :
    Attempt.Keeps (Holds key answer) (cachedAnswer helpers config services request) := by
  intro caches known
  have looked := InMemoryCache.All.get known services.startedAt (cacheKey request)
  simp only [cachedAnswer, Attempt.ofState]
  split
  · exact known
  split
  · exact known
  · exact looked

theorem embedding_holds (services : Services) (text : String) :
    Attempt.Keeps (Holds key answer) (computeDenseEmbedding helpers services text) := by
  intro caches known
  unfold computeDenseEmbedding
  split
  · exact known
  dsimp only
  split
  · exact known
  split
  · exact known
  · exact known

theorem rerank_holds (services : Services) (query : String) (texts : List String) :
    Attempt.Keeps (Holds key answer) (rerankScores helpers services query texts) := by
  intro caches known
  unfold rerankScores
  dsimp only
  split
  · split
    · exact known
    · exact known
  · exact known

theorem corrective_holds (services : Services) (request : Request) (action : Action) :
    Attempt.Keeps (Holds key answer)
      (correctiveSearch helpers config services store request action) := by
  cases action with
  | rewrite => exact hybridSearch_follows (Attempt.keeping _) (embedding_holds services _)
  | expand => exact hybridSearch_follows (Attempt.keeping _) (embedding_holds services _)
  | use => exact Attempt.keeps_value _
  | fallback => exact Attempt.keeps_value _

/-- The call answers anew and stores what it answers under the key. -/
def Overwrites (helpers : Helpers) (config : Config) (key : String) (call : Call)
    (caches : Caches) : Prop :=
  call.storesAnswer helpers config = true ∧ cacheKey call.request = key ∧
    (cachedAnswer helpers config call.services call.request caches).1 = some none

theorem call_holds {call : Call} {caches : Caches}
    (spared : ¬ Overwrites helpers config key call caches) (known : Holds key answer caches) :
    Holds key answer
      (processRagQuery helpers config call.services store call.request caches).2 := by
  have looked : Holds key answer
      (cachedAnswer helpers config call.services call.request caches).2 :=
    cachedAnswer_holds call.services call.request caches known
  unfold processRagQuery
  simp only [Attempt.bind_eq]
  cases found : (cachedAnswer helpers config call.services call.request caches).1 with
  | none =>
      rw [Attempt.andThen_of_none found]
      exact looked
  | some cached =>
      rw [Attempt.andThen_of_some found]
      cases cached with
      | some response => exact looked
      | none =>
          refine answerAnew_follows (Attempt.keeping _) (embedding_holds _ _)
            (embedding_holds _ _) (fun texts _ => rerank_holds _ _ texts)
            (corrective_holds _ _) ?_ _ looked
          intro plain retrieves response caches known
          simp only [storeAnswer, Attempt.ofState]
          split
          · exact known
          · next unforced =>
              have stores : call.storesAnswer helpers config = true :=
                storesAnswer_iff.mpr ⟨by simpa using unforced, plain, retrieves⟩
              have other : cacheKey call.request ≠ key := by
                intro same
                exact spared ⟨stores, same, found⟩
              exact InMemoryCache.All.set known (fun same => absurd same other)

/-- None of the calls overwrites the entry when its turn comes. -/
def Spared (helpers : Helpers) (config : Config) (store : List Point) (key : String) :
    Caches → List Call → Prop
  | _, [] => True
  | caches, call :: rest =>
      ¬ Overwrites helpers config key call caches ∧
        Spared helpers config store key
          (processRagQuery helpers config call.services store call.request caches).2 rest

def served (helpers : Helpers) (config : Config) (store : List Point) (caches : Caches)
    (calls : List Call) : Caches :=
  calls.foldl (fun caches call =>
    (processRagQuery helpers config call.services store call.request caches).2) caches

theorem served_holds {calls : List Call} {caches : Caches}
    (spared : Spared helpers config store key caches calls) (known : Holds key answer caches) :
    Holds key answer (served helpers config store caches calls) := by
  induction calls generalizing caches with
  | nil => exact known
  | cons call rest ih => exact ih spared.2 (call_holds spared.1 known)

end Entries

/-! ## Prompts -/

section Prompts

variable {helpers : Helpers} {config : Config} {request other : Request}

theorem promptMessages_inj {prompt text : String}
    (same : promptMessages prompt request = promptMessages text other) :
    prompt = text ∧
      request.otherMessages.filter (fun message => message.role ≠ "system") =
        other.otherMessages.filter (fun message => message.role ≠ "system") ∧
      request.query = other.query := by
  obtain ⟨front, last⟩ := List.append_inj' same rfl
  obtain ⟨head, conversation⟩ := List.cons.inj front
  exact ⟨congrArg Message.content head, conversation,
    congrArg Message.content (List.singleton_inj.mp last)⟩

theorem promptMessages_congr
    (conversation : request.otherMessages.filter (fun message => message.role ≠ "system") =
      other.otherMessages.filter (fun message => message.role ≠ "system"))
    (query : request.query = other.query) (prompt : String) :
    promptMessages prompt request = promptMessages prompt other := by
  simp only [promptMessages, conversation, query]

theorem systemPrompt_ne (grounding : Grounding) :
    systemPrompt helpers config request grounding ≠
      "You are a helpful assistant. Answer briefly and directly." := by
  intro same
  have lines : '\n' ∈ (systemPrompt helpers config request grounding).toList := by
    unfold systemPrompt
    dsimp only
    split <;> simp
  rw [same] at lines
  revert lines
  decide

end Prompts

/-! ## Answers from the entry of another request -/

section Soundness

variable (helpers : Helpers) (config : Config) (store : List Point)

structure FromExact (services : Services) (request : Request) (caches : Caches)
    (response : String) : Prop where
  unforced : request.forceRefresh = false
  dissimilar : (if config.semanticCacheEnabled then
      SemanticCache.get helpers.md5 (helpers.fixed 2) services.startedAt
        config.semanticCacheSimilarity (services.semanticEncode request.query) caches.semantic
    else (none, caches.semantic)).1.filter (· ≠ "") = none
  found : (InMemoryCache.get services.startedAt (cacheKey request) caches.responses).1 =
    some response
  nonempty : response ≠ ""

def searched (services : Services) (first : Request) (caches : Caches) : Caches :=
  (cachedAnswer helpers config services first caches).2

def met (services : Services) (caches : Caches) (first : Request) (between : List Call) : Caches :=
  served helpers config store (processRagQuery helpers config services store first caches).2 between

/-- The second request is answered from the exact cache with the entry that the first has written,
whatever was asked before and in between. -/
structure ServedFrom (services : Services) (caches : Caches) (first : Request)
    (between : List Call) (second : Call) (response : String) : Prop where
  missed : (cachedAnswer helpers config services first caches).1 = some none
  stores : Call.storesAnswer helpers config ⟨first, services⟩ = true
  answered : (processRagQuery helpers config services store first caches).1 ≠ none
  spared : Spared helpers config store (cacheKey first)
    (processRagQuery helpers config services store first caches).2 between
  key : cacheKey second.request = cacheKey first
  hit : FromExact helpers config second.services second.request
    (met helpers config store services caches first between) response

/-- The two requests put the same question: the same query after the same conversation, over the
same system prompt, which the language and the retrieved chunks make. -/
structure SameQuestion (services : Services) (caches : Caches) (first : Request)
    (later : Services) (laterCaches : Caches) (second : Request) : Prop where
  query : second.query = first.query
  conversation : second.otherMessages.filter (fun message => message.role ≠ "system") =
    first.otherMessages.filter (fun message => message.role ≠ "system")
  temperature : second.temperature = first.temperature
  maxTokens : second.maxTokens = first.maxTokens
  prompt : (grounded helpers config later store second laterCaches).1.map
      (systemPrompt helpers config second) =
    (grounded helpers config services store first caches).1.map (systemPrompt helpers config first)

variable {helpers config store} {services : Services} {caches : Caches} {first : Request}
  {between : List Call} {second : Call} {response : String}

theorem FromExact.outcome {request : Request}
    (exact : FromExact helpers config services request caches response) :
    (processRagQuery helpers config services store request caches).1 =
      some { response := response, fromCache := true } := by
  have found : (cachedAnswer helpers config services request caches).1 = some (some response) := by
    simp only [cachedAnswer, Attempt.ofState, exact.unforced, exact.dissimilar, exact.found]
    simp [exact.nonempty]
  unfold processRagQuery
  simp only [Attempt.bind_eq]
  rw [Attempt.andThen_of_some found]
  rfl

theorem processRagQuery_missed {request : Request}
    (missed : (cachedAnswer helpers config services request caches).1 = some none) :
    processRagQuery helpers config services store request caches =
      answerAnew helpers config services store request
        (searched helpers config services request caches) := by
  unfold processRagQuery
  simp only [Attempt.bind_eq]
  rw [Attempt.andThen_of_some missed]
  rfl

theorem ServedFrom.computed
    (from_entry : ServedFrom helpers config store services caches first between second response) :
    computed helpers config services store first (searched helpers config services first caches) =
      some response := by
  obtain ⟨outcome, anew⟩ := Option.ne_none_iff_exists'.mp from_entry.answered
  rw [processRagQuery_missed from_entry.missed] at anew
  have written := holds_answerAnew from_entry.stores anew
  have spared := from_entry.spared
  have hit := from_entry.hit.found
  unfold met at hit
  rw [processRagQuery_missed from_entry.missed] at spared hit
  rw [from_entry.key] at hit
  have same := holds_found (served_holds spared written) hit
  have plain : first.stream = false := (storesAnswer_iff.mp from_entry.stores).2.1
  have whole : { first with stream := false } = first := by
    rw [← plain]
  unfold RagSystem.Core.computed
  rw [whole, anew, same]
  rfl

theorem answerAnew_of_prompt {complete other : List Message → ℚ → Nat → Option String}
    {grounding : Grounding}
    (retrieves : ¬ (config.adaptiveRoutingEnabled ∧ helpers.classifiesDirect first.query))
    (found : (grounded helpers config services store first caches).1 = some grounding)
    (same : complete (promptMessages (systemPrompt helpers config first grounding) first)
        first.temperature first.maxTokens =
      other (promptMessages (systemPrompt helpers config first grounding) first)
        first.temperature first.maxTokens) :
    answerAnew helpers config { services with complete := complete } store first caches =
      answerAnew helpers config { services with complete := other } store first caches := by
  have left : (grounded helpers config { services with complete := complete } store first caches).1 =
      some grounding := found
  have right : (grounded helpers config { services with complete := other } store first caches).1 =
      some grounding := found
  rw [answerAnew_retrieving retrieves, answerAnew_retrieving retrieves,
    Attempt.andThen_of_some left, Attempt.andThen_of_some right]
  simp only [generateAnswer, same]
  rfl

theorem processRagQuery_of_prompt {complete other : List Message → ℚ → Nat → Option String}
    {grounding : Grounding}
    (missed : (cachedAnswer helpers config services first caches).1 = some none)
    (retrieves : ¬ (config.adaptiveRoutingEnabled ∧ helpers.classifiesDirect first.query))
    (found : (grounded helpers config services store first
      (searched helpers config services first caches)).1 = some grounding)
    (same : complete (promptMessages (systemPrompt helpers config first grounding) first)
        first.temperature first.maxTokens =
      other (promptMessages (systemPrompt helpers config first grounding) first)
        first.temperature first.maxTokens) :
    processRagQuery helpers config { services with complete := complete } store first caches =
      processRagQuery helpers config { services with complete := other } store first caches := by
  have missed_left : (cachedAnswer helpers config { services with complete := complete } first
      caches).1 = some none := missed
  have missed_right : (cachedAnswer helpers config { services with complete := other } first
      caches).1 = some none := missed
  rw [processRagQuery_missed missed_left, processRagQuery_missed missed_right]
  exact answerAnew_of_prompt retrieves found same

theorem ServedFrom.of_first {complete other : List Message → ℚ → Nat → Option String}
    (from_entry : ServedFrom helpers config store { services with complete := complete } caches first
      between second response)
    (alike : processRagQuery helpers config { services with complete := complete } store first
        caches =
      processRagQuery helpers config { services with complete := other } store first caches) :
    ServedFrom helpers config store { services with complete := other } caches first between second
      response where
  missed := from_entry.missed
  stores := from_entry.stores
  answered := alike ▸ from_entry.answered
  spared := alike ▸ from_entry.spared
  key := from_entry.key
  hit := by
    have hit := from_entry.hit
    unfold met at hit ⊢
    rw [← alike]
    exact hit

theorem grounded_of_served
    (from_entry : ServedFrom helpers config store services caches first between second response) :
    ∃ grounding, (grounded helpers config services store first
      (searched helpers config services first caches)).1 = some grounding := by
  have retrieves := (storesAnswer_iff.mp from_entry.stores).2.2
  have answer := from_entry.computed
  rw [computed_retrieving _ retrieves, Option.map_eq_some_iff] at answer
  obtain ⟨grounding, found, -⟩ := answer
  exact ⟨grounding, found⟩

theorem computed_of_sameQuestion {later : Services} {laterCaches : Caches} {asked : Request}
    (retrieves : ¬ (config.adaptiveRoutingEnabled ∧ helpers.classifiesDirect first.query))
    (same : SameQuestion helpers config store services caches first later laterCaches asked)
    (model : later.complete = services.complete) :
    computed helpers config later store asked laterCaches =
      computed helpers config services store first caches := by
  have also : ¬ (config.adaptiveRoutingEnabled ∧ helpers.classifiesDirect asked.query) := by
    rw [same.query]
    exact retrieves
  have prompts : ∀ grounding, promptMessages (systemPrompt helpers config asked grounding) asked =
      promptMessages (systemPrompt helpers config asked grounding) first :=
    fun grounding => promptMessages_congr same.conversation same.query _
  rw [computed_retrieving laterCaches also, computed_retrieving caches retrieves]
  have answers := congrArg (Option.map (fun prompt => (services.complete
    (promptMessages prompt first) first.temperature first.maxTokens).getD unavailable)) same.prompt
  rw [Option.map_map, Option.map_map] at answers
  simp only [prompts, same.temperature, same.maxTokens, model]
  exact answers

theorem sameQuestion_of_agree {asked : Request} (query : asked.query = first.query)
    (version : asked.version = first.version) (number : asked.topKOverride = first.topKOverride)
    (user : asked.user = first.user) (lang : asked.lang = first.lang)
    (conversation : asked.otherMessages.filter (fun message => message.role ≠ "system") =
      first.otherMessages.filter (fun message => message.role ≠ "system"))
    (temperature : asked.temperature = first.temperature)
    (maxTokens : asked.maxTokens = first.maxTokens) :
    SameQuestion helpers config store services caches first services caches asked where
  query := query
  conversation := conversation
  temperature := temperature
  maxTokens := maxTokens
  prompt := by
    have prompts : systemPrompt helpers config asked = systemPrompt helpers config first := by
      funext grounding
      simp only [systemPrompt, query, lang]
    rw [prompts, grounded_congr query version number user]

/-- An answer from the exact cache is the answer that the pipeline computes for the request, whatever
the language model, exactly if the request that wrote it put the same question. -/
theorem exact_cache_sound_iff (helpers : Helpers) (config : Config) (store : List Point)
    (services : Services) (caches : Caches) (first : Request) (between : List Call)
    (second : Call) :
    (∀ complete response,
        ServedFrom helpers config store { services with complete := complete } caches first between
          second response →
        computed helpers config { second.services with complete := complete } store second.request
          (met helpers config store { services with complete := complete } caches first between) =
          some response) ↔
      ∀ complete response,
        ServedFrom helpers config store { services with complete := complete } caches first between
          second response →
        SameQuestion helpers config store services (searched helpers config services first caches)
          first second.services
          (met helpers config store { services with complete := complete } caches first between)
          second.request := by
  constructor
  · intro sound complete response from_entry
    have retrieves := (storesAnswer_iff.mp from_entry.stores).2.2
    obtain ⟨grounding, found⟩ := grounded_of_served from_entry
    -- a model that answers the first prompt as before and every other one differently
    let asked := promptMessages (systemPrompt helpers config first grounding) first
    let other : List Message → ℚ → Nat → Option String := fun messages temperature maxTokens =>
      if messages = asked ∧ temperature = first.temperature ∧ maxTokens = first.maxTokens then
        complete messages temperature maxTokens
      else some (response ++ "!")
    have same_first : complete asked first.temperature first.maxTokens =
        other asked first.temperature first.maxTokens := by
      simp [other]
    have missed : (cachedAnswer helpers config services first caches).1 = some none :=
      from_entry.missed
    have alike := processRagQuery_of_prompt missed retrieves found same_first
    have answer := sound other response (from_entry.of_first alike)
    have longer : response ++ "!" ≠ response := by
      intro same
      have lengths := congrArg String.length same
      simp at lengths
    have meets : met helpers config store { services with complete := other } caches first between =
        met helpers config store { services with complete := complete } caches first between := by
      unfold met
      rw [alike]
    rw [meets] at answer
    by_cases direct : config.adaptiveRoutingEnabled ∧
        helpers.classifiesDirect second.request.query
    · rw [computed_directly _ direct] at answer
      have differs : promptMessages
          "You are a helpful assistant. Answer briefly and directly." second.request ≠ asked :=
        fun same => systemPrompt_ne grounding (promptMessages_inj same).1.symm
      simp [other, differs, longer] at answer
    · rw [computed_retrieving _ direct, Option.map_eq_some_iff] at answer
      obtain ⟨later, known, value⟩ := answer
      by_cases same : promptMessages (systemPrompt helpers config second.request later)
            second.request = asked ∧
          second.request.temperature = first.temperature ∧
          second.request.maxTokens = first.maxTokens
      · obtain ⟨prompt, conversation, query⟩ := promptMessages_inj same.1
        have second_found : (grounded helpers config second.services store second.request
            (met helpers config store { services with complete := complete } caches first
              between)).1 = some later := known
        have first_found : (grounded helpers config services store first
            (searched helpers config services first caches)).1 = some grounding := found
        exact {
          query
          conversation
          temperature := same.2.1
          maxTokens := same.2.2
          prompt := by rw [second_found, first_found, Option.map_some, Option.map_some, prompt] }
      · simp [other, same, longer] at value
  · intro same complete response from_entry
    have retrieves := (storesAnswer_iff.mp from_entry.stores).2.2
    have question := same complete response from_entry
    have again : SameQuestion helpers config store { services with complete := complete }
        (searched helpers config services first caches) first
        { second.services with complete := complete }
        (met helpers config store { services with complete := complete } caches first between)
        second.request := {
      query := question.query
      conversation := question.conversation
      temperature := question.temperature
      maxTokens := question.maxTokens
      prompt := question.prompt }
    exact (computed_of_sameQuestion retrieves again rfl).trans from_entry.computed

/-- A question about the conversation is answered from the conversation that the same user had
before. -/
theorem cached_answer_ignores_history :
    ∃ (helpers : Helpers) (config : Config) (store : List Point) (services : Services)
      (caches : Caches) (first second : Request) (response : String),
      ServedFrom helpers config store services caches first [] ⟨second, services⟩ response ∧
        computed helpers config services store second
          (met helpers config store services caches first []) ≠ some response := by
  let quoting : Services := {
    startedAt := 0
    finishedAt := 0
    encode := fun _ => some [1]
    qdrant := findingAll
    graphExpandQuery := fun _ => none
    callSlm := fun _ => none
    reranker := none
    complete := fun messages _ _ => some (String.join (messages.map Message.content))
    semanticEncode := fun _ => none }
  let asks (earlier : String) : Request := {
    query := "What did I say?"
    otherMessages := [⟨"user", earlier⟩]
    user := { userId := "1", username := "ann", roles := ["developer"] } }
  let answer := (computed Helpers.plain {} quoting [] (asks "yes") {}).getD ""
  refine ⟨Helpers.plain, {}, [], quoting, {}, asks "yes", asks "no", answer, ?_, ?_⟩
  · exact {
      missed := by decide +kernel
      stores := by decide +kernel
      answered := by decide +kernel
      spared := trivial
      key := by decide +kernel
      hit := {
        unforced := rfl
        dissimilar := by decide +kernel
        found := by decide +kernel
        nonempty := by decide +kernel } }
  · decide +kernel

end Soundness

end RagSystem.Core
