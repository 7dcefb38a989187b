import RagSystem.Core.Orchestrator

/-! How long a walk through the agentic graph can get: every back edge has a counter, and a walk
is as long as the settings allow unless it takes a back edge without counting it. -/

namespace RagSystem.Core

open Transition

section Counters

variable {helpers : Helpers} {config : Config} {services : Services} {store : List Point}
  {state next : RagState}

/-- What a node does to the counters of the back edges, and to the flags that take them. -/
structure Counted (helpers : Helpers) (config : Config) (node : Node) (state next : RagState) :
    Prop where
  rewrites : next.rewriteCount = if node = .rewrite ∧ state.rewriteCount < config.maxRetrievalLoops
    then state.rewriteCount + 1 else state.rewriteCount
  toolLoops : next.toolLoopCount =
    if node = .callTools then state.toolLoopCount + 1 else state.toolLoopCount
  reflections : state.reflectionCount ≤ next.reflectionCount
  critiques : state.selfCritiqueCount ≤ next.selfCritiqueCount
  reflected : node = .selfReflection → next.needsReflection = true →
    state.reflectionCount < config.reflectionDepth ∧
      next.reflectionCount = state.reflectionCount + 1
  criticised : node = .selfCritique → next.needsRewrite = true →
    next.selfCritiqueCount = state.selfCritiqueCount + 1
  escalated : node = .checkConfidence →
    next.needsEscalation = (checkConfidence helpers config state).needsEscalation
  uncriticised : node = .checkConfidence → next.needsSelfCritique = true →
    next.selfCritiqueCount < 1
  found : node = .checkSufficiency → next.retrievedChunks = state.retrievedChunks

theorem Counted.of_eq {node : Node} (plain : node ≠ .rewrite ∧ node ≠ .callTools ∧
      node ≠ .selfReflection ∧ node ≠ .selfCritique ∧ node ≠ .checkConfidence ∧
      node ≠ .checkSufficiency)
    (rewrites : next.rewriteCount = state.rewriteCount)
    (toolLoops : next.toolLoopCount = state.toolLoopCount)
    (reflections : next.reflectionCount = state.reflectionCount)
    (critiques : next.selfCritiqueCount = state.selfCritiqueCount) :
    Counted helpers config node state next := by
  obtain ⟨notRewrite, notTools, notReflection, notCritique, notConfidence, notSufficiency⟩ := plain
  constructor
  · simp [notRewrite, rewrites]
  · simp [notTools, toolLoops]
  · exact reflections.ge
  · exact critiques.ge
  · exact fun impossible => absurd impossible notReflection
  · exact fun impossible => absurd impossible notCritique
  · exact fun impossible => absurd impossible notConfidence
  · exact fun impossible => absurd impossible notConfidence
  · exact fun impossible => absurd impossible notSufficiency

theorem rewriteQuery_counted :
    Counted helpers config .rewrite state (rewriteQuery config services state) := by
  unfold rewriteQuery
  split
  · rename_i spent
    constructor <;> simp [Nat.not_lt.mpr spent]
  · rename_i left
    constructor <;> simp [Nat.not_le.mp left]

theorem selfReflection_counted :
    Counted helpers config .selfReflection state
      (selfReflection helpers config services state) := by
  unfold selfReflection
  split
  · constructor <;> simp
  · rename_i asked
    push Not at asked
    obtain ⟨-, -, left⟩ := asked
    constructor <;> simp [left]

theorem checkConfidence_counted :
    Counted helpers config .checkConfidence state (checkConfidence helpers config state) := by
  have uncriticised : (checkConfidence helpers config state).needsSelfCritique = true →
      state.selfCritiqueCount < 1 := by
    unfold checkConfidence
    dsimp only
    split
    · simp
    · intro due
      simp only [decide_eq_true_eq] at due
      exact due.2.2.2
  have kept : (checkConfidence helpers config state).rewriteCount = state.rewriteCount ∧
      (checkConfidence helpers config state).toolLoopCount = state.toolLoopCount ∧
      (checkConfidence helpers config state).reflectionCount = state.reflectionCount ∧
      (checkConfidence helpers config state).selfCritiqueCount = state.selfCritiqueCount := by
    unfold checkConfidence
    dsimp only
    split <;> exact ⟨rfl, rfl, rfl, rfl⟩
  obtain ⟨rewrites, toolLoops, reflections, critiques⟩ := kept
  constructor
  · simpa using rewrites
  · simpa using toolLoops
  · exact reflections.ge
  · exact critiques.ge
  · simp
  · simp
  · simp
  · intro _ due
    rw [critiques]
    exact uncriticised due
  · simp

theorem selfCritique_counted :
    Counted helpers config .selfCritique state (selfCritique services state) := by
  unfold selfCritique
  dsimp only
  split
  · constructor <;> simp
  · constructor <;> simp

theorem retrieve_counted :
    Attempt.Returns (Counted helpers config .retrieve state)
      (retrieve helpers config services store state) := by
  refine Attempt.returns_andThen (Attempt.returns_trivial _) ?_
  intro found _
  exact Attempt.returns_value (Counted.of_eq (by decide) rfl rfl rfl rfl)

theorem rerank_counted :
    Attempt.Returns (Counted helpers config .rerank state)
      (rerank helpers config services state) := by
  refine Attempt.returns_andThen (Attempt.returns_trivial _) ?_
  intro indices _
  exact Attempt.returns_value (Counted.of_eq (by decide) rfl rfl rfl rfl)

theorem buildContextNode_counted :
    Attempt.Returns (Counted helpers config .buildContext state)
      (buildContextNode helpers config state) := by
  refine Attempt.returns_andThen (Attempt.returns_trivial _) ?_
  intro maxTokens _
  exact Attempt.returns_value (Counted.of_eq (by decide) rfl rfl rfl rfl)

theorem generate_counted :
    Attempt.Returns (Counted helpers config .generate state) (generate services state) := by
  refine Attempt.returns_andThen (Attempt.returns_trivial _) ?_
  intro answer _
  exact Attempt.returns_value (Counted.of_eq (by decide) rfl rfl rfl rfl)

theorem runNode_counted (node : Node) :
    Attempt.Returns (Counted helpers config node state)
      (runNode helpers config services store node state) := by
  cases node with
  | rewrite => exact Attempt.returns_value rewriteQuery_counted
  | retrieve => exact retrieve_counted
  | checkSufficiency =>
      refine Attempt.returns_value ?_
      constructor <;> simp
  | rerank => exact rerank_counted
  | graphExpand => exact Attempt.returns_value (Counted.of_eq (by decide) rfl rfl rfl rfl)
  | buildContext => exact buildContextNode_counted
  | generate => exact generate_counted
  | callTools =>
      refine Attempt.returns_value ?_
      constructor <;> simp [callTools]
  | selfReflection => exact Attempt.returns_value selfReflection_counted
  | checkConfidence => exact Attempt.returns_value checkConfidence_counted
  | selfCritique => exact Attempt.returns_value selfCritique_counted
  | finish => exact Attempt.returns_raise

end Counters

def Node.rank : Node → Nat
  | .rewrite => 11
  | .retrieve => 10
  | .checkSufficiency => 9
  | .rerank => 8
  | .graphExpand => 7
  | .buildContext => 6
  | .generate => 5
  | .callTools => 4
  | .selfReflection => 3
  | .checkConfidence => 2
  | .selfCritique => 1
  | .finish => 0

/-- The back edges that a walk can still count: rewrites, reflections and the one critique. A walk
that stands at `rewrite` has already taken the edge that the node will count. -/
def Walk.budget (config : Config) (walk : Walk) : Nat :=
  (config.maxRetrievalLoops - walk.state.rewriteCount - if walk.node = .rewrite then 1 else 0) +
    (config.reflectionDepth - walk.state.reflectionCount) + (1 - walk.state.selfCritiqueCount)

def Walk.potential (config : Config) (walk : Walk) : Nat :=
  12 * walk.budget config + 2 * (5 - walk.state.toolLoopCount) + walk.node.rank

/-- The walk is about to go back to `rewrite` although the rewrites are used up: there nothing is
counted any more. -/
def stalled (helpers : Helpers) (config : Config) (walk : Walk) : Bool :=
  config.maxRetrievalLoops ≤ walk.state.rewriteCount &&
    match walk.node with
    | .checkSufficiency => walk.state.retrievedChunks = []
    | .checkConfidence => (checkConfidence helpers config walk.state).needsEscalation
    | _ => false

def visitBound (config : Config) : Nat :=
  12 * (config.maxRetrievalLoops + config.reflectionDepth + 1) + 21

/-- The edges into `callTools` and `selfCritique` check their counters. -/
structure Walk.Due (walk : Walk) : Prop where
  tools : walk.node = .callTools → walk.state.toolLoopCount < 5
  critique : walk.node = .selfCritique → walk.state.selfCritiqueCount < 1

section Visits

variable {helpers : Helpers} {config : Config} {store : List Point} {start walk next : Walk}
  {services : Services} {events : List (Event Walk Services)}

theorem walkStep_cases (stepped : walkStep helpers config store walk services = some next) :
    Counted helpers config walk.node walk.state next.state ∧
      next.node = route config walk.node next.state ∧ walk.node ≠ .finish := by
  simp only [walkStep, Option.map_eq_some_iff] at stepped
  obtain ⟨state, returned, rfl⟩ := stepped
  refine ⟨runNode_counted walk.node _ state returned, rfl, ?_⟩
  intro finished
  rw [finished] at returned
  cases returned

theorem route_callTools {node : Node} {state : RagState}
    (entered : route config node state = .callTools) : state.toolLoopCount < 5 := by
  cases node with
  | generate =>
      by_cases asked : state.toolCalls ≠ [] ∧ state.toolLoopCount < 5
      · exact asked.2
      · simp [route, asked] at entered
  | _ => grind [route]

theorem route_selfCritique {node : Node} {state : RagState}
    (entered : route config node state = .selfCritique) :
    node = .checkConfidence ∧ state.needsSelfCritique = true := by
  cases node with
  | checkConfidence =>
      by_cases critique : state.needsSelfCritique = true
      · exact ⟨rfl, critique⟩
      · grind [route]
  | _ => grind [route]

theorem due_step (stepped : walkStep helpers config store walk services = some next) :
    next.Due := by
  obtain ⟨counted, routed, -⟩ := walkStep_cases stepped
  constructor
  · intro tools
    exact route_callTools (routed.symm.trans tools)
  · intro critique
    obtain ⟨checked, asked⟩ := route_selfCritique (routed.symm.trans critique)
    exact counted.uncriticised checked asked

/-! What a visit does to the potential: the back edges lower the budget, `callTools` its own
counter, and every other edge the rank. -/

theorem potential_of_budget {drop loops : Nat}
    (budget : next.budget config + drop ≤ walk.budget config)
    (tools : 5 - next.state.toolLoopCount + loops ≤ 5 - walk.state.toolLoopCount) :
    next.potential config + 12 * drop + 2 * loops + walk.node.rank ≤
      walk.potential config + next.node.rank := by
  unfold Walk.potential
  omega

theorem tools_le (counted : Counted helpers config walk.node walk.state next.state) :
    5 - next.state.toolLoopCount ≤ 5 - walk.state.toolLoopCount := by
  have toolLoops := counted.toolLoops
  split at toolLoops
  · omega
  · exact toolLoops ▸ le_refl _

def Walk.rewritesLeft (config : Config) (walk : Walk) : Nat :=
  config.maxRetrievalLoops - walk.state.rewriteCount - if walk.node = .rewrite then 1 else 0

theorem rewritesLeft_le (counted : Counted helpers config walk.node walk.state next.state)
    (left_rewrite : walk.node = .rewrite → next.node = .retrieve) :
    next.rewritesLeft config ≤ walk.rewritesLeft config := by
  have rewrites := counted.rewrites
  unfold Walk.rewritesLeft
  by_cases standing : walk.node = .rewrite
  · simp only [standing, true_and, if_true, left_rewrite standing, reduceCtorEq, if_false]
      at rewrites ⊢
    split at rewrites
    · omega
    · omega
  · simp only [standing, false_and, if_false] at rewrites ⊢
    omega

theorem rewritesLeft_lt (counted : Counted helpers config walk.node walk.state next.state)
    (elsewhere : walk.node ≠ .rewrite) (back : next.node = .rewrite)
    (left : walk.state.rewriteCount < config.maxRetrievalLoops) :
    next.rewritesLeft config + 1 ≤ walk.rewritesLeft config := by
  have rewrites := counted.rewrites
  unfold Walk.rewritesLeft
  simp only [elsewhere, false_and, if_false, back, if_true] at rewrites ⊢
  omega

theorem budget_le_of_parts {rewrites reflections critiques : Nat}
    (rewritten : next.rewritesLeft config + rewrites ≤ walk.rewritesLeft config)
    (reflected : walk.state.reflectionCount + reflections ≤ next.state.reflectionCount)
    (within : walk.state.reflectionCount + reflections ≤ config.reflectionDepth ∨ reflections = 0)
    (criticised : walk.state.selfCritiqueCount + critiques ≤ next.state.selfCritiqueCount)
    (once : walk.state.selfCritiqueCount + critiques ≤ 1 ∨ critiques = 0) :
    next.budget config + (rewrites + reflections + critiques) ≤ walk.budget config := by
  have reflections_left : config.reflectionDepth - next.state.reflectionCount + reflections ≤
      config.reflectionDepth - walk.state.reflectionCount := by
    omega
  have critiques_left : 1 - next.state.selfCritiqueCount + critiques ≤
      1 - walk.state.selfCritiqueCount := by
    omega
  unfold Walk.rewritesLeft at rewritten
  unfold Walk.budget
  omega

theorem potential_step (due : walk.Due)
    (stepped : walkStep helpers config store walk services = some next) :
    next.potential config + 1 ≤
      walk.potential config + if stalled helpers config walk then 10 else 0 := by
  obtain ⟨counted, routed, unfinished⟩ := walkStep_cases stepped
  have onward : walk.node = .rewrite → next.node = .retrieve := by
    intro standing
    rw [routed, standing, route]
  have spent : next.rewritesLeft config + 0 ≤ walk.rewritesLeft config :=
    rewritesLeft_le counted onward
  have tools : 5 - next.state.toolLoopCount + 0 ≤ 5 - walk.state.toolLoopCount := tools_le counted
  have plain := potential_of_budget
    (budget_le_of_parts spent counted.reflections (Or.inr rfl) counted.critiques (Or.inr rfl)) tools
  -- an edge down needs nothing but the rank
  have down : next.node.rank < walk.node.rank → next.potential config + 1 ≤
      walk.potential config + if stalled helpers config walk then 10 else 0 := by
    intro lower
    omega
  have rewriting : walk.node ≠ .rewrite → next.node = .rewrite →
      (config.maxRetrievalLoops ≤ walk.state.rewriteCount → stalled helpers config walk = true) →
      2 ≤ walk.node.rank → next.potential config + 1 ≤
        walk.potential config + if stalled helpers config walk then 10 else 0 := by
    intro elsewhere back stuck high
    have top : next.node.rank = 11 := by rw [back, Node.rank]
    by_cases left : walk.state.rewriteCount < config.maxRetrievalLoops
    · have lower := potential_of_budget
        (budget_le_of_parts (rewritesLeft_lt counted elsewhere back left) counted.reflections
          (Or.inr rfl) counted.critiques (Or.inr rfl)) tools
      omega
    · rw [stuck (Nat.not_lt.mp left), if_pos rfl]
      omega
  cases node : walk.node with
  | checkSufficiency =>
      simp only [node, route] at routed
      split at routed
      · rename_i back
        refine rewriting (by simp [node]) routed ?_ (by rw [node, Node.rank]; decide)
        intro used
        have empty : walk.state.retrievedChunks = [] := by
          have rewrites := counted.rewrites
          simp only [node, reduceCtorEq, false_and, if_false] at rewrites
          simp only [insufficient, decide_eq_true_eq, rewrites, Nat.not_lt.mpr used, and_false,
            or_false, counted.found node, List.map_eq_nil_iff] at back
          exact back
        simp [stalled, node, empty, used]
      · exact down (by rw [routed, node]; decide)
  | selfReflection =>
      simp only [node, route] at routed
      split at routed
      · rename_i back
        obtain ⟨left, reflected⟩ := counted.reflected node back
        have lower := potential_of_budget
          (budget_le_of_parts spent reflected.ge (Or.inl left) counted.critiques (Or.inr rfl))
          tools
        rw [node, routed, Node.rank, Node.rank] at lower
        omega
      · exact down (by rw [routed, node]; decide)
  | checkConfidence =>
      simp only [node, route] at routed
      split at routed
      · rename_i back
        refine rewriting (by simp [node]) routed ?_ (by rw [node, Node.rank])
        intro used
        simp [stalled, node, ← counted.escalated node, back, used]
      · split at routed
        · exact down (by rw [routed, node]; decide)
        · exact down (by rw [routed, node]; decide)
  | selfCritique =>
      have fresh := due.critique node
      simp only [node, route] at routed
      split at routed
      · rename_i back
        have lower := potential_of_budget
          (budget_le_of_parts spent counted.reflections (Or.inr rfl)
            (counted.criticised node back).ge (Or.inl fresh)) tools
        rw [node, routed, Node.rank, Node.rank] at lower
        omega
      · exact down (by rw [routed, node]; decide)
  | generate =>
      simp only [node, route] at routed
      split at routed
      · exact down (by rw [routed, node]; decide)
      · exact down (by rw [routed, node]; decide)
  | callTools =>
      have asked := due.tools node
      have toolLoops := counted.toolLoops
      rw [node, if_pos rfl] at toolLoops
      have fewer : 5 - next.state.toolLoopCount + 1 ≤ 5 - walk.state.toolLoopCount := by omega
      have lower := potential_of_budget
        (budget_le_of_parts spent counted.reflections (Or.inr rfl) counted.critiques (Or.inr rfl))
        fewer
      simp only [node, route] at routed
      rw [node, routed, Node.rank, Node.rank] at lower
      omega
  | finish => exact absurd node unfinished
  | rewrite | retrieve | rerank | graphExpand | buildContext =>
      simp only [node, route] at routed
      exact down (by rw [routed, node]; decide)

theorem potential_le_visitBound (entry : start.node = .rewrite) :
    start.potential config ≤ visitBound config := by
  simp only [Walk.potential, Walk.budget, visitBound, entry, Node.rank, if_true]
  omega

theorem potential_pos (unfinished : walk.node ≠ .finish) : 0 < walk.potential config := by
  have visited : 0 < walk.node.rank := by
    cases node : walk.node with
    | finish => exact absurd node unfinished
    | _ => decide
  unfold Walk.potential
  omega

theorem visits_le (run : Run (walkStep helpers config store) start events walk)
    (entry : start.node = .rewrite) :
    events.length + walk.potential config ≤ visitBound config +
      (events.map (fun event => if stalled helpers config event.before then 10 else 0)).sum := by
  have fresh : start.Due := by
    constructor
    · intro tools
      simp [entry] at tools
    · intro critique
      simp [entry] at critique
  have bounded := run.length_le_potential Walk.Due (Walk.potential config)
    (fun event => if stalled helpers config event.before then 10 else 0) fresh
    (fun _ _ _ _ stepped => due_step stepped)
    (fun _ _ _ due stepped => potential_step due stepped)
  have entered : start.potential config ≤ visitBound config := potential_le_visitBound entry
  omega

/-- A walk that never stalls has reached the end when the bound on its visits is reached. -/
theorem graph_bounded_of_unstalled (run : Run (walkStep helpers config store) start events walk)
    (entry : start.node = .rewrite)
    (progress : ∀ event ∈ events, stalled helpers config event.before = false) :
    events.length ≤ visitBound config ∧
      (walk.node = .finish ∨ events.length < visitBound config) := by
  have unslacked : (events.map
      (fun event => if stalled helpers config event.before then 10 else 0)).sum = 0 := by
    rw [List.sum_eq_zero_iff_forall_eq_nat]
    intro slack member
    obtain ⟨event, inside, rfl⟩ := List.mem_map.mp member
    simp [progress event inside]
  have bounded := visits_le run entry
  rw [unslacked] at bounded
  constructor
  · omega
  · by_cases finished : walk.node = .finish
    · exact Or.inl finished
    · have left : 0 < walk.potential config := potential_pos finished
      exact Or.inr (by omega)

end Visits

def answering (answer : String) : Services :=
  { startedAt := 0
    finishedAt := 0
    encode := fun _ => some []
    qdrant := findingAll
    graphExpandQuery := fun _ => none
    callSlm := fun _ => some answer
    reranker := some (fun _ _ => 0)
    complete := fun _ _ _ => some answer
    semanticEncode := fun _ => none }

def asked : Walk := { node := .rewrite, state := { query := "?" }, caches := {} }

/-- A question with one chunk takes nine visits, of 93 that the default settings allow. -/
theorem graph_bounded_single_chunk :
    ∃ events, record (walkStep Helpers.plain {} [⟨"p", { text := some "text" }⟩]) asked
        (List.replicate 9 (answering "FULLY_SUPPORTED")) = some events ∧
      (final asked events).node = .finish ∧ events.length ≤ 93 := by
  have recorded : (record (walkStep Helpers.plain {} [⟨"p", { text := some "text" }⟩]) asked
      (List.replicate 9 (answering "FULLY_SUPPORTED"))).any (fun events =>
        (final asked events).node = .finish ∧
          events.all (fun event => stalled Helpers.plain {} event.before = false)) = true := by
    decide +kernel
  obtain ⟨events, run, checked⟩ := (Option.any_eq_true _ _).mp recorded
  obtain ⟨finished, fair⟩ := of_decide_eq_true checked
  have progress : ∀ event ∈ events, stalled Helpers.plain {} event.before = false := by
    simpa using fair
  exact ⟨events, run, finished,
    (graph_bounded_of_unstalled (run_of_record run) rfl progress).1⟩

/-! Without hits the walk goes round for ever. -/

section Silence

variable (helpers : Helpers) (config : Config) (store : List Point)

def Qdrant.down : Qdrant where
  dense _ _ _ := none
  sparse _ _ _ := none
  dense_mem := by simp
  sparse_mem := by simp
  dense_limit := by simp
  sparse_limit := by simp

def silentServices : Services :=
  { startedAt := 0
    finishedAt := 0
    encode := fun _ => some []
    qdrant := Qdrant.down
    graphExpandQuery := fun _ => none
    callSlm := fun _ => none
    reranker := none
    complete := fun _ _ _ => none
    semanticEncode := fun _ => none }

theorem hybridSearch_down (query : String) (version : Option String) (topK : Nat)
    (caches : Caches) :
    (hybridSearch helpers config silentServices store query version topK none caches).1 = none := by
  unfold hybridSearch
  simp only [Attempt.bind_eq]
  cases embedded : (computeDenseEmbedding helpers silentServices query caches).1 with
  | none => rw [Attempt.andThen_of_none embedded]
  | some vector =>
      rw [Attempt.andThen_of_some embedded]
      rfl

theorem retrieve_down (state : RagState) (caches : Caches) :
    (retrieve helpers config silentServices store state caches).1 =
      some { state with retrievedChunks := [] } := by
  have nothing := hybridSearch_down helpers config store state.searchQuery state.version
    config.maxChunksRetrieval caches
  simp only [retrieve, Attempt.bind_eq, Attempt.andThen, Attempt.settle, nothing]
  rfl

theorem goes_round (walk : Walk) (entry : walk.node = .rewrite) :
    ∃ events next, Run (walkStep helpers config store) walk events next ∧ events.length = 3 ∧
      next.node = .rewrite := by
  obtain ⟨node, state, caches⟩ := walk
  obtain rfl : node = .rewrite := entry
  have rewritten : ∃ next : Walk, walkStep helpers config store ⟨.rewrite, state, caches⟩
      silentServices = some next ∧ next.node = .retrieve := ⟨_, rfl, rfl⟩
  obtain ⟨⟨node, queried, caches⟩, rewritten, rfl⟩ := rewritten
  have retrieved : ∃ next : Walk, walkStep helpers config store ⟨.retrieve, queried, caches⟩
      silentServices = some next ∧ next.node = .checkSufficiency ∧
        next.state.retrievedChunks = [] := by
    simp only [walkStep, runNode, retrieve_down, Option.map_some]
    exact ⟨_, rfl, rfl, rfl⟩
  obtain ⟨⟨node, searched, caches⟩, retrieved, rfl, empty⟩ := retrieved
  have checked : ∃ next : Walk, walkStep helpers config store ⟨.checkSufficiency, searched, caches⟩
      silentServices = some next ∧ next.node = .rewrite := by
    refine ⟨_, rfl, ?_⟩
    have none : searched.retrievedChunks = [] := empty
    simp [route, insufficient, none]
  obtain ⟨next, checked, back⟩ := checked
  exact ⟨_, next, Run.cons rewritten (Run.cons retrieved (Run.cons checked Run.nil)), rfl, back⟩

theorem goes_round_again (rounds : Nat) (walk : Walk) (entry : walk.node = .rewrite) :
    ∃ events next, Run (walkStep helpers config store) walk events next ∧
      events.length = 3 * rounds ∧ next.node = .rewrite := by
  induction rounds with
  | zero => exact ⟨[], walk, Run.nil, rfl, entry⟩
  | succ rounds ih =>
      obtain ⟨events, middle, run, long, back⟩ := ih
      obtain ⟨round, next, more, three, again⟩ := goes_round helpers config store middle back
      refine ⟨events ++ round, next, run.append more, ?_, again⟩
      rw [List.length_append]
      omega

end Silence

/-- No bound that depends on the settings holds for all walks. -/
theorem graph_visits_unbounded :
    ¬ ∃ bound : Config → Nat, ∀ helpers config store start events walk,
      Run (walkStep helpers config store) start events walk → start.node = .rewrite →
        events.length ≤ bound config := by
  intro given
  rcases given with ⟨bound, bounded⟩
  obtain ⟨events, walk, run, long, -⟩ := goes_round_again Helpers.plain {} []
    (bound {} + 1) ⟨.rewrite, { query := "?" }, {}⟩ rfl
  have short := bounded Helpers.plain {} [] _ events walk run rfl
  omega

end RagSystem.Core
