import RagSystem.Core.ProgressiveSearch

/-! Where a progressive retrieval stops and what it returns, read off the log of its searches. -/

namespace RagSystem.Core.Progressive

open Transition

variable {σ ρ κ : Type}

section Log

variable (settings : Settings ρ κ)

/-- The outcomes of the searches in order, `none` for one that raised. -/
abbrev Log (ρ : Type) := List (Option (List ρ))

def returnedBy (log : Log ρ) : List ρ := log.flatMap (fun outcome => outcome.getD [])

def merged (log : Log ρ) : List ρ := firstOfEach settings.getId (returnedBy log)

def Services.recorded (services : Services σ ρ) : Services (σ × Log ρ) ρ where
  generateHypotheticalAnswer query := (services.generateHypotheticalAnswer query).unrecorded
  hybridSearch query topK := (services.hybridSearch query topK).recorded
  graphExpandQuery query := (services.graphExpandQuery query).unrecorded

variable {settings} {services : Services σ ρ} {searchQuery : String} {progress : Progress ρ}
  {topK : Int} {state : σ} {before more : Log ρ} {results : List ρ}

theorem returnedBy_append :
    returnedBy (before ++ more) = returnedBy before ++ returnedBy more :=
  List.flatMap_append

theorem mem_returnedBy {result : ρ} :
    result ∈ returnedBy more ↔ ∃ returned, some returned ∈ more ∧ result ∈ returned := by
  rw [returnedBy, List.mem_flatMap]
  constructor
  · intro present
    obtain ⟨outcome, written, inside⟩ := present
    cases outcome with
    | none => cases inside
    | some returned => exact ⟨returned, written, inside⟩
  · intro present
    obtain ⟨returned, written, inside⟩ := present
    exact ⟨some returned, written, inside⟩

theorem mem_ids_merged {id : String} :
    id ∈ (merged settings more).map settings.getId ↔
      ∃ returned, some returned ∈ more ∧ id ∈ returned.map settings.getId := by
  rw [merged, mem_map_firstOfEach]
  constructor
  · intro present
    obtain ⟨result, member, rfl⟩ := List.mem_map.mp present
    obtain ⟨returned, written, inside⟩ := mem_returnedBy.mp member
    exact ⟨returned, written, List.mem_map_of_mem inside⟩
  · intro present
    obtain ⟨returned, written, inside⟩ := present
    obtain ⟨result, member, rfl⟩ := List.mem_map.mp inside
    exact List.mem_map_of_mem (mem_returnedBy.mpr ⟨returned, written, member⟩)

theorem searchStage_of_none
    (raised : (services.hybridSearch searchQuery topK state).1 = none) :
    searchStage settings services.recorded searchQuery topK progress (state, before) =
      (none, (services.hybridSearch searchQuery topK state).2, before ++ [none]) := by
  simp only [searchStage, Services.recorded, Attempt.recorded, Attempt.bind_eq, Attempt.andThen,
    raised]

theorem searchStage_of_some
    (returned : (services.hybridSearch searchQuery topK state).1 = some results) :
    searchStage settings services.recorded searchQuery topK progress (state, before) =
      (some (extendWith settings progress results),
        (services.hybridSearch searchQuery topK state).2, before ++ [some results]) := by
  simp only [searchStage, Services.recorded, Attempt.recorded, Attempt.bind_eq, Attempt.andThen,
    returned]
  rfl

theorem merges_returned (merges : progress.Merges settings (returnedBy before))
    (results : List ρ) :
    (extendWith settings progress results).Merges settings
      (returnedBy (before ++ [some results])) := by
  have joined := merges.extend results
  rw [returnedBy_append]
  simpa [returnedBy] using joined

section Hyde

variable {query : String} {stages : List Int}

def hydeAsked (settings : Settings ρ κ) (services : Services σ ρ) (query : String) (state : σ) :
    Bool :=
  settings.hydeEnabledInProgressive && (services.generateHypotheticalAnswer query state).1.isSome

def stageNames (settings : Settings ρ κ) (services : Services σ ρ) (query : String)
    (stages : List Int) (state : σ) : List String :=
  (if hydeAsked settings services query state then ["hyde"] else []) ++
    ["direct", "expanded", "graph_expanded"].take (max 1 stages.length)

theorem hydeStage_enabled
    (enabled : settings.hydeEnabledInProgressive = true) :
    hydeStage settings services.recorded query stages (state, before) =
      (some (afterHyde settings query
        (hydeSearch services.recorded query stages (state, before)).1),
        (hydeSearch services.recorded query stages (state, before)).2) := by
  rw [hydeStage, enabled]
  rfl

theorem hydeSearch_unwritten
    (raised : (services.generateHypotheticalAnswer query state).1 = none) :
    hydeSearch services.recorded query stages (state, before) =
      (none, (services.generateHypotheticalAnswer query state).2, before) := by
  simp only [hydeSearch, Services.recorded, Attempt.unrecorded, Attempt.bind_eq, Attempt.andThen,
    raised]

theorem hydeSearch_written {hypotheticalDoc : String}
    (written : (services.generateHypotheticalAnswer query state).1 = some hypotheticalDoc) :
    hydeSearch services.recorded query stages (state, before) =
      let searched := services.hybridSearch hypotheticalDoc (stages.getD 0 5)
        (services.generateHypotheticalAnswer query state).2
      (searched.1.map (fun results => (hypotheticalDoc, results)), searched.2,
        before ++ [searched.1]) := by
  simp only [hydeSearch, Services.recorded, Attempt.unrecorded, Attempt.recorded, Attempt.bind_eq,
    Attempt.andThen, written]
  cases (services.hybridSearch hypotheticalDoc (stages.getD 0 5)
    (services.generateHypotheticalAnswer query state).2).1 <;> rfl

theorem merges_afterHyde {hypotheticalDoc : String} {outcome : Option (List ρ)}
    (distinct : ∀ results, outcome = some results → (results.map settings.getId).Nodup) :
    (afterHyde settings query
      (outcome.map (fun results => (hypotheticalDoc, results)))).2.Merges settings
        (returnedBy [outcome]) := by
  match outcome with
  | none => exact merges_empty
  | some [] => exact merges_empty
  | some (result :: rest) =>
      have same : returnedBy [some (result :: rest)] = result :: rest := List.flatMap_singleton ..
      rw [same]
      exact merges_distinct (distinct _ rfl)

theorem hydeStage_run (query : String) (stages : List Int) (state : σ)
    (distinct : ∀ searchQuery topK, Attempt.Returns
      (fun results => (results.map settings.getId).Nodup)
      (services.hybridSearch searchQuery topK)) :
    ∃ searchQuery progress reached before,
      hydeStage settings services.recorded query stages (state, []) =
        (some (searchQuery, progress), reached, before) ∧
      progress.Merges settings (returnedBy before) ∧
      (hydeAsked settings services query state = false ∧ before = [] ∨
        hydeAsked settings services query state = true ∧ ∃ outcome, before = [outcome]) := by
  unfold hydeAsked
  cases enabled : settings.hydeEnabledInProgressive with
  | false =>
      refine ⟨query, Progress.empty, state, [], ?_, merges_empty, Or.inl ⟨rfl, rfl⟩⟩
      rw [hydeStage, enabled]
      rfl
  | true =>
      rw [hydeStage_enabled enabled]
      cases written : (services.generateHypotheticalAnswer query state).1 with
      | none =>
          rw [hydeSearch_unwritten written]
          exact ⟨_, _, _, [], rfl, merges_empty, Or.inl ⟨rfl, rfl⟩⟩
      | some hypotheticalDoc =>
          rw [hydeSearch_written written]
          refine ⟨_, _, _, _, rfl, ?_, Or.inr ⟨rfl, _, rfl⟩⟩
          apply merges_afterHyde
          intro results returned
          exact distinct _ _ _ _ returned

theorem insufficient_notMem_stageNames (stages : List Int) (state : σ) :
    "insufficient" ∉ stageNames settings services query stages state := by
  intro present
  rw [stageNames, List.mem_append] at present
  rcases present with hyde | direct
  · split at hyde <;> simp at hyde
  · have known := List.mem_of_mem_take direct
    simp at known

end Hyde

end Log

variable [LE κ] [DecidableLE κ] (settings : Settings ρ κ)

def Sufficient (results : List ρ) : Prop := minStrongSources ≤ results.countP settings.strong

/-- After the searches `before` the run made the searches `more` and returned: it went past each
earlier stage for want of strong results, and through all when there were never enough. -/
structure StopsAfter (names : List String) (before more : Log ρ) (results : List ρ)
    (stage : String) : Prop where
  merges : results = merged settings (before ++ more)
  earlier : ∀ ran < more.length, ¬ Sufficient settings (merged settings (before ++ more.take ran))
  enough : Sufficient settings results → 0 < more.length ∧ names[more.length - 1]? = some stage
  exhausted : ¬ Sufficient settings results → stage = "insufficient" ∧ more.length = names.length

/-- Stages 1 to 3: name, limit, and whether the graph is asked. -/
structure Stage where
  name : String
  topK : Int
  graph : Bool

def plan : List Int → List Stage
  | [] => [⟨"direct", 5, false⟩]
  | [first] => [⟨"direct", first, false⟩]
  | [first, second] => [⟨"direct", first, false⟩, ⟨"expanded", second, false⟩]
  | first :: second :: third :: _ =>
      [⟨"direct", first, false⟩, ⟨"expanded", second, false⟩, ⟨"graph_expanded", third, true⟩]

section Loop

variable (services : Services σ ρ) (query searchQuery : String)

def askGraph (stage : Stage) : Attempt σ String :=
  if stage.graph then services.graphExpandQuery query else pure ""

def stageLoop : List Stage → Progress ρ → Attempt σ (List ρ × String)
  | [], progress => pure (progress.allResults, "insufficient")
  | stage :: rest, progress => do
      let progress ← searchStage settings services searchQuery stage.topK progress
      let _graphContext ← askGraph services query stage
      if qualitySufficient settings progress.allResults then
        pure (progress.allResults, stage.name)
      else stageLoop rest progress

end Loop

variable {settings} {services : Services σ ρ} {query searchQuery : String} {stages : List Int}
  {progress : Progress ρ}

theorem names_plan (stages : List Int) :
    (plan stages).map Stage.name =
      ["direct", "expanded", "graph_expanded"].take (max 1 stages.length) := by
  match stages with
  | [] => rfl
  | [_] => rfl
  | [_, _] => rfl
  | _ :: _ :: _ :: rest =>
      rw [List.take_of_length_le (by simp)]
      rfl

theorem directStages_eq_stageLoop :
    directStages settings services query stages searchQuery progress =
      stageLoop settings services query searchQuery (plan stages) progress := by
  match stages with
  | [] => rfl
  | [_] => rfl
  | [_, _] => rfl
  | _ :: _ :: _ :: rest =>
      have second : ¬ rest.length + 1 + 1 + 1 ≤ 1 := by omega
      have third : ¬ rest.length + 1 + 1 + 1 ≤ 2 := by omega
      simp only [directStages, List.length_cons, second, third, if_false]
      rfl

theorem sufficient_iff {results : List ρ} :
    qualitySufficient settings results = true ↔ Sufficient settings results :=
  qualitySufficient_iff

theorem not_sufficient_nil : ¬ Sufficient settings [] := by
  simp [Sufficient, minStrongSources]

theorem StopsAfter.cons {name stage : String} {names : List String} {before more : Log ρ}
    {outcome : Option (List ρ)} {results : List ρ}
    (lacking : ¬ Sufficient settings (merged settings before))
    (stops : StopsAfter settings names (before ++ [outcome]) more results stage) :
    StopsAfter settings (name :: names) before (outcome :: more) results stage := by
  constructor
  · rw [stops.merges, List.append_assoc, List.singleton_append]
  · intro ran few
    cases ran with
    | zero => simpa using lacking
    | succ ran =>
        have before := stops.earlier ran (Nat.lt_of_succ_lt_succ few)
        rw [List.append_assoc, List.singleton_append] at before
        exact before
  · intro enough
    obtain ⟨some, named⟩ := stops.enough enough
    refine ⟨Nat.succ_pos _, ?_⟩
    rw [List.length_cons, Nat.add_sub_cancel, List.getElem?_cons, if_neg (by omega)]
    exact named
  · intro lacks
    obtain ⟨named, all⟩ := stops.exhausted lacks
    exact ⟨named, congrArg (· + 1) all⟩

theorem stopsAfter_singleton {name : String} {names : List String} {before : Log ρ}
    {outcome : Option (List ρ)} (lacking : ¬ Sufficient settings (merged settings before))
    (enough : Sufficient settings (merged settings (before ++ [outcome]))) :
    StopsAfter settings (name :: names) before [outcome]
      (merged settings (before ++ [outcome])) name := by
  constructor
  · rfl
  · intro ran few
    obtain rfl : ran = 0 := Nat.lt_one_iff.mp few
    simpa using lacking
  · intro _
    exact ⟨Nat.one_pos, rfl⟩
  · intro lacks
    exact absurd enough lacks

theorem stopsAfter_nil {before : Log ρ}
    (lacking : ¬ Sufficient settings (merged settings before)) :
    StopsAfter settings [] before [] (merged settings before) "insufficient" := by
  constructor
  · rw [List.append_nil]
  · intro ran few
    cases few
  · intro enough
    exact absurd enough lacking
  · intro _
    exact ⟨rfl, rfl⟩

/-- How a run ends, told by what it added to the log. -/
def Ends (settings : Settings ρ κ) (services : Services σ ρ) (query : String)
    (names : List String) (before : Log ρ)
    (ended : Option (List ρ × String) × (σ × Log ρ)) : Prop :=
  ∃ more, ended.2.2 = before ++ more ∧
    (ended.1 = none → more.getLast? = some none ∨
      ∃ reached, (services.graphExpandQuery query reached).1 = none) ∧
    ∀ results stage, ended.1 = some (results, stage) →
      StopsAfter settings names before more results stage

theorem Ends.cons {name : String} {names : List String} {before : Log ρ}
    {outcome : Option (List ρ)} {ended : Option (List ρ × String) × (σ × Log ρ)}
    (lacking : ¬ Sufficient settings (merged settings before))
    (ends : Ends settings services query names (before ++ [outcome]) ended) :
    Ends settings services query (name :: names) before ended := by
  obtain ⟨more, written, raised, stops⟩ := ends
  refine ⟨outcome :: more, by rw [written, List.append_assoc, List.singleton_append], ?_, ?_⟩
  · intro nothing
    apply (raised nothing).imp_left
    intro last
    rw [List.getLast?_cons, last, Option.getD_some]
  · intro results stage returned
    exact (stops results stage returned).cons lacking

theorem ends_raised {names : List String} {before : Log ρ} {reached : σ} :
    Ends settings services query names before (none, reached, before ++ [none]) := by
  refine ⟨[none], rfl, fun _ => Or.inl rfl, ?_⟩
  intro results stage returned
  cases returned

theorem ends_returned {names : List String} {before more log : Log ρ} {reached : σ}
    {results : List ρ} {stage : String} (written : log = before ++ more)
    (stops : StopsAfter settings names before more results stage) :
    Ends settings services query names before (some (results, stage), reached, log) := by
  refine ⟨more, written, ?_, ?_⟩
  · intro impossible
    cases impossible
  · intro others other returned
    cases returned
    exact stops

theorem ends_asked {names : List String} {before : Log ρ} {outcome : Option (List ρ)}
    {reached : σ} (raised : ∃ reached, (services.graphExpandQuery query reached).1 = none) :
    Ends settings services query names before (none, reached, before ++ [outcome]) := by
  refine ⟨[outcome], rfl, fun _ => Or.inr raised, ?_⟩
  intro results stage returned
  cases returned

theorem graph_raised {stage : Stage} {reached : σ}
    (raised : (askGraph services query stage reached).1 = none) :
    ∃ reached, (services.graphExpandQuery query reached).1 = none := by
  unfold askGraph at raised
  split at raised
  · exact ⟨reached, raised⟩
  · cases raised

theorem askGraph_recorded (stage : Stage) :
    askGraph services.recorded query stage = (askGraph services query stage).unrecorded := by
  unfold askGraph
  split <;> rfl

theorem stageLoop_ends (remaining : List Stage) {before : Log ρ} {state : σ}
    (merges : progress.Merges settings (returnedBy before))
    (lacking : ¬ Sufficient settings (merged settings before)) :
    Ends settings services query (remaining.map Stage.name) before
      (stageLoop settings services.recorded query searchQuery remaining progress
        (state, before)) := by
  induction remaining generalizing progress before state with
  | nil =>
      rw [stageLoop, List.map_nil, merges.allResults]
      exact ends_returned (List.append_nil before).symm (stopsAfter_nil lacking)
  | cons stage rest ih =>
      rw [stageLoop, Attempt.bind_eq, List.map_cons]
      cases found : (services.hybridSearch searchQuery stage.topK state).1 with
      | none =>
          rw [Attempt.andThen_of_none (by rw [searchStage_of_none found]),
            searchStage_of_none found]
          exact ends_raised
      | some results =>
          rw [Attempt.andThen_of_some (by rw [searchStage_of_some found]),
            searchStage_of_some found, Attempt.bind_eq, askGraph_recorded]
          have joined := merges_returned merges results
          cases asked : (askGraph services query stage
              (services.hybridSearch searchQuery stage.topK state).2).1 with
          | none =>
              rw [Attempt.andThen_of_none (by exact asked)]
              exact ends_asked (graph_raised asked)
          | some graphContext =>
              rw [Attempt.andThen_of_some (by exact asked)]
              split
              next enough =>
                rw [sufficient_iff, joined.allResults] at enough
                rw [joined.allResults]
                exact ends_returned rfl (stopsAfter_singleton lacking enough)
              next short =>
                rw [sufficient_iff, joined.allResults] at short
                exact (ih joined short).cons lacking

theorem progressiveRetrieve_ends (query : String) (stages : Option (List Int)) (state : σ)
    (distinct : ∀ searchQuery topK, Attempt.Returns
      (fun results => (results.map settings.getId).Nodup)
      (services.hybridSearch searchQuery topK)) :
    Ends settings services query
      (stageNames settings services query (stages.getD [5, 10, 20]) state) []
      (progressiveRetrieve settings services.recorded query stages (state, [])) := by
  obtain ⟨searchQuery, progress, reached, before, ran, merges, asked⟩ :=
    hydeStage_run query (stages.getD [5, 10, 20]) state distinct
  rw [progressiveRetrieve, Attempt.bind_eq, Attempt.andThen_of_some (by rw [ran]), ran,
    stageNames, ← names_plan]
  dsimp only
  have nothing : ¬ Sufficient settings (merged settings []) := not_sufficient_nil
  by_cases enough : qualitySufficient settings progress.allResults = true
  · rw [if_pos enough]
    rw [sufficient_iff, merges.allResults] at enough
    rcases asked with ⟨-, rfl⟩ | ⟨asked, outcome, rfl⟩
    · exact absurd enough nothing
    · rw [asked, merges.allResults]
      exact ends_returned rfl (stopsAfter_singleton nothing enough)
  · rw [if_neg enough, directStages_eq_stageLoop]
    rw [sufficient_iff, merges.allResults] at enough
    have later : Ends settings services query
        ((plan (stages.getD [5, 10, 20])).map Stage.name) before
        (stageLoop settings services.recorded query searchQuery
          (plan (stages.getD [5, 10, 20])) progress (reached, before)) :=
      stageLoop_ends _ merges enough
    rcases asked with ⟨asked, rfl⟩ | ⟨asked, outcome, rfl⟩
    · rw [asked]
      exact later
    · rw [asked]
      exact Ends.cons nothing later

/-! The log changes nothing else. -/

omit [LE κ] [DecidableLE κ] in
theorem searchStage_watches (topK : Int) :
    Attempt.Watches (searchStage settings services.recorded searchQuery topK progress)
      (searchStage settings services searchQuery topK progress) := by
  apply Attempt.watches_andThen (Attempt.watches_recorded _)
  intro results
  exact Attempt.watches_value _

omit [LE κ] [DecidableLE κ] in
theorem hydeStage_watches :
    Attempt.Watches (hydeStage settings services.recorded query stages)
      (hydeStage settings services query stages) := by
  unfold hydeStage
  split
  · have searched : Attempt.Watches (hydeSearch services.recorded query stages)
        (hydeSearch services query stages) := by
      apply Attempt.watches_andThen (Attempt.watches_unrecorded _)
      intro hypotheticalDoc
      apply Attempt.watches_andThen (Attempt.watches_recorded _)
      intro hydeResults
      exact Attempt.watches_value _
    apply Attempt.watches_andThen (Attempt.watches_settle searched)
    intro outcome
    exact Attempt.watches_value _
  · exact Attempt.watches_value _

theorem stageLoop_watches (remaining : List Stage) :
    Attempt.Watches (stageLoop settings services.recorded query searchQuery remaining progress)
      (stageLoop settings services query searchQuery remaining progress) := by
  induction remaining generalizing progress with
  | nil => exact Attempt.watches_value _
  | cons stage rest ih =>
      apply Attempt.watches_andThen (searchStage_watches stage.topK)
      intro progress
      rw [askGraph_recorded]
      apply Attempt.watches_andThen (Attempt.watches_unrecorded _)
      intro graphContext
      split
      · exact Attempt.watches_value _
      · exact ih

theorem progressiveRetrieve_watches (stages : Option (List Int)) :
    Attempt.Watches (progressiveRetrieve settings services.recorded query stages)
      (progressiveRetrieve settings services query stages) := by
  apply Attempt.watches_andThen hydeStage_watches
  intro reached
  dsimp only
  split
  · exact Attempt.watches_value _
  · rw [directStages_eq_stageLoop, directStages_eq_stageLoop]
    exact stageLoop_watches _

/-- The results have distinct ids, the first result of each id that any search returned, in the
order of the searches; the run stops at the first stage that is enough, and only without one it
reports `insufficient`, after all stages. It raises only when its last search or the graph does. -/
theorem progressiveRetrieve_accumulates (settings : Settings ρ κ) (services : Services σ ρ)
    (query : String) (stages : Option (List Int)) (state : σ)
    (distinct : ∀ searchQuery topK, Attempt.Returns
      (fun results => (results.map settings.getId).Nodup)
      (services.hybridSearch searchQuery topK)) :
    let run := progressiveRetrieve settings services.recorded query stages (state, [])
    let log := run.2.2
    let names := stageNames settings services query (stages.getD [5, 10, 20]) state
    run.1 = (progressiveRetrieve settings services query stages state).1 ∧
    (run.1 = none → log.getLast? = some none ∨
      ∃ reached, (services.graphExpandQuery query reached).1 = none) ∧
    ∀ results stage, run.1 = some (results, stage) →
      (results.map settings.getId).Nodup ∧
      (∀ id, id ∈ results.map settings.getId ↔
        ∃ returned, some returned ∈ log ∧ id ∈ returned.map settings.getId) ∧
      results = firstOfEach settings.getId (returnedBy log) ∧
      (∀ ran < log.length, ¬ Sufficient settings (merged settings (log.take ran))) ∧
      (Sufficient settings results → names[log.length - 1]? = some stage) ∧
      (stage = "insufficient" → log.length = names.length) ∧
      (stage = "insufficient" ↔
        ∀ ran ≤ log.length, ¬ Sufficient settings (merged settings (log.take ran))) := by
  intro run log names
  obtain ⟨more, written, raised, stops⟩ := progressiveRetrieve_ends query stages state distinct
  have same : more = log := written.symm
  rw [same] at raised stops
  refine ⟨(progressiveRetrieve_watches stages (state, [])).1, raised, ?_⟩
  intro results stage returned
  have stopped := stops results stage returned
  have merges : results = merged settings log := stopped.merges
  have reported : Sufficient settings results → stage ≠ "insufficient" := by
    intro enough equal
    have named := List.mem_of_getElem? (stopped.enough enough).2
    rw [equal] at named
    exact insufficient_notMem_stageNames _ _ named
  refine ⟨?_, ?_, merges, stopped.earlier, fun enough => (stopped.enough enough).2, ?_, ?_, ?_⟩
  · rw [merges]
    exact nodup_firstOfEach settings.getId (returnedBy log)
  · intro id
    rw [merges]
    exact mem_ids_merged
  · intro equal
    exact (stopped.exhausted (fun enough => reported enough equal)).2
  · intro equal ran few
    rcases Nat.lt_or_eq_of_le few with less | rfl
    · exact stopped.earlier ran less
    · rw [List.take_length, ← merges]
      exact fun enough => reported enough equal
  · intro never
    have lacking := never log.length (Nat.le_refl _)
    rw [List.take_length, ← merges] at lacking
    exact (stopped.exhausted lacking).1

def hundredths : Settings (String × Nat) Nat where
  getId := Prod.fst
  getScore result := some result.2
  strongScoreThreshold := 32
  hydeEnabledInProgressive := true

def overlapping : Services Unit (String × Nat) where
  generateHypotheticalAnswer _ := Attempt.value "A restart clears the cache."
  hybridSearch _ topK := Attempt.value
    (if topK ≤ 5 then [("guide", 50), ("notes", 10)] else [("notes", 10), ("manual", 40)])
  graphExpandQuery _ := Attempt.value ""

theorem progressiveRetrieve_accumulates_overlapping :
    let run := progressiveRetrieve hundredths overlapping.recorded "How?" none ((), [])
    run.1 = some ([("guide", 50), ("notes", 10), ("manual", 40)], "expanded") ∧
      run.2.2.length = 3 ∧
      ∀ ran < 3, ¬ Sufficient hundredths (merged hundredths (run.2.2.take ran)) := by
  intro run
  have returned : run.1 = some ([("guide", 50), ("notes", 10), ("manual", 40)], "expanded") := by
    decide +kernel
  have distinct : ∀ searchQuery topK, Attempt.Returns
      (fun results => (results.map hundredths.getId).Nodup)
      (overlapping.hybridSearch searchQuery topK) := by
    intro searchQuery topK
    apply Attempt.returns_value
    split <;> decide
  obtain ⟨-, -, accumulates⟩ :=
    progressiveRetrieve_accumulates hundredths overlapping "How?" none () distinct
  exact ⟨returned, by decide +kernel, (accumulates _ _ returned).2.2.2.1⟩

end RagSystem.Core.Progressive
