import RagSystem.Core.ProgressiveRetrieval
import RagSystem.Data.Grouping
import RagSystem.Transition.Recording

/-! Progressive retrieval (`proxy/app/core/progressive_retrieval.py`) over any search: its stages
merge their results into one list, beside the set of the ids that are in it. -/

namespace RagSystem.Core.Progressive

open Transition

/-- What the retrieval asks; version, access filter, namespace and language of the request go with
every search. -/
structure Services (σ ρ : Type) where
  generateHypotheticalAnswer : String → Attempt σ String
  hybridSearch : (query : String) → (topK : Int) → Attempt σ (List ρ)
  graphExpandQuery : String → Attempt σ String

/-- How results are read and what counts as strong; a score that is no number is `none`. -/
structure Settings (ρ κ : Type) where
  getId : ρ → String
  getScore : ρ → Option κ
  strongScoreThreshold : κ
  hydeEnabledInProgressive : Bool

def minStrongSources : Nat := 2

/-- `all_results` and `seen_ids`, a set of which only the members count. -/
structure Progress (ρ : Type) where
  allResults : List ρ
  seenIds : List String

def Progress.empty {ρ : Type} : Progress ρ := ⟨[], []⟩

variable {σ ρ κ : Type}

section Model

variable [LE κ] [DecidableLE κ] (settings : Settings ρ κ) (services : Services σ ρ)

def Settings.strong (result : ρ) : Bool :=
  (settings.getScore result).any (fun score => settings.strongScoreThreshold ≤ score)

/-- The loop of `quality_sufficient`, with the strong results counted so far. -/
def enoughStrong (strongCount : Nat) : List ρ → Bool
  | [] => false
  | result :: rest =>
      if settings.strong result then
        if minStrongSources ≤ strongCount + 1 then true else enoughStrong (strongCount + 1) rest
      else enoughStrong strongCount rest

def qualitySufficient (results : List ρ) : Bool := enoughStrong settings 0 results

/-- `_dedup_new_only`: the results that are new, and the ids seen after them. -/
def dedupNewOnly (existingIds : List String) : List ρ → List ρ × List String
  | [] => ([], existingIds)
  | result :: rest =>
      if settings.getId result ∈ existingIds then dedupNewOnly existingIds rest
      else
        let newer := dedupNewOnly (settings.getId result :: existingIds) rest
        (result :: newer.1, newer.2)

def extendWith (progress : Progress ρ) (results : List ρ) : Progress ρ :=
  let newOnly := dedupNewOnly settings progress.seenIds results
  ⟨progress.allResults ++ newOnly.1, newOnly.2⟩

def searchStage (searchQuery : String) (topK : Int) (progress : Progress ρ) :
    Attempt σ (Progress ρ) := do
  let results ← services.hybridSearch searchQuery topK
  pure (extendWith settings progress results)

section Run

variable (query : String) (stages : List Int)

/-- The `try` block of stage 0: the hypothetical document and what its search finds. -/
def hydeSearch : Attempt σ (String × List ρ) := do
  let hypotheticalDoc ← services.generateHypotheticalAnswer query
  let hydeResults ← services.hybridSearch hypotheticalDoc (stages.getD 0 5)
  pure (hypotheticalDoc, hydeResults)

def afterHyde (outcome : Option (String × List ρ)) : String × Progress ρ :=
  match outcome with
  | some (hypotheticalDoc, result :: rest) =>
      (hypotheticalDoc, ⟨result :: rest, (result :: rest).map settings.getId⟩)
  | _ => (query, Progress.empty)

def hydeStage : Attempt σ (String × Progress ρ) := do
  if settings.hydeEnabledInProgressive then
    let outcome ← (hydeSearch services query stages).settle
    pure (afterHyde settings query outcome)
  else pure (query, Progress.empty)

def directStages (searchQuery : String) (progress : Progress ρ) :
    Attempt σ (List ρ × String) := do
  let search := searchStage settings services searchQuery
  let progress ← search (stages.getD 0 5) progress
  if qualitySufficient settings progress.allResults then pure (progress.allResults, "direct")
  else if stages.length ≤ 1 then pure (progress.allResults, "insufficient")
  else
    let progress ← search (stages.getD 1 10) progress
    if qualitySufficient settings progress.allResults then pure (progress.allResults, "expanded")
    else if stages.length ≤ 2 then pure (progress.allResults, "insufficient")
    else
      let progress ← search (stages.getD 2 20) progress
      let _graphContext ← services.graphExpandQuery query
      if qualitySufficient settings progress.allResults then
        pure (progress.allResults, "graph_expanded")
      else pure (progress.allResults, "insufficient")

/-- `progressive_retrieve`; `none` for the stages stands for the default ones. -/
def progressiveRetrieve (stages : Option (List Int)) : Attempt σ (List ρ × String) := do
  let stages := stages.getD [5, 10, 20]
  let (searchQuery, progress) ← hydeStage settings services query stages
  if qualitySufficient settings progress.allResults then pure (progress.allResults, "hyde")
  else directStages settings services query stages searchQuery progress

end Run

end Model

/-! What the accumulator holds. -/

section Accumulator

variable {settings : Settings ρ κ} {results found : List ρ} {progress : Progress ρ}

theorem dedupNewOnly_known {existingIds : List String} {result : ρ}
    (known : settings.getId result ∈ existingIds) :
    dedupNewOnly settings existingIds (result :: results) =
      dedupNewOnly settings existingIds results := by
  rw [dedupNewOnly, if_pos known]

theorem dedupNewOnly_new {existingIds : List String} {result : ρ}
    (new : settings.getId result ∉ existingIds) :
    dedupNewOnly settings existingIds (result :: results) =
      (result :: (dedupNewOnly settings (settings.getId result :: existingIds) results).1,
        (dedupNewOnly settings (settings.getId result :: existingIds) results).2) := by
  rw [dedupNewOnly, if_neg new]

theorem allResults_extendWith : (extendWith settings progress results).allResults =
    progress.allResults ++ (dedupNewOnly settings progress.seenIds results).1 := rfl

theorem seenIds_extendWith : (extendWith settings progress results).seenIds =
    (dedupNewOnly settings progress.seenIds results).2 := rfl

theorem dedupNewOnly_fst (existingIds : List String) (results : List ρ) :
    (dedupNewOnly settings existingIds results).1 =
      (firstOfEach settings.getId results).filter (fun result =>
        settings.getId result ∉ existingIds) := by
  induction results generalizing existingIds with
  | nil => rfl
  | cons result rest ih =>
      rw [firstOfEach]
      by_cases known : settings.getId result ∈ existingIds
      · rw [dedupNewOnly_known known, ih, List.filter_cons_of_neg (by simpa using known),
          List.filter_filter]
        apply List.filter_congr
        intro other _
        by_cases same : settings.getId other = settings.getId result <;> simp [same, known]
      · rw [dedupNewOnly_new known, List.filter_cons_of_pos (by simpa using known),
          List.filter_filter, ih]
        apply congrArg (List.cons result)
        apply List.filter_congr
        intro other _
        simp [not_or, Bool.and_comm]

theorem mem_dedupNewOnly_snd (existingIds : List String) (results : List ρ) (id : String) :
    id ∈ (dedupNewOnly settings existingIds results).2 ↔
      id ∈ existingIds ∨ id ∈ results.map settings.getId := by
  induction results generalizing existingIds with
  | nil => simp [dedupNewOnly]
  | cons result rest ih =>
      rw [List.map_cons, List.mem_cons]
      by_cases known : settings.getId result ∈ existingIds
      · have same : id = settings.getId result → id ∈ existingIds := fun equal => equal ▸ known
        rw [dedupNewOnly_known known, ih]
        tauto
      · rw [dedupNewOnly_new known, ih, List.mem_cons]
        tauto

/-- The accumulator after everything in `found`: the first result of each id, and all ids. -/
structure Progress.Merges (settings : Settings ρ κ) (progress : Progress ρ) (found : List ρ) :
    Prop where
  allResults : progress.allResults = firstOfEach settings.getId found
  seenIds : ∀ id, id ∈ progress.seenIds ↔ id ∈ found.map settings.getId

theorem merges_empty : Progress.empty.Merges settings [] := ⟨rfl, fun _ => Iff.rfl⟩

theorem merges_distinct (distinct : (results.map settings.getId).Nodup) :
    Progress.Merges settings ⟨results, results.map settings.getId⟩ results :=
  ⟨(firstOfEach_of_nodup distinct).symm, fun _ => Iff.rfl⟩

theorem Progress.Merges.extend (merged : progress.Merges settings found) (results : List ρ) :
    (extendWith settings progress results).Merges settings (found ++ results) := by
  constructor
  · rw [allResults_extendWith, dedupNewOnly_fst, merged.allResults, firstOfEach_append]
    congr 1
    apply List.filter_congr
    intro result _
    simp only [merged.seenIds]
  · intro id
    rw [seenIds_extendWith, mem_dedupNewOnly_snd, merged.seenIds, List.map_append, List.mem_append]

end Accumulator

section Enough

variable [LE κ] [DecidableLE κ] {settings : Settings ρ κ} {results : List ρ}

theorem enoughStrong_iff {strongCount : Nat} (few : strongCount < minStrongSources) :
    enoughStrong settings strongCount results = true ↔
      minStrongSources ≤ strongCount + results.countP settings.strong := by
  induction results generalizing strongCount with
  | nil => simpa [enoughStrong] using few
  | cons result rest ih =>
      cases strong : settings.strong result with
      | false => simp [enoughStrong, strong, ih few]
      | true =>
          by_cases reached : minStrongSources ≤ strongCount + 1
          · simp only [enoughStrong, strong, reached, if_true, List.countP_cons_of_pos, true_iff]
            omega
          · simp only [enoughStrong, strong, reached, if_true, if_false,
              List.countP_cons_of_pos, ih (Nat.lt_of_not_le reached)]
            omega

theorem qualitySufficient_iff :
    qualitySufficient settings results = true ↔
      minStrongSources ≤ results.countP settings.strong := by
  rw [qualitySufficient, enoughStrong_iff (by decide), Nat.zero_add]

end Enough

/-! The retrieval over the vector store is the one over any search, with its own search put in. -/

section Store

open AccessControl Payload

variable (helpers : Helpers) (config : Config) (services : Core.Services) (store : List Point)
  (version : Option String) (accessFilter : Option (List (Condition Key String)))

def hitSettings : Settings Hit ℚ where
  getId hit := hit.point.id
  getScore hit := some hit.score
  strongScoreThreshold := config.strongScoreThreshold
  hydeEnabledInProgressive := config.hydeEnabledInProgressive

def storeServices : Services Caches Hit where
  generateHypotheticalAnswer query :=
    Attempt.value (Core.generateHypotheticalAnswer services query)
  hybridSearch query topK :=
    hybridSearch helpers config services store query version topK.toNat accessFilter
  graphExpandQuery query := Attempt.ofOption (services.graphExpandQuery query)

variable {helpers config services store version accessFilter} {query searchQuery : String}

theorem qualitySufficient_hits (hits : List Hit) :
    qualitySufficient (hitSettings config) hits = Core.qualitySufficient config hits := by
  rw [Bool.eq_iff_iff, qualitySufficient_iff, Core.qualitySufficient, decide_eq_true_iff,
    ← List.countP_eq_length_filter]
  rfl

theorem dedupNewOnly_hits {existingIds seen : List String}
    (same : ∀ id, id ∈ existingIds ↔ id ∈ seen) (hits : List Hit) :
    (dedupNewOnly (hitSettings config) existingIds hits).1 = Core.dedupNewOnly seen hits := by
  induction hits generalizing existingIds seen with
  | nil => rfl
  | cons hit rest ih =>
      rw [Core.dedupNewOnly]
      by_cases known : hit.point.id ∈ seen
      · rw [if_pos known, dedupNewOnly_known ((same _).mpr known), ih same]
      · rw [if_neg known, dedupNewOnly_new (fun seen => known ((same _).mp seen))]
        apply congrArg (List.cons hit)
        apply ih
        intro id
        simp only [List.mem_cons, same]
        rfl

def Progress.Tracks (progress : Progress Hit) : Prop :=
  ∀ id, id ∈ progress.seenIds ↔ id ∈ progress.allResults.map (fun hit => hit.point.id)

variable {progress : Progress Hit} {β : Type}

theorem allResults_extendWith_hits (tracks : progress.Tracks) (hits : List Hit) :
    (extendWith (hitSettings config) progress hits).allResults =
      Core.extendWith progress.allResults hits := by
  rw [allResults_extendWith, dedupNewOnly_hits tracks, Core.extendWith]

theorem Progress.Tracks.extend (tracks : progress.Tracks) (hits : List Hit) :
    (extendWith (hitSettings config) progress hits).Tracks := by
  intro id
  rw [seenIds_extendWith, mem_dedupNewOnly_snd, tracks, allResults_extendWith, dedupNewOnly_fst,
    List.map_append, List.mem_append]
  by_cases known : id ∈ progress.allResults.map (fun hit => hit.point.id)
  · simp only [known, true_or]
  · rw [or_iff_right known, or_iff_right known, ← mem_map_firstOfEach, List.mem_map, List.mem_map]
    apply exists_congr
    intro hit
    simp only [List.mem_filter, decide_eq_true_iff, and_assoc]
    apply and_congr_right
    intro _
    constructor
    · intro same
      subst same
      exact ⟨fun seen => known ((tracks _).mp seen), rfl⟩
    · exact And.right

theorem searchStage_andThen {topK : Nat} {next : Progress Hit → Attempt Caches β}
    {other : List Hit → Attempt Caches β} (tracks : progress.Tracks)
    (same : ∀ progress : Progress Hit, progress.Tracks →
      next progress = other progress.allResults) :
    (searchStage (hitSettings config)
        (storeServices helpers config services store version accessFilter) searchQuery topK
        progress).andThen next =
      (Core.searchStage helpers config services store version accessFilter searchQuery topK
        progress.allResults).andThen other := by
  simp only [searchStage, Core.searchStage, Attempt.bind_eq, Attempt.andThen_assoc]
  apply congrArg (Attempt.andThen _)
  funext hits
  calc next (extendWith (hitSettings config) progress hits)
    _ = other (extendWith (hitSettings config) progress hits).allResults :=
        same _ (tracks.extend hits)
    _ = other (Core.extendWith progress.allResults hits) :=
        congrArg other (allResults_extendWith_hits tracks hits)

theorem getD_map_cast (stages : List Nat) (index fallback : Nat) :
    (stages.map (fun topK : Nat => (topK : Int))).getD index (fallback : Int) =
      ((stages.getD index fallback : Nat) : Int) := by
  simp only [List.getD_eq_getElem?_getD, List.getElem?_map, Option.getD_map]

theorem directStages_hits (tracks : progress.Tracks) :
    directStages (hitSettings config)
        (storeServices helpers config services store version accessFilter) query
        (config.stages.map (fun topK : Nat => (topK : Int))) searchQuery progress =
      Core.directStages helpers config services store query version accessFilter searchQuery
        progress.allResults := by
  simp only [directStages, Core.directStages, Attempt.bind_eq, List.length_map]
  have first := getD_map_cast config.stages 0 5
  have second := getD_map_cast config.stages 1 10
  have third := getD_map_cast config.stages 2 20
  norm_cast at first second third
  rw [first, second, third]
  apply searchStage_andThen tracks
  intro progress tracks
  rw [qualitySufficient_hits]
  apply ite_congr rfl (fun _ => rfl)
  intro _
  apply ite_congr rfl (fun _ => rfl)
  intro _
  apply searchStage_andThen tracks
  intro progress tracks
  rw [qualitySufficient_hits]
  apply ite_congr rfl (fun _ => rfl)
  intro _
  apply ite_congr rfl (fun _ => rfl)
  intro _
  apply searchStage_andThen tracks
  intro progress tracks
  rw [qualitySufficient_hits]
  apply congrArg (Attempt.andThen _)
  funext graphContext
  split <;> rfl

theorem tracks_afterHyde (outcome : Option (String × List Hit)) :
    (afterHyde (hitSettings config) query outcome).2.Tracks := by
  unfold afterHyde
  split <;> exact fun _ => Iff.rfl

theorem hydeSearch_hits (state : Caches) :
    hydeSearch (storeServices helpers config services store version accessFilter) query
        (config.stages.map (fun topK : Nat => (topK : Int))) state =
      let searched := hybridSearch helpers config services store
        (Core.generateHypotheticalAnswer services query) version (config.stages.getD 0 5)
        accessFilter state
      (searched.1.map (fun hits => (Core.generateHypotheticalAnswer services query, hits)),
        searched.2) := by
  have width := getD_map_cast config.stages 0 5
  norm_cast at width
  rw [hydeSearch, width]
  dsimp only [storeServices, Attempt.bind_eq, Attempt.andThen, Attempt.value, Int.toNat_natCast]
  cases (hybridSearch helpers config services store
    (Core.generateHypotheticalAnswer services query) version (config.stages.getD 0 5)
    accessFilter state).1 <;> rfl

theorem afterHyde_hits (config : Config) (query document : String) (found : Option (List Hit)) :
    (afterHyde (hitSettings config) query
        (found.map (fun hits => (document, hits)))).2.allResults = found.getD [] ∧
      (afterHyde (hitSettings config) query (found.map (fun hits => (document, hits)))).1 =
        if found.getD [] = [] then query else document := by
  match found with
  | none => exact ⟨rfl, rfl⟩
  | some [] => exact ⟨rfl, rfl⟩
  | some (_ :: _) => exact ⟨rfl, rfl⟩

section Continuation

variable {next : String × Progress Hit → Attempt Caches β} {other : List Hit → Attempt Caches β}
  (same : ∀ searchQuery (progress : Progress Hit), progress.Tracks →
    searchQuery = (if progress.allResults = [] then query
      else Core.generateHypotheticalAnswer services query) →
    next (searchQuery, progress) = other progress.allResults)

include same

theorem continue_afterHyde (found : Option (List Hit)) :
    next (afterHyde (hitSettings config) query
        (found.map (fun hits => (Core.generateHypotheticalAnswer services query, hits)))) =
      other (found.getD []) := by
  obtain ⟨taken, kept⟩ := afterHyde_hits config query
    (Core.generateHypotheticalAnswer services query) found
  rw [← taken]
  apply same _ _ (tracks_afterHyde _)
  rw [taken]
  exact kept

theorem hydeStage_andThen :
    (hydeStage (hitSettings config)
        (storeServices helpers config services store version accessFilter) query
        (config.stages.map (fun topK : Nat => (topK : Int)))).andThen next =
      (Core.hydeStage helpers config services store query version accessFilter).andThen other := by
  unfold hydeStage Core.hydeStage
  cases enabled : config.hydeEnabledInProgressive with
  | false =>
      rw [show (hitSettings config).hydeEnabledInProgressive = false from enabled]
      exact same query Progress.empty (fun _ => Iff.rfl) rfl
  | true =>
      rw [show (hitSettings config).hydeEnabledInProgressive = true from enabled]
      funext state
      simp only [if_true, Attempt.bind_eq, Attempt.andThen, Attempt.settle, hydeSearch_hits]
      exact congrFun (continue_afterHyde same _) _

end Continuation

theorem progressiveRetrieve_hits :
    progressiveRetrieve (hitSettings config)
        (storeServices helpers config services store version accessFilter) query
        (some (config.stages.map (fun topK : Nat => (topK : Int)))) =
      Core.progressiveRetrieve helpers config services store query version accessFilter := by
  apply hydeStage_andThen
  intro searchQuery progress tracks chosen
  subst chosen
  dsimp only [Option.getD_some]
  rw [qualitySufficient_hits, directStages_hits tracks]

end Store

end RagSystem.Core.Progressive
