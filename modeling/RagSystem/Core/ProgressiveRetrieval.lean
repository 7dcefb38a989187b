import RagSystem.Core.Retrieval

/-! Progressive retrieval (`proxy/app/core/progressive_retrieval.py`): a search for a hypothetical
answer, then searches with a growing limit until two sources are strong. -/

namespace RagSystem.Core

open AccessControl Payload Transition

variable (helpers : Helpers) (config : Config) (services : Services)

def hydePrompt (query : String) : String :=
  "Write a short paragraph that answers the following question. " ++
    "Use technical terminology and concrete details. Keep it under 3 sentences.\n\n" ++
    "Question: " ++ query ++ "\n\nAnswer:"

def generateHypotheticalAnswer (query : String) : String :=
  if stripText query = "" then ""
  else
    match services.callSlm (hydePrompt query) with
    | none => query
    | some result =>
        if stripText result = "" then query else stripText result

def qualitySufficient (results : List Hit) : Bool :=
  2 ≤ (results.filter (fun hit => config.strongScoreThreshold ≤ hit.score)).length

/-- `_dedup_new_only`: the results whose id was not seen before. -/
def dedupNewOnly : (seen : List String) → List Hit → List Hit
  | _, [] => []
  | seen, hit :: rest =>
      if hit.point.id ∈ seen then dedupNewOnly seen rest
      else hit :: dedupNewOnly (hit.point.id :: seen) rest

def extendWith (all results : List Hit) : List Hit :=
  all ++ dedupNewOnly (all.map (fun hit => hit.point.id)) results

section Stages

variable (store : List Point) (query : String) (version : Option String)
  (accessFilter : Option (List (Condition Key String)))

def searchStage (searchQuery : String) (topK : Nat) (all : List Hit) :
    Attempt Caches (List Hit) := do
  let results ← hybridSearch helpers config services store searchQuery version topK accessFilter
  pure (extendWith all results)

def hydeStage : Attempt Caches (List Hit) := do
  if config.hydeEnabledInProgressive then
    let found ← (hybridSearch helpers config services store
      (generateHypotheticalAnswer services query) version (config.stages.getD 0 5)
      accessFilter).settle
    pure (found.getD [])
  else pure []

def directStages (searchQuery : String) (all : List Hit) :
    Attempt Caches (List Hit × String) := do
  let stages := config.stages
  let search := searchStage helpers config services store version accessFilter searchQuery
  let all ← search (stages.getD 0 5) all
  if qualitySufficient config all then pure (all, "direct")
  else if stages.length ≤ 1 then pure (all, "insufficient")
  else
    let all ← search (stages.getD 1 10) all
    if qualitySufficient config all then pure (all, "expanded")
    else if stages.length ≤ 2 then pure (all, "insufficient")
    else
      let all ← search (stages.getD 2 20) all
      let _graphContext ← Attempt.ofOption (services.graphExpandQuery query)
      pure (all, if qualitySufficient config all then "graph_expanded" else "insufficient")

def progressiveRetrieve : Attempt Caches (List Hit × String) := do
  let all ← hydeStage helpers config services store query version accessFilter
  let searchQuery := if all = [] then query else generateHypotheticalAnswer services query
  if qualitySufficient config all then pure (all, "hyde")
  else directStages helpers config services store query version accessFilter searchQuery all

end Stages

end RagSystem.Core
