import Mathlib.Algebra.Order.Field.Rat

/-! The settings of `proxy/app/shared/config.py` that retrieval, the answer pipeline and the
orchestrator read, with their defaults. Floating-point settings and scores are rationals. -/

namespace RagSystem

structure Config where
  maxChunksRetrieval : Nat := 50
  maxChunksAfterRerank : Nat := 20
  progressiveRetrievalEnabled : Bool := true
  /-- The parsed stages; no valid one stands for the default. -/
  progressiveRetrievalStages : List Nat := [5, 10, 20]
  hydeEnabledInProgressive : Bool := true
  strongScoreThreshold : ℚ := 32 / 100
  borderlineScoreThreshold : ℚ := 25 / 100
  rerankerMaxLength : Nat := 8192
  adaptiveTopKEnabled : Bool := false
  adaptiveTopKMin : Nat := 3
  reorderEnabled : Bool := true
  tokenOptimizerEnabled : Bool := true
  defaultCacheTtlSeconds : ℚ := 3600
  semanticCacheEnabled : Bool := false
  semanticCacheSimilarity : ℚ := 92 / 100
  semanticCacheTtl : ℚ := 300
  adaptiveRoutingEnabled : Bool := false
  ungroundedNotice : String := ""
  useLanggraph : Bool := false
  /-- The package is installed, so the orchestrator was built at startup. -/
  langgraphAvailable : Bool := false
  useGraphExpansion : Bool := false
  maxRetrievalLoops : Nat := 3
  hallucinationCheckEnabled : Bool := false
  confidenceThreshold : ℚ := 1 / 2
  maxVerifyLoops : Nat := 2
  selfCritiqueEnabled : Bool := true
  reflectionEnabled : Bool := true
  reflectionDepth : Nat := 2

namespace Config

def stages (config : Config) : List Nat :=
  if config.progressiveRetrievalStages = [] then [5, 10, 20]
  else config.progressiveRetrievalStages

end Config

end RagSystem
