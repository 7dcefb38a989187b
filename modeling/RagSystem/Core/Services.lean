import RagSystem.Shared.AccessControl
import RagSystem.Shared.Cache
import RagSystem.Shared.Config

/-! What a request of the proxy works on: the points of the vector store, and the services outside
the process, each as the answers it gives while the request is served. -/

namespace RagSystem.Core

open AccessControl

inductive Stamp
  | text (value : String)
  | seconds (value : ℚ)
  deriving DecidableEq, Repr

/-- The payload keys that the proxy reads; `none` is a missing key. -/
structure ChunkPayload where
  access : Fields := {}
  text : Option String := none
  title : Option String := none
  docTitle : Option String := none
  sourceType : Option String := none
  sourceId : Option String := none
  createdAt : Option Stamp := none
  updatedAt : Option Stamp := none
  deriving DecidableEq, Repr

structure Point where
  id : String
  payload : ChunkPayload
  deriving DecidableEq, Repr

/-- A `ScoredPoint`. -/
structure Hit where
  point : Point
  score : ℚ
  deriving DecidableEq, Repr

/-- The vector store's answers to the two queries of a hybrid search, from the points that match
the filter: at most `limit` of them; `none` is a raised exception. Without sparse embeddings, or
with the circuit breaker open, the answer is empty. -/
structure Qdrant where
  dense : (points : List Point) → (query : Vec) → (limit : Nat) → Option (List Hit)
  sparse : (points : List Point) → (text : String) → (limit : Nat) → Option (List Hit)
  dense_mem : ∀ points query limit hits, dense points query limit = some hits →
    ∀ hit ∈ hits, hit.point ∈ points
  sparse_mem : ∀ points text limit hits, sparse points text limit = some hits →
    ∀ hit ∈ hits, hit.point ∈ points
  dense_limit : ∀ points query limit hits, dense points query limit = some hits →
    hits.length ≤ limit
  sparse_limit : ∀ points text limit hits, sparse points text limit = some hits →
    hits.length ≤ limit

theorem Qdrant.nothing_mem (points : List Point) (_text : String) (_limit : Nat) (hits : List Hit)
    (found : some [] = some hits) : ∀ hit ∈ hits, hit.point ∈ points := by
  obtain rfl := Option.some.inj found
  simp

theorem Qdrant.nothing_limit (_points : List Point) (_text : String) (limit : Nat)
    (hits : List Hit) (found : some [] = some hits) : hits.length ≤ limit := by
  obtain rfl := Option.some.inj found
  simp

def findingAll : Qdrant where
  dense points _ limit := some ((points.take limit).map (fun point => ⟨point, 1⟩))
  sparse _ _ _ := some []
  dense_mem points _ limit hits found hit member := by
    obtain rfl := Option.some.inj found
    obtain ⟨point, inside, rfl⟩ := List.mem_map.mp member
    exact List.mem_of_mem_take inside
  sparse_mem := Qdrant.nothing_mem
  dense_limit points _ limit hits found := by
    obtain rfl := Option.some.inj found
    simp
  sparse_limit := Qdrant.nothing_limit

structure Message where
  role : String
  content : String
  deriving DecidableEq, Repr

structure Services where
  /-- The time of the request, and the time its answer is stored. -/
  startedAt : ℚ
  finishedAt : ℚ
  embedderReady : Bool := true
  qdrantDegraded : Bool := false
  encode : String → Option Vec
  qdrant : Qdrant
  graphExpandQuery : String → Option String
  callSlm : (prompt : String) → Option String
  /-- The score of a query and a text; `none` when the prediction raises. -/
  reranker : Option (String → String → ℚ)
  complete : List Message → (temperature : ℚ) → (maxTokens : Nat) → Option String
  /-- The embedder of the semantic cache. -/
  semanticEncode : String → Option Vec

/-- Pure functions that the request path calls and whose values it does not take apart. -/
structure Helpers where
  lower : String → String
  upper : String → String
  isSpace : Char → Bool
  isWord : Char → Bool
  md5 : String → String
  sha256 : String → String
  /-- `f"{number:.2f}"` and the like. -/
  fixed : (digits : Nat) → ℚ → String
  exp : ℚ → ℚ
  exp_nonneg : ∀ number, 0 ≤ exp number
  /-- `datetime.fromisoformat(..).timestamp()`. -/
  isoTimestamp : String → Option ℚ
  detectLanguage : String → String
  getSystemPrompt : String → String
  /-- The query router answers "direct". -/
  classifiesDirect : String → Bool
  evaluateRagResponse : (question answer : String) → (contexts : List String) → List (String × ℚ)
  computeConfidence : (query context answer : String) → ℚ

def Helpers.plain : Helpers where
  lower text := String.ofList (text.toList.map Char.toLower)
  upper text := String.ofList (text.toList.map Char.toUpper)
  isSpace char := char = ' ' || char = '\n'
  isWord char := char.isAlphanum || char = '_'
  md5 := id
  sha256 := id
  fixed _ _ := "0"
  exp _ := 0
  exp_nonneg _ := le_refl 0
  isoTimestamp _ := none
  detectLanguage _ := "en"
  getSystemPrompt _ := "You are a helpful assistant."
  classifiesDirect _ := false
  evaluateRagResponse _ _ _ := []
  computeConfidence _ _ _ := 0

end RagSystem.Core
