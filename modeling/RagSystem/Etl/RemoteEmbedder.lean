import RagSystem.Data.Batches
import RagSystem.Data.Builtins

/-! The client of the embedding service (`etl/indexer/remote_embedder.py`): texts are sent in
batches, the entries of a reply are ordered by their index, and their vectors make up one array. -/

namespace RagSystem.Etl.Embedding

open Batches

structure RetryConfig where
  maxAttempts : Int := 3
  retryableHttpStatuses : List Nat := [429, 500, 502, 503, 504]

structure RemoteEmbedder where
  maxBatchSize : Int := 64
  maxTokens : Option Int := none
  retryConfig : RetryConfig := {}

/-- An entry of `data`, with `none` for what it does not name. -/
structure Entry where
  index : Option Int
  embedding : Option (List ℚ)
  deriving DecidableEq, Repr

/-- The end of a request: an exception on the way to the entries, or a status and the entries. -/
inductive Reply
  | raised
  | answered (status : Nat) (data : List Entry)
  deriving DecidableEq, Repr

/-- The reply to an attempt for the batch at some place of the list, by the texts that are sent. -/
abbrev Service := (start attempt : Nat) → (input : List String) → Reply

/-- The arithmetic of `float32` arrays. -/
structure Numpy (φ : Type) where
  float32 : ℚ → φ
  norm : List φ → φ
  isZero : φ → Bool
  one : φ
  div : φ → φ → φ

inductive Failure
  | stepZero
  | retryExhausted (attempts : Int)
  | inhomogeneous
  | axis
  | index
  deriving DecidableEq, Repr

inductive Texts
  | one (text : String)
  | many (texts : List String)

inductive Encoded (φ : Type)
  | vector (row : List φ)
  | array (rows : List (List φ))
  deriving DecidableEq, Repr

variable (embedder : RemoteEmbedder)

def maxChars : Int :=
  let knownMaxTokens := match embedder.maxTokens with
    | some tokens => if tokens = 0 then 8192 else tokens
    | none => 8192
  if knownMaxTokens * 4 < 1 then 12000 else knownMaxTokens * 4

def truncated (texts : List String) : List String :=
  texts.map (clip (maxChars embedder).toNat)

/-- `d.get("index", 0)`. -/
def Entry.position (entry : Entry) : Int := entry.index.getD 0

/-- `sorted(data, key=..)`, which is stable. -/
def sortByIndex (data : List Entry) : List Entry :=
  data.insertionSort (fun first second => first.position ≤ second.position)

/-- A status to try again, or one that `raise_for_status` raises for. -/
def refuses (status : Nat) : Bool :=
  status ∈ embedder.retryConfig.retryableHttpStatuses || (400 ≤ status && status < 600)

/-- `none` is an exception, the `KeyError` for an entry without a vector among them. -/
def callApiSync (post : List String → Reply) (texts : List String) : Option (List (List ℚ)) :=
  match post (truncated embedder texts) with
  | .raised => none
  | .answered status data =>
      if refuses embedder status then none else (sortByIndex data).mapM Entry.embedding

def callApiWithRetry (post : Nat → List String → Reply) (texts : List String) :
    Except Failure (List (List ℚ)) :=
  let attempts := List.range embedder.retryConfig.maxAttempts.toNat
  match attempts.findSome? (fun attempt => callApiSync embedder (post attempt) texts) with
  | some vectors => .ok vectors
  | none => .error (.retryExhausted embedder.retryConfig.maxAttempts)

section Arrays

variable {φ : Type} (numpy : Numpy φ)

/-- `np.array(vectors, dtype=np.float32)`. -/
def asArray (vectors : List (List ℚ)) : Except Failure (List (List φ)) :=
  if vectors.Pairwise (fun first second => first.length = second.length) then
    .ok (vectors.map (List.map numpy.float32))
  else .error .inhomogeneous

def unit (row : List φ) : List φ :=
  let norm := numpy.norm row
  row.map (fun number => numpy.div number (if numpy.isZero norm then numpy.one else norm))

def normalized (rows : List (List φ)) : Except Failure (List (List φ)) :=
  if rows = [] then .error .axis else .ok (rows.map (unit numpy))

variable (service : Service) (normalizeEmbeddings : Bool)

def collect (texts : List String) : List Nat → Except Failure (List (List ℚ))
  | [] => .ok []
  | start :: rest => do
      let batch := batchAt embedder.maxBatchSize.toNat texts start
      let vectors ← callApiWithRetry embedder (service start) batch
      let others ← collect texts rest
      pure (vectors ++ others)

def encodeList (texts : List String) : Except Failure (List (List φ)) :=
  if texts = [] then .ok []
  else if embedder.maxBatchSize = 0 then .error .stepZero
  else do
    let vectors ← collect embedder service texts
      (starts embedder.maxBatchSize.toNat texts.length)
    let rows ← asArray numpy vectors
    if normalizeEmbeddings then normalized numpy rows else pure rows

def encode : Texts → Except Failure (Encoded φ)
  | .one text => do
      let rows ← encodeList embedder numpy service normalizeEmbeddings [text]
      match rows with
      | row :: _ => pure (.vector row)
      | [] => .error .index
  | .many texts => do
      let rows ← encodeList embedder numpy service normalizeEmbeddings texts
      pure (.array rows)

end Arrays

end RagSystem.Etl.Embedding
