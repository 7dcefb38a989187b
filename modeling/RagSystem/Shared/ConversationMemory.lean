import Mathlib.Data.List.DropRight
import RagSystem.Data.Builtins
import RagSystem.Data.Dict
import RagSystem.Data.FirstMax
import RagSystem.Data.Slices

/-! The memory of a conversation (`ConversationMemory` and its `EntityTracker` of
`proxy/app/shared/memory_manager.py`). -/

namespace RagSystem

open Slices

/-- What the interpreter knows of characters: `str.isspace`, `str.isupper` and `str.upper`. -/
structure Characters where
  isSpace : Char → Bool
  isUpper : Char → Bool
  upper : String → String

def Characters.ascii : Characters where
  isSpace char := char = ' ' || char = '\n'
  isUpper := Char.isUpper
  upper text := String.ofList (text.toList.map Char.toUpper)

variable (characters : Characters)

structure EntityTracker where
  entities : Dict String Nat := ∅
  maxEntities : Nat := 500
  deriving DecidableEq, Repr

namespace EntityTracker

/-- `del` of the first of the names with the fewest mentions. -/
def dropRarest (entities : Dict String Nat) : Dict String Nat :=
  match entities.entries with
  | [] => entities
  | first :: rest => entities.erase (maxBy (fun entry => -(entry.2 : Int)) first rest).1

def prune (tracker : EntityTracker) : EntityTracker :=
  let surplus := tracker.entities.keys.length - tracker.maxEntities
  { tracker with entities := dropRarest^[surplus] tracker.entities }

/-- `word.strip(".,;:!?()[]\x7b\x7d'\"")`. -/
def cleaned (word : String) : List Char :=
  let outer := ['.', ',', ';', ':', '!', '?', '(', ')', '[', ']', '\x7b', '\x7d', '\'', '"']
  (word.toList.dropWhile (· ∈ outer)).rdropWhile (· ∈ outer)

def isEntity (clean : List Char) : Bool :=
  2 < clean.length &&
    ((clean.head?.any characters.isUpper) || '_' ∈ clean || '-' ∈ clean)

def track (text : String) (tracker : EntityTracker) : EntityTracker :=
  let names := ((runsOf (fun char => !characters.isSpace char) text).map cleaned).filter
    (isEntity characters)
  let counted := names.foldl (fun entities clean =>
    let name := String.ofList clean
    entities.set name ((entities.get? name).getD 0 + 1)) tracker.entities
  prune { tracker with entities := counted }

def clear (tracker : EntityTracker) : EntityTracker := { tracker with entities := ∅ }

end EntityTracker

structure Turn (μ : Type) where
  role : String
  content : String
  timestamp : ℚ
  metadata : Dict String μ
  deriving DecidableEq, Repr

structure ConversationMemory (μ : Type) where
  turns : List (Turn μ) := []
  summaries : List String := []
  maxTurnsStored : Int := 100
  summaryThresholdTokens : Int := 2000
  entityTracker : EntityTracker := {}
  totalTokenEstimate : Nat := 0
  deriving DecidableEq, Repr

namespace ConversationMemory

variable {μ : Type}

def tokensOf (text : String) : Nat := text.length / 4

def tokens (turns : List (Turn μ)) : Nat := (turns.map (fun turn => tokensOf turn.content)).sum

def newTurn (now : ℚ) (role content : String) (metadata : Option (Dict String μ)) : Turn μ :=
  ⟨role, content, now, metadata.getD ∅⟩

/-- `now` is `time.time()`. -/
def addTurn (now : ℚ) (role content : String) (metadata : Option (Dict String μ))
    (memory : ConversationMemory μ) : ConversationMemory μ :=
  let turns := memory.turns ++ [newTurn now role content metadata]
  { memory with
    turns :=
      if memory.maxTurnsStored < turns.length then sliceFrom memory.maxTurnsStored turns else turns
    entityTracker := memory.entityTracker.track characters content
    totalTokenEstimate := memory.totalTokenEstimate + tokensOf content }

def estimateTokens (memory : ConversationMemory μ) : Nat :=
  memory.totalTokenEstimate + (memory.summaries.map tokensOf).sum

def needsSummarization (threshold : Option Int) (memory : ConversationMemory μ) : Bool :=
  let allowed :=
    match threshold with
    | none => memory.summaryThresholdTokens
    | some given => if given = 0 then memory.summaryThresholdTokens else given
  allowed < (memory.estimateTokens : Int)

def summaryPart (turn : Turn μ) : String :=
  let preview := (turn.content.toList.take 120).map (fun char => if char = '\n' then ' ' else char)
  characters.upper (clip 1 turn.role) ++ ": " ++ String.ofList preview ++ "..."

def summaryOf (older : List (Turn μ)) : String :=
  "[SUMMARY] " ++ " | ".intercalate (older.map (summaryPart characters))

def latestSummaries {α : Type} (summaries : List α) : List α :=
  if 3 < summaries.length then sliceFrom 3 summaries else summaries

def summarizeOlderTurns (keepRecent : Nat) (memory : ConversationMemory μ) :
    ConversationMemory μ :=
  if memory.turns.length ≤ keepRecent then memory
  else
    let older := sliceUpTo keepRecent memory.turns
    let recent := sliceFrom keepRecent memory.turns
    { memory with
      turns := recent
      summaries := latestSummaries (memory.summaries ++ [summaryOf characters older])
      totalTokenEstimate := tokens recent }

def clear (memory : ConversationMemory μ) : ConversationMemory μ :=
  { memory with
    turns := []
    summaries := []
    entityTracker := memory.entityTracker.clear
    totalTokenEstimate := 0 }

variable {characters} {memory : ConversationMemory μ}
variable {now : ℚ} {role content : String} {metadata : Option (Dict String μ)}

@[simp] theorem tokens_nil : tokens ([] : List (Turn μ)) = 0 := rfl

@[simp] theorem tokens_cons (turn : Turn μ) (turns : List (Turn μ)) :
    tokens (turn :: turns) = tokensOf turn.content + tokens turns := by
  simp [tokens]

theorem tokens_append (first second : List (Turn μ)) :
    tokens (first ++ second) = tokens first + tokens second := by
  simp [tokens]

theorem tokensOf_eq_zero {text : String} : tokensOf text = 0 ↔ text.length < 4 := by
  unfold tokensOf
  omega

theorem latestSummaries_suffix {α : Type} (summaries : List α) :
    latestSummaries summaries <:+ summaries := by
  unfold latestSummaries
  split
  · exact sliceFrom_suffix _ _
  · exact List.suffix_refl summaries

theorem map_latestSummaries {α β : Type} (f : α → β) (summaries : List α) :
    (latestSummaries summaries).map f = latestSummaries (summaries.map f) := by
  unfold latestSummaries
  rw [List.length_map]
  split
  · exact map_sliceFrom f summaries
  · rfl

theorem latestSummaries_of_few {α : Type} {summaries : List α} (few : summaries.length ≤ 3) :
    latestSummaries summaries = summaries := by
  rw [latestSummaries, if_neg (by omega)]

theorem addTurn_suffix (characters : Characters) (memory : ConversationMemory μ) (now : ℚ)
    (role content : String) (metadata : Option (Dict String μ)) :
    (memory.addTurn characters now role content metadata).turns <:+
      memory.turns ++ [newTurn now role content metadata] := by
  unfold addTurn
  dsimp only
  split
  · exact sliceFrom_suffix _ _
  · exact List.suffix_refl _

theorem addTurn_of_room (room : (memory.turns.length : Int) < memory.maxTurnsStored) :
    (memory.addTurn characters now role content metadata).turns =
      memory.turns ++ [newTurn now role content metadata] := by
  unfold addTurn
  dsimp only
  rw [if_neg]
  rw [List.length_append, List.length_singleton]
  omega

theorem addTurn_of_full {oldest : Turn μ} {rest : List (Turn μ)}
    (stored : memory.turns = oldest :: rest)
    (full : (memory.turns.length : Int) = memory.maxTurnsStored) :
    (memory.addTurn characters now role content metadata).turns =
      rest ++ [newTurn now role content metadata] := by
  have length := congrArg List.length stored
  rw [List.length_cons] at length
  unfold addTurn
  dsimp only
  rw [if_pos]
  · rw [stored, List.cons_append]
    apply sliceFrom_cons
    · omega
    · rw [List.length_append, List.length_singleton]
      omega
  · rw [List.length_append, List.length_singleton]
    omega

theorem addTurn_of_zero (zero : memory.maxTurnsStored = 0) :
    (memory.addTurn characters now role content metadata).turns =
      memory.turns ++ [newTurn now role content metadata] := by
  unfold addTurn
  dsimp only
  rw [zero, sliceFrom_zero, ite_self]

end ConversationMemory

end RagSystem
