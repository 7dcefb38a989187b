import RagSystem.Data.Json

/-! `AnthropicAdapter` (`proxy/app/llm/provider/openai.py`): a whole message and the event lines of
the same message translated to the OpenAI format, and when a client that puts the chunks together
ends up with the translated message. -/

namespace RagSystem.Llm

/-- A block of the answer; a missing key is `none`. -/
inductive ContentBlock
  | text (words : Option String)
  | toolUse (id name : Option String) (input : Option Json)

/-- The answer of the Messages API. A `stop_reason` may be missing, or null. -/
structure AnthropicMessage where
  id : Option String := none
  model : Option String := none
  content : List ContentBlock := []
  stopReason : Option (Option String) := none
  inputTokens : Nat := 0
  outputTokens : Nat := 0

structure ToolCall where
  id : String
  name : String
  arguments : String
  deriving DecidableEq, Repr

/-- The only choice of the completion with the fields around it. -/
structure Completion where
  id : String
  model : String
  content : Option String
  toolCalls : Option (List ToolCall)
  finishReason : Option String
  promptTokens : Nat
  completionTokens : Nat
  totalTokens : Nat
  deriving DecidableEq, Repr

section Whole

-- `json.dumps`, and the configured name of the model
variable (dumps : Json → String) (modelName : String)

def ContentBlock.textContent : ContentBlock → String
  | text words => words.getD ""
  | toolUse _ _ _ => ""

def ContentBlock.toolCall : ContentBlock → Option ToolCall
  | text _ => none
  | toolUse id name input => some ⟨id.getD "", name.getD "", dumps (input.getD (.obj []))⟩

def translateResponse (message : AnthropicMessage) : Completion :=
  let textContent := String.join (message.content.map ContentBlock.textContent)
  let toolCalls := message.content.filterMap (ContentBlock.toolCall dumps)
  { id := message.id.getD ""
    model := message.model.getD modelName
    content := if textContent = "" then none else some textContent
    toolCalls := if toolCalls = [] then none else some toolCalls
    finishReason := message.stopReason.getD (some "stop")
    promptTokens := message.inputTokens
    completionTokens := message.outputTokens
    totalTokens := message.inputTokens + message.outputTokens }

end Whole

/-! ### Event lines -/

inductive Delta
  | textDelta (text : Option String)
  | inputJsonDelta (partialJson : Option String)

/-- The events of a stream. The translation looks at no field of the first three. -/
inductive Event
  | messageStart
  | contentBlockStart (index : Nat) (block : ContentBlock)
  | contentBlockStop (index : Nat)
  | contentBlockDelta (index : Nat) (delta : Delta)
  | messageDelta (stopReason : Option (Option String))
  | messageStop

/-- A line of the stream, stripped, as far as it is decoded: what follows `data: ` is the end mark,
or an event, or no JSON. -/
inductive Line
  | blank
  | field (name value : String)
  | done
  | malformed
  | data (event : Event)

structure Fragment where
  index : Nat
  id : Option String := none
  name : Option String := none
  arguments : String := ""
  deriving DecidableEq, Repr

structure StreamChunk where
  content : Option String := none
  toolCalls : List Fragment := []
  finishReason : Option String := none
  deriving DecidableEq, Repr

inductive Translated
  | chunk (chunk : StreamChunk)
  | done
  deriving DecidableEq, Repr

def translateEvent : Event → Option Translated
  | .messageStop => some .done
  | .contentBlockDelta _ (.textDelta text) => some (.chunk { content := some (text.getD "") })
  | .contentBlockDelta _ (.inputJsonDelta partialJson) =>
      some (.chunk { toolCalls := [{ index := 0, arguments := partialJson.getD "" }] })
  | .messageDelta stopReason => some (.chunk { finishReason := stopReason.getD (some "stop") })
  | _ => none

def translateStreamChunk : Line → Option Translated
  | .blank => none
  | .field _ _ => none
  | .done => some .done
  | .malformed => none
  | .data event => translateEvent event

/-- What `stream_completion` yields. -/
def streamCompletion : List Line → List StreamChunk
  | [] => []
  | line :: rest =>
      match translateStreamChunk line with
      | none => streamCompletion rest
      | some .done => []
      | some (.chunk chunk) => chunk :: streamCompletion rest

/-! ### The lines of a message -/

/-- A block as it is streamed: its text, or the JSON of its input, in pieces. -/
inductive StreamedBlock
  | text (pieces : List String)
  | toolUse (id name : Option String) (input : Option Json) (pieces : List String)

def StreamedBlock.whole : StreamedBlock → ContentBlock
  | .text pieces => .text (some (String.join pieces))
  | .toolUse id name input _ => .toolUse id name input

def StreamedBlock.announced : StreamedBlock → ContentBlock
  | .text _ => .text (some "")
  | .toolUse id name _ _ => .toolUse id name (some (.obj []))

def StreamedBlock.deltas : StreamedBlock → List Delta
  | .text pieces => pieces.map (fun piece => .textDelta (some piece))
  | .toolUse _ _ _ pieces => pieces.map (fun piece => .inputJsonDelta (some piece))

def blockEvents (index : Nat) (block : StreamedBlock) : List Event :=
  .contentBlockStart index block.announced ::
    (block.deltas.map (.contentBlockDelta index) ++ [.contentBlockStop index])

def eventName : Event → String
  | .messageStart => "message_start"
  | .contentBlockStart _ _ => "content_block_start"
  | .contentBlockStop _ => "content_block_stop"
  | .contentBlockDelta _ _ => "content_block_delta"
  | .messageDelta _ => "message_delta"
  | .messageStop => "message_stop"

def eventLines (event : Event) : List Line :=
  [.field "event" (eventName event), .data event, .blank]

def blocksEvents (start : Nat) : List StreamedBlock → List Event
  | [] => []
  | block :: rest => blockEvents start block ++ blocksEvents (start + 1) rest

def messageEvents (blocks : List StreamedBlock) (stopReason : Option (Option String)) :
    List Event :=
  .messageStart :: (blocksEvents 0 blocks ++ [.messageDelta stopReason, .messageStop])

def messageLines (blocks : List StreamedBlock) (stopReason : Option (Option String)) : List Line :=
  (messageEvents blocks stopReason).flatMap eventLines

/-! ### Putting the chunks together -/

structure CallSoFar where
  id : Option String := none
  name : Option String := none
  arguments : String := ""
  deriving DecidableEq, Repr

structure Answer where
  content : String := ""
  toolCalls : Dict Nat CallSoFar := ∅
  finishReason : Option String := none

def CallSoFar.add (call : CallSoFar) (fragment : Fragment) : CallSoFar :=
  ⟨call.id.or fragment.id, call.name.or fragment.name, call.arguments ++ fragment.arguments⟩

def addFragment (calls : Dict Nat CallSoFar) (fragment : Fragment) : Dict Nat CallSoFar :=
  calls.set fragment.index (((calls.get? fragment.index).getD {}).add fragment)

def Answer.add (answer : Answer) (chunk : StreamChunk) : Answer :=
  { content := answer.content ++ chunk.content.getD ""
    toolCalls := chunk.toolCalls.foldl addFragment answer.toolCalls
    finishReason := chunk.finishReason.or answer.finishReason }

def foldChunks (chunks : List StreamChunk) : Answer := chunks.foldl Answer.add {}

structure Agrees (answer : Answer) (completion : Completion) : Prop where
  content : answer.content = completion.content.getD ""
  toolCalls : answer.toolCalls.entries.map Prod.snd =
    (completion.toolCalls.getD []).map (fun call => ⟨some call.id, some call.name, call.arguments⟩)
  finishReason : answer.finishReason = completion.finishReason
/-! ### The chunks of a message -/

def Delta.chunk : Delta → StreamChunk
  | textDelta words => { content := some (words.getD "") }
  | inputJsonDelta partialJson =>
      { toolCalls := [{ index := 0, arguments := partialJson.getD "" }] }

def StreamedBlock.chunks (block : StreamedBlock) : List StreamChunk := block.deltas.map Delta.chunk

theorem streamCompletion_deltas (index : Nat) (deltas : List Delta) (rest : List Line) :
    streamCompletion ((deltas.map (Event.contentBlockDelta index)).flatMap eventLines ++ rest) =
      deltas.map Delta.chunk ++ streamCompletion rest := by
  induction deltas with
  | nil => rfl
  | cons delta later ih =>
      rw [List.map_cons, List.flatMap_cons, List.append_assoc, List.map_cons, List.cons_append,
        ← ih]
      cases delta <;> rfl

theorem streamCompletion_blocks (start : Nat) (blocks : List StreamedBlock) (rest : List Line) :
    streamCompletion ((blocksEvents start blocks).flatMap eventLines ++ rest) =
      blocks.flatMap StreamedBlock.chunks ++ streamCompletion rest := by
  induction blocks generalizing start with
  | nil => rfl
  | cons block later ih =>
      have own (after : List Line) :
          streamCompletion ((blockEvents start block).flatMap eventLines ++ after) =
            block.chunks ++ streamCompletion after := by
        rw [blockEvents, List.flatMap_cons, List.flatMap_append, List.append_assoc,
          List.append_assoc]
        exact streamCompletion_deltas start block.deltas _
      rw [blocksEvents, List.flatMap_append, List.append_assoc, own, ih, List.flatMap_cons,
        List.append_assoc]

theorem streamCompletion_message (blocks : List StreamedBlock)
    (stopReason : Option (Option String)) :
    streamCompletion (messageLines blocks stopReason) =
      blocks.flatMap StreamedBlock.chunks ++
        [{ finishReason := stopReason.getD (some "stop") }] := by
  rw [messageLines, messageEvents, List.flatMap_cons, List.flatMap_append]
  exact streamCompletion_blocks 0 blocks _

theorem foldl_content (chunks : List StreamChunk) (answer : Answer) :
    (chunks.foldl Answer.add answer).content =
      answer.content ++ String.join (chunks.map (fun chunk => chunk.content.getD "")) := by
  induction chunks generalizing answer with
  | nil => simp
  | cons chunk rest ih =>
      rw [List.foldl_cons, ih, List.map_cons, String.join_cons]
      exact String.append_assoc

theorem content_chunks (block : StreamedBlock) :
    String.join (block.chunks.map (fun chunk => chunk.content.getD "")) =
      block.whole.textContent := by
  cases block with
  | text pieces =>
      simp [StreamedBlock.chunks, StreamedBlock.deltas, StreamedBlock.whole, Delta.chunk,
        ContentBlock.textContent, Function.comp_def]
  | toolUse id name input pieces =>
      simp only [StreamedBlock.chunks, StreamedBlock.deltas, StreamedBlock.whole,
        ContentBlock.textContent, List.map_map, Function.comp_def, Delta.chunk, Option.getD_none]
      induction pieces with
      | nil => rfl
      | cons piece rest ih => rw [List.map_cons, String.join_cons, ih]; rfl

theorem foldl_finishReason {chunks : List StreamChunk}
    (silent : ∀ chunk ∈ chunks, chunk.finishReason = none) (answer : Answer) :
    (chunks.foldl Answer.add answer).finishReason = answer.finishReason := by
  induction chunks generalizing answer with
  | nil => rfl
  | cons chunk rest ih =>
      obtain ⟨head, tail⟩ := List.forall_mem_cons.mp silent
      rw [List.foldl_cons, ih tail, Answer.add, head, Option.none_or]

theorem foldChunks_content (blocks : List StreamedBlock) (stopReason : Option (Option String)) :
    (foldChunks (streamCompletion (messageLines blocks stopReason))).content =
      String.join ((blocks.map StreamedBlock.whole).map ContentBlock.textContent) := by
  rw [streamCompletion_message, foldChunks, foldl_content, List.map_append, String.join_append]
  have joined : String.join ((blocks.flatMap StreamedBlock.chunks).map
      (fun chunk => chunk.content.getD "")) =
      String.join ((blocks.map StreamedBlock.whole).map ContentBlock.textContent) := by
    induction blocks with
    | nil => rfl
    | cons block rest ih =>
        rw [List.flatMap_cons, List.map_append, String.join_append, ih, content_chunks]
        simp
  simp [joined]

theorem foldChunks_finishReason (blocks : List StreamedBlock)
    (stopReason : Option (Option String)) :
    (foldChunks (streamCompletion (messageLines blocks stopReason))).finishReason =
      stopReason.getD (some "stop") := by
  have silent : ∀ chunk ∈ blocks.flatMap StreamedBlock.chunks, chunk.finishReason = none := by
    intro chunk member
    obtain ⟨block, -, inside⟩ := List.mem_flatMap.mp member
    obtain ⟨delta, -, rfl⟩ := List.mem_map.mp inside
    cases delta <;> rfl
  rw [streamCompletion_message, foldChunks, List.foldl_append, List.foldl_cons, List.foldl_nil,
    Answer.add, foldl_finishReason silent]
  simp

theorem foldChunks_anonymous (blocks : List StreamedBlock) (stopReason : Option (Option String)) :
    ∀ index call, (foldChunks (streamCompletion (messageLines blocks stopReason))).toolCalls.get?
      index = some call → call.id = none := by
  have nameless : ∀ chunk ∈ streamCompletion (messageLines blocks stopReason),
      ∀ fragment ∈ chunk.toolCalls, fragment.id = none := by
    rw [streamCompletion_message]
    intro chunk member fragment inside
    rcases List.mem_append.mp member with ofBlock | last
    · obtain ⟨block, -, ofDelta⟩ := List.mem_flatMap.mp ofBlock
      obtain ⟨delta, -, rfl⟩ := List.mem_map.mp ofDelta
      cases delta with
      | textDelta words => cases inside
      | inputJsonDelta partialJson => rw [List.mem_singleton.mp inside]
    · rw [List.mem_singleton.mp last] at inside
      cases inside
  unfold foldChunks
  apply List.foldlRecOn (motive := fun answer : Answer =>
    ∀ index call, answer.toolCalls.get? index = some call → call.id = none)
  · intro index call found
    cases found
  · intro answer known chunk member
    apply List.foldlRecOn (motive := fun calls : Dict Nat CallSoFar =>
      ∀ index call, calls.get? index = some call → call.id = none)
    · exact known
    · intro calls known fragment inside index call found
      rw [addFragment, Dict.get?_set] at found
      split at found
      · obtain rfl := Option.some.inj found
        cases old : calls.get? fragment.index with
        | none => exact nameless chunk member fragment inside
        | some earlier =>
            have unnamed := known fragment.index earlier old
            simp [CallSoFar.add, unnamed, nameless chunk member fragment inside]
      · exact known index call found

theorem foldChunks_text {blocks : List StreamedBlock}
    (texts : ∀ id name input pieces, StreamedBlock.toolUse id name input pieces ∉ blocks)
    (stopReason : Option (Option String)) :
    (foldChunks (streamCompletion (messageLines blocks stopReason))).toolCalls = ∅ := by
  have bare : ∀ chunk ∈ streamCompletion (messageLines blocks stopReason),
      chunk.toolCalls = [] := by
    rw [streamCompletion_message]
    intro chunk member
    rcases List.mem_append.mp member with ofBlock | last
    · obtain ⟨block, known, ofDelta⟩ := List.mem_flatMap.mp ofBlock
      cases block with
      | text pieces =>
          obtain ⟨delta, isText, rfl⟩ := List.mem_map.mp ofDelta
          obtain ⟨piece, -, rfl⟩ := List.mem_map.mp isText
          rfl
      | toolUse id name input pieces => exact absurd known (texts id name input pieces)
    · rw [List.mem_singleton.mp last]
  unfold foldChunks
  apply List.foldlRecOn (motive := fun answer : Answer => answer.toolCalls = ∅)
  · rfl
  · intro answer known chunk member
    rw [Answer.add, bare chunk member, known]
    rfl

/-- The chunks of a message make up its translation exactly if it has no tool calls. -/
theorem streaming_agrees_iff (dumps : Json → String) (modelName : String)
    (message : AnthropicMessage) (blocks : List StreamedBlock) :
    Agrees (foldChunks (streamCompletion (messageLines blocks message.stopReason)))
      (translateResponse dumps modelName
        { message with content := blocks.map StreamedBlock.whole }) ↔
      ∀ id name input pieces, StreamedBlock.toolUse id name input pieces ∉ blocks := by
  have calls : (translateResponse dumps modelName
      { message with content := blocks.map StreamedBlock.whole }).toolCalls.getD [] =
        (blocks.map StreamedBlock.whole).filterMap (ContentBlock.toolCall dumps) := by
    simp only [translateResponse]
    split
    · next nothing => rw [nothing, Option.getD_none]
    · rfl
  constructor
  · intro agrees id name input pieces member
    have called : (⟨id.getD "", name.getD "", dumps (input.getD (.obj []))⟩ : ToolCall) ∈
        (blocks.map StreamedBlock.whole).filterMap (ContentBlock.toolCall dumps) :=
      List.mem_filterMap.mpr ⟨_, List.mem_map_of_mem member, rfl⟩
    have listed := List.mem_map_of_mem (f := fun call : ToolCall =>
      CallSoFar.mk (some call.id) (some call.name) call.arguments) called
    rw [← calls, ← agrees.toolCalls] at listed
    obtain ⟨entry, present, same⟩ := List.mem_map.mp listed
    have found := (Dict.mem_entries_iff _ entry.1 entry.2).mp present
    have unnamed := foldChunks_anonymous blocks message.stopReason entry.1 entry.2 found
    rw [same] at unnamed
    cases unnamed
  · intro texts
    constructor
    · rw [foldChunks_content]
      simp only [translateResponse]
      split
      · next blank => rw [blank, Option.getD_none]
      · rfl
    · have nothing : (blocks.map StreamedBlock.whole).filterMap (ContentBlock.toolCall dumps) =
          [] := by
        rw [List.filterMap_eq_nil_iff]
        intro block member
        obtain ⟨streamed, known, rfl⟩ := List.mem_map.mp member
        cases streamed with
        | text pieces => rfl
        | toolUse id name input pieces => exact absurd known (texts id name input pieces)
      rw [calls, nothing, foldChunks_text texts]
      rfl
    · exact foldChunks_finishReason blocks message.stopReason

/-- The id and the name of a tool call never reach the client of a stream. -/
theorem streaming_disagrees :
    ¬ Agrees (foldChunks (streamCompletion (messageLines
        [.toolUse (some "toolu_1") (some "search") (some (.obj [])) ["{}"]]
        (some (some "tool_use")))))
      (translateResponse (fun _ => "{}") "claude"
        { content := [.toolUse (some "toolu_1") (some "search") (some (.obj []))]
          stopReason := some (some "tool_use") }) := by
  intro agrees
  have calls := agrees.toolCalls
  revert calls
  decide +kernel

end RagSystem.Llm
