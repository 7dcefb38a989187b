import RagSystem.Data.JsonAscii
import RagSystem.Data.Raising

/-! `AnthropicAdapter` (`proxy/app/llm/provider/openai.py`) between two requests: an answer of the
Messages API becomes a completion, the completion's message is sent back as history, and
`tool_use_completion` (`base.py`) reads the calls of the completion. -/

namespace RagSystem.Llm.AnthropicAdapter

open JsonText

/-! ### The Messages API -/

abbrev Input (φ : Type) := {value : Value φ // Parsed value}

/-- A block of the answer; a missing key is `none`. The adapter reads nothing of a block that is
neither a text nor a tool use. -/
inductive Block (φ : Type)
  | text (words : Option Text)
  | toolUse (id name : Option Text) (input : Option (Input φ))
  | other

structure Usage where
  inputTokens : Option Int := none
  outputTokens : Option Int := none

/-- A `stop_reason` may be missing, or null. -/
structure Response (φ : Type) where
  id : Option Text := none
  model : Option Text := none
  content : Option (List (Block φ)) := none
  stopReason : Option (Option Text) := none
  usage : Option Usage := none

/-! ### The OpenAI format -/

inductive Content (φ : Type)
  | null
  | text (words : Text)
  | parts (items : List (Value φ))

/-- `bool(content)` -/
def Content.truthy {φ : Type} : Content φ → Bool
  | null => false
  | text words => !words.isEmpty
  | parts items => !items.isEmpty

structure CallGiven where
  id : Option Text := none
  type : Option String := none
  name : Option Text := none
  arguments : Option Text := none
  deriving DecidableEq

structure Message (φ : Type) where
  role : Option String := none
  content : Option (Content φ) := none
  toolCalls : Option (Option (List CallGiven)) := none
  toolCallId : Option Text := none

structure Choice (φ : Type) where
  index : Nat
  message : Message φ
  finishReason : Option Text

structure Completion (φ : Type) where
  id : Text
  object : String
  created : Nat
  model : Text
  choices : List (Choice φ)
  promptTokens : Int
  completionTokens : Int
  totalTokens : Int

/-- `ToolCall` -/
structure ToolCall (φ : Type) where
  id : Text
  name : Text
  arguments : Value φ

/-! ### From the answer to the completion -/

section Response

variable {φ : Type} (floats : Floats φ) (modelName : Text)

def inputValue (input : Option (Input φ)) : Value φ :=
  match input with
  | none => .obj []
  | some input => input.val

/-- The loop over the blocks: the text and the calls, `none` where an input cannot be written. -/
def translateBlocks : List (Block φ) → Option (Text × List CallGiven)
  | [] => some ([], [])
  | .text words :: rest =>
      match translateBlocks rest with
      | some (text, calls) => some (words.getD [] ++ text, calls)
      | none => none
  | .toolUse id name input :: rest =>
      match dumpsAscii floats (inputValue input), translateBlocks rest with
      | some arguments, some (text, calls) =>
          some (text, ⟨some (id.getD []), some "function", some (name.getD []), some arguments⟩ ::
            calls)
      | _, _ => none
  | .other :: rest => translateBlocks rest

/-- `translate_response` -/
def translateResponse (response : Response φ) : Option (Completion φ) :=
  match translateBlocks floats (response.content.getD []) with
  | none => none
  | some (text, calls) =>
      let usage := response.usage.getD {}
      some {
        id := response.id.getD []
        object := "chat.completion"
        created := 0
        model := response.model.getD modelName
        choices := [{
          index := 0
          message := {
            role := some "assistant"
            content := some (if text = [] then .null else .text text)
            toolCalls := some (if calls = [] then none else some calls) }
          finishReason := response.stopReason.getD (some (codes "stop")) }]
        promptTokens := usage.inputTokens.getD 0
        completionTokens := usage.outputTokens.getD 0
        totalTokens := usage.inputTokens.getD 0 + usage.outputTokens.getD 0 }

end Response

/-! ### From the messages to the request -/

inductive TurnBlock (φ : Type)
  | text (words : Content φ)
  | toolUse (id name : Text) (input : Value φ)
  | toolResult (toolUseId : Text) (content : Content φ)

inductive TurnContent (φ : Type)
  | plain (content : Content φ)
  | blocks (blocks : List (TurnBlock φ))

inductive Role
  | assistant
  | user
  deriving DecidableEq, Repr

structure Turn (φ : Type) where
  role : Role
  content : TurnContent φ

structure Collected (φ : Type) where
  system : Option (Content φ) := none
  turns : List (Turn φ) := []

/-- Without a system text, without tools and without a stream these keys are missing. -/
structure Payload (φ Format : Type) where
  model : Text
  messages : List (Turn φ)
  maxTokens : Int
  temperature : φ
  system : Option (Content φ) := none
  tools : Option (List Format) := none
  stream : Bool := false

section Request

variable {φ : Type} (floats : Floats φ)

def toolUseBlock (call : CallGiven) : Except Failure (TurnBlock φ) :=
  match loads floats (call.arguments.getD (codes "{}")) with
  | .ok input => .ok (.toolUse (call.id.getD []) (call.name.getD []) input)
  | .error failure => .error failure

def assistantContent (content : Content φ) (toolCalls : List CallGiven) :
    Except Failure (TurnContent φ) :=
  if toolCalls = [] then .ok (.plain content)
  else
    match toolCalls.mapM (toolUseBlock floats) with
    | .ok uses => .ok (.blocks ((if content.truthy then [.text content] else []) ++ uses))
    | .error failure => .error failure

def addMessage (collected : Collected φ) (message : Message φ) : Except Failure (Collected φ) :=
  let content := message.content.getD (.text [])
  let role := message.role.getD "user"
  if role = "system" then .ok { collected with system := some content }
  else if role = "assistant" then
    match assistantContent floats content ((message.toolCalls.getD none).getD []) with
    | .ok content => .ok { collected with turns := collected.turns ++ [⟨.assistant, content⟩] }
    | .error failure => .error failure
  else if role = "tool" then
    .ok { collected with turns := collected.turns ++
      [⟨.user, .blocks [.toolResult (message.toolCallId.getD []) content]⟩] }
  else .ok { collected with turns := collected.turns ++ [⟨.user, .plain content⟩] }

/-- The loop of `translate_request`. -/
def collect (messages : List (Message φ)) : Except Failure (Collected φ) :=
  messages.foldlM (addMessage floats) {}

variable (modelName : Text) {Tool Format : Type} (toAnthropicFormat : Tool → Format)

/-- `translate_request` -/
def translateRequest (messages : List (Message φ)) (temperature : φ) (maxTokens : Int)
    (tools : List Tool) (stream : Bool) : Except Failure (Payload φ Format) :=
  match collect floats messages with
  | .error failure => .error failure
  | .ok collected => .ok {
      model := modelName
      messages := collected.turns
      maxTokens := maxTokens
      temperature := temperature
      system := collected.system.filter Content.truthy
      tools := if tools = [] then none else some (tools.map toAnthropicFormat)
      stream := stream }

end Request

/-! ### The calls of a completion -/

inductive Raised
  | typeError
  | valueError
  deriving DecidableEq, Repr

section Calls

variable {φ : Type} (floats : Floats φ)

def readCall (indexed : CallGiven × Nat) : Except Failure (ToolCall φ) :=
  match loads floats (indexed.1.arguments.getD (codes "{}")) with
  | .ok arguments =>
      .ok ⟨indexed.1.id.getD (codes s!"call_{indexed.2}"), indexed.1.name.getD [], arguments⟩
  | .error failure => .error failure

/-- `tool_use_completion`, from the completion on. A missing choice and a text that is no JSON are
caught. -/
def toolUseCompletion (data : Completion φ) : Except Raised (List (ToolCall φ)) :=
  match data.choices with
  | [] => .ok []
  | choice :: _ =>
      match choice.message.toolCalls.getD (some []) with
      | none => .error .typeError
      | some toolCalls =>
          match toolCalls.zipIdx.mapM (readCall floats) with
          | .ok calls => .ok calls
          | .error .decode => .ok []
          | .error .tooManyDigits => .error .valueError

end Calls

/-! ### There and back -/

section RoundTrip

variable {φ : Type}

def Block.words : Block φ → Text
  | text words => words.getD []
  | toolUse _ _ _ => []
  | other => []

def Block.use : Block φ → Option (ToolCall φ)
  | text _ => none
  | toolUse id name input => some ⟨id.getD [], name.getD [], inputValue input⟩
  | other => none

def Response.words (response : Response φ) : Text :=
  (response.content.getD []).flatMap Block.words

def Response.uses (response : Response φ) : List (ToolCall φ) :=
  (response.content.getD []).filterMap Block.use

def TurnBlock.words : TurnBlock φ → Text
  | text (.text words) => words
  | _ => []

def TurnBlock.use : TurnBlock φ → Option (ToolCall φ)
  | toolUse id name input => some ⟨id, name, input⟩
  | _ => none

def Turn.words (turn : Turn φ) : Text :=
  match turn.content with
  | .plain (.text words) => words
  | .plain _ => []
  | .blocks blocks => blocks.flatMap TurnBlock.words

def Turn.uses (turn : Turn φ) : List (ToolCall φ) :=
  match turn.content with
  | .plain _ => []
  | .blocks blocks => blocks.filterMap TurnBlock.use

def Message.calls (message : Message φ) : List CallGiven :=
  (message.toolCalls.getD none).getD []

def toolMessage (call : CallGiven) (result : Content φ) : Message φ :=
  { role := some "tool", content := some result, toolCallId := call.id }

def resultTurn (use : ToolCall φ) (result : Content φ) : Turn φ :=
  ⟨.user, .blocks [.toolResult use.id result]⟩

variable (floats : Floats φ) (modelName : Text) {Tool Format : Type}
  (toAnthropicFormat : Tool → Format)

/-- Between any other messages, the message and one result for each of its calls are sent as a turn
with the text and the tool uses of the answer and one turn for each result. -/
def SentBack (response : Response φ) (message : Message φ) : Prop :=
  message.calls.length = response.uses.length ∧
  ∀ (before after : List (Message φ)) (results : List (Content φ)) (earlier later : Collected φ),
    collect floats before = .ok earlier → collect floats after = .ok later →
    results.length = response.uses.length →
    ∃ turn : Turn φ, turn.role = .assistant ∧ turn.words = response.words ∧
      turn.uses = response.uses ∧
      ∀ temperature maxTokens tools stream, ∃ payload,
        translateRequest floats modelName toAnthropicFormat
          (before ++ message :: List.zipWith toolMessage message.calls results ++ after)
          temperature maxTokens tools stream = .ok payload ∧
        payload.messages = earlier.turns ++ turn ::
          List.zipWith resultTurn response.uses results ++ later.turns

/-- The completion holds one message, which can be sent back, and its calls are the tool uses. -/
def RoundTrips (response : Response φ) : Prop :=
  ∃ completion message, translateResponse floats modelName response = some completion ∧
    completion.choices.map Choice.message = [message] ∧
    SentBack floats modelName toAnthropicFormat response message ∧
    toolUseCompletion floats completion = .ok response.uses

/-! What is written is read back. -/

structure Written (use : ToolCall φ) (call : CallGiven) : Prop where
  id : call.id = some use.id
  name : call.name = some use.name
  arguments : ∃ text, call.arguments = some text ∧ loads floats text = .ok use.arguments

variable {floats}

theorem parsed_inputValue (input : Option (Input φ)) : Parsed (inputValue input) := by
  cases input with
  | none => exact Parsed.obj [] List.nodup_nil (by simp) (by simp)
  | some input => exact input.property

theorem translateBlocks_spec (floats : Floats φ) (blocks : List (Block φ)) :
    ∃ calls, translateBlocks floats blocks = some (blocks.flatMap Block.words, calls) ∧
      List.Forall₂ (Written floats) (blocks.filterMap Block.use) calls := by
  induction blocks with
  | nil => exact ⟨[], rfl, List.Forall₂.nil⟩
  | cons block rest ih =>
      obtain ⟨calls, translated, written⟩ := ih
      cases block with
      | text words => exact ⟨calls, by rw [translateBlocks, translated]; rfl, written⟩
      | other => exact ⟨calls, translated, written⟩
      | toolUse id name input =>
          obtain ⟨arguments, shown, loaded⟩ :=
            loads_dumpsAscii floats (parsed_inputValue input)
          have call : Written floats ⟨id.getD [], name.getD [], inputValue input⟩
              ⟨some (id.getD []), some "function", some (name.getD []), some arguments⟩ :=
            ⟨rfl, rfl, arguments, rfl, loaded⟩
          exact ⟨_, by rw [translateBlocks, shown, translated]; rfl, List.Forall₂.cons call written⟩

variable {uses : List (ToolCall φ)} {calls : List CallGiven}

theorem mapM_toolUseBlock (written : List.Forall₂ (Written floats) uses calls) :
    calls.mapM (toolUseBlock floats) =
      .ok (uses.map (fun use => .toolUse use.id use.name use.arguments)) := by
  induction written with
  | nil => rfl
  | @cons use call uses calls head _ ih =>
      obtain ⟨text, given, loaded⟩ := head.arguments
      have first : toolUseBlock floats call = .ok (.toolUse use.id use.name use.arguments) := by
        rw [toolUseBlock, given, Option.getD_some, loaded, head.id, head.name]
        rfl
      exact Raising.mapM_cons_eq first ih

theorem mapM_readCall (written : List.Forall₂ (Written floats) uses calls) (start : Nat) :
    (calls.zipIdx start).mapM (readCall floats) = .ok uses := by
  induction written generalizing start with
  | nil => rfl
  | @cons use call uses calls head _ ih =>
      obtain ⟨text, given, loaded⟩ := head.arguments
      have first : readCall floats (call, start) = .ok use := by
        rw [readCall, given, Option.getD_some, loaded, head.id, head.name]
        rfl
      exact Raising.mapM_cons_eq first (ih (start + 1))

/-! The loop over the messages. -/

def Collected.append (first second : Collected φ) : Collected φ :=
  ⟨second.system.or first.system, first.turns ++ second.turns⟩

theorem addMessage_append (start collected : Collected φ) (message : Message φ) :
    addMessage floats (start.append collected) message =
      (addMessage floats collected message).map start.append := by
  simp only [addMessage]
  split
  · rfl
  · split
    · cases assistantContent floats (message.content.getD (.text []))
          ((message.toolCalls.getD none).getD []) with
      | error failure => rfl
      | ok content => simp [Except.map, Collected.append]
    · split
      · simp [Except.map, Collected.append]
      · simp [Except.map, Collected.append]

theorem foldlM_append_eq (floats : Floats φ) (messages : List (Message φ))
    (start collected : Collected φ) :
    messages.foldlM (addMessage floats) (start.append collected) =
      (messages.foldlM (addMessage floats) collected).map start.append := by
  induction messages generalizing collected with
  | nil => rfl
  | cons message rest ih =>
      rw [List.foldlM_cons, List.foldlM_cons, addMessage_append]
      cases addMessage floats collected message with
      | error failure => rfl
      | ok next => exact ih next

theorem foldlM_of_collect {messages : List (Message φ)} {later : Collected φ}
    (collected : collect floats messages = .ok later) (start : Collected φ) :
    messages.foldlM (addMessage floats) start = .ok (start.append later) := by
  have appended := foldlM_append_eq floats messages start {}
  have whole : start.append {} = start := by simp [Collected.append]
  rw [collect] at collected
  rwa [whole, collected] at appended

theorem foldlM_toolMessages (written : List.Forall₂ (Written floats) uses calls)
    (results : List (Content φ)) (collected : Collected φ) :
    (List.zipWith toolMessage calls results).foldlM (addMessage floats) collected =
      .ok { collected with
        turns := collected.turns ++ List.zipWith resultTurn uses results } := by
  induction written generalizing results collected with
  | nil => simp [pure, Except.pure]
  | @cons use call uses calls head _ ih =>
      cases results with
      | nil => simp [pure, Except.pure]
      | cons result results =>
          have added : addMessage floats collected (toolMessage call result) =
              .ok { collected with turns := collected.turns ++ [resultTurn use result] } := by
            simp [addMessage, toolMessage, resultTurn, head.id]
          rw [List.zipWith_cons_cons, List.foldlM_cons, added]
          refine (ih results _).trans ?_
          simp

theorem assistantContent_eq (written : List.Forall₂ (Written floats) uses calls)
    (called : uses ≠ []) (words : Text) :
    ∃ content, assistantContent floats (if words = [] then .null else .text words) calls =
        .ok content ∧
      (Turn.mk .assistant content).words = words ∧
      (Turn.mk .assistant content).uses = uses := by
  have given : calls ≠ [] := by
    intro empty
    subst empty
    exact called (List.forall₂_nil_right_iff.mp written)
  rw [assistantContent, if_neg given, mapM_toolUseBlock written]
  refine ⟨_, rfl, ?_, ?_⟩
  · have silent : (uses.map (fun use => TurnBlock.toolUse use.id use.name use.arguments)).flatMap
        TurnBlock.words = [] := by
      simp [List.flatMap_eq_nil_iff, TurnBlock.words]
    by_cases empty : words = []
    · simp [Turn.words, empty, Content.truthy, silent]
    · simp [Turn.words, empty, Content.truthy, silent, TurnBlock.words]
  · have each : (uses.map (fun use => TurnBlock.toolUse use.id use.name use.arguments)).filterMap
        TurnBlock.use = uses := by
      simp [List.filterMap_map, Function.comp_def, TurnBlock.use]
    by_cases empty : words = []
    · simp [Turn.uses, empty, Content.truthy, each]
    · have words : TurnBlock.use (.text (.text words)) = (none : Option (ToolCall φ)) := rfl
      simp [Turn.uses, empty, Content.truthy, List.filterMap_cons_none words, each]

def assistantMessage (words : Text) (calls : List CallGiven) : Message φ where
  role := some "assistant"
  content := some (if words = [] then .null else .text words)
  toolCalls := some (if calls = [] then none else some calls)

@[simp] theorem calls_assistantMessage (words : Text) (calls : List CallGiven) :
    (assistantMessage words calls : Message φ).calls = calls := by
  by_cases empty : calls = []
  · simp [Message.calls, assistantMessage, empty]
  · simp [Message.calls, assistantMessage, empty]

theorem addMessage_assistantMessage {words : Text} {content : TurnContent φ}
    (translated : assistantContent floats (if words = [] then .null else .text words) calls =
      .ok content) (collected : Collected φ) :
    addMessage floats collected (assistantMessage words calls) =
      .ok { collected with turns := collected.turns ++ [⟨.assistant, content⟩] } := by
  have given : (((assistantMessage words calls : Message φ).toolCalls.getD none).getD []) = calls :=
    calls_assistantMessage words calls
  rw [addMessage, given]
  simp [assistantMessage, translated]

theorem sentBack_of_written {response : Response φ}
    (written : List.Forall₂ (Written floats) response.uses calls) (called : response.uses ≠ []) :
    SentBack floats modelName toAnthropicFormat response
      (assistantMessage response.words calls) := by
  refine ⟨by rw [calls_assistantMessage, written.length_eq], ?_⟩
  intro before after results earlier later first last _
  obtain ⟨content, translated, words, uses⟩ := assistantContent_eq written called response.words
  refine ⟨⟨.assistant, content⟩, rfl, words, uses, ?_⟩
  intro temperature maxTokens tools stream
  have collected : collect floats (before ++ assistantMessage response.words calls ::
      List.zipWith toolMessage calls results ++ after) =
      .ok ⟨later.system.or earlier.system, earlier.turns ++ ⟨.assistant, content⟩ ::
        List.zipWith resultTurn response.uses results ++ later.turns⟩ := by
    rw [collect] at first
    rw [collect, List.foldlM_append, List.foldlM_append, first]
    have middle : (assistantMessage response.words calls ::
        List.zipWith toolMessage calls results).foldlM (addMessage floats) earlier =
        .ok ⟨earlier.system, earlier.turns ++ [⟨.assistant, content⟩] ++
          List.zipWith resultTurn response.uses results⟩ := by
      rw [List.foldlM_cons, addMessage_assistantMessage translated]
      exact foldlM_toolMessages written results _
    have rest := foldlM_of_collect last ⟨earlier.system, earlier.turns ++
      [⟨.assistant, content⟩] ++ List.zipWith resultTurn response.uses results⟩
    calc
      _ = ((assistantMessage response.words calls ::
          List.zipWith toolMessage calls results).foldlM (addMessage floats) earlier >>=
          fun collected => after.foldlM (addMessage floats) collected) := rfl
      _ = _ := by
        rw [middle]
        refine rest.trans ?_
        simp [Collected.append]
  rw [translateRequest, calls_assistantMessage, collected]
  exact ⟨_, rfl, rfl⟩

/-- An answer makes the round trip exactly if it uses a tool. -/
theorem roundTrips_iff (response : Response φ) :
    RoundTrips floats modelName toAnthropicFormat response ↔
      ∃ id name input, .toolUse id name input ∈ response.content.getD [] := by
  obtain ⟨calls, translated, written⟩ :=
    translateBlocks_spec floats (response.content.getD [])
  have used : response.uses ≠ [] ↔
      ∃ id name input, .toolUse id name input ∈ response.content.getD [] := by
    rw [Response.uses, ne_eq, List.filterMap_eq_nil_iff]
    constructor
    · intro some
      by_contra none
      apply some
      intro block member
      cases block with
      | text words => rfl
      | other => rfl
      | toolUse id name input => exact absurd ⟨id, name, input, member⟩ none
    · intro given none
      obtain ⟨id, name, input, member⟩ := given
      exact nomatch none _ member
  rw [← used]
  constructor
  · intro trip none
    obtain ⟨completion, message, sent, -, -, read⟩ := trip
    have empty : calls = [] := by
      rw [Response.uses] at none
      rw [none] at written
      exact List.forall₂_nil_left_iff.mp written
    rw [translateResponse, translated, empty] at sent
    obtain rfl := Option.some.inj sent
    exact nomatch read
  · intro called
    have given : calls ≠ [] := by
      intro empty
      rw [empty] at written
      exact called (List.forall₂_nil_right_iff.mp written)
    rw [RoundTrips, translateResponse, translated]
    refine ⟨_, assistantMessage response.words calls, rfl, rfl,
      sentBack_of_written modelName toAnthropicFormat written called, ?_⟩
    simp only [toolUseCompletion, if_neg given, Option.getD_some, mapM_readCall written 0]
    rfl

/-- A float type with one value, `0.0`. -/
def zeroFloats : Floats Unit where
  repr _ := codes "0.0"
  parse _ := .finite ()
  parse_repr _ := rfl
  isFloat_repr _ :=
    ⟨[], [48], [46, 48], [], rfl, Or.inl rfl, Or.inl rfl, Or.inr ⟨[48], rfl, by decide, by decide⟩,
      Or.inl rfl, by decide⟩

/-- The calls of an answer without any are `None`, which cannot be enumerated. -/
theorem text_alone_raises :
    ¬ RoundTrips zeroFloats (codes "claude") (fun tool : String => tool)
      { content := some [.text (some (codes "Hello"))] } := by
  intro trip
  obtain ⟨completion, message, sent, -, -, read⟩ := trip
  obtain rfl := Option.some.inj sent
  exact nomatch read

end RoundTrip

end RagSystem.Llm.AnthropicAdapter
