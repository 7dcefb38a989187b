import Mathlib.Data.List.Induction
import Mathlib.Data.List.ReduceOption
import RagSystem.ModelEvolution.DataProcessor

/-! `InteractionLogger` and the training export of `proxy/app/core/hitl.py`: what is logged with an
interaction and after it, and what of that reaches the training data. -/

namespace RagSystem.Core.Hitl

open ModelEvolution

inductive FeedbackType
  | positive
  | negative
  | correction
  deriving DecidableEq, Repr

def FeedbackType.value : FeedbackType → String
  | .positive => "positive"
  | .negative => "negative"
  | .correction => "correction"

structure Interaction where
  requestId : String
  userQuery : String
  context : String := ""
  response : String
  metadata : Option (List (String × Json)) := none
  userFeedback : Option FeedbackType := none
  correctedResponse : Option String := none

structure Feedback where
  requestId : String
  feedbackType : FeedbackType
  comment : Option String := none
  correctedResponse : Option String := none
  expertId : Option String := none

structure LogFile where
  directory : String
  name : String
  deriving DecidableEq, Repr

abbrev Files := Dict LogFile (List LogRecord)

structure InteractionLogger where
  logDir : String := "./logs"
  deriving DecidableEq, Repr

namespace InteractionLogger

variable (logger : InteractionLogger)

def interactionsFile : LogFile := ⟨logger.logDir, "interactions.jsonl"⟩

def feedbackFile : LogFile := ⟨logger.logDir, "feedback.jsonl"⟩

def appendLine (file : LogFile) (record : LogRecord) (files : Files) : Files :=
  files.set file ((files.get? file).getD [] ++ [record])

/-- `if text:` -/
def given (text : Option String) : Option String := text.filter (· ≠ "")

def interactionRecord (now : String) (entry : Interaction) : LogRecord :=
  Dict.ofList ([("request_id", Json.str entry.requestId), ("timestamp", .str now),
    ("user_query", .str entry.userQuery),
    ("context", .str (String.ofList (entry.context.toList.take 5000))),
    ("response", .str entry.response), ("metadata", .obj (entry.metadata.getD []))] ++
    entry.userFeedback.toList.map (fun kind => ("user_feedback", .str kind.value)) ++
    (given entry.correctedResponse).toList.map (fun text => ("corrected_response", .str text)))

def logInteraction (now : String) (entry : Interaction) (files : Files) : Files :=
  appendLine logger.interactionsFile (interactionRecord now entry) files

def optional : Option String → Json
  | none => .null
  | some text => .str text

def feedbackRecord (now : String) (feedback : Feedback) : LogRecord :=
  Dict.ofList [("request_id", Json.str feedback.requestId), ("timestamp", .str now),
    ("feedback_type", .str feedback.feedbackType.value), ("comment", optional feedback.comment),
    ("corrected_response", optional feedback.correctedResponse),
    ("expert_id", optional feedback.expertId)]

def logFeedback (now : String) (feedback : Feedback) (files : Files) : Files :=
  appendLine logger.feedbackFile (feedbackRecord now feedback) files

/-- The last `limit` lines, the newest first. -/
def getInteractions (limit : Nat) (files : Files) : List LogRecord :=
  let lines := (files.get? logger.interactionsFile).getD []
  (if limit = 0 then lines else lines.drop (lines.length - limit)).reverse

end InteractionLogger

open InteractionLogger

structure TrainingPair where
  prompt : Json
  completion : Json

/-- The pair of one item, if there is one; the outer `none` is a `KeyError`. -/
def trainingPair (item : LogRecord) : Option (Option TrainingPair) :=
  match item.get? "corrected_response", item.get? "user_feedback" with
  | some corrected, _ =>
      (item.get? "user_query").map (fun query => some ⟨query, corrected⟩)
  | none, some (.str "positive") =>
      (item.get? "user_query").bind fun query =>
        (item.get? "response").map (fun response => some ⟨query, response⟩)
  | none, _ => some none

def exportLimit : Nat := 10000

/-- `export_training_dataset` without the processor. -/
def exportTrainingDataset (logger : InteractionLogger) (files : Files) :
    Option (List TrainingPair) :=
  ((logger.getInteractions exportLimit files).mapM trainingPair).map (·.reduceOption)

/-- The path that `DataProcessor()` reads. -/
def hitlLogPath : LogFile := ⟨"logs", "hitl.jsonl"⟩

/-- `export_training_dataset` with `use_processor`. -/
def exportWithProcessor (str : Json → String) (files : Files) : Option TrainingDataset :=
  ModelEvolution.exportTrainingDataset str (files.get? hitlLogPath)

inductive LogCall
  | interaction (now : String) (entry : Interaction)
  | feedback (now : String) (feedback : Feedback)

def LogCall.perform (logger : InteractionLogger) (files : Files) : LogCall → Files
  | interaction now entry => logger.logInteraction now entry files
  | feedback now given => logger.logFeedback now given files

def replay (logger : InteractionLogger) (history : List LogCall) : Files :=
  history.foldl (LogCall.perform logger) ∅

/-! ### What is to reach the training data -/

def feedbackFor (requestId : String) (calls : List LogCall) : List Feedback :=
  calls.filterMap fun
    | .interaction _ _ => none
    | .feedback _ feedback => if feedback.requestId = requestId then some feedback else none

def correctionOf (entry : Interaction) (after : List LogCall) : Option String :=
  (((feedbackFor entry.requestId after).filterMap
    (fun feedback => given feedback.correctedResponse)).getLast?).or (given entry.correctedResponse)

def positiveOf (entry : Interaction) (after : List LogCall) : Bool :=
  entry.userFeedback = some .positive ||
    (feedbackFor entry.requestId after).any (fun feedback => feedback.feedbackType = .positive)

def wantedPair (position : Interaction × List LogCall) : Option TrainingPair :=
  match correctionOf position.1 position.2 with
  | some text => some ⟨.str position.1.userQuery, .str text⟩
  | none =>
      if positiveOf position.1 position.2 then
        some ⟨.str position.1.userQuery, .str position.1.response⟩
      else none

def positions : List LogCall → List (Interaction × List LogCall)
  | [] => []
  | .interaction _ entry :: rest => (entry, rest) :: positions rest
  | .feedback _ _ :: rest => positions rest

/-- Every pair that is wanted is exported, the newest first, and the processor makes an instruction
of every corrected interaction. -/
structure ReachesTraining (logger : InteractionLogger) (str : Json → String)
    (history : List LogCall) : Prop where
  exported : exportTrainingDataset logger (replay logger history) =
    some ((positions history).filterMap wantedPair).reverse
  processed : ∃ dataset, exportWithProcessor str (replay logger history) = some dataset ∧
    ∀ position ∈ positions history, ∀ text, correctionOf position.1 position.2 = some text →
      ⟨.str position.1.userQuery, .str position.1.response, .str text⟩ ∈ dataset.llmData

def ownPair (entry : Interaction) : Option TrainingPair :=
  match given entry.correctedResponse with
  | some text => some ⟨.str entry.userQuery, .str text⟩
  | none =>
      if entry.userFeedback = some .positive then some ⟨.str entry.userQuery, .str entry.response⟩
      else none

theorem trainingPair_interactionRecord (now : String) (entry : Interaction) :
    trainingPair (interactionRecord now entry) = some (ownPair entry) := by
  have blank (key : String) : (Dict.empty : LogRecord).get? key = none := rfl
  unfold trainingPair interactionRecord ownPair
  cases given entry.correctedResponse with
  | some text =>
      cases entry.userFeedback <;> simp [Dict.ofList, Dict.setAll, Dict.get?_set]
  | none =>
      cases entry.userFeedback with
      | none => simp [Dict.ofList, Dict.setAll, Dict.get?_set, blank]
      | some kind =>
          cases kind <;> simp [Dict.ofList, Dict.setAll, Dict.get?_set, FeedbackType.value, blank]

/-! ### The files of a history -/

theorem get?_appendLine (file other : LogFile) (record : LogRecord) (files : Files) :
    (appendLine file record files).get? other =
      if other = file then some ((files.get? file).getD [] ++ [record]) else files.get? other :=
  Dict.get?_set _ _ _ _

def interactionRecords (history : List LogCall) : List LogRecord :=
  history.filterMap fun
    | .interaction now entry => some (interactionRecord now entry)
    | .feedback _ _ => none

theorem replay_interactions (logger : InteractionLogger) (history : List LogCall) :
    ((replay logger history).get? logger.interactionsFile).getD [] =
      interactionRecords history := by
  induction history using List.reverseRecOn with
  | nil => rfl
  | append_singleton history call ih =>
      have apart : logger.interactionsFile ≠ logger.feedbackFile := by
        simp [interactionsFile, feedbackFile]
      rw [replay, List.foldl_append, interactionRecords, List.filterMap_append]
      cases call with
      | interaction now entry =>
          simp only [List.foldl_cons, List.foldl_nil, LogCall.perform, logInteraction,
            get?_appendLine, if_pos, Option.getD_some]
          exact congrArg (· ++ _) ih
      | feedback now given =>
          simp only [List.foldl_cons, List.foldl_nil, LogCall.perform, logFeedback,
            get?_appendLine, if_neg apart]
          simpa [interactionRecords, replay] using ih

theorem replay_hitlLogPath (logger : InteractionLogger) (history : List LogCall) :
    (replay logger history).get? hitlLogPath = none := by
  unfold replay
  apply List.foldlRecOn (motive := fun files : Files => files.get? hitlLogPath = none)
  · rfl
  · intro files missing call _
    have first : hitlLogPath ≠ logger.interactionsFile := by simp [hitlLogPath, interactionsFile]
    have second : hitlLogPath ≠ logger.feedbackFile := by simp [hitlLogPath, feedbackFile]
    cases call with
    | interaction now entry =>
        rw [LogCall.perform, logInteraction, get?_appendLine, if_neg first]
        exact missing
    | feedback now given =>
        rw [LogCall.perform, logFeedback, get?_appendLine, if_neg second]
        exact missing

theorem map_interactionRecords (history : List LogCall) :
    (interactionRecords history).map trainingPair =
      (positions history).map (fun position => some (ownPair position.1)) := by
  induction history with
  | nil => rfl
  | cons call rest ih =>
      cases call with
      | interaction now entry =>
          have unfolded : interactionRecords (.interaction now entry :: rest) =
              interactionRecord now entry :: interactionRecords rest := rfl
          rw [unfolded, positions, List.map_cons, List.map_cons, ih,
            trainingPair_interactionRecord]
      | feedback now given => exact ih

theorem mapM_eq_some_of_map {α β : Type} {f : α → Option β} {items : List α} {values : List β}
    (all : items.map f = values.map some) : items.mapM f = some values := by
  induction items generalizing values with
  | nil =>
      obtain rfl : values = [] := by simpa using all.symm
      rfl
  | cons item rest ih =>
      cases values with
      | nil => cases all
      | cons value later =>
          obtain ⟨head, tail⟩ := List.cons.inj all
          rw [List.mapM_cons, head, ih tail]
          rfl

theorem export_replay (logger : InteractionLogger) (history : List LogCall) :
    exportTrainingDataset logger (replay logger history) =
      some (((positions history).drop ((positions history).length - exportLimit)).filterMap
        (fun position => ownPair position.1)).reverse := by
  have sameLength : (interactionRecords history).length = (positions history).length := by
    simpa using congrArg List.length (map_interactionRecords history)
  unfold exportTrainingDataset getInteractions
  rw [replay_interactions]
  dsimp only
  rw [if_neg (by decide), sameLength]
  generalize (positions history).length - exportLimit = skipped
  have mapped : (((interactionRecords history).drop skipped).reverse).map trainingPair =
      ((((positions history).drop skipped).reverse).map
        (fun position => ownPair position.1)).map some := by
    rw [List.map_reverse, List.map_drop, map_interactionRecords]
    simp [List.map_drop, Function.comp_def]
  rw [mapM_eq_some_of_map mapped, Option.map_some, List.reduceOption, List.filterMap_map,
    List.filterMap_reverse]
  rfl

/-! ### When it reaches it -/

theorem positions_after {history : List LogCall} {first second : List (Interaction × List LogCall)}
    {position : Interaction × List LogCall}
    (split : positions history = first ++ position :: second) : second = positions position.2 := by
  induction history generalizing first with
  | nil => simp [positions] at split
  | cons call rest ih =>
      cases call with
      | feedback now given => exact ih split
      | interaction now entry =>
          cases first with
          | nil =>
              obtain ⟨rfl, rfl⟩ := List.cons.inj split
              rfl
          | cons other others => exact ih (List.cons.inj split).2

theorem wantedPair_isSome_of_own {position : Interaction × List LogCall}
    (own : (ownPair position.1).isSome) : (wantedPair position).isSome := by
  unfold ownPair at own
  unfold wantedPair correctionOf positiveOf
  cases corrected : given position.1.correctedResponse with
  | some text =>
      cases ((feedbackFor position.1.requestId position.2).filterMap
        (fun feedback => given feedback.correctedResponse)).getLast? <;> simp
  | none =>
      rw [corrected] at own
      by_cases positive : position.1.userFeedback = some .positive
      · rw [Option.or_none]
        split <;> simp [positive]
      · simp [positive] at own

/-- All that is said about an interaction is said when it is logged, it is never a correction, and
what is positive is among the last interactions. -/
def SaidAtOnce (history : List LogCall) : Prop :=
  ∀ position ∈ positions history,
    correctionOf position.1 position.2 = none ∧
    (positiveOf position.1 position.2 = true → position.1.userFeedback = some .positive) ∧
    (exportLimit ≤ (positions position.2).length → positiveOf position.1 position.2 = false)

section

variable {α β : Type} {few many : α → Option β}

theorem length_filterMap_le (fewer : ∀ item, (few item).isSome → (many item).isSome)
    (items : List α) : (items.filterMap few).length ≤ (items.filterMap many).length := by
  induction items with
  | nil => simp
  | cons item rest ih =>
      have kept := fewer item
      cases first : few item <;> cases second : many item <;>
        simp [first, second] at kept ⊢ <;> omega

theorem isSome_of_filterMap_length (fewer : ∀ item, (few item).isSome → (many item).isSome)
    {items : List α}
    (same : (items.filterMap many).length ≤ (items.filterMap few).length) :
    ∀ item ∈ items, (many item).isSome → (few item).isSome := by
  induction items with
  | nil => simp
  | cons item rest ih =>
      have kept := fewer item
      have below := length_filterMap_le fewer rest
      cases first : few item with
      | none =>
          cases second : many item with
          | none =>
              simp only [List.filterMap_cons, first, second] at same
              simpa [first, second] using ih same
          | some value =>
              simp only [List.filterMap_cons, first, second, List.length_cons] at same
              omega
      | some value =>
          rw [first] at kept
          obtain ⟨other, second⟩ := Option.isSome_iff_exists.mp (kept rfl)
          simp only [List.filterMap_cons, first, second, List.length_cons] at same
          simpa [first, second] using ih (by omega)

end

theorem mem_skipped {history : List LogCall} {position : Interaction × List LogCall}
    (member : position ∈ positions history)
    (many : exportLimit ≤ (positions position.2).length) :
    position ∈ (positions history).take ((positions history).length - exportLimit) := by
  obtain ⟨first, second, split⟩ := List.append_of_mem member
  have counted := positions_after split
  rw [← counted] at many
  have inside : first.length < (positions history).length - exportLimit := by
    rw [split, List.length_append, List.length_cons]
    omega
  rw [split] at inside ⊢
  rw [List.take_append]
  obtain ⟨more, counts⟩ : ∃ more,
      (first ++ position :: second).length - exportLimit - first.length = more + 1 :=
    ⟨_, (Nat.succ_pred_eq_of_pos (by omega)).symm⟩
  rw [counts, List.take_succ_cons]
  exact List.mem_append_right _ List.mem_cons_self

theorem many_after_of_skipped {history : List LogCall} {position : Interaction × List LogCall}
    (skipped : position ∈
      (positions history).take ((positions history).length - exportLimit)) :
    exportLimit ≤ (positions position.2).length := by
  obtain ⟨first, second, split⟩ := List.append_of_mem skipped
  have whole := List.take_append_drop ((positions history).length - exportLimit)
    (positions history)
  have some : 0 < ((positions history).take
      ((positions history).length - exportLimit)).length := by simp [split]
  rw [split, List.append_assoc, List.cons_append] at whole
  have counted := congrArg List.length (positions_after whole.symm)
  rw [List.length_append, List.length_drop] at counted
  rw [List.length_take] at some
  omega

theorem wantedPair_of_uncorrected {position : Interaction × List LogCall}
    (uncorrected : correctionOf position.1 position.2 = none) :
    wantedPair position = (if positiveOf position.1 position.2 then
      some ⟨.str position.1.userQuery, .str position.1.response⟩ else none) ∧
    ownPair position.1 = if position.1.userFeedback = some .positive then
      some ⟨.str position.1.userQuery, .str position.1.response⟩ else none := by
  have own : given position.1.correctedResponse = none :=
    (Option.or_eq_none_iff.mp uncorrected).2
  exact ⟨by rw [wantedPair, uncorrected], by rw [ownPair, own]⟩

/-- Logged feedback reaches the training data exactly if it is given with its interaction, is no
correction, and is not older than what an export reads. -/
theorem reaches_training_iff (logger : InteractionLogger) (str : Json → String)
    (history : List LogCall) :
    ReachesTraining logger str history ↔ SaidAtOnce history := by
  have nothing : exportWithProcessor str (replay logger history) = some {} := by
    rw [exportWithProcessor, replay_hitlLogPath]
    rfl
  have whole := List.take_append_drop ((positions history).length - exportLimit)
    (positions history)
  generalize oldest : (positions history).take ((positions history).length - exportLimit) = old
    at whole
  generalize latest : (positions history).drop ((positions history).length - exportLimit) = recent
    at whole
  constructor
  · intro given
    rcases given with ⟨exported, dataset, processed, instructions⟩
    rw [nothing] at processed
    obtain rfl := Option.some.inj processed
    have uncorrected : ∀ position ∈ positions history,
        correctionOf position.1 position.2 = none := by
      intro position member
      by_contra corrected
      obtain ⟨text, isText⟩ := Option.ne_none_iff_exists'.mp corrected
      cases instructions position member text isText
    rw [export_replay, Option.some.injEq, List.reverse_inj, latest, ← whole,
      List.filterMap_append] at exported
    have lengths := congrArg List.length exported
    rw [List.length_append] at lengths
    have fewer : ∀ position : Interaction × List LogCall,
        (ownPair position.1).isSome → (wantedPair position).isSome :=
      fun _ => wantedPair_isSome_of_own
    have bounded := length_filterMap_le fewer recent
    have unwanted : ∀ position ∈ old, wantedPair position = none :=
      List.filterMap_eq_nil_iff.mp (List.length_eq_zero_iff.mp (by omega))
    have kept : ∀ position ∈ recent, (wantedPair position).isSome →
        (ownPair position.1).isSome := isSome_of_filterMap_length fewer (by omega)
    intro position member
    obtain ⟨wanted, own⟩ := wantedPair_of_uncorrected (uncorrected position member)
    have silent (isOld : position ∈ old) : positiveOf position.1 position.2 = false := by
      have none := unwanted position isOld
      rw [wanted] at none
      by_contra positive
      simp [positive] at none
    refine ⟨uncorrected position member, ?_, ?_⟩
    · intro positive
      rw [← whole, List.mem_append] at member
      rcases member with isOld | isRecent
      · rw [silent isOld] at positive
        cases positive
      · have some := kept position isRecent (by rw [wanted, positive]; rfl)
        rw [own] at some
        by_contra unsaid
        simp [unsaid] at some
    · intro late
      exact silent (oldest ▸ mem_skipped member late)
  · intro atOnce
    have same : ∀ position ∈ positions history, wantedPair position = ownPair position.1 := by
      intro position member
      obtain ⟨uncorrected, positive, -⟩ := atOnce position member
      obtain ⟨wanted, own⟩ := wantedPair_of_uncorrected uncorrected
      rw [wanted, own]
      by_cases given : position.1.userFeedback = some .positive
      · simp [positiveOf, given]
      · rw [if_neg given, if_neg (fun said => given (positive said))]
    have dropped : old.filterMap wantedPair = [] := by
      rw [List.filterMap_eq_nil_iff]
      intro position member
      have known : position ∈ positions history := whole ▸ List.mem_append_left _ member
      obtain ⟨uncorrected, -, late⟩ := atOnce position known
      have silent := late (many_after_of_skipped (oldest ▸ member))
      rw [(wantedPair_of_uncorrected uncorrected).1, silent]
      rfl
    constructor
    · rw [export_replay, latest, ← whole, List.filterMap_append, dropped, List.nil_append,
        List.filterMap_congr (fun position member =>
          same position (whole ▸ List.mem_append_right _ member))]
    · refine ⟨{}, nothing, ?_⟩
      intro position member text corrected
      rw [(atOnce position member).1] at corrected
      cases corrected

def question : Interaction :=
  { requestId := "r1", userQuery := "q", response := "a", userFeedback := some .positive }

theorem reaches_training_question :
    ReachesTraining {} (fun _ => "") [.interaction "now" question] :=
  (reaches_training_iff {} _ _).mpr (by
    intro position member
    obtain rfl := List.mem_singleton.mp member
    decide +kernel)

/-- A later correction reaches neither the pairs nor the instructions. -/
theorem correction_lost : ¬ ReachesTraining {} (fun _ => "")
    [.interaction "now" question, .feedback "later"
      { requestId := "r1", feedbackType := .correction, correctedResponse := some "b" }] := by
  intro reaches
  obtain ⟨dataset, processed, instructions⟩ := reaches.processed
  obtain rfl : {} = dataset := Option.some.inj processed
  cases instructions _ List.mem_cons_self "b" rfl

end RagSystem.Core.Hitl
