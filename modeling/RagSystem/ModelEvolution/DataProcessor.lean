import RagSystem.Data.Json

/-! `DataProcessor` (`proxy/app/model_evolution/data_processor.py`): training data from the lines of
a feedback log. -/

namespace RagSystem.ModelEvolution

abbrev LogRecord := Dict String Json

structure IntentExample where
  query : Json
  intent : Json

structure InstructionRecord where
  instruction : Json
  input : Json
  output : Json

structure RerankerPair where
  query : Json
  chunk : Json
  relevance : Json

structure TrainingDataset where
  slmData : List IntentExample := []
  llmData : List InstructionRecord := []
  rerankerData : List RerankerPair := []

/-- `entry.get(key, default)` -/
def LogRecord.getD (entry : LogRecord) (key : String) (default : Json) : Json :=
  (entry.get? key).getD default

/-- What a `for` loop runs over; `none` is its `TypeError`. -/
def iterated : Json → Option (List Json)
  | .arr items => some items
  | .str text => some (text.toList.map (fun char => .str (String.singleton char)))
  | .obj entries => some (entries.map (fun entry => .str entry.1))
  | _ => none

/-- `chunk.get("text", chunk) if isinstance(chunk, dict) else str(chunk)`, with `str` given. -/
def chunkText (str : Json → String) : Json → Json
  | .obj entries => ((Dict.ofList entries).get? "text").getD (.obj entries)
  | chunk => .str (str chunk)

def processEntry (str : Json → String) (entry : LogRecord) : Option TrainingDataset :=
  let query := entry.getD "query" (.str "")
  let answer := entry.getD "answer" (entry.getD "response" (.str ""))
  let correction := entry.getD "correction" (.str "")
  let intent := entry.getD "intent" (entry.getD "predicted_intent" (.str ""))
  let relevance := entry.getD "relevance" (entry.getD "score" (.float (1 / 2)))
  let sourceChunks := entry.getD "chunks" (entry.getD "sources" (.arr []))
  let slmData := if query.truthy ∧ intent.truthy then [IntentExample.mk query intent] else []
  let llmData := if query.truthy ∧ correction.truthy then
    [InstructionRecord.mk query (if answer.truthy then answer else .str "") correction] else []
  if query.truthy ∧ sourceChunks.truthy then
    (iterated sourceChunks).map fun chunks =>
      { slmData, llmData
        rerankerData := chunks.map (fun chunk => ⟨query, chunkText str chunk, relevance⟩) }
  else some { slmData, llmData }

def TrainingDataset.append (first second : TrainingDataset) : TrainingDataset :=
  ⟨first.slmData ++ second.slmData, first.llmData ++ second.llmData,
    first.rerankerData ++ second.rerankerData⟩

def processEntries (str : Json → String) : List LogRecord → Option TrainingDataset
  | [] => some {}
  | entry :: rest =>
      (processEntry str entry).bind fun own => (processEntries str rest).map own.append

/-- `export_training_dataset` on the lines of the log, if the file exists. -/
def exportTrainingDataset (str : Json → String) (lines : Option (List LogRecord)) :
    Option TrainingDataset :=
  match lines with
  | none => some {}
  | some entries => processEntries str entries

end RagSystem.ModelEvolution
