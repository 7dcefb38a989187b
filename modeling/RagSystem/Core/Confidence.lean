import RagSystem.Data.Builtins

/-! The confidence of an answer (`proxy/app/core/confidence.py`): the report with the score that is
attached to it, and the score by the raw inputs. -/

namespace RagSystem.Core.Confidence

structure ConfidenceScore where
  value : ℚ
  factors : List (String × ℚ)
  action : String
  deriving DecidableEq, Repr

structure ConfidenceReport where
  score : ℚ
  needsReview : Bool
  uncertainties : List String
  recommendation : String
  domainConfidence : ConfidenceScore
  deriving DecidableEq, Repr

structure GroundingReport where
  score : ℚ
  supportedClaims : Nat
  totalClaims : Nat
  unsupported : List String
  deriving DecidableEq, Repr

/-- What the computation reads besides its arguments: the flags of the configuration, the check of
the claims, `str.lower` and how a list of texts is shown. -/
structure Setup where
  nliGroundingEnabled : Bool
  hallucinationCheckEnabled : Bool
  computeNliGrounding : String → String → GroundingReport
  lower : String → String
  showList : List String → String

/-- `phrase in text`. -/
def occursIn (phrase text : String) : Bool :=
  text.toList.tails.any (fun rest => phrase.toList.isPrefixOf rest)

def uncertaintyPhrases : List String :=
  ["I don't know", "I'm not sure", "I cannot", "no information", "не знаю", "не уверен",
    "нет информации", "не могу", "unclear", "uncertain", "possibly", "maybe", "возможно",
    "вероятно", "неясно"]

def foundPhrases (setup : Setup) (answer : String) : List String :=
  uncertaintyPhrases.filter (fun phrase => occursIn phrase (setup.lower answer))

def groundingOf (setup : Setup) (context answer : String) : Option GroundingReport :=
  if (setup.nliGroundingEnabled ∨ setup.hallucinationCheckEnabled) ∧ stripText answer ≠ "" ∧
      stripText context ≠ "" then
    some (setup.computeNliGrounding answer context)
  else none

def clamp (score : ℚ) : ℚ := max 0 (min 1 score)

def attachedAction (score : ℚ) : String :=
  if 6 / 10 ≤ score then "USE" else if 4 / 10 ≤ score then "REWRITE" else "FALLBACK"

def computedAction (score : ℚ) : String :=
  if 6 / 10 ≤ score then "USE"
  else if 4 / 10 ≤ score then "REWRITE"
  else if 2 / 10 ≤ score then "EXPAND"
  else "FALLBACK"

def groundingText (setup : Setup) (report : GroundingReport) : String :=
  s!"NLI: {report.supportedClaims}/{report.totalClaims} claims grounded. " ++
    s!"Unsupported: {setup.showList (report.unsupported.take 3)}"

def computeConfidence (setup : Setup) (context answer : String) : ConfidenceReport :=
  let emptyContext := context = "" ∨ (stripText context).length < 20
  let shorter := context ≠ "" ∧ (context.length : ℚ) < answer.length * (1 / 2)
  let found := foundPhrases setup answer
  let shortAnswer := (stripText answer).length < 20
  let score : ℚ := 7 / 10
  let score := if emptyContext then score - 4 / 10 else score
  let score := if shorter then score - 2 / 10 else score
  let score := if found ≠ [] then score - 2 / 10 else score
  let score := if shortAnswer then score - 15 / 100 else score
  let grounding := groundingOf setup context answer
  let score := match grounding with
    | some report => 6 / 10 * score + 4 / 10 * report.score
    | none => score
  let uncertainties :=
    (if emptyContext then ["Retrieved context is empty or very short"] else []) ++
    (if shorter then ["Context is much shorter than answer — possible hallucination"] else []) ++
    (if found ≠ [] then
      ["Answer contains uncertainty phrases: " ++ ", ".intercalate found] else []) ++
    (if shortAnswer then ["Answer is very short — insufficient information"] else []) ++
    (match grounding with
      | some report => if report.unsupported ≠ [] then [groundingText setup report] else []
      | none => [])
  let score := clamp score
  let needsReview := decide (score < 1 / 2)
  { score := roundTo 2 score
    needsReview := needsReview
    uncertainties := uncertainties
    recommendation :=
      if needsReview then
        "Consider rewording query, expanding retrieved context, or flagging for human review."
      else ""
    domainConfidence :=
      { value := roundTo 2 score
        factors :=
          [("nli", (grounding.map GroundingReport.score).getD 0), ("context_heuristic", score),
            ("needs_review", if needsReview then 1 else 0)]
        action := attachedAction (roundTo 2 score) } }

def computeConfidenceScore (contextLength answerLength : Nat) (nliScore : Option ℚ)
    (uncertaintyHits : Nat) : ConfidenceScore :=
  let score : ℚ := 7 / 10
  let score := if contextLength < 20 then score - 4 / 10 else score
  let score :=
    if contextLength ≠ 0 ∧ (contextLength : ℚ) < answerLength * (1 / 2) then score - 2 / 10
    else score
  let score := if 0 < uncertaintyHits then score - 2 / 10 else score
  let score := if answerLength < 20 then score - 15 / 100 else score
  let score := match nliScore with
    | some nliScore => 6 / 10 * score + 4 / 10 * nliScore
    | none => score
  let score := clamp score
  { value := roundTo 2 score
    factors :=
      [("nli", nliScore.getD 0), ("context_heuristic", score),
        ("uncertainty_hits", (uncertaintyHits : ℚ))]
    action := computedAction score }

end RagSystem.Core.Confidence
