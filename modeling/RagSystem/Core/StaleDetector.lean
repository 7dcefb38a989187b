import RagSystem.Core.Services
import RagSystem.Data.Builtins

/-! `proxy/app/core/stale_detector.py`: how stale a stored chunk is, and the chunks that one scan of
a knowledge base reports. -/

namespace RagSystem.Core

/-- The days after which the sources with a limit of their own are due, as configured. -/
structure FreshnessDays where
  confluence : Int := 90
  jira : Int := 30
  gitlab : Int := 14
  deriving DecidableEq, Repr

/-- `SOURCE_FRESHNESS_DAYS` -/
def FreshnessDays.table (days : FreshnessDays) : Dict String Int := Dict.ofList
  [("confluence", days.confluence), ("jira", days.jira), ("gitlab", days.gitlab), ("file", 365),
    ("book", 365), ("chat", 90), ("default", 180)]

/-- `_get_freshness_days` -/
def getFreshnessDays (days : FreshnessDays) (sourceType : String) : Int :=
  (days.table.get? sourceType).getD 180

/-- What the detector reads of a payload; a missing key is `none`. -/
structure KbPayload where
  kbId : Option String := none
  sourceType : Option String := none
  sourceId : Option String := none
  title : Option String := none
  docTitle : Option String := none
  lastUpdated : Option Stamp := none
  updatedAt : Option Stamp := none
  createdAt : Option Stamp := none
  expectedRefreshDays : Option ℚ := none
  deriving DecidableEq, Repr

structure KbPoint where
  id : String
  payload : KbPayload := {}
  deriving DecidableEq, Repr

def Stamp.truthy : Stamp → Bool
  | text value => value ≠ ""
  | seconds value => value ≠ 0

/-- `first or second`, where a missing key is false. -/
def truthyOr {α : Type} (truthy : α → Bool) (first second : Option α) : Option α :=
  if first.any truthy then first else second

def KbPayload.stamp (payload : KbPayload) : Option Stamp :=
  truthyOr Stamp.truthy payload.lastUpdated (truthyOr Stamp.truthy payload.updatedAt payload.createdAt)

/-- `payload.get("expected_refresh_days") or _get_freshness_days(source_type)` -/
def KbPayload.expectedDays (days : FreshnessDays) (payload : KbPayload) (sourceType : String) : ℚ :=
  match payload.expectedRefreshDays with
  | some expected => if expected = 0 then getFreshnessDays days sourceType else expected
  | none => getFreshnessDays days sourceType

/-- The clock, the configuration, and `float` of a text; `none` is its `ValueError`. -/
structure Detection where
  now : ℚ
  days : FreshnessDays := {}
  float : String → Option ℚ

def Detection.timestamp (detection : Detection) : Stamp → Option ℚ
  | .text value => detection.float value
  | .seconds value => some value

/-- `get_staleness_score`; `none` is an error. -/
def getStalenessScore (detection : Detection) (payload : KbPayload) : Option ℚ :=
  match payload.stamp with
  | none => some 50
  | some ts =>
      let expectedDays := payload.expectedDays detection.days (payload.sourceType.getD "default")
      (detection.timestamp ts).bind fun seconds =>
        let ageDays := max 0 ((detection.now - seconds) / 86400)
        if ageDays ≤ 0 then some 0
        else if expectedDays = 0 then none
        else some (min 100 (max 0 (ageDays / expectedDays * 100)))

structure StaleDocument where
  id : String
  sourceType : String
  sourceId : String
  title : String
  lastUpdated : Option Stamp
  stalenessScore : ℚ
  expectedRefreshDays : ℚ
  deriving DecidableEq, Repr

def staleDocument (detection : Detection) (point : KbPoint) (score : ℚ) : StaleDocument :=
  let payload := point.payload
  let sourceType := payload.sourceType.getD "unknown"
  { id := point.id
    sourceType := sourceType
    sourceId := payload.sourceId.getD ""
    title := (truthyOr (fun text => text ≠ "") payload.title
      (some (payload.docTitle.getD ""))).getD ""
    lastUpdated := payload.stamp
    stalenessScore := roundTo 1 score
    expectedRefreshDays := payload.expectedDays detection.days sourceType }

def staleDocuments (detection : Detection) (threshold : ℚ) :
    List KbPoint → Option (List StaleDocument)
  | [] => some []
  | point :: rest =>
      (getStalenessScore detection point.payload).bind fun score =>
        (staleDocuments detection threshold rest).map fun later =>
          if threshold ≤ score then staleDocument detection point score :: later else later

def isStaleChunk (detection : Detection) (threshold : ℚ) (point : KbPoint) : Bool :=
  (getStalenessScore detection point.payload).any (fun score => threshold ≤ score)

def Readable (detection : Detection) (points : List KbPoint) : Prop :=
  ∀ point ∈ points, (getStalenessScore detection point.payload).isSome

instance (detection : Detection) (points : List KbPoint) : Decidable (Readable detection points) :=
  inferInstanceAs (Decidable (∀ point ∈ points, _))

theorem staleDocuments_eq (detection : Detection) (threshold : ℚ) (points : List KbPoint) :
    staleDocuments detection threshold points =
      if Readable detection points then
        some ((points.filter (isStaleChunk detection threshold)).map (fun point =>
          staleDocument detection point
            ((getStalenessScore detection point.payload).getD 0)))
      else none := by
  induction points with
  | nil => simp [staleDocuments, Readable]
  | cons point rest ih =>
      rw [staleDocuments, ih]
      cases scored : getStalenessScore detection point.payload with
      | none => simp [Readable, scored]
      | some score =>
          by_cases readable : Readable detection rest
          · have all : Readable detection (point :: rest) := by
              simpa [Readable, scored] using readable
            by_cases stale : threshold ≤ score <;>
              simp [readable, all, isStaleChunk, scored, stale]
          · have some : ¬ Readable detection (point :: rest) := by
              simpa [Readable, scored] using readable
            simp [readable, some]

/-- The points that the scroll returns: at most `limit` of those with the id of the base. -/
def scroll (kbId : String) (limit : Nat) (points : List KbPoint) : List KbPoint :=
  (points.filter (fun point => point.payload.kbId = some kbId)).take limit

/-- `detect_stale_documents`; a query that fails finds nothing, and `none` is an error. -/
def detectStaleDocuments (detection : Detection) (threshold : ℚ) (kbId : String) (reachable : Bool)
    (points : List KbPoint) : Option (List StaleDocument) :=
  if reachable then
    (staleDocuments detection threshold (scroll kbId 500 points)).map
      (sortDescending StaleDocument.stalenessScore)
  else some []

theorem detectStaleDocuments_cases (detection : Detection) (threshold : ℚ) (kbId : String)
    (points : List KbPoint) :
    (Readable detection (scroll kbId 500 points) ∧
      ∃ docs, detectStaleDocuments detection threshold kbId true points = some docs ∧
        docs.Perm (((scroll kbId 500 points).filter (isStaleChunk detection threshold)).map
          (fun point => staleDocument detection point
            ((getStalenessScore detection point.payload).getD 0)))) ∨
    (¬ Readable detection (scroll kbId 500 points) ∧
      detectStaleDocuments detection threshold kbId true points = none) := by
  rw [detectStaleDocuments, if_pos rfl, staleDocuments_eq]
  by_cases readable : Readable detection (scroll kbId 500 points)
  · rw [if_pos readable]
    exact .inl ⟨readable, _, rfl, List.perm_insertionSort _ _⟩
  · rw [if_neg readable]
    exact .inr ⟨readable, rfl⟩

end RagSystem.Core
