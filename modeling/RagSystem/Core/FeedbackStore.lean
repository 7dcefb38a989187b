import Mathlib.Data.String.Basic
import RagSystem.Data.Builtins
import RagSystem.Data.Tally

/-! `FeedbackStore` (`proxy/app/core/feedback_store.py`): the feedback table under any sequence of
inserts and updates, and when the statistics agree with the entries that are listed. -/

namespace RagSystem.Core.FeedbackStore

open Tally

/-! ### The table -/

/-- A row of the table. The columns that may be null are options. -/
structure FeedbackEntry where
  id : Option String := some ""
  feedbackId : String := ""
  userId : String := ""
  username : String := ""
  role : String := ""
  rating : String := ""
  feedbackType : String := ""
  comment : Option String := none
  correction : Option String := none
  question : Option String := none
  answer : Option String := none
  contextsJson : Option String := none
  kbId : Option String := none
  confidence : Option ℚ := none
  chunkFeedbackJson : Option String := none
  retrievalQuality : Option Int := none
  status : String := "pending"
  adminNotes : Option String := none
  createdAt : String := ""
  updatedAt : String := ""
  deriving DecidableEq, Repr

abbrev Table := List FeedbackEntry

inductive DatabaseError
  | operational
  | integrity
  deriving DecidableEq, Repr

/-- `INSERT OR REPLACE`: the row with the same id makes place for the new one. -/
def insert (entry : FeedbackEntry) (now : String) (table : Table) : Table :=
  let id := if entry.id = none ∨ entry.id = some "" then some entry.feedbackId else entry.id
  let stored := { entry with id := id, createdAt := now, updatedAt := now }
  table.filter (fun row => row.id ≠ id) ++ [stored]

/-- `column = ?` for a column of the table, or for a name that is none. A dictionary names each
column once. -/
inductive Assignment
  | id (value : Option String)
  | feedbackId (value : Option String)
  | userId (value : Option String)
  | username (value : Option String)
  | role (value : Option String)
  | rating (value : Option String)
  | feedbackType (value : Option String)
  | comment (value : Option String)
  | correction (value : Option String)
  | question (value : Option String)
  | answer (value : Option String)
  | contextsJson (value : Option String)
  | kbId (value : Option String)
  | confidence (value : Option ℚ)
  | chunkFeedbackJson (value : Option String)
  | retrievalQuality (value : Option Int)
  | status (value : Option String)
  | adminNotes (value : Option String)
  | createdAt (value : Option String)
  | updatedAt (value : Option String)
  | unknown (column : String)
  deriving DecidableEq, Repr

/-- The row with the column set; `none` where the column is `NOT NULL`, or there is none. -/
def assign (row : FeedbackEntry) : Assignment → Option FeedbackEntry
  | .id value => some { row with id := value }
  | .feedbackId value => value.map (fun text => { row with feedbackId := text })
  | .userId value => value.map (fun text => { row with userId := text })
  | .username value => value.map (fun text => { row with username := text })
  | .role value => value.map (fun text => { row with role := text })
  | .rating value => value.map (fun text => { row with rating := text })
  | .feedbackType value => value.map (fun text => { row with feedbackType := text })
  | .comment value => some { row with comment := value }
  | .correction value => some { row with correction := value }
  | .question value => some { row with question := value }
  | .answer value => some { row with answer := value }
  | .contextsJson value => some { row with contextsJson := value }
  | .kbId value => some { row with kbId := value }
  | .confidence value => some { row with confidence := value }
  | .chunkFeedbackJson value => some { row with chunkFeedbackJson := value }
  | .retrievalQuality value => some { row with retrievalQuality := value }
  | .status value => value.map (fun text => { row with status := text })
  | .adminNotes value => some { row with adminNotes := value }
  | .createdAt value => value.map (fun text => { row with createdAt := text })
  | .updatedAt value => value.map (fun text => { row with updatedAt := text })
  | .unknown _ => none

def Assignment.isUnknown : Assignment → Bool
  | unknown _ => true
  | _ => false

def Assignment.isUpdatedAt : Assignment → Bool
  | updatedAt _ => true
  | _ => false

def update (feedbackId : String) (updates : List Assignment) (now : String) (table : Table) :
    Except DatabaseError (Table × Bool) :=
  let assignments := updates.filter (fun one => !one.isUpdatedAt) ++ [.updatedAt (some now)]
  if assignments.any Assignment.isUnknown then .error .operational
  else
    match table.mapM (fun row =>
        if row.feedbackId = feedbackId then assignments.foldlM assign row else some row) with
    | none => .error .integrity
    | some next =>
        -- the ids are a primary key; null differs from null
        if (next.filterMap FeedbackEntry.id).Nodup then
          .ok (next, table.any (fun row => row.feedbackId = feedbackId))
        else .error .integrity

inductive Operation
  | insert (entry : FeedbackEntry) (now : String)
  | update (feedbackId : String) (updates : List Assignment) (now : String)

def step (table : Table) : Operation → Table
  | .insert entry now => insert entry now table
  | .update feedbackId updates now =>
      match update feedbackId updates now table with
      | .ok (next, _) => next
      | .error _ => table

def after (operations : List Operation) : Table := operations.foldl step []

/-! ### Queries -/

abbrev Condition := FeedbackEntry → Bool

def given (filter : Option String) (condition : String → Condition) : List Condition :=
  match filter with
  | none => []
  | some text => if text = "" then [] else [condition text]

/-- The `WHERE` clauses in the text of a query: none or one for the shared fragment. -/
def whereOf (conditions : List Condition) : List Condition :=
  if conditions = [] then [] else [fun row => conditions.all (fun condition => condition row)]

/-- A second `WHERE` is a syntax error. -/
def select (clauses : List Condition) (table : Table) : Except DatabaseError (List FeedbackEntry) :=
  match clauses with
  | [] => .ok table
  | [condition] => .ok (table.filter condition)
  | _ => .error .operational

/-- `created_at >= ?` and `created_at <= ?` -/
def dateConditions (dateFrom dateTo : Option String) : List Condition :=
  given dateFrom (fun date row => date ≤ row.createdAt) ++
    given dateTo (fun date row => row.createdAt ≤ date)

structure Filters where
  status : Option String := none
  kbId : Option String := none
  dateFrom : Option String := none
  dateTo : Option String := none
  maxConfidence : Option ℚ := none
  limit : Int := 50
  offset : Int := 0

def confidenceConditions (maxConfidence : Option ℚ) : List Condition :=
  match maxConfidence with
  | none => []
  | some most => [fun row =>
      match row.confidence with
      | none => false
      | some confidence => confidence ≤ most]

section Listing

variable (entriesOrder : Descending FeedbackEntry.createdAt)

/-- `list_entries`: a page of the entries, and how many there are. A negative limit is none. -/
def listEntries (filters : Filters) (table : Table) :
    Except DatabaseError (List FeedbackEntry × Nat) :=
  let clauses := whereOf (given filters.status (fun status row => row.status = status) ++
    given filters.kbId (fun kbId row => row.kbId = some kbId) ++
    dateConditions filters.dateFrom filters.dateTo ++ confidenceConditions filters.maxConfidence)
  match select clauses table with
  | .error error => .error error
  | .ok rows =>
      let later := (entriesOrder.order rows).drop filters.offset.toNat
      .ok (if filters.limit < 0 then later else later.take filters.limit.toNat, rows.length)

end Listing

/-! ### Statistics -/

structure Stats where
  total : Nat
  positive : Nat
  negative : Nat
  posRatio : ℚ
  negRatio : ℚ
  averageConfidence : Option ℚ
  averageRetrievalQuality : Option ℚ
  mostCorrectedTopics : List (String × Nat)
  feedbackByUser : List ((String × String) × Nat)
  deriving DecidableEq, Repr

inductive Raised
  | database (error : DatabaseError)
  | typeError
  deriving DecidableEq, Repr

/-- `AVG`: null for no values. -/
def avg (values : List ℚ) : Option ℚ :=
  if values = [] then none else some (values.sum / values.length)

/-- `round(average, digits) if average else None` -/
def rounded (digits : Nat) (average : Option ℚ) : Option ℚ :=
  match average with
  | none => none
  | some mean => if mean = 0 then none else some (roundTo digits mean)

def ratio (part total : Nat) : ℚ := if 0 < total then roundTo 4 (part / total) else 0

def countOf (rating : String) (rows : List (String × Nat)) : Nat :=
  ((rows.find? (fun row => row.1 = rating)).map Prod.snd).getD 0

def isCorrected (row : FeedbackEntry) : Bool :=
  match row.correction with
  | none => false
  | some text => text ≠ ""

/-- `r[0][:100]`, which null does not have. -/
def topicOf (row : Option String × Nat) : Except Raised (String × Nat) :=
  match row.1 with
  | none => .error .typeError
  | some question => .ok (clip 100 question, row.2)

def confidences (rows : List FeedbackEntry) : List ℚ := rows.filterMap FeedbackEntry.confidence

def qualities (rows : List FeedbackEntry) : List ℚ :=
  (rows.filterMap FeedbackEntry.retrievalQuality).map Int.cast

def userOf (row : FeedbackEntry) : String × String := (row.username, row.role)

abbrev TopicsOrder := Descending (Prod.snd : Option String × Nat → Nat)

abbrev UsersOrder := Descending (Prod.snd : (String × String) × Nat → Nat)

section Statistics

variable (topicsOrder : TopicsOrder) (usersOrder : UsersOrder)

def correctedTopics (rows : List FeedbackEntry) : List (Option String × Nat) :=
  (topicsOrder.order (tally FeedbackEntry.question rows)).take 10

/-- Three of the queries put a `WHERE` of their own behind the shared fragment. -/
def selectWith (fragment : List Condition) (own : Condition) (table : Table) :
    Except Raised (List FeedbackEntry) :=
  (select (fragment ++ [own]) table).mapError Raised.database

/-- `stats` -/
def stats (dateFrom dateTo : Option String) (table : Table) : Except Raised Stats := do
  let fragment := whereOf (dateConditions dateFrom dateTo)
  let all ← (select fragment table).mapError Raised.database
  let posNeg := tally FeedbackEntry.rating all
  let total := (posNeg.map Prod.snd).sum
  let pos := countOf "positive" posNeg
  let neg := countOf "negative" posNeg
  let corrected ← selectWith fragment isCorrected table
  let avgConf ← selectWith fragment (fun row => row.confidence.isSome) table
  let volumeByUser := usersOrder.order (tally userOf all)
  let avgRetrieval ← selectWith fragment (fun row => row.retrievalQuality.isSome) table
  let topics ← (correctedTopics topicsOrder corrected).mapM topicOf
  return {
    total := total
    positive := pos
    negative := neg
    posRatio := ratio pos total
    negRatio := ratio neg total
    averageConfidence := rounded 4 (avg (confidences avgConf))
    averageRetrievalQuality := rounded 2 (avg (qualities avgRetrieval))
    mostCorrectedTopics := topics
    feedbackByUser := volumeByUser }

end Statistics

/-! ### What the entries say -/

def meanOf (digits : Nat) (values : List ℚ) : Option ℚ :=
  if values = [] then none else some (roundTo digits (values.sum / values.length))

/-- The rows of a statistic that counts the entries by a key: every key with its number, the
largest numbers first. -/
def Ranked {κ : Type} [DecidableEq κ] (key : FeedbackEntry → κ) (entries : List FeedbackEntry)
    (counts : List (κ × Nat)) : Prop :=
  Tallies key entries counts ∧ counts.Pairwise (fun first second => second.2 ≤ first.2)

structure Describes (entries : List FeedbackEntry) (stats : Stats) : Prop where
  total : stats.total = entries.length
  positive : stats.positive = (entries.map FeedbackEntry.rating).count "positive"
  negative : stats.negative = (entries.map FeedbackEntry.rating).count "negative"
  posRatio : stats.posRatio = ratio stats.positive stats.total
  negRatio : stats.negRatio = ratio stats.negative stats.total
  averageConfidence : stats.averageConfidence = meanOf 4 (confidences entries)
  averageRetrievalQuality : stats.averageRetrievalQuality = meanOf 2 (qualities entries)
  topics : ∃ counts, Ranked FeedbackEntry.question (entries.filter isCorrected) counts ∧
    (counts.take 10).map (fun row => (row.1.map (clip 100), row.2)) =
      stats.mostCorrectedTopics.map (fun row => (some row.1, row.2))
  users : Ranked userOf entries stats.feedbackByUser

/-- The statistics of a range are those of the entries that are listed for it without a limit. -/
def Agrees (topicsOrder : TopicsOrder) (usersOrder : UsersOrder)
    (entriesOrder : Descending FeedbackEntry.createdAt) (dateFrom dateTo : Option String)
    (table : Table) : Prop :=
  ∃ shown listed, stats topicsOrder usersOrder dateFrom dateTo table = .ok shown ∧
    listEntries entriesOrder { dateFrom := dateFrom, dateTo := dateTo, limit := -1 } table =
      .ok listed ∧
    Describes listed.1 shown

def Unrestricted (dateFrom dateTo : Option String) : Prop :=
  dateFrom.getD "" = "" ∧ dateTo.getD "" = ""

def Shown (values : List ℚ) : Prop := values = [] ∨ values.sum ≠ 0

section Agreement

variable {topicsOrder : TopicsOrder} {usersOrder : UsersOrder}
  {entriesOrder : Descending FeedbackEntry.createdAt} {dateFrom dateTo : Option String}
  {table entries : Table}

theorem given_eq_nil_iff {filter : Option String} {condition : String → Condition} :
    given filter condition = [] ↔ filter.getD "" = "" := by
  cases filter with
  | none => simp [given]
  | some text => by_cases empty : text = "" <;> simp [given, empty]

theorem dateConditions_eq_nil_iff :
    dateConditions dateFrom dateTo = [] ↔ Unrestricted dateFrom dateTo := by
  rw [dateConditions, List.append_eq_nil_iff, given_eq_nil_iff, given_eq_nil_iff, Unrestricted]

theorem stats_restricted (restricted : ¬ Unrestricted dateFrom dateTo) :
    stats topicsOrder usersOrder dateFrom dateTo table = .error (.database .operational) := by
  have some : dateConditions dateFrom dateTo ≠ [] :=
    fun none => restricted (dateConditions_eq_nil_iff.mp none)
  rw [stats, whereOf, if_neg some]
  rfl

theorem stats_unrestricted (whole : Unrestricted dateFrom dateTo) :
    stats topicsOrder usersOrder dateFrom dateTo table = (do
      let topics ← (correctedTopics topicsOrder (table.filter isCorrected)).mapM topicOf
      return {
        total := table.length
        positive := (table.map FeedbackEntry.rating).count "positive"
        negative := (table.map FeedbackEntry.rating).count "negative"
        posRatio := ratio ((table.map FeedbackEntry.rating).count "positive") table.length
        negRatio := ratio ((table.map FeedbackEntry.rating).count "negative") table.length
        averageConfidence := rounded 4 (avg (confidences table))
        averageRetrievalQuality := rounded 2 (avg (qualities table))
        mostCorrectedTopics := topics
        feedbackByUser := usersOrder.order (tally userOf table) }) := by
  have plain : whereOf (dateConditions dateFrom dateTo) = [] := by
    rw [whereOf, if_pos (dateConditions_eq_nil_iff.mpr whole)]
  have known : confidences (table.filter (fun row => row.confidence.isSome)) =
      confidences table := by
    rw [confidences, confidences, List.filterMap_filter]
    congr 1
    funext row
    cases row.confidence <;> rfl
  have rated : qualities (table.filter (fun row => row.retrievalQuality.isSome)) =
      qualities table := by
    rw [qualities, qualities, List.filterMap_filter]
    congr 2
    funext row
    cases row.retrievalQuality <;> rfl
  rw [stats, plain]
  simp only [selectWith, select, List.nil_append, Except.mapError, bind, Except.bind, countOf,
    find?_tally, sum_tally, known, rated]

theorem listEntries_unrestricted (whole : Unrestricted dateFrom dateTo) :
    listEntries entriesOrder { dateFrom := dateFrom, dateTo := dateTo, limit := -1 } table =
      .ok (entriesOrder.order table, table.length) := by
  have plain : dateConditions dateFrom dateTo = [] := dateConditions_eq_nil_iff.mpr whole
  rw [listEntries]
  simp [given, plain, confidenceConditions, whereOf, select]

theorem mapM_topicOf_eq_ok {rows : List (Option String × Nat)} {topics : List (String × Nat)} :
    rows.mapM topicOf = .ok topics ↔
      rows.map (fun row => (row.1.map (clip 100), row.2)) =
        topics.map (fun row => (some row.1, row.2)) := by
  induction rows generalizing topics with
  | nil =>
      cases topics with
      | nil => simp [pure, Except.pure]
      | cons topic topics => simp [pure, Except.pure]
  | cons row rows ih =>
      obtain ⟨question, number⟩ := row
      cases question with
      | none =>
          cases topics with
          | nil => simp [topicOf, bind, Except.bind]
          | cons topic topics => simp [topicOf, bind, Except.bind]
      | some question =>
          rw [List.mapM_cons]
          cases rest : rows.mapM topicOf with
          | error raised =>
              cases topics with
              | nil => simp [topicOf, bind, Except.bind]
              | cons topic topics =>
                  have other := (not_congr (@ih topics)).mp (by simp [rest])
                  simp [topicOf, bind, Except.bind, other]
          | ok later =>
              cases topics with
              | nil => simp [topicOf, bind, Except.bind, pure, Except.pure]
              | cons topic topics =>
                  have same := @ih topics
                  rw [rest, Except.ok.injEq] at same
                  obtain ⟨name, count⟩ := topic
                  simp [topicOf, bind, Except.bind, pure, Except.pure, ← same]

theorem exists_mapM_topicOf_iff {rows : List (Option String × Nat)} :
    (∃ topics, rows.mapM topicOf = .ok topics) ↔ ∀ row ∈ rows, row.1 ≠ none := by
  constructor
  · intro shown row member missing
    obtain ⟨topics, shown⟩ := shown
    have same := mapM_topicOf_eq_ok.mp shown
    have inside : (row.1.map (clip 100), row.2) ∈ topics.map (fun row => (some row.1, row.2)) :=
      same ▸ List.mem_map_of_mem member
    obtain ⟨topic, -, equal⟩ := List.mem_map.mp inside
    rw [missing] at equal
    cases equal
  · intro named
    refine ⟨rows.map (fun row => (clip 100 (row.1.getD ""), row.2)),
      mapM_topicOf_eq_ok.mpr ?_⟩
    rw [List.map_map]
    apply List.map_congr_left
    intro row member
    obtain ⟨question, number⟩ := row
    cases question with
    | none => exact absurd rfl (named _ member)
    | some question => rfl

theorem rounded_avg_eq_iff {digits : Nat} {values : List ℚ} :
    rounded digits (avg values) = meanOf digits values ↔ Shown values := by
  by_cases empty : values = []
  · simp [rounded, avg, meanOf, Shown, empty]
  · have length : (values.length : ℚ) ≠ 0 := by
      rw [Nat.cast_ne_zero]
      exact fun none => empty (List.length_eq_zero_iff.mp none)
    by_cases zero : values.sum = 0
    · simp [rounded, avg, meanOf, Shown, empty, zero]
    · simp [rounded, avg, meanOf, Shown, empty, zero, length]

theorem meanOf_perm {values others : List ℚ} (same : values.Perm others) (digits : Nat) :
    meanOf digits values = meanOf digits others := by
  have empty : values = [] ↔ others = [] := by
    rw [← List.length_eq_zero_iff, ← List.length_eq_zero_iff, same.length_eq]
  simp only [meanOf, empty, same.sum_eq, same.length_eq]

theorem Describes.of_perm {shown : Stats} (same : entries.Perm table)
    (describes : Describes entries shown) : Describes table shown where
  total := describes.total.trans same.length_eq
  positive := describes.positive.trans ((same.map _).count_eq _)
  negative := describes.negative.trans ((same.map _).count_eq _)
  posRatio := describes.posRatio
  negRatio := describes.negRatio
  averageConfidence := describes.averageConfidence.trans (meanOf_perm (same.filterMap _) 4)
  averageRetrievalQuality :=
    describes.averageRetrievalQuality.trans (meanOf_perm ((same.filterMap _).map _) 2)
  topics := by
    obtain ⟨counts, ranked, shown⟩ := describes.topics
    exact ⟨counts, ⟨ranked.1.of_perm (same.filter _), ranked.2⟩, shown⟩
  users := ⟨describes.users.1.of_perm same, describes.users.2⟩

theorem ranked_order {κ : Type} [DecidableEq κ] (key : FeedbackEntry → κ)
    (order : Descending (Prod.snd : κ × Nat → Nat)) (entries : List FeedbackEntry) :
    Ranked key entries (order.order (tally key entries)) :=
  ⟨(tallies_tally entries).perm (order.perm _).symm, order.descends _⟩

/-- After any calls, the statistics of a range agree with the entries that are listed for it exactly
if no date restricts the range, every one of the most corrected topics has a question, and no
average is zero. -/
theorem agrees_iff (operations : List Operation) (dateFrom dateTo : Option String) :
    Agrees topicsOrder usersOrder entriesOrder dateFrom dateTo (after operations) ↔
      Unrestricted dateFrom dateTo ∧
      (∀ row ∈ correctedTopics topicsOrder ((after operations).filter isCorrected),
        row.1 ≠ none) ∧
      Shown (confidences (after operations)) ∧ Shown (qualities (after operations)) := by
  generalize after operations = table
  by_cases whole : Unrestricted dateFrom dateTo
  · rw [Agrees, stats_unrestricted whole, listEntries_unrestricted whole,
      ← exists_mapM_topicOf_iff]
    constructor
    · intro agrees
      obtain ⟨shown, listed, given, read, describes⟩ := agrees
      obtain rfl := Except.ok.inj read
      have described := describes.of_perm (entriesOrder.perm table)
      cases named : (correctedTopics topicsOrder (table.filter isCorrected)).mapM topicOf with
      | error raised =>
          rw [named] at given
          cases given
      | ok topics =>
          rw [named] at given
          obtain rfl := Except.ok.inj given
          exact ⟨whole, ⟨topics, rfl⟩, rounded_avg_eq_iff.mp described.averageConfidence,
            rounded_avg_eq_iff.mp described.averageRetrievalQuality⟩
    · intro fine
      obtain ⟨-, ⟨topics, shown⟩, confident, rated⟩ := fine
      rw [shown]
      refine ⟨_, _, rfl, rfl, ?_⟩
      apply Describes.of_perm (entriesOrder.perm table).symm
      constructor
      · rfl
      · rfl
      · rfl
      · rfl
      · rfl
      · exact rounded_avg_eq_iff.mpr confident
      · exact rounded_avg_eq_iff.mpr rated
      · exact ⟨_, ranked_order FeedbackEntry.question topicsOrder (table.filter isCorrected),
          mapM_topicOf_eq_ok.mp shown⟩
      · exact ranked_order userOf usersOrder table
  · constructor
    · intro agrees
      obtain ⟨shown, listed, given, -, -⟩ := agrees
      rw [stats_restricted whole] at given
      cases given
    · intro fine
      exact absurd fine.1 whole

/-- One entry, and a range that begins before it. -/
theorem range_fails :
    ¬ Agrees (Descending.stable _) (Descending.stable _) (Descending.stable _)
      (some "2026-01-01") none
      (after [.insert { feedbackId := "f1", rating := "positive" } "2026-01-02T00:00:00"]) := by
  intro agrees
  obtain ⟨shown, listed, given, -, -⟩ := agrees
  cases given

end Agreement

end RagSystem.Core.FeedbackStore
