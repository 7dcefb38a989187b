import Mathlib.Data.List.Infix
import RagSystem.Data.Json
import RagSystem.Shared.CircuitBreaker

/-! `MultiProviderRouter._send_request` (`proxy/app/llm/provider/base.py`): the attempts at one
request, what each of them opens, records and closes, and when the call as a whole has one
outcome. -/

namespace RagSystem.Llm

/-- The exceptions that the loop tells apart, each with its text; `other` is any that it does not
catch. -/
inductive Raised
  | timeout (text : String)
  | client (text : String)
  | llm (text : String)
  | other
  deriving DecidableEq, Repr

def Raised.caught : Raised → Bool
  | .other => false
  | _ => true

/-- `str(e)` -/
def Raised.text : Raised → String
  | .timeout text => text
  | .client text => text
  | .llm text => text
  | .other => ""

/-- An answer of the server; reading its text or its JSON may raise. -/
structure Response where
  status : Nat
  text : Except Raised String
  body : Except Raised Json

/-- How an attempt goes on the network: `post` raises, or there is an answer. -/
inductive Reply
  | broken (raised : Raised)
  | answered (response : Response)

def Reply.hasResponse : Reply → Bool
  | .broken _ => false
  | .answered _ => true

/-- The status was 400, 401 or 403. -/
def Reply.Refused : Reply → Prop
  | .broken _ => False
  | .answered response => response.status ∈ [400, 401, 403]

inductive Note
  | success
  | failure
  | slept (delay : ℚ)
  deriving DecidableEq, Repr

/-- What happens to the session and the response of an attempt, and its note. -/
inductive SendEvent
  | opened (attempt : Nat)
  | posted (attempt : Nat)
  | answered (attempt : Nat)
  | noted (note : Note)
  | closedResponse (attempt : Nat)
  | closedSession (attempt : Nat)
  deriving DecidableEq, Repr

def SendEvent.isPost : SendEvent → Bool
  | .posted _ => true
  | _ => false

/-- How the call ends: with a `CircuitBreakerOpenError`, with the session and the response of an
attempt, with the translated answer, or with an exception. -/
inductive SendResult
  | rejected
  | pair (attempt : Nat)
  | translated (data : Json)
  | raised (exception : Raised)

/-- `phrase in text` -/
def containsText (text phrase : String) : Bool :=
  text.toList.tails.any phrase.toList.isPrefixOf

def nonRetryable (text : String) : Bool :=
  ["LLM returned 400", "LLM returned 401", "LLM returned 403"].any (containsText text)

section Sending

-- the text of a list of keys, and the translation of the adapter
variable (keysText : List String → String) (translateResponse : Json → Except Raised Json)
  (stream : Bool) (retryDelay : ℚ) (replies : Nat → Reply)

def checkChoices : Json → Except Raised Json
  | .obj entries =>
      if ((entries.lookup "choices").getD .null).truthy then .ok (.obj entries)
      else .error (.llm ("Invalid response format from LLM: " ++
        "missing 'choices' in response. Keys: " ++ keysText (entries.map Prod.fst)))
  | _ => .error .other

/-- The body of `try`; `none` is the pair that is handed to the stream reader. -/
def tryAttempt : Reply → Except Raised (Option Json)
  | .broken raised => .error raised
  | .answered response =>
      if response.status ≠ 200 then
        match response.text with
        | .error raised => .error raised
        | .ok text => .error (.llm ("LLM returned " ++ toString response.status ++ ": " ++ text))
      else if stream then .ok none
      else do
        let data ← response.body
        let translated ← translateResponse data
        let checked ← checkChoices keysText translated
        return some checked

def opening (attempt : Nat) : List SendEvent :=
  [.opened attempt, .posted attempt] ++
    (if (replies attempt).hasResponse then [.answered attempt] else [])

/-- The `finally` block. -/
def closing (attempt : Nat) : List SendEvent :=
  if stream then []
  else (if (replies attempt).hasResponse then [.closedResponse attempt] else []) ++
    [.closedSession attempt]

def attemptLog (attempt : Nat) (note : Option Note) : List SendEvent :=
  opening replies attempt ++ note.toList.map .noted ++ closing stream replies attempt

def attempted (attempt : Nat) (again : Raised → List SendEvent × SendResult) :
    List SendEvent × SendResult :=
  match tryAttempt keysText translateResponse stream (replies attempt) with
  | .ok none => (attemptLog stream replies attempt (some .success), .pair attempt)
  | .ok (some data) => (attemptLog stream replies attempt (some .success), .translated data)
  | .error raised =>
      if raised.caught then
        if nonRetryable raised.text then
          (attemptLog stream replies attempt (some .failure),
            .raised (.llm ("LLM request failed with non-retryable error: " ++ raised.text)))
        else again raised
      else (attemptLog stream replies attempt none, .raised raised)

def sendFrom : Nat → Nat → List SendEvent × SendResult
  | 0, attempt =>
      attempted keysText translateResponse stream replies attempt (fun raised =>
        (attemptLog stream replies attempt (some .failure),
          .raised (.llm ("LLM request failed after " ++ toString (attempt + 1) ++
            " attempts: " ++ raised.text))))
  | left + 1, attempt =>
      attempted keysText translateResponse stream replies attempt (fun _ =>
        let rest := sendFrom left (attempt + 1)
        (attemptLog stream replies attempt (some (.slept (retryDelay * (attempt + 1)))) ++ rest.1,
          rest.2))

/-- `_send_request`; an open breaker rejects the call. -/
def sendRequest (state : CircuitBreaker.State) (retry : Nat) : List SendEvent × SendResult :=
  if state = .opened then ([], .rejected)
  else sendFrom keysText translateResponse stream retryDelay replies retry 0

/-! ### One outcome -/

/-- The attempt fails, and with another status than 400, 401 or 403. -/
def Retries (reply : Reply) : Prop :=
  (∃ raised, tryAttempt keysText translateResponse stream reply = .error raised) ∧ ¬ reply.Refused

def Reached (first index : Nat) : Prop :=
  ∀ earlier, first ≤ earlier → earlier < index →
    Retries keysText translateResponse stream (replies earlier)

/-- From an attempt on: requests are sent until one succeeds, is refused, or is the last; one
outcome is recorded; and all is closed but what is handed on. -/
structure OneOutcomeFrom (left first : Nat) (sent : List SendEvent × SendResult) : Prop where
  posts : ∀ index, .posted index ∈ sent.1 ↔ first ≤ index ∧ index ≤ first + left ∧
    Reached keysText translateResponse stream replies first index
  atMost : sent.1.countP SendEvent.isPost ≤ left + 1
  recorded : sent.1.count (.noted .success) + sent.1.count (.noted .failure) = 1
  sessions : ∀ index, .opened index ∈ sent.1 →
    .closedSession index ∈ sent.1 ∨ sent.2 = .pair index
  responses : ∀ index, .answered index ∈ sent.1 →
    .closedResponse index ∈ sent.1 ∨ sent.2 = .pair index

def OneOutcome (retry : Nat) (sent : List SendEvent × SendResult) : Prop :=
  match sent.2 with
  | .rejected => sent.1 = []
  | _ => OneOutcomeFrom keysText translateResponse stream replies retry 0 sent

/-- Whatever an attempt that is reached raises is caught, and where another attempt is left its
text names one of the three statuses exactly if that was the status. -/
def Steady (left first : Nat) : Prop :=
  ∀ index, first ≤ index → index ≤ first + left →
    Reached keysText translateResponse stream replies first index →
    ∀ raised, tryAttempt keysText translateResponse stream (replies index) = .error raised →
      raised.caught = true ∧
        (index < first + left → (nonRetryable raised.text = true ↔ (replies index).Refused))

def FirstAnswers : Prop := ∃ response, replies 0 = .answered response ∧ response.status = 200

end Sending

/-! ### The log of one attempt -/

section Log

variable {stream : Bool} {replies : Nat → Reply} {attempt index : Nat} {note : Option Note}

theorem mem_attemptLog {event : SendEvent} : event ∈ attemptLog stream replies attempt note ↔
    event = .opened attempt ∨ event = .posted attempt ∨
      ((replies attempt).hasResponse = true ∧ event = .answered attempt) ∨
      (∃ kind, note = some kind ∧ event = .noted kind) ∨
      (stream = false ∧ (replies attempt).hasResponse = true ∧ event = .closedResponse attempt) ∨
      (stream = false ∧ event = .closedSession attempt) := by
  rw [attemptLog, opening, closing]
  cases stream <;> cases (replies attempt).hasResponse <;> cases note <;> simp

theorem posted_mem_attemptLog :
    .posted index ∈ attemptLog stream replies attempt note ↔ index = attempt := by
  simp [mem_attemptLog]

theorem opened_mem_attemptLog :
    .opened index ∈ attemptLog stream replies attempt note ↔ index = attempt := by
  simp [mem_attemptLog]

theorem eq_of_answered_mem_attemptLog
    (member : .answered index ∈ attemptLog stream replies attempt note) : index = attempt := by
  simp only [mem_attemptLog, SendEvent.answered.injEq, reduceCtorEq, false_or, and_false, or_false,
    exists_false] at member
  exact member.2

theorem countP_isPost_attemptLog :
    (attemptLog stream replies attempt note).countP SendEvent.isPost = 1 := by
  rw [attemptLog, opening, closing]
  cases stream <;> cases (replies attempt).hasResponse <;> cases note <;> rfl

theorem count_noted_attemptLog (kind : Note) :
    (attemptLog stream replies attempt note).count (.noted kind) =
      if note = some kind then 1 else 0 := by
  rw [attemptLog, opening, closing, List.count_append, List.count_append]
  have before : ([SendEvent.opened attempt, .posted attempt] ++
      if (replies attempt).hasResponse then [SendEvent.answered attempt] else []).count
        (.noted kind) = 0 := by
    rw [List.count_eq_zero]
    cases (replies attempt).hasResponse <;> simp
  have after : (if stream then [] else
      (if (replies attempt).hasResponse then [SendEvent.closedResponse attempt] else []) ++
        [SendEvent.closedSession attempt]).count (.noted kind) = 0 := by
    rw [List.count_eq_zero]
    cases stream <;> cases (replies attempt).hasResponse <;> simp
  rw [before, after]
  cases note with
  | none => rfl
  | some other =>
      by_cases same : other = kind
      · subst same
        simp
      · have differs : ¬ some other = some kind := fun equal => same (Option.some.inj equal)
        rw [if_neg differs, Option.toList_some, List.map_singleton, List.count_singleton]
        simp [same]

theorem closed_attemptLog (direct : stream = false) :
    (.opened index ∈ attemptLog stream replies attempt note →
      .closedSession index ∈ attemptLog stream replies attempt note) ∧
    (.answered index ∈ attemptLog stream replies attempt note →
      .closedResponse index ∈ attemptLog stream replies attempt note) := by
  simp [mem_attemptLog, direct]

end Log

section Loop

variable {keysText : List String → String} {translateResponse : Json → Except Raised Json}
  {stream : Bool} {retryDelay : ℚ} {replies : Nat → Reply} {left first index : Nat}

theorem reached_of_le (le : index ≤ first) :
    Reached keysText translateResponse stream replies first index :=
  fun _ after before => absurd (Nat.lt_of_lt_of_le before le) (Nat.not_lt.mpr after)

theorem reached_succ (retries : Retries keysText translateResponse stream (replies first)) :
    Reached keysText translateResponse stream replies first index ↔
      Reached keysText translateResponse stream replies (first + 1) index := by
  constructor
  · exact fun reached earlier after before => reached earlier (by omega) before
  · intro reached earlier after before
    by_cases same : earlier = first
    · exact same ▸ retries
    · exact reached earlier (by omega) before

theorem le_of_reached (stops : ¬ Retries keysText translateResponse stream (replies first))
    (reached : Reached keysText translateResponse stream replies first index) : index ≤ first := by
  by_contra beyond
  exact stops (reached first (Nat.le_refl _) (by omega))

variable (keysText translateResponse stream retryDelay replies) in
inductive Goes (left first : Nat) : List SendEvent × SendResult → Prop
  | succeeds {value : Option Json} {result : SendResult}
      (answered : tryAttempt keysText translateResponse stream (replies first) = .ok value)
      (handed : value = none → result = .pair first) (accepted : result ≠ .rejected) :
      Goes left first (attemptLog stream replies first (some .success), result)
  | escapes {raised : Raised}
      (failed : tryAttempt keysText translateResponse stream (replies first) = .error raised)
      (uncaught : raised.caught = false) :
      Goes left first (attemptLog stream replies first none, .raised raised)
  | stops {raised wrapped : Raised}
      (failed : tryAttempt keysText translateResponse stream (replies first) = .error raised)
      (caught : raised.caught = true) (last : nonRetryable raised.text = true ∨ left = 0) :
      Goes left first (attemptLog stream replies first (some .failure), .raised wrapped)
  | retries {raised : Raised} {less : Nat} {delay : ℚ}
      (failed : tryAttempt keysText translateResponse stream (replies first) = .error raised)
      (caught : raised.caught = true) (retryable : nonRetryable raised.text = false)
      (more : left = less + 1) :
      Goes left first (attemptLog stream replies first (some (.slept delay)) ++
        (sendFrom keysText translateResponse stream retryDelay replies less (first + 1)).1,
        (sendFrom keysText translateResponse stream retryDelay replies less (first + 1)).2)

variable (keysText translateResponse stream retryDelay replies) in
theorem goes_sendFrom (left first : Nat) :
    Goes keysText translateResponse stream retryDelay replies left first
      (sendFrom keysText translateResponse stream retryDelay replies left first) := by
  have started (again : Raised → List SendEvent × SendResult)
      (rest : ∀ raised, tryAttempt keysText translateResponse stream (replies first) =
          .error raised → raised.caught = true → nonRetryable raised.text = false →
        Goes keysText translateResponse stream retryDelay replies left first (again raised)) :
      Goes keysText translateResponse stream retryDelay replies left first
        (attempted keysText translateResponse stream replies first again) := by
    rw [attempted]
    cases tried : tryAttempt keysText translateResponse stream (replies first) with
    | ok value =>
        cases value with
        | none => exact Goes.succeeds tried (fun _ => rfl) (fun same => nomatch same)
        | some data =>
            exact Goes.succeeds tried (fun absent => nomatch absent) (fun same => nomatch same)
    | error raised =>
        cases caught : raised.caught with
        | false =>
            simp only [caught, Bool.false_eq_true, if_false]
            exact Goes.escapes tried caught
        | true =>
            cases refused : nonRetryable raised.text with
            | true =>
                simp only [caught, refused, if_true]
                exact Goes.stops tried caught (Or.inl refused)
            | false =>
                simp only [caught, refused, if_true, Bool.false_eq_true, if_false]
                exact rest raised tried caught refused
  cases left with
  | zero => exact started _ (fun raised tried caught _ => Goes.stops tried caught (Or.inr rfl))
  | succ left =>
      exact started _ (fun raised tried caught kept => Goes.retries tried caught kept rfl)

variable {sent : List SendEvent × SendResult}

theorem le_of_posted_mem
    (goes : Goes keysText translateResponse stream retryDelay replies left first sent)
    (posted : .posted index ∈ sent.1) : first ≤ index := by
  induction left using Nat.strongRecOn generalizing first sent with
  | ind left ih =>
      cases goes with
      | @retries _ less _ _ _ _ more =>
          rcases List.mem_append.mp posted with here | later
          · exact (posted_mem_attemptLog.mp here).ge
          · exact Nat.le_of_succ_le (ih less (by omega) (goes_sendFrom _ _ _ _ _ _ _) later)
      | succeeds _ _ _ => exact (posted_mem_attemptLog.mp posted).ge
      | escapes _ _ => exact (posted_mem_attemptLog.mp posted).ge
      | stops _ _ _ => exact (posted_mem_attemptLog.mp posted).ge

theorem countP_isPost_le
    (goes : Goes keysText translateResponse stream retryDelay replies left first sent) :
    sent.1.countP SendEvent.isPost ≤ left + 1 := by
  induction left using Nat.strongRecOn generalizing first sent with
  | ind left ih =>
      cases goes with
      | @retries _ less _ _ _ _ more =>
          have later := ih less (by omega) (goes_sendFrom keysText translateResponse stream
            retryDelay replies less (first + 1))
          rw [List.countP_append, countP_isPost_attemptLog]
          omega
      | succeeds _ _ _ => exact countP_isPost_attemptLog.trans_le (Nat.le_add_left _ _)
      | escapes _ _ => exact countP_isPost_attemptLog.trans_le (Nat.le_add_left _ _)
      | stops _ _ _ => exact countP_isPost_attemptLog.trans_le (Nat.le_add_left _ _)

theorem closed_sendFrom (direct : stream = false)
    (goes : Goes keysText translateResponse stream retryDelay replies left first sent) :
    (.opened index ∈ sent.1 → .closedSession index ∈ sent.1) ∧
      (.answered index ∈ sent.1 → .closedResponse index ∈ sent.1) := by
  induction left using Nat.strongRecOn generalizing first sent with
  | ind left ih =>
      cases goes with
      | @retries _ less _ _ _ _ more =>
          have later := ih less (by omega) (goes_sendFrom keysText translateResponse stream
            retryDelay replies less (first + 1))
          simp only [List.mem_append]
          exact ⟨Or.imp (closed_attemptLog direct).1 later.1,
            Or.imp (closed_attemptLog direct).2 later.2⟩
      | succeeds _ _ _ => exact closed_attemptLog direct
      | escapes _ _ => exact closed_attemptLog direct
      | stops _ _ _ => exact closed_attemptLog direct

variable (keysText translateResponse stream replies) in
/-- The requests that are sent and the outcomes that are recorded are as they should be. -/
def Followed (left first : Nat) (log : List SendEvent) : Prop :=
  (∀ index, .posted index ∈ log ↔ first ≤ index ∧ index ≤ first + left ∧
    Reached keysText translateResponse stream replies first index) ∧
  log.count (.noted .success) + log.count (.noted .failure) = 1

theorem oneOutcomeFrom_iff_followed (direct : stream = false)
    (goes : Goes keysText translateResponse stream retryDelay replies left first sent) :
    OneOutcomeFrom keysText translateResponse stream replies left first sent ↔
      Followed keysText translateResponse stream replies left first sent.1 := by
  constructor
  · exact fun outcome => ⟨outcome.posts, outcome.recorded⟩
  · intro followed
    exact ⟨followed.1, countP_isPost_le goes, followed.2,
      fun _ opened => Or.inl ((closed_sendFrom direct goes).1 opened),
      fun _ answered => Or.inl ((closed_sendFrom direct goes).2 answered)⟩

theorem followed_last {note : Note} (noted : note = .success ∨ note = .failure)
    (last : left = 0 ∨ ¬ Retries keysText translateResponse stream (replies first)) :
    Followed keysText translateResponse stream replies left first
      (attemptLog stream replies first (some note)) := by
  constructor
  · intro index
    rw [posted_mem_attemptLog]
    constructor
    · intro same
      subst same
      exact ⟨Nat.le_refl _, Nat.le_add_right _ _, reached_of_le (Nat.le_refl _)⟩
    · intro known
      obtain ⟨after, inside, reached⟩ := known
      rcases last with none_left | stops
      · omega
      · have before := le_of_reached stops reached
        omega
  · rw [count_noted_attemptLog, count_noted_attemptLog]
    rcases noted with rfl | rfl <;> rfl

theorem not_followed_of_quiet : ¬ Followed keysText translateResponse stream replies left first
    (attemptLog stream replies first none) := by
  intro followed
  have recorded := followed.2
  rw [count_noted_attemptLog, count_noted_attemptLog] at recorded
  cases recorded

theorem not_followed_of_last {note : Option Note}
    (retries : Retries keysText translateResponse stream (replies first)) :
    ¬ Followed keysText translateResponse stream replies (left + 1) first
      (attemptLog stream replies first note) := by
  intro followed
  have reached : Reached keysText translateResponse stream replies first (first + 1) :=
    (reached_succ retries).mpr (reached_of_le (Nat.le_refl _))
  have posted := (followed.1 (first + 1)).mpr ⟨Nat.le_succ _, by omega, reached⟩
  have same := posted_mem_attemptLog.mp posted
  omega

theorem not_followed_of_more {log : List SendEvent}
    (stops : ¬ Retries keysText translateResponse stream (replies first))
    (posted : .posted (first + 1) ∈ log) :
    ¬ Followed keysText translateResponse stream replies left first log := by
  intro followed
  have bound := le_of_reached stops ((followed.1 (first + 1)).mp posted).2.2
  omega

theorem followed_retry {delay : ℚ} {tail : List SendEvent}
    (retries : Retries keysText translateResponse stream (replies first))
    (after : ∀ index, .posted index ∈ tail → first + 1 ≤ index) :
    Followed keysText translateResponse stream replies (left + 1) first
        (attemptLog stream replies first (some (.slept delay)) ++ tail) ↔
      Followed keysText translateResponse stream replies left (first + 1) tail := by
  have counted (kind : Note) (differs : Note.slept delay ≠ kind) :
      (attemptLog stream replies first (some (.slept delay)) ++ tail).count (.noted kind) =
        tail.count (.noted kind) := by
    rw [List.count_append, count_noted_attemptLog,
      if_neg (fun same => differs (Option.some.inj same)), Nat.zero_add]
  rw [Followed, Followed, counted .success (by simp), counted .failure (by simp)]
  apply and_congr_left
  intro _
  constructor
  · intro posts index
    have known := posts index
    rw [List.mem_append, posted_mem_attemptLog, reached_succ retries] at known
    constructor
    · intro posted
      have beyond := after index posted
      have inside := known.mp (Or.inr posted)
      exact ⟨beyond, by omega, inside.2.2⟩
    · intro inside
      exact (known.mpr ⟨by omega, by omega, inside.2.2⟩).resolve_left (by omega)
  · intro posts index
    rw [List.mem_append, posted_mem_attemptLog, reached_succ retries, posts index]
    constructor
    · intro either
      rcases either with same | inside
      · exact ⟨same.ge, by omega, reached_of_le (by omega)⟩
      · exact ⟨by omega, by omega, inside.2.2⟩
    · intro inside
      by_cases same : index = first
      · exact Or.inl same
      · exact Or.inr ⟨by omega, by omega, inside.2.2⟩

theorem steady_of_not_retries
    (stops : ¬ Retries keysText translateResponse stream (replies first)) :
    Steady keysText translateResponse stream replies left first ↔
      ∀ raised, tryAttempt keysText translateResponse stream (replies first) = .error raised →
        raised.caught = true ∧
          (0 < left → (nonRetryable raised.text = true ↔ (replies first).Refused)) := by
  constructor
  · intro steady raised failed
    have known := steady first (Nat.le_refl _) (Nat.le_add_right _ _)
      (reached_of_le (Nat.le_refl _)) raised failed
    exact ⟨known.1, fun more => known.2 (by omega)⟩
  · intro known index after inside reached raised failed
    obtain rfl : index = first := Nat.le_antisymm (le_of_reached stops reached) after
    exact ⟨(known raised failed).1, fun more => (known raised failed).2 (by omega)⟩

theorem steady_succ_of_retries {raised : Raised}
    (failed : tryAttempt keysText translateResponse stream (replies first) = .error raised)
    (retries : Retries keysText translateResponse stream (replies first)) :
    Steady keysText translateResponse stream replies (left + 1) first ↔
      (raised.caught = true ∧ nonRetryable raised.text = false) ∧
        Steady keysText translateResponse stream replies left (first + 1) := by
  constructor
  · intro steady
    constructor
    · have known := steady first (Nat.le_refl _) (Nat.le_add_right _ _)
        (reached_of_le (Nat.le_refl _)) raised failed
      have named := known.2 (by omega)
      exact ⟨known.1, Bool.eq_false_iff.mpr (fun found => retries.2 (named.mp found))⟩
    · intro index after inside reached
      have known := steady index (by omega) (by omega) ((reached_succ retries).mpr reached)
      intro again wrong
      exact ⟨(known again wrong).1, fun more => (known again wrong).2 (by omega)⟩
  · intro known index after inside reached again wrong
    by_cases same : index = first
    · subst same
      obtain rfl := Except.error.inj (failed.symm.trans wrong)
      refine ⟨known.1.1, fun _ => ?_⟩
      simp [known.1.2, retries.2]
    · have later := known.2 index (by omega) (by omega) ((reached_succ retries).mp reached) again
        wrong
      exact ⟨later.1, fun more => later.2 (by omega)⟩

theorem steady_zero : Steady keysText translateResponse stream replies 0 first ↔
    ∀ raised, tryAttempt keysText translateResponse stream (replies first) = .error raised →
      raised.caught = true := by
  constructor
  · exact fun steady raised failed =>
      (steady first (Nat.le_refl _) (Nat.le_refl _) (reached_of_le (Nat.le_refl _)) raised failed).1
  · intro known index after inside _ raised failed
    obtain rfl : index = first := Nat.le_antisymm inside after
    exact ⟨known raised failed, fun more => absurd more (Nat.lt_irrefl _)⟩

theorem first_mem
    (goes : Goes keysText translateResponse stream retryDelay replies left first sent) :
    .posted first ∈ sent.1 ∧ .opened first ∈ sent.1 := by
  cases goes with
  | retries _ _ _ _ =>
      exact ⟨List.mem_append_left _ (posted_mem_attemptLog.mpr rfl),
        List.mem_append_left _ (opened_mem_attemptLog.mpr rfl)⟩
  | succeeds _ _ _ => exact ⟨posted_mem_attemptLog.mpr rfl, opened_mem_attemptLog.mpr rfl⟩
  | escapes _ _ => exact ⟨posted_mem_attemptLog.mpr rfl, opened_mem_attemptLog.mpr rfl⟩
  | stops _ _ _ => exact ⟨posted_mem_attemptLog.mpr rfl, opened_mem_attemptLog.mpr rfl⟩

theorem refused_of_failed {raised : Raised}
    (failed : tryAttempt keysText translateResponse stream (replies first) = .error raised)
    (stops : ¬ Retries keysText translateResponse stream (replies first)) :
    (replies first).Refused := by
  by_contra other_status
  exact stops ⟨⟨raised, failed⟩, other_status⟩

theorem followed_iff_steady
    (goes : Goes keysText translateResponse stream retryDelay replies left first sent) :
    Followed keysText translateResponse stream replies left first sent.1 ↔
      Steady keysText translateResponse stream replies left first := by
  induction left using Nat.strongRecOn generalizing first sent with
  | ind left ih =>
      cases goes with
      | succeeds answered _ _ =>
          have stops : ¬ Retries keysText translateResponse stream (replies first) := by
            intro retries
            obtain ⟨raised, failed⟩ := retries.1
            rw [answered] at failed
            cases failed
          apply iff_of_true (followed_last (Or.inl rfl) (Or.inr stops))
          rw [steady_of_not_retries stops]
          intro raised failed
          rw [answered] at failed
          cases failed
      | escapes failed uncaught =>
          apply iff_of_false not_followed_of_quiet
          intro steady
          have known := steady first (Nat.le_refl _) (Nat.le_add_right _ _)
            (reached_of_le (Nat.le_refl _)) _ failed
          rw [uncaught] at known
          cases known.1
      | stops failed caught last =>
          by_cases retries : Retries keysText translateResponse stream (replies first)
          · cases left with
            | zero =>
                apply iff_of_true (followed_last (Or.inr rfl) (Or.inl rfl))
                rw [steady_zero]
                intro again wrong
                obtain rfl := Except.error.inj (failed.symm.trans wrong)
                exact caught
            | succ left =>
                apply iff_of_false (not_followed_of_last retries)
                rw [steady_succ_of_retries failed retries]
                intro steady
                rcases last with named | none_left
                · rw [steady.1.2] at named
                  cases named
                · cases none_left
          · apply iff_of_true (followed_last (Or.inr rfl) (Or.inr retries))
            rw [steady_of_not_retries retries]
            intro again wrong
            obtain rfl := Except.error.inj (failed.symm.trans wrong)
            refine ⟨caught, fun more => ?_⟩
            have named := last.resolve_right (Nat.pos_iff_ne_zero.mp more)
            exact iff_of_true named (refused_of_failed failed retries)
      | @retries raised less delay failed caught retryable more =>
          subst more
          have goes := goes_sendFrom keysText translateResponse stream retryDelay replies less
            (first + 1)
          by_cases retries : Retries keysText translateResponse stream (replies first)
          · rw [followed_retry retries (fun index posted => le_of_posted_mem goes posted),
              steady_succ_of_retries failed retries, ih less (Nat.lt_succ_self _) goes]
            simp [caught, retryable]
          · have posted := List.mem_append_right
              (attemptLog stream replies first (some (.slept delay))) (first_mem goes).1
            apply iff_of_false (not_followed_of_more retries posted)
            rw [steady_of_not_retries retries]
            intro steady
            have named := ((steady raised failed).2 (Nat.succ_pos _)).mpr
              (refused_of_failed failed retries)
            rw [retryable] at named
            cases named

end Loop

section Stream

variable {keysText : List String → String} {translateResponse : Json → Except Raised Json}
  {retryDelay : ℚ} {replies : Nat → Reply} {left first index : Nat}
  {sent : List SendEvent × SendResult}

theorem tryAttempt_stream_ok_iff {reply : Reply} {value : Option Json} :
    tryAttempt keysText translateResponse true reply = .ok value ↔
      value = none ∧ ∃ response, reply = .answered response ∧ response.status = 200 := by
  cases reply with
  | broken raised => simp [tryAttempt]
  | answered response =>
      by_cases status : response.status = 200
      · simp [tryAttempt, status, eq_comm]
      · cases text : response.text with
        | error raised => simp [tryAttempt, status, text]
        | ok text => simp [tryAttempt, status, text]

theorem not_closed_stream
    (goes : Goes keysText translateResponse true retryDelay replies left first sent) :
    .closedSession index ∉ sent.1 := by
  induction left using Nat.strongRecOn generalizing first sent with
  | ind left ih =>
      cases goes with
      | @retries _ less _ _ _ _ more =>
          rw [List.mem_append, not_or]
          exact ⟨by simp [mem_attemptLog], ih less (by omega) (goes_sendFrom _ _ _ _ _ _ _)⟩
      | succeeds _ _ _ => simp [mem_attemptLog]
      | escapes _ _ => simp [mem_attemptLog]
      | stops _ _ _ => simp [mem_attemptLog]

theorem le_of_pair_stream
    (goes : Goes keysText translateResponse true retryDelay replies left first sent)
    (handed : sent.2 = .pair index) : first ≤ index := by
  induction left using Nat.strongRecOn generalizing first sent with
  | ind left ih =>
      cases goes with
      | @retries _ less _ _ _ _ more =>
          exact Nat.le_of_succ_le (ih less (by omega) (goes_sendFrom _ _ _ _ _ _ _) handed)
      | succeeds answered same _ =>
          have value := (tryAttempt_stream_ok_iff.mp answered).1
          rw [same value] at handed
          exact (SendResult.pair.inj handed).le
      | escapes _ _ => cases handed
      | stops _ _ _ => cases handed

theorem oneOutcomeFrom_stream_iff
    (goes : Goes keysText translateResponse true retryDelay replies left 0 sent) :
    OneOutcomeFrom keysText translateResponse true replies left 0 sent ↔ FirstAnswers replies := by
  constructor
  · intro outcome
    have handed := (outcome.sessions 0 (first_mem goes).2).resolve_left (not_closed_stream goes)
    cases goes with
    | succeeds answered _ _ => exact (tryAttempt_stream_ok_iff.mp answered).2
    | escapes _ _ => cases handed
    | stops _ _ _ => cases handed
    | retries _ _ _ _ =>
        have later := le_of_pair_stream (goes_sendFrom _ _ _ _ _ _ _) handed
        omega
  · intro answers
    have tried : tryAttempt keysText translateResponse true (replies 0) = .ok none :=
      tryAttempt_stream_ok_iff.mpr ⟨rfl, answers⟩
    cases goes with
    | succeeds answered same _ =>
        have handed := same (Except.ok.inj (answered.symm.trans tried))
        have stops : ¬ Retries keysText translateResponse true (replies 0) := by
          intro retries
          obtain ⟨raised, failed⟩ := retries.1
          rw [tried] at failed
          cases failed
        have followed : Followed keysText translateResponse true replies left 0
            (attemptLog true replies 0 (some .success)) :=
          followed_last (Or.inl rfl) (Or.inr stops)
        refine ⟨followed.1, ?_, followed.2, ?_, ?_⟩
        · exact countP_isPost_attemptLog.trans_le (Nat.le_add_left _ _)
        · intro index opened
          rw [opened_mem_attemptLog.mp opened]
          exact Or.inr handed
        · intro index answered
          rw [eq_of_answered_mem_attemptLog answered]
          exact Or.inr handed
    | escapes failed _ =>
        rw [tried] at failed
        cases failed
    | stops failed _ _ =>
        rw [tried] at failed
        cases failed
    | retries failed _ _ _ =>
        rw [tried] at failed
        cases failed

end Stream

section Call

theorem not_rejected {keysText : List String → String}
    {translateResponse : Json → Except Raised Json} {stream : Bool} {retryDelay : ℚ}
    {replies : Nat → Reply} {left first : Nat} {sent : List SendEvent × SendResult}
    (goes : Goes keysText translateResponse stream retryDelay replies left first sent) :
    sent.2 ≠ .rejected := by
  induction left using Nat.strongRecOn generalizing first sent with
  | ind left ih =>
      cases goes with
      | @retries _ less _ _ _ _ more =>
          have later := ih less (by omega) (goes_sendFrom keysText translateResponse stream
            retryDelay replies less (first + 1))
          exact later
      | succeeds _ _ accepted => exact accepted
      | escapes _ _ => exact fun same => nomatch same
      | stops _ _ _ => exact fun same => nomatch same

variable (keysText : List String → String) (translateResponse : Json → Except Raised Json)
  (stream : Bool) (retryDelay : ℚ) (replies : Nat → Reply)

/-- A call has one outcome exactly if it is rejected, or, as a stream, gets its answer at the first
attempt, or, without a stream, meets no failure that is not caught or not told by its text. -/
theorem oneOutcome_iff (state : CircuitBreaker.State) (retry : Nat) :
    OneOutcome keysText translateResponse stream replies retry
        (sendRequest keysText translateResponse stream retryDelay replies state retry) ↔
      state = .opened ∨ (stream = true ∧ FirstAnswers replies) ∨
        (stream = false ∧ Steady keysText translateResponse stream replies retry 0) := by
  rw [sendRequest]
  by_cases rejected : state = .opened
  · rw [if_pos rejected]
    exact iff_of_true rfl (Or.inl rejected)
  · rw [if_neg rejected]
    have goes := goes_sendFrom keysText translateResponse stream retryDelay replies retry 0
    have admitted := not_rejected goes
    have meaning : OneOutcome keysText translateResponse stream replies retry
        (sendFrom keysText translateResponse stream retryDelay replies retry 0) ↔
        OneOutcomeFrom keysText translateResponse stream replies retry 0
          (sendFrom keysText translateResponse stream retryDelay replies retry 0) := by
      rw [OneOutcome]
      cases result : (sendFrom keysText translateResponse stream retryDelay replies retry 0).2 with
      | rejected => exact absurd result admitted
      | pair _ => exact Iff.rfl
      | translated _ => exact Iff.rfl
      | raised _ => exact Iff.rfl
    rw [meaning]
    cases stream with
    | true =>
        rw [oneOutcomeFrom_stream_iff goes]
        simp [rejected]
    | false =>
        rw [oneOutcomeFrom_iff_followed rfl goes, followed_iff_steady goes]
        simp [rejected]

end Call

def busyOnce (attempt : Nat) : Reply :=
  if attempt = 0 then .answered { status := 503, text := .ok "busy", body := .error .other }
  else .answered { status := 200, text := .ok "", body := .error .other }

/-- The session of the first attempt stays open. -/
theorem busy_session_open : ¬ OneOutcome String.join .ok true busyOnce 1
    (sendRequest String.join .ok true 1 busyOnce .closed 1) := by
  intro outcome
  have known : OneOutcomeFrom String.join .ok true busyOnce 1 0
      (sendRequest String.join .ok true 1 busyOnce .closed 1) := outcome
  rcases known.sessions 0 (by decide +kernel) with closed | handed
  · exact absurd closed (by decide +kernel)
  · cases handed

end RagSystem.Llm
