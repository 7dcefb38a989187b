import RagSystem.Data.Builtins
import RagSystem.Data.Dict
import RagSystem.Transition.Run

/-! Incremental extraction: `run_extract_confluence` and `run_extract_jira` of
`etl/scheduler/run_etl.py` with the loops of `etl/extractors/confluence.py` and
`etl/extractors/jira.py`, over sources that change meanwhile. -/

namespace RagSystem.Etl.Incremental

open Transition

inductive Source
  | confluence
  | jira
  deriving DecidableEq, Repr

def sources : List Source := [.confluence, .jira]

/-- A page or an issue: how often it has been written, when last, and the space of a page. -/
structure Item where
  revision : Nat
  modified : Rat
  space : String := ""
  deriving DecidableEq, Repr

/-- What the log file keeps of the extractions: the keys of the extractors, and the `last_run` of
the manager's two sections. -/
structure Wal where
  lastRun : Option Rat := none
  pagesHash : Dict String String := ∅
  processedIssues : List String := []
  confluenceRun : Option Rat := none
  jiraRun : Option Rat := none
  deriving DecidableEq, Repr

def Wal.getLastRun (wal : Wal) : Source → Option Rat
  | .confluence => wal.confluenceRun
  | .jira => wal.jiraRun

def Wal.updateLastRun (wal : Wal) (source : Source) (now : Rat) : Wal :=
  match source with
  | .confluence => { wal with confluenceRun := some now }
  | .jira => { wal with jiraRun := some now }

structure Config where
  spaceKeys : List String := []
  confluenceSince : Option Rat := none
  jql : String := "ORDER BY updated DESC"
  jiraSince : Option Rat := none
  maxIssuesPerRun : Nat := 0
  deriving Repr

section Jql

/-- `"updated" in jql`. -/
def mentionsUpdated (jql : String) : Bool :=
  jql.toList.tails.any ("updated".toList.isPrefixOf ·)

/-- `re.search(r"updated\s*[<>=]", jql)`. -/
def comparesUpdated (jql : String) : Bool :=
  jql.toList.tails.any fun rest =>
    "updated".toList.isPrefixOf rest &&
      (((rest.drop 7).dropWhile MarkdownText.isSpace).head?.any (· ∈ ['<', '>', '=']))

def baseJql (jql : String) : String := if jql = "" then "ORDER BY updated DESC" else jql

def updatedCondition (last : String) : String := "updated >= '" ++ last ++ "'"

def conjoined (jql last : String) : String := "(" ++ jql ++ ") AND " ++ updatedCondition last

def datesJql (jql : String) : Bool := !mentionsUpdated jql || comparesUpdated jql

/-- `_build_jql`, from `since_date or last_run`. -/
def buildJql (jql : String) (last : Option String) : String :=
  match last with
  | none => baseJql jql
  | some last =>
      if datesJql (baseJql jql) then
        if mentionsUpdated (baseJql jql) ∨ stripText (baseJql jql) ≠ ""
        then conjoined (baseJql jql) last
        else updatedCondition last
      else baseJql jql

end Jql

/-- The servers, and the texts that are made by libraries. A query finds the issues that it
selects by their own content, or is rejected. -/
structure Servers where
  isoformat : Rat → String
  /-- `sha256` of a page's version number and date. -/
  pageHash : Nat → Rat → String
  selects : String → Option (String → Item → Bool)
  /-- A conjunction with a date finds what the other part selects from the date on. -/
  selects_conjoined : ∀ jql all time clause, selects jql = some all →
    selects (conjoined jql (isoformat time)) = some clause →
    ∀ key item, clause key item = (all key item && decide (time ≤ item.modified))
  /-- So does the date alone, where the other part is blank. -/
  selects_updated : ∀ jql all time clause, stripText jql = "" → selects jql = some all →
    selects (updatedCondition (isoformat time)) = some clause →
    ∀ key item, clause key item = (all key item && decide (time ≤ item.modified))
  /-- In which order the results of a search are paged. -/
  order : Source → List (String × Item) → List (String × Item)
  order_perm : ∀ source found, (order source found).Perm found

structure Deployment where
  config : Config
  servers : Servers
  selected : String → Item → Bool
  accepted : servers.selects (baseJql config.jql) = some selected

structure Extractor where
  spaces : List (Option String)
  spaces_ne : spaces ≠ []
  inSpace : Option String → String → Item → Bool
  /-- The date of the queries that configuration and section give. -/
  standing : Wal → Option Rat
  /-- The date of the queries. -/
  date : Wal → Option Rat
  date_of_standing : ∀ wal time, standing wal = some time → date wal = some time
  passes : Rat → Rat → Bool
  /-- What the query of a space finds, unless it is rejected. -/
  finds : Wal → Option String → Option (String → Item → Bool)
  finds_eq : ∀ wal space clause, finds wal space = some clause → ∀ key item,
    clause key item = (inSpace space key item && (date wal).all (passes · item.modified))
  /-- Whether a listing ends by the total of a search, or by a short page. -/
  searches : Wal → Bool
  limit : Nat
  /-- The objects of a space are all listed first, and each is then fetched again. -/
  fetches : Bool
  skips : Wal → String → Item → Bool
  records : Wal → String → Item → Rat → Wal
  maxPerRun : Nat
  order : List (String × Item) → List (String × Item)
  order_perm : ∀ found, (order found).Perm found

section Extractors

variable (deployment : Deployment)

def pageHashOf (item : Item) : String := deployment.servers.pageHash item.revision item.modified

def inSpaceKey (space : Option String) (_ : String) (item : Item) : Bool :=
  space.all (· = item.space)

def confluenceDate (wal : Wal) : Option Rat :=
  deployment.config.confluenceSince <|> wal.confluenceRun

/-- `ConfluenceExtractor`: `lastModified > since`, and the hash of the listed page. -/
def confluenceExtractor : Extractor where
  spaces := if deployment.config.spaceKeys = [] then [none]
    else deployment.config.spaceKeys.map some
  spaces_ne := by
    split
    · simp
    · simpa using ‹_›
  inSpace := inSpaceKey
  standing := confluenceDate deployment
  date := confluenceDate deployment
  date_of_standing := fun _ _ same => same
  passes := fun date modified => date < modified
  finds := fun wal space => some fun key item =>
    inSpaceKey space key item && (confluenceDate deployment wal).all (· < item.modified)
  finds_eq := by
    intro wal space clause found key item
    rw [← Option.some.inj found]
  searches := fun wal => (confluenceDate deployment wal).isSome
  limit := 50
  fetches := true
  skips := fun wal key item => wal.pagesHash.get? key = some (pageHashOf deployment item)
  records := fun wal key item now =>
    { wal with
      pagesHash := wal.pagesHash.set key (pageHashOf deployment item)
      lastRun := some now }
  maxPerRun := 0
  order := deployment.servers.order .confluence
  order_perm := deployment.servers.order_perm .confluence

def jiraSince (wal : Wal) : Option Rat := deployment.config.jiraSince <|> wal.jiraRun

/-- Without a date of its own the query takes the one that any extractor was last to save. -/
def jiraLast (wal : Wal) : Option Rat := jiraSince deployment wal <|> wal.lastRun

def jiraDated (date : Option Rat) : Option Rat :=
  if datesJql (baseJql deployment.config.jql) then date else none

def jiraFinds (wal : Wal) : Option (String → Item → Bool) :=
  deployment.servers.selects
    (buildJql deployment.config.jql ((jiraLast deployment wal).map deployment.servers.isoformat))

variable {deployment}

theorem jiraFinds_eq {wal : Wal} {clause : String → Item → Bool}
    (found : jiraFinds deployment wal = some clause) (key : String) (item : Item) :
    clause key item = (deployment.selected key item &&
      (jiraDated deployment (jiraLast deployment wal)).all (· ≤ item.modified)) := by
  unfold jiraFinds buildJql at found
  unfold jiraDated
  cases last : jiraLast deployment wal with
  | none =>
      simp only [last, Option.map_none] at found
      rw [deployment.accepted] at found
      simp [← Option.some.inj found]
  | some time =>
      simp only [last, Option.map_some] at found
      split at found
      · rename_i dated
        rw [if_pos dated, Option.all_some]
        split at found
        · exact deployment.servers.selects_conjoined _ _ _ _ deployment.accepted found key item
        · rename_i blank
          rw [not_or, not_not] at blank
          exact deployment.servers.selects_updated _ _ _ _ blank.2 deployment.accepted found key
            item
      · rename_i undated
        rw [if_neg undated, deployment.accepted] at *
        simp [← Option.some.inj found]

variable (deployment)

/-- `JiraExtractor`: the JQL with its date, and the keys that have been processed. -/
def jiraExtractor : Extractor where
  spaces := [none]
  spaces_ne := by simp
  inSpace := fun _ => deployment.selected
  standing := fun wal => jiraDated deployment (jiraSince deployment wal)
  date := fun wal => jiraDated deployment (jiraLast deployment wal)
  date_of_standing := by
    intro wal time standing
    unfold jiraDated at standing ⊢
    split at standing
    · rename_i dated
      rw [if_pos dated, jiraLast, standing]
      rfl
    · cases standing
  passes := fun date modified => date ≤ modified
  finds := fun wal _ => jiraFinds deployment wal
  finds_eq := fun _ _ _ found => jiraFinds_eq found
  searches := fun _ => true
  limit := 100
  fetches := false
  skips := fun wal key _ => key ∈ wal.processedIssues
  records := fun wal key _ now =>
    { wal with processedIssues := wal.processedIssues ++ [key], lastRun := some now }
  maxPerRun := deployment.config.maxIssuesPerRun
  order := deployment.servers.order .jira
  order_perm := deployment.servers.order_perm .jira

def extractorOf : Source → Extractor
  | .confluence => confluenceExtractor deployment
  | .jira => jiraExtractor deployment

end Extractors

/-- A run of an extractor. The last two fields only keep its history: the objects when it began,
and whether it has come to every object it was handed, without a failure. -/
structure Job where
  loaded : Wal
  copy : Wal
  spaces : List (Option String)
  start : Option Nat := some 0
  queue : List (String × Item) := []
  total : Nat := 0
  began : Dict String Item
  complete : Bool := true
  deriving DecidableEq, Repr

/-- How a turn of a run goes: whether a request fails, after its retries, or the object; and
whether shutdown is requested before it or while the object is fetched. -/
inductive Input
  | fine
  | fails
  | shutdown
  | interrupted
  deriving DecidableEq, Repr

inductive Turn
  | going (job : Job)
  | saved (job : Job) (key : String) (revision : Nat)
  | raised
  | finished
  deriving DecidableEq, Repr

namespace Extractor

variable (extractor : Extractor) (objects : Dict String Item)

def results (wal : Wal) (space : Option String) : Option (List (String × Item)) :=
  (extractor.finds wal space).map fun clause =>
    extractor.order (objects.entries.filter fun entry => clause entry.1 entry.2)

def lastPage (wal : Wal) (offset count total : Nat) : Bool :=
  if extractor.searches wal then total ≤ offset + extractor.limit else count < extractor.limit

def request (job : Job) (offset : Nat) : Turn :=
  match extractor.results objects job.loaded (job.spaces.headD none) with
  | none => .raised
  | some found =>
      let page := (found.drop offset).take extractor.limit
      .going { job with
        queue := job.queue ++ page
        start := if extractor.lastPage job.loaded offset page.length found.length then none
          else some (offset + extractor.limit) }

def cutOff (job : Job) : Job :=
  { job with
    spaces := []
    start := none
    queue := []
    complete := job.complete && job.queue.isEmpty && job.start.isNone &&
      decide (job.spaces.length ≤ 1) }

def revisionRead (key : String) (item : Item) : Nat :=
  if extractor.fetches then ((objects.get? key).getD item).revision else item.revision

def process (input : Input) (now : Rat) (job : Job) (key : String) (item : Item)
    (rest : List (String × Item)) : Turn :=
  if input = .shutdown then .raised
  else if extractor.skips job.copy key item then .going { job with queue := rest }
  else if input = .fails then .going { job with queue := rest, complete := false }
  else if input = .interrupted ∧ extractor.fetches then .going (cutOff job)
  else
    let done := { job with
      queue := rest
      copy := extractor.records job.copy key item now
      total := job.total + 1 }
    let stops : Bool := 0 < extractor.maxPerRun ∧ extractor.maxPerRun ≤ done.total
    .saved (if stops then cutOff done else done) key (extractor.revisionRead objects key item)

/-- The next space, or the end of the run and `update_last_run`. -/
def advance (input : Input) (job : Job) : Turn :=
  match job.spaces with
  | _ :: next :: later =>
      if input = .shutdown then .raised
      else .going { job with spaces := next :: later, start := some 0 }
  | _ => if input = .fails then .raised else .finished

def turn (input : Input) (now : Rat) (job : Job) : Turn :=
  match job.start, job.queue with
  | some offset, [] => if input = .fine then extractor.request objects job offset else .raised
  | some offset, (key, item) :: rest =>
      if extractor.fetches then
        if input = .fine then extractor.request objects job offset else .raised
      else extractor.process objects input now job key item rest
  | none, (key, item) :: rest => extractor.process objects input now job key item rest
  | none, [] => advance input job

/-- `run_extract_..` up to the first request. -/
def begin (wal : Wal) : Job :=
  { loaded := wal, copy := wal, spaces := extractor.spaces, began := objects }

end Extractor

/-- The objects at a source, what has been extracted of them, and the run in progress. -/
structure Side where
  objects : Dict String Item := ∅
  extracted : Dict String Nat := ∅
  job : Option Job := none
  deriving DecidableEq, Repr

structure State where
  file : Wal := {}
  side : Source → Side := fun _ => {}

/-- Objects are written at any time, also new ones; a run starts when none of its source is in
progress. -/
inductive Action
  | modify (source : Source) (key space : String) (modified : Rat)
  | start (source : Source)
  | turn (source : Source) (input : Input) (now : Rat)
  deriving DecidableEq, Repr

def modifiedItem (objects : Dict String Item) (key space : String) (modified : Rat) : Item :=
  { revision := ((objects.get? key).map Item.revision).getD 0 + 1, modified, space }

def State.put (state : State) (source : Source) (side : Side) : State :=
  { state with side := Function.update state.side source side }

variable (extractors : Source → Extractor)

def step (state : State) (action : Action) : Option State :=
  match action with
  | .modify source key space modified =>
      let side := state.side source
      some (state.put source { side with
        objects := side.objects.set key (modifiedItem side.objects key space modified) })
  | .start source =>
      let side := state.side source
      match side.job with
      | some _ => none
      | none =>
          some (state.put source { side with
            job := some ((extractors source).begin side.objects state.file) })
  | .turn source input now =>
      let side := state.side source
      match side.job with
      | none => none
      | some job =>
          match (extractors source).turn side.objects input now job with
          | .going job => some (state.put source { side with job := some job })
          | .saved job key revision =>
              some { state.put source { side with
                  extracted := side.extracted.set key revision
                  job := some job } with
                file := job.copy }
          | .raised => some (state.put source { side with job := none })
          | .finished =>
              some { state.put source { side with job := none } with
                file := state.file.updateLastRun source now }

def Extractor.wants (extractor : Extractor) (key : String) (item : Item) : Bool :=
  extractor.spaces.any (extractor.inSpace · key item)

/-- A run that completes without failure has extracted each object in the revision that it had
when the run began, or a later one. -/
def Reflected (event : Event State Action) : Prop :=
  ∀ source input now job, event.action = .turn source input now →
    (event.before.side source).job = some job →
    (extractors source).turn (event.before.side source).objects input now job = .finished →
    job.complete = true →
    ∀ key item, job.began.get? key = some item → (extractors source).wants key item = true →
      ∃ revision, (event.after.side source).extracted.get? key = some revision ∧
        item.revision ≤ revision

def NothingLost (events : List (Event State Action)) : Prop :=
  ∀ event ∈ events, Reflected extractors event

end RagSystem.Etl.Incremental
