import RagSystem.Etl.IncrementalExtraction
import RagSystem.Etl.SharedWal

/-! The typed log of the incremental extraction stands for the JSON document in the shared file:
what the extractors and the manager do to the one they do to the other. -/

namespace RagSystem.Etl.Incremental

open SharedWal

def Source.sourceName : Source → SourceName
  | .confluence => .confluence
  | .jira => .jira

def dateJson (isoformat : Rat → String) (date : Option Rat) : Json :=
  (date.map fun time => Json.str (isoformat time)).getD .null

def pagesOf (file : WalFile) : Option (Dict String Json) :=
  match file.get? "pages_hash" with
  | none => some ∅
  | some (.obj pages) => some (Dict.ofList pages)
  | some _ => none

def issuesOf (file : WalFile) : Option (List Json) :=
  match file.get? "processed_issues" with
  | none => some []
  | some (.arr issues) => some issues
  | some _ => none

structure Represents (isoformat : Rat → String) (wal : Wal) (file : WalFile) : Prop where
  lastRun : (file.get? "last_run").getD .null = dateJson isoformat wal.lastRun
  pages : ∃ pages, pagesOf file = some pages ∧
    ∀ key, pages.get? key = (wal.pagesHash.get? key).map Json.str
  issues : issuesOf file = some (wal.processedIssues.map Json.str)
  sections : ∀ source : Source, ∃ checkpoint,
    sectionOf? file (pipelineOf source.sourceName) = some checkpoint ∧
      (checkpoint.get? "last_run").getD .null = dateJson isoformat (wal.getLastRun source)

variable {isoformat : Rat → String} {wal : Wal} {file : WalFile}

theorem represents_default (isoformat : Rat → String) (source : Source) :
    Represents isoformat {} (walDefault source.sourceName) := by
  cases source with
  | confluence =>
      refine ⟨rfl, ⟨∅, rfl, fun _ => rfl⟩, rfl, fun source => ?_⟩
      cases source <;> exact ⟨∅, rfl, rfl⟩
  | jira =>
      refine ⟨rfl, ⟨∅, rfl, fun _ => rfl⟩, rfl, fun source => ?_⟩
      cases source <;> exact ⟨∅, rfl, rfl⟩

theorem get?_pair (first second key : String) (one two : Json) (file : WalFile) :
    (file.setAll (Dict.ofList [(first, one), (second, two)]).entries).get? key =
      if key = second then some two else if key = first then some one else file.get? key := by
  have pair : (Dict.ofList [(first, one), (second, two)]).get? key =
      if key = second then some two else if key = first then some one else none := by
    rw [Dict.ofList, Dict.setAll, List.foldl_cons, List.foldl_cons, List.foldl_nil, Dict.get?_set,
      Dict.get?_set]
    rfl
  rw [Dict.get?_setAll_entries, pair]
  split
  · rfl
  · split <;> rfl

theorem Represents.startRun_issues (represents : Represents isoformat wal file)
    (missing : file.get? "processed_issues" = none) :
    Represents isoformat wal (file.set "processed_issues" (.arr [])) := by
  have none : wal.processedIssues = [] := by
    have issues := represents.issues
    rw [issuesOf, missing, Option.some.injEq, eq_comm, List.map_eq_nil_iff] at issues
    exact issues
  have others : ∀ key, key ≠ "processed_issues" →
      (file.set "processed_issues" (.arr [])).get? key = file.get? key :=
    fun key differs => Dict.get?_set_of_ne differs _ _
  constructor
  case lastRun =>
    rw [others _ (by decide)]
    exact represents.lastRun
  case pages =>
    unfold pagesOf
    rw [others _ (by decide)]
    exact represents.pages
  case issues =>
    unfold issuesOf
    rw [Dict.get?_set_self, none]
    rfl
  case sections =>
    intro source
    unfold sectionOf?
    rw [others _ (by cases source <;> decide)]
    exact represents.sections source

theorem Represents.startRun (represents : Represents isoformat wal file) (source : Source) :
    Represents isoformat wal (SharedWal.startRun source.sourceName file) := by
  cases source with
  | confluence => exact represents
  | jira =>
      show Represents isoformat wal (SharedWal.startRun .jira file)
      unfold SharedWal.startRun
      split
      · exact represents.startRun_issues ‹_›
      · exact represents

theorem isStr_any (key : String) (issues : List String) :
    (issues.map Json.str).any (isStr key) = decide (key ∈ issues) := by
  induction issues with
  | nil => rfl
  | cons issue rest ih =>
      rw [List.map_cons, List.any_cons, ih]
      simp [isStr, Bool.decide_or, eq_comm]

section Handled

variable (deployment : Deployment) (now : Rat) (key : String) (item : Item)

theorem Represents.handleIssue (represents : Represents isoformat wal file)
    (present : (file.get? "processed_issues").isSome = true) :
    ((jiraExtractor deployment).skips wal key item = true ∧
        SharedWal.handleIssue (isoformat now) file key = .passed) ∨
      (jiraExtractor deployment).skips wal key item = false ∧
        ∃ bindings, SharedWal.handleIssue (isoformat now) file key = .saved bindings ∧
          Represents isoformat ((jiraExtractor deployment).records wal key item now)
            (file.setAll bindings.entries) := by
  obtain ⟨value, found⟩ := Option.isSome_iff_exists.mp present
  have issues := represents.issues
  unfold issuesOf at issues
  rw [found] at issues
  split at issues
  · cases ‹some value = none›
  · rename_i processed same
    obtain rfl := Option.some.inj same
    obtain rfl := Option.some.inj issues
    unfold SharedWal.handleIssue
    rw [found]
    dsimp only
    rw [isStr_any]
    by_cases recorded : key ∈ wal.processedIssues
    · left
      simp [jiraExtractor, recorded]
    · right
      refine ⟨by simp [jiraExtractor, recorded], _, if_neg (by simpa using recorded), ?_⟩
      constructor
      case lastRun =>
        rw [get?_pair]
        rfl
      case pages =>
        unfold pagesOf
        rw [get?_pair, if_neg (by decide), if_neg (by decide)]
        exact represents.pages
      case issues =>
        unfold issuesOf
        rw [get?_pair, if_neg (by decide), if_pos rfl]
        simp [jiraExtractor]
      case sections =>
        intro source
        unfold sectionOf?
        rw [get?_pair, if_neg (by cases source <;> decide), if_neg (by cases source <;> decide)]
        cases source with
        | confluence => exact represents.sections .confluence
        | jira => exact represents.sections .jira
  · cases issues

theorem Represents.recordPage (represents : Represents isoformat wal file)
    {pages : List (String × Json)}
    (listed : ∀ other, (Dict.ofList pages).get? other = (wal.pagesHash.get? other).map Json.str) :
    ∃ bindings, SharedWal.recordPage (isoformat now) key (pageHashOf deployment item) pages =
        .saved bindings ∧
      Represents isoformat ((confluenceExtractor deployment).records wal key item now)
        (file.setAll bindings.entries) := by
  refine ⟨_, rfl, ?_⟩
  constructor
  case lastRun =>
    rw [get?_pair]
    rfl
  case pages =>
    refine ⟨(Dict.ofList pages).set key (.str (pageHashOf deployment item)), ?_, fun other => ?_⟩
    · unfold pagesOf
      rw [get?_pair, if_neg (by decide), if_pos rfl]
      exact congrArg some (Dict.ofList_entries _)
    · simp only [confluenceExtractor, Dict.get?_set]
      split
      · rfl
      · exact listed other
  case issues =>
    unfold issuesOf
    rw [get?_pair, if_neg (by decide), if_neg (by decide)]
    exact represents.issues
  case sections =>
    intro source
    unfold sectionOf?
    rw [get?_pair, if_neg (by cases source <;> decide), if_neg (by cases source <;> decide)]
    cases source with
    | confluence => exact represents.sections .confluence
    | jira => exact represents.sections .jira

theorem Represents.handlePage (represents : Represents isoformat wal file) :
    ((confluenceExtractor deployment).skips wal key item = true ∧
        SharedWal.handlePage (isoformat now) file key (pageHashOf deployment item) = .passed) ∨
      (confluenceExtractor deployment).skips wal key item = false ∧
        ∃ bindings, SharedWal.handlePage (isoformat now) file key (pageHashOf deployment item) =
            .saved bindings ∧
          Represents isoformat ((confluenceExtractor deployment).records wal key item now)
            (file.setAll bindings.entries) := by
  obtain ⟨pages, found, listed⟩ := represents.pages
  have here := listed key
  unfold pagesOf at found
  unfold SharedWal.handlePage
  split at found
  · rename_i missing
    obtain rfl := Option.some.inj found
    have unhashed : wal.pagesHash.get? key = none := by
      simpa [eq_comm] using here
    rw [missing]
    right
    refine ⟨by simp [confluenceExtractor, unhashed], ?_⟩
    exact represents.recordPage deployment now key item listed
  · rename_i given present
    obtain rfl := Option.some.inj found
    rw [present]
    dsimp only
    rw [here]
    cases hashed : wal.pagesHash.get? key with
    | none =>
        right
        refine ⟨by simp [confluenceExtractor, hashed], ?_⟩
        exact represents.recordPage deployment now key item listed
    | some old =>
        rw [Option.map_some]
        by_cases same : old = pageHashOf deployment item
        · left
          simp [confluenceExtractor, hashed, same]
        · right
          refine ⟨by simp [confluenceExtractor, hashed, same], ?_⟩
          simp only [if_neg same]
          exact represents.recordPage deployment now key item listed
  · cases found

end Handled

theorem pipelineOf_ne {source other : Source} (differs : other ≠ source) :
    pipelineOf other.sourceName ≠ pipelineOf source.sourceName := by
  revert differs
  cases source <;> cases other <;> decide

theorem Represents.updateLastRun {formats : Wal.Formats}
    (represents : Represents formats.isoformat wal file) (source : Source) (now : Rat) :
    ∃ updates bindings,
      updatesOf formats (.lastRun (pipelineOf source.sourceName) none now) file = some updates ∧
      setCheckpoint file (pipelineOf source.sourceName) (Wal.stamp formats now updates) =
        some bindings ∧
      Represents formats.isoformat (wal.updateLastRun source now)
        (file.setAll bindings.entries) := by
  obtain ⟨checkpoint, found, -⟩ := represents.sections source
  let updates : Checkpoint := Dict.ofList [("last_run", .str (formats.isoformat now))]
  let merged := checkpoint.setAll (Wal.stamp formats now updates).entries
  have made : setCheckpoint file (pipelineOf source.sourceName) (Wal.stamp formats now updates) =
      some (Dict.ofList [(pipelineOf source.sourceName, .obj merged.entries)]) := by
    rw [setCheckpoint, found]
    rfl
  have lookup : ∀ key, (file.setAll (Dict.ofList
      [(pipelineOf source.sourceName, Json.obj merged.entries)]).entries).get? key =
        if key = pipelineOf source.sourceName then some (.obj merged.entries)
        else file.get? key := by
    intro key
    rw [Dict.get?_setAll_entries, Dict.get?_ofList_singleton]
    split <;> rfl
  have dated : merged.get? "last_run" = some (.str (formats.isoformat now)) := by
    have stamped : (Wal.stamp formats now updates).get? "last_run" =
        some (.str (formats.isoformat now)) := by
      rw [Wal.stamp, Dict.get?_set_of_ne (by decide), Dict.get?_ofList_singleton, if_pos rfl]
    rw [Dict.get?_setAll_entries, stamped, Option.some_or]
  refine ⟨updates, _, rfl, made, ?_⟩
  constructor
  case lastRun =>
    rw [lookup, if_neg (by cases source <;> decide)]
    cases source <;> exact represents.lastRun
  case pages =>
    unfold pagesOf
    rw [lookup, if_neg (by cases source <;> decide)]
    cases source <;> exact represents.pages
  case issues =>
    unfold issuesOf
    rw [lookup, if_neg (by cases source <;> decide)]
    cases source <;> exact represents.issues
  case sections =>
    intro other
    unfold sectionOf?
    rw [lookup]
    by_cases same : other = source
    · subst same
      rw [if_pos rfl]
      refine ⟨merged, congrArg some (Dict.ofList_entries merged), ?_⟩
      rw [dated]
      cases other <;> rfl
    · rw [if_neg (pipelineOf_ne same)]
      have kept : (wal.updateLastRun source now).getLastRun other = wal.getLastRun other := by
        cases source <;> cases other <;> first | exact absurd rfl same | rfl
      rw [kept]
      exact represents.sections other

end RagSystem.Etl.Incremental
