import RagSystem.Etl.CollectDocuments

/-! The extractors of a batch run complete in some order, and the documents are collected from
their directories in that order (`etl/scheduler/run_etl.py`). -/

namespace RagSystem.Etl

/-- Which sources have a URL, and where their extractors write. -/
structure EtlConfig (Path : Type) where
  enabled : SourceName → Bool
  outputDir : SourceName → Path

/-- What `_run_extractor_safe` returns. -/
structure Extraction (Path : Type) where
  name : SourceName
  outputDir : Option Path
  error : Option String
  deriving DecidableEq, Repr

section Schedule

variable {Path : Type} (disk : Path → Option (List ObjectDir)) (config : EtlConfig Path)
  (outcomes : SourceName → Option String)

def EtlConfig.extractorsToRun : List SourceName := sourceNames.filter config.enabled

/-- An outcome is the text of the exception, or `none` without one. -/
def runExtractorSafe (name : SourceName) : Extraction Path :=
  match outcomes name with
  | none => ⟨name, some (config.outputDir name), none⟩
  | some error => ⟨name, none, some error⟩

def Extraction.failed (extraction : Extraction Path) : Bool := extraction.error.getD "" ≠ ""

def Extraction.dirs (extraction : Extraction Path) : List Path :=
  if extraction.failed then [config.outputDir extraction.name] else extraction.outputDir.toList

def extractDirs (completed : List SourceName) : List Path :=
  completed.flatMap fun name => (runExtractorSafe config outcomes name).dirs config

/-- The documents of a run whose extractors complete in the given order; `none` is a run that
exits, as all extractors failed, or that ends with an exception. -/
def collectedInOrder (completed : List SourceName) : Option (List CollectedDocument) :=
  if completed ≠ [] ∧ completed.all (fun name => (runExtractorSafe config outcomes name).failed)
  then none
  else collectAllDocuments disk (extractDirs config outcomes completed)

/-- The same multiset of documents, or none. -/
def SameDocuments : Option (List CollectedDocument) → Option (List CollectedDocument) → Prop :=
  Option.Rel List.Perm

def ScheduleIndependent : Prop :=
  ∀ first second, first.Perm config.extractorsToRun → second.Perm config.extractorsToRun →
    SameDocuments (collectedInOrder disk config outcomes first)
      (collectedInOrder disk config outcomes second)

/-- The extractors whose directories are collected: all but those that raise without a text. -/
def reporting : List SourceName :=
  config.extractorsToRun.filter (fun name => outcomes name ≠ some "")

/-- Each name that is given away reads the same in every directory that may get it. -/
def ReadAlike : Prop :=
  ∀ name ∈ sourceNames.take (reporting config outcomes).length,
    ∀ first ∈ reporting config outcomes, ∀ second ∈ reporting config outcomes,
      SameDocuments (readUnder disk name (config.outputDir first))
        (readUnder disk name (config.outputDir second))

def AllFail : Prop :=
  config.extractorsToRun ≠ [] ∧
    ∀ name ∈ config.extractorsToRun, ∃ error, error ≠ "" ∧ outcomes name = some error

/-- Whichever directory gets which name, the files of one of them cannot be read under it. -/
def Unreadable : Prop :=
  ∀ order : List SourceName, order.Perm (reporting config outcomes) →
    ∃ pair ∈ (order.map config.outputDir).zip sourceNames, readUnder disk pair.2 pair.1 = none

end Schedule

def sourceOf (sourceType : String) : SourceName :=
  if sourceType = "confluence" then .confluence
  else if sourceType = "jira" then .jira
  else .gitlab

def CollectedDocument.source (document : CollectedDocument) : SourceName :=
  sourceOf document.sourceType

section Attribution

variable {name : SourceName} {documents : List CollectedDocument}

theorem dirDocuments_source {dir : ObjectDir} (read : dirDocuments name dir = some documents) :
    ∀ document ∈ documents, document.source = name := by
  intro document member
  cases name with
  | confluence =>
      obtain rfl : dir.page.toList.map (pageDocument dir) = documents := by
        simpa [dirDocuments] using read
      obtain ⟨data, -, rfl⟩ := List.mem_map.mp member
      rfl
  | jira =>
      obtain ⟨data, -, made⟩ := (mem_of_mapM read).mp member
      obtain ⟨content, -, rfl⟩ := Option.map_eq_some_iff.mp made
      rfl
  | gitlab =>
      obtain ⟨requests, mapped, rfl⟩ := Option.map_eq_some_iff.mp read
      simp only [List.mem_append, List.mem_map] at member
      rcases member with (⟨commit, -, rfl⟩ | request) | ⟨file, -, rfl⟩
      · rfl
      · obtain ⟨data, -, made⟩ := (mem_of_mapM mapped).mp request
        obtain ⟨description, -, rfl⟩ := Option.map_eq_some_iff.mp made
        rfl
      · rfl

theorem readUnder_source {Path : Type} {disk : Path → Option (List ObjectDir)} {dir : Path}
    (read : readUnder disk name dir = some documents) :
    ∀ document ∈ documents, document.source = name := by
  intro document member
  cases found : disk dir with
  | none =>
      obtain rfl : documents = [] := by simpa [readUnder, found, eq_comm] using read
      simp at member
  | some dirs =>
      rw [readUnder, found] at read
      obtain ⟨parts, mapped, rfl⟩ := Option.map_eq_some_iff.mp read
      obtain ⟨part, inside, here⟩ := List.mem_flatten.mp member
      obtain ⟨sub, -, readSub⟩ := (mem_of_mapM mapped).mp inside
      exact dirDocuments_source readSub document here

end Attribution

theorem map_snd_zip_sublist {α β : Type} (firsts : List α) (seconds : List β) :
    ((firsts.zip seconds).map Prod.snd).Sublist seconds := by
  induction firsts generalizing seconds with
  | nil => simp
  | cons first firsts ih =>
      cases seconds with
      | nil => simp
      | cons second seconds => simpa using (ih seconds).cons_cons second

section Collected

variable {Path : Type} {disk : Path → Option (List ObjectDir)} {config : EtlConfig Path}
  {outcomes : SourceName → Option String}

theorem collectPairs_filter {pairs : List (Path × SourceName)}
    {documents : List CollectedDocument} (collected : collectPairs disk pairs = some documents)
    (apart : (pairs.map Prod.snd).Nodup) :
    (∀ document ∈ documents, document.source ∈ pairs.map Prod.snd) ∧
      ∀ pair ∈ pairs, readUnder disk pair.2 pair.1 =
        some (documents.filter (fun document => document.source = pair.2)) := by
  induction pairs generalizing documents with
  | nil =>
      obtain rfl : documents = [] := by simpa [collectPairs, eq_comm] using collected
      simp
  | cons pair rest ih =>
      obtain ⟨dir, name⟩ := pair
      obtain ⟨here, read, collected⟩ := Option.bind_eq_some_iff.mp collected
      obtain ⟨later, collectedRest, rfl⟩ := Option.map_eq_some_iff.mp collected
      have sources := readUnder_source read
      rw [List.map_cons, List.nodup_cons] at apart
      obtain ⟨fresh, apartRest⟩ := apart
      obtain ⟨named, reads⟩ := ih collectedRest apartRest
      constructor
      · intro document member
        rcases List.mem_append.mp member with inside | inside
        · simp [sources document inside]
        · exact List.mem_cons_of_mem _ (named document inside)
      · intro pair member
        rcases List.mem_cons.mp member with rfl | inside
        · have all : here.filter (fun document => document.source = name) = here := by
            apply List.filter_eq_self.mpr
            intro document member
            simp [sources document member]
          have none : later.filter (fun document => document.source = name) = [] := by
            apply List.filter_eq_nil_iff.mpr
            intro document member same
            have same : document.source = name := by simpa using same
            exact fresh (same ▸ named document member)
          simp [List.filter_append, all, none, read]
        · have other : name ≠ pair.2 := by
            intro given
            rcases given with rfl
            exact fresh (List.mem_map.mpr ⟨pair, inside, rfl⟩)
          have none : here.filter (fun document => document.source = pair.2) = [] := by
            apply List.filter_eq_nil_iff.mpr
            intro document member same
            have same : document.source = pair.2 := by simpa using same
            exact other ((sources document member).symm.trans same)
          rw [List.filter_append, none, List.nil_append]
          exact reads pair inside

theorem collectPairs_same {names : List SourceName} {firstDirs secondDirs : List Path}
    (length : firstDirs.length = secondDirs.length)
    (alike : ∀ name ∈ names.take firstDirs.length, ∀ first ∈ firstDirs, ∀ second ∈ secondDirs,
      SameDocuments (readUnder disk name first) (readUnder disk name second)) :
    SameDocuments (collectPairs disk (firstDirs.zip names))
      (collectPairs disk (secondDirs.zip names)) := by
  induction names generalizing firstDirs secondDirs with
  | nil =>
      rw [List.zip_nil_right, List.zip_nil_right]
      exact Option.Rel.some (List.Perm.refl [])
  | cons name names ih =>
      cases firstDirs with
      | nil =>
          obtain rfl : secondDirs = [] := by simpa using length.symm
          exact Option.Rel.some (List.Perm.refl [])
      | cons first firstRest =>
          cases secondDirs with
          | nil => simp at length
          | cons second secondRest =>
              have here := alike name (by simp) first (by simp) second (by simp)
              have short : firstRest.length = secondRest.length := by simpa using length
              have rest := ih short (fun other given one inFirst two inSecond =>
                alike other (by simp [given]) one (List.mem_cons_of_mem _ inFirst) two
                  (List.mem_cons_of_mem _ inSecond))
              simp only [List.zip_cons_cons, collectPairs]
              revert here rest
              generalize readUnder disk name first = firstHere
              generalize readUnder disk name second = secondHere
              generalize collectPairs disk (firstRest.zip names) = firstLater
              generalize collectPairs disk (secondRest.zip names) = secondLater
              intro here rest
              cases here with
              | none => exact Option.Rel.none
              | some same =>
                  cases rest with
                  | none => exact Option.Rel.none
                  | some later => exact Option.Rel.some (same.append later)

theorem runExtractorSafe_dirs (name : SourceName) :
    (runExtractorSafe config outcomes name).dirs config =
      if outcomes name = some "" then [] else [config.outputDir name] := by
  cases outcome : outcomes name with
  | none => simp [runExtractorSafe, Extraction.dirs, Extraction.failed, outcome]
  | some error =>
      by_cases silent : error = ""
      · simp [runExtractorSafe, Extraction.dirs, Extraction.failed, outcome, silent]
      · simp [runExtractorSafe, Extraction.dirs, Extraction.failed, outcome, silent]

theorem extractDirs_eq (completed : List SourceName) :
    extractDirs config outcomes completed =
      (completed.filter (fun name => outcomes name ≠ some "")).map config.outputDir := by
  induction completed with
  | nil => rfl
  | cons name rest ih =>
      rw [extractDirs] at ih ⊢
      rw [List.flatMap_cons, runExtractorSafe_dirs]
      by_cases silent : outcomes name = some ""
      · simpa [silent] using ih
      · simpa [silent] using ih

theorem perm_reporting {completed : List SourceName}
    (order : completed.Perm config.extractorsToRun) :
    (completed.filter (fun name => outcomes name ≠ some "")).Perm (reporting config outcomes) :=
  order.filter _

theorem perm_with_silent {order : List SourceName}
    (permuted : order.Perm (reporting config outcomes)) :
    ∃ completed : List SourceName, completed.Perm config.extractorsToRun ∧
      extractDirs config outcomes completed = order.map config.outputDir := by
  let silent := config.extractorsToRun.filter (fun name => !decide (outcomes name ≠ some ""))
  refine ⟨order ++ silent, (permuted.append_right silent).trans (List.filter_append_perm _ _), ?_⟩
  have all : order.filter (fun name => outcomes name ≠ some "") = order := by
    apply List.filter_eq_self.mpr
    intro other member
    exact (List.mem_filter.mp (permuted.mem_iff.mp member)).2
  have none : silent.filter (fun name => outcomes name ≠ some "") = [] := by
    simp [silent, List.filter_filter]
  rw [extractDirs_eq, List.filter_append, all, none, List.append_nil]

theorem exists_order {name : SourceName} (reports : name ∈ reporting config outcomes) {place : Nat}
    (early : place < (reporting config outcomes).length) :
    ∃ completed : List SourceName, completed.Perm config.extractorsToRun ∧
      (extractDirs config outcomes completed)[place]? = some (config.outputDir name) := by
  let others := (reporting config outcomes).erase name
  let order := others.take place ++ name :: others.drop place
  have permuted : order.Perm (reporting config outcomes) := by
    calc order.Perm (name :: (others.take place ++ others.drop place)) := List.perm_middle
      _ = name :: others := by rw [List.take_append_drop]
      _ |>.Perm (reporting config outcomes) := (List.perm_cons_erase reports).symm
  obtain ⟨completed, toRun, dirs⟩ := perm_with_silent permuted
  have room : (others.take place).length = place := by
    have length : others.length = (reporting config outcomes).length - 1 :=
      List.length_erase_of_mem reports
    rw [List.length_take]
    omega
  refine ⟨completed, toRun, ?_⟩
  rw [dirs, List.getElem?_map]
  simp [order, room]

theorem failed_iff {name : SourceName} :
    (runExtractorSafe config outcomes name).failed = true ↔
      ∃ error, error ≠ "" ∧ outcomes name = some error := by
  cases outcome : outcomes name with
  | none => simp [runExtractorSafe, Extraction.failed, outcome]
  | some error => simp [runExtractorSafe, Extraction.failed, outcome]

theorem all_failed_iff {completed : List SourceName}
    (order : completed.Perm config.extractorsToRun) :
    (completed ≠ [] ∧
        completed.all (fun name => (runExtractorSafe config outcomes name).failed)) ↔
      AllFail config outcomes := by
  have empty : completed = [] ↔ config.extractorsToRun = [] := by
    rw [← List.length_eq_zero_iff, order.length_eq, List.length_eq_zero_iff]
  simp only [AllFail, ne_eq, empty, List.all_eq_true, order.mem_iff, failed_iff]

theorem collectPairs_eq_none_iff {pairs : List (Path × SourceName)} :
    collectPairs disk pairs = none ↔ ∃ pair ∈ pairs, readUnder disk pair.2 pair.1 = none := by
  induction pairs with
  | nil => simp [collectPairs]
  | cons pair rest ih =>
      obtain ⟨dir, name⟩ := pair
      simp only [collectPairs, List.mem_cons, exists_eq_or_imp, ← ih]
      cases readUnder disk name dir with
      | none => simp
      | some documents => simp

theorem never_collected_iff :
    (∀ completed : List SourceName, completed.Perm config.extractorsToRun →
        collectedInOrder disk config outcomes completed = none) ↔
      AllFail config outcomes ∨ Unreadable disk config outcomes := by
  by_cases fail : AllFail config outcomes
  · refine iff_of_true ?_ (Or.inl fail)
    intro completed order
    rw [collectedInOrder, if_pos ((all_failed_iff order).mpr fail)]
  · simp only [fail, false_or]
    constructor
    · intro never order permuted
      obtain ⟨completed, toRun, dirs⟩ := perm_with_silent permuted
      have stuck := never completed toRun
      rw [collectedInOrder, if_neg (fun failed => fail ((all_failed_iff toRun).mp failed)),
        collectAllDocuments, dirs] at stuck
      exact collectPairs_eq_none_iff.mp stuck
    · intro unreadable completed order
      rw [collectedInOrder, if_neg (fun failed => fail ((all_failed_iff order).mp failed)),
        collectAllDocuments, extractDirs_eq]
      exact collectPairs_eq_none_iff.mpr (unreadable _ (perm_reporting order))

theorem reads_same (independent : ScheduleIndependent disk config outcomes)
    {some_order : List SourceName} (order : some_order.Perm config.extractorsToRun)
    (collects : collectedInOrder disk config outcomes some_order ≠ none) :
    ReadAlike disk config outcomes := by
  have going : ∀ completed : List SourceName, completed.Perm config.extractorsToRun →
      ∃ documents, collectedInOrder disk config outcomes completed = some documents ∧
        collectAllDocuments disk (extractDirs config outcomes completed) = some documents := by
    intro completed permuted
    have same := independent some_order completed order permuted
    cases found : collectedInOrder disk config outcomes completed with
    | none =>
        rw [found] at same
        cases none : collectedInOrder disk config outcomes some_order with
        | none => exact absurd none collects
        | some documents =>
            rw [none] at same
            cases same
    | some documents =>
        rw [collectedInOrder] at found
        split at found
        · cases found
        · exact ⟨documents, rfl, found⟩
  intro name given first inFirst second inSecond
  obtain ⟨place, early, here⟩ := List.mem_take_iff_getElem.mp given
  have early' : place < (reporting config outcomes).length := by omega
  obtain ⟨one, onePerm, oneDir⟩ := exists_order inFirst early'
  obtain ⟨two, twoPerm, twoDir⟩ := exists_order inSecond early'
  obtain ⟨oneDocuments, oneRun, oneCollected⟩ := going one onePerm
  obtain ⟨twoDocuments, twoRun, twoCollected⟩ := going two twoPerm
  have placed : ∀ {dirs : List Path} {dir : Path}, dirs[place]? = some dir →
      (dir, name) ∈ dirs.zip sourceNames := by
    intro dirs dir at_place
    apply List.mem_iff_getElem?.mpr
    refine ⟨place, ?_⟩
    rw [List.getElem?_zip_eq_some]
    exact ⟨at_place, by rw [← here]; exact List.getElem?_eq_getElem _⟩
  have apart : ∀ dirs : List Path, ((dirs.zip sourceNames).map Prod.snd).Nodup := by
    intro dirs
    exact (by decide : sourceNames.Nodup).sublist (map_snd_zip_sublist dirs sourceNames)
  have same : oneDocuments.Perm twoDocuments := by
    have related := independent one two onePerm twoPerm
    rw [oneRun, twoRun] at related
    cases related with
    | some same => exact same
  rw [(collectPairs_filter oneCollected (apart _)).2 _ (placed oneDir),
    (collectPairs_filter twoCollected (apart _)).2 _ (placed twoDir)]
  exact Option.Rel.some (same.filter _)

/-- The same multiset of documents, of the same sources, is collected in every order exactly when
the run cannot collect any, or every source name that is given to a directory reads the same in all
of the directories that are collected. -/
theorem schedule_independent_iff (disk : Path → Option (List ObjectDir)) (config : EtlConfig Path)
    (outcomes : SourceName → Option String) :
    ScheduleIndependent disk config outcomes ↔
      AllFail config outcomes ∨ Unreadable disk config outcomes ∨
        ReadAlike disk config outcomes := by
  rw [← or_assoc, ← never_collected_iff]
  constructor
  · intro independent
    by_cases never : ∀ completed : List SourceName, completed.Perm config.extractorsToRun →
        collectedInOrder disk config outcomes completed = none
    · exact Or.inl never
    · push Not at never
      obtain ⟨completed, order, collects⟩ := never
      exact Or.inr (reads_same independent order collects)
  · intro given first second firstOrder secondOrder
    rcases given with never | alike
    · rw [never first firstOrder, never second secondOrder]
      exact Option.Rel.none
    · by_cases fail : AllFail config outcomes
      · rw [collectedInOrder, collectedInOrder, if_pos ((all_failed_iff firstOrder).mpr fail),
          if_pos ((all_failed_iff secondOrder).mpr fail)]
        exact Option.Rel.none
      · have firstPerm : (first.filter (fun name => outcomes name ≠ some "")).Perm
            (reporting config outcomes) := perm_reporting firstOrder
        have secondPerm : (second.filter (fun name => outcomes name ≠ some "")).Perm
            (reporting config outcomes) := perm_reporting secondOrder
        rw [collectedInOrder, if_neg (fun failed => fail ((all_failed_iff firstOrder).mp failed)),
          collectedInOrder, if_neg (fun failed => fail ((all_failed_iff secondOrder).mp failed)),
          collectAllDocuments, collectAllDocuments, extractDirs_eq, extractDirs_eq]
        apply collectPairs_same
        · rw [List.length_map, List.length_map, firstPerm.length_eq, secondPerm.length_eq]
        · intro name given one inFirst two inSecond
          rw [List.length_map, firstPerm.length_eq] at given
          obtain ⟨source, member, rfl⟩ := List.mem_map.mp inFirst
          obtain ⟨other, inside, rfl⟩ := List.mem_map.mp inSecond
          exact alike name given source (firstPerm.mem_iff.mp member) other
            (secondPerm.mem_iff.mp inside)

/-- When the Jira extractor is done before the Confluence one, nothing is collected of either. -/
theorem completion_order_loses_documents :
    ∃ (disk : SourceName → Option (List ObjectDir)) (config : EtlConfig SourceName),
      ¬ ScheduleIndependent disk config (fun _ => none) ∧
        (collectedInOrder disk config (fun _ => none) [.confluence, .jira]).map
          (List.map CollectedDocument.id) = some ["confluence_7", "jira_OPS-1"] ∧
        (collectedInOrder disk config (fun _ => none) [.jira, .confluence]).map
          (List.map CollectedDocument.id) = some [] := by
  let disk : SourceName → Option (List ObjectDir) := fun name =>
    if name = .confluence then some [{ name := "7", page := some { id := "7" } }]
    else if name = .jira then some [{ name := "OPS-1", issue := some { key := "OPS-1" } }]
    else none
  let config : EtlConfig SourceName := { enabled := (· ≠ .gitlab), outputDir := id }
  have inTurn : (collectedInOrder disk config (fun _ => none) [.confluence, .jira]).map
      (List.map CollectedDocument.id) = some ["confluence_7", "jira_OPS-1"] := by decide +kernel
  have swapped : (collectedInOrder disk config (fun _ => none) [.jira, .confluence]).map
      (List.map CollectedDocument.id) = some [] := by decide +kernel
  refine ⟨disk, config, ?_, inTurn, swapped⟩
  intro independent
  have same := independent [.confluence, .jira] [.jira, .confluence] (by decide) (by decide)
  revert inTurn swapped same
  generalize collectedInOrder disk config (fun _ => none) [.confluence, .jira] = first
  generalize collectedInOrder disk config (fun _ => none) [.jira, .confluence] = second
  intro inTurn swapped same
  cases same with
  | none => simp at inTurn
  | some same =>
      have length := same.length_eq
      have two := congrArg (Option.map List.length) inTurn
      have none := congrArg (Option.map List.length) swapped
      simp at two none
      rw [none] at length
      simp [length] at two

end Collected

end RagSystem.Etl
