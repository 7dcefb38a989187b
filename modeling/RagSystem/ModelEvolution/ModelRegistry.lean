import Mathlib.Data.List.MinMax
import Mathlib.Data.Rat.Defs
import RagSystem.Data.Builtins
import RagSystem.Data.Dict

/-! The model registry of `proxy/app/model_evolution/model_registry.py`: the versions of each model
and their stages. -/

namespace RagSystem.ModelRegistry

inductive Status
  | staging
  | canary
  | production
  | archived
  deriving DecidableEq, Repr

structure ModelVersion where
  name : String
  version : String
  artifactPath : String
  metrics : Dict String ℚ
  status : Status := .staging
  createdAt : String
  deriving DecidableEq, Repr

/-- The versions of one model in the order of their registration, each version string once. -/
structure Versions where
  list : List ModelVersion := []
  distinct : (list.map ModelVersion.version).Nodup := by simp
  deriving DecidableEq, Repr

abbrev Registry := Dict String Versions

inductive Error
  | valueError (text : String)
  | keyError (text : String)
  | invalidLiteral (literal : String)
  deriving DecidableEq, Repr

def Versions.find? (versions : Versions) (version : String) : Option ModelVersion :=
  versions.list.find? (fun mv => mv.version = version)

def Versions.add (versions : Versions) (mv : ModelVersion)
    (fresh : versions.find? mv.version = none) : Versions :=
  ⟨versions.list ++ [mv], by
    rw [List.map_append, List.nodup_append']
    refine ⟨versions.distinct, by simp, ?_⟩
    intro version known single
    obtain rfl : version = mv.version := by simpa using single
    obtain ⟨other, member, same⟩ := List.mem_map.mp known
    have missed := List.find?_eq_none.mp fresh other member
    exact missed (by simpa using same)⟩

def Versions.restage (versions : Versions) (stage : ModelVersion → Status) : Versions :=
  ⟨versions.list.map (fun mv => { mv with status := stage mv }), by
    simpa [Function.comp_def] using versions.distinct⟩

def Versions.setMetrics (versions : Versions) (version : String) (metrics : Dict String ℚ) :
    Versions :=
  ⟨versions.list.map (fun mv => if mv.version = version then { mv with metrics } else mv), by
    have kept : (fun mv : ModelVersion =>
        (if mv.version = version then { mv with metrics } else mv).version) = (·.version) := by
      funext mv
      split <;> rfl
    simpa [Function.comp_def, kept] using versions.distinct⟩

def Versions.remove (versions : Versions) (version : String) : Versions :=
  ⟨versions.list.filter (fun mv => mv.version ≠ version),
    versions.distinct.sublist (List.filter_sublist.map ModelVersion.version)⟩

/-- `self._models[name]`, or no versions. -/
def versionsOf (registry : Registry) (name : String) : Versions :=
  (registry.get? name).getD {}

/-- `mv.status = status` for the version stored under `version`. -/
def setStatus (version : String) (status : Status) (versions : Versions) : Versions :=
  versions.restage (fun mv => if mv.version = version then status else mv.status)

/-- `_archive_previous_production` -/
def archivePreviousProduction (newVersion : String) (versions : Versions) : Versions :=
  versions.restage (fun mv =>
    if mv.status = .production ∧ mv.version ≠ newVersion then .archived else mv.status)

/-- `_get_or_raise` -/
def getOrRaise (registry : Registry) (name version : String) : Except Error ModelVersion :=
  match registry.get? name with
  | none => .error (.keyError s!"Model '{name}' not found in registry")
  | some versions =>
      match versions.find? version with
      | none => .error (.keyError s!"Version '{version}' not found for model '{name}'")
      | some mv => .ok mv

/-- `int(mv.version)` of the versions it is called on. -/
def number (mv : ModelVersion) : ℚ := (intOf mv.version).getD 0

/-- The versions, or the `ValueError` of the first that is no number. -/
def numbered (versions : List ModelVersion) : Except Error (List ModelVersion) :=
  match versions.find? (fun mv => intOf mv.version = none) with
  | some mv => .error (.invalidLiteral mv.version)
  | none => .ok versions

/-- `get_latest_production` -/
def getLatestProduction (registry : Registry) (name : String) :
    Except Error (Option ModelVersion) :=
  match registry.get? name with
  | none => .ok none
  | some versions =>
      (numbered versions.list).map (fun list =>
        (sortDescending number list).find? (·.status = .production))

/-- `_find_previous_production` -/
def findPreviousProduction (versions : Versions) (currentVersion : String) :
    Except Error (Option ModelVersion) :=
  let candidates := versions.list.filter
    (fun mv => mv.status = .archived ∧ mv.version ≠ currentVersion)
  (numbered candidates).map (List.argmax number)

def register (name artifactPath : String) (metrics : Option (Dict String ℚ))
    (version : Option String) (now : String) (registry : Registry) :
    Except Error (ModelVersion × Registry) :=
  if name = "" then .error (.valueError "model name must not be empty")
  else if artifactPath = "" then .error (.valueError "artifact_path must not be empty")
  else
    let versions := versionsOf registry name
    let mv : ModelVersion := {
      name, artifactPath
      version := version.getD (toString (versions.list.length + 1))
      metrics := metrics.getD ∅
      createdAt := now }
    if fresh : versions.find? mv.version = none then
      .ok (mv, registry.set name (versions.add mv fresh))
    else .error (.valueError s!"Version '{mv.version}' of model '{name}' already exists")

def promote (name version : String) (registry : Registry) :
    Except Error (ModelVersion × Registry) :=
  match getOrRaise registry name version with
  | .error error => .error error
  | .ok mv =>
      let versions := versionsOf registry name
      match mv.status with
      | .staging =>
          .ok ({ mv with status := .canary },
            registry.set name (setStatus version .canary versions))
      | .canary =>
          .ok ({ mv with status := .production },
            registry.set name
              (setStatus version .production (archivePreviousProduction version versions)))
      | .production => .ok (mv, registry)
      | .archived => .ok (mv, registry)

def rollback (name : String) (registry : Registry) : Except Error (ModelVersion × Registry) :=
  match registry.get? name with
  | none => .error (.keyError s!"Model '{name}' not found in registry")
  | some versions =>
      match getLatestProduction registry name with
      | .error error => .error error
      | .ok none => .error (.valueError s!"No current production version for model '{name}'")
      | .ok (some current) =>
          match findPreviousProduction versions current.version with
          | .error error => .error error
          | .ok none => .error (.valueError
              s!"No previous production version to roll back to for model '{name}'")
          | .ok (some previous) =>
              .ok ({ previous with status := .production },
                registry.set name
                  (setStatus previous.version .production
                    (setStatus current.version .archived versions)))

def updateMetrics (name version : String) (metrics : Dict String ℚ) (registry : Registry) :
    Except Error Registry :=
  match getOrRaise registry name version with
  | .error error => .error error
  | .ok _ => .ok (registry.set name ((versionsOf registry name).setMetrics version metrics))

def delete (name version : String) (registry : Registry) : Except Error Registry :=
  match getOrRaise registry name version with
  | .error error => .error error
  | .ok _ =>
      let remaining := (versionsOf registry name).remove version
      if remaining.list.isEmpty then .ok (registry.erase name)
      else .ok (registry.set name remaining)

inductive Op
  | register (name artifactPath : String) (metrics : Option (Dict String ℚ))
      (version : Option String) (now : String)
  | promote (name version : String)
  | rollback (name : String)
  | updateMetrics (name version : String) (metrics : Dict String ℚ)
  | delete (name version : String)
  deriving DecidableEq, Repr

/-- What the caller gets, and the registry afterwards: an operation raises before its first
write. -/
def answer (registry : Registry) :
    Except Error (ModelVersion × Registry) → Except Error (Option ModelVersion) × Registry
  | .error error => (.error error, registry)
  | .ok (mv, next) => (.ok (some mv), next)

def perform (op : Op) (registry : Registry) : Except Error (Option ModelVersion) × Registry :=
  match op with
  | .register name artifactPath metrics version now =>
      answer registry (register name artifactPath metrics version now registry)
  | .promote name version => answer registry (promote name version registry)
  | .rollback name => answer registry (rollback name registry)
  | .updateMetrics name version metrics =>
      match updateMetrics name version metrics registry with
      | .error error => (.error error, registry)
      | .ok next => (.ok none, next)
  | .delete name version =>
      match delete name version registry with
      | .error error => (.error error, registry)
      | .ok next => (.ok none, next)

def inProduction (versions : Versions) : List String :=
  (versions.list.filter (·.status = .production)).map (·.version)

def archivedOf (versions : Versions) : List ModelVersion :=
  versions.list.filter (·.status = .archived)

def Countable (versions : Versions) : Prop := ∀ mv ∈ versions.list, intOf mv.version ≠ none

section Versions

variable {versions : Versions}

theorem mem_restage {stage : ModelVersion → Status} {mv : ModelVersion} :
    mv ∈ (versions.restage stage).list ↔
      ∃ old ∈ versions.list, { old with status := stage old } = mv :=
  List.mem_map

theorem eq_of_version {first second : ModelVersion} (known : first ∈ versions.list)
    (other : second ∈ versions.list) (same : first.version = second.version) : first = second :=
  List.inj_on_of_nodup_map versions.distinct known other same

theorem find?_eq_some_iff {version : String} {mv : ModelVersion} :
    versions.find? version = some mv ↔ mv ∈ versions.list ∧ mv.version = version := by
  constructor
  · intro found
    exact ⟨List.mem_of_find?_eq_some found, by simpa using List.find?_some found⟩
  · intro given
    rcases given with ⟨known, rfl⟩
    have hit : (versions.find? mv.version).isSome := by
      rw [Versions.find?, List.find?_isSome]
      exact ⟨mv, known, by simp⟩
    obtain ⟨other, found⟩ := Option.isSome_iff_exists.mp hit
    have same : other.version = mv.version := by simpa using List.find?_some found
    rw [found, eq_of_version (List.mem_of_find?_eq_some found) known same]

theorem find?_eq_none_iff {version : String} :
    versions.find? version = none ↔ ∀ mv ∈ versions.list, mv.version ≠ version := by
  simp [Versions.find?]

end Versions

theorem versionsOf_set (registry : Registry) (name model : String) (versions : Versions) :
    versionsOf (registry.set name versions) model =
      if model = name then versions else versionsOf registry model := by
  unfold versionsOf
  rw [Dict.get?_set]
  split <;> rfl

theorem versionsOf_erase (registry : Registry) (name model : String) :
    versionsOf (registry.erase name) model =
      if model = name then {} else versionsOf registry model := by
  unfold versionsOf
  rw [Dict.get?_erase]
  split <;> rfl

theorem getOrRaise_eq_ok_iff {registry : Registry} {name version : String} {mv : ModelVersion} :
    getOrRaise registry name version = .ok mv ↔
      (versionsOf registry name).find? version = some mv := by
  unfold getOrRaise versionsOf
  cases registry.get? name with
  | none => simp [Versions.find?]
  | some versions => cases found : versions.find? version <;> simp [found]

theorem getOrRaise_eq_error {registry : Registry} {name version : String}
    (missing : (versionsOf registry name).find? version = none) :
    ∃ error, getOrRaise registry name version = .error error := by
  cases outcome : getOrRaise registry name version with
  | error error => exact ⟨error, rfl⟩
  | ok mv =>
      rw [getOrRaise_eq_ok_iff, missing] at outcome
      cases outcome

/-- What `promote` makes of the versions of its model. -/
def promoted (version : String) (versions : Versions) : Versions :=
  match (versions.find? version).map ModelVersion.status with
  | some Status.staging => setStatus version .canary versions
  | some Status.canary =>
      setStatus version .production (archivePreviousProduction version versions)
  | _ => versions

theorem versionsOf_promote (registry : Registry) (name version model : String) :
    versionsOf (perform (.promote name version) registry).2 model =
      if model = name then promoted version (versionsOf registry name)
      else versionsOf registry model := by
  simp only [perform, promote, promoted]
  cases found : (versionsOf registry name).find? version with
  | none =>
      obtain ⟨error, raised⟩ := getOrRaise_eq_error found
      split <;> simp_all [answer]
  | some mv =>
      rw [getOrRaise_eq_ok_iff.mpr found]
      cases stage : mv.status <;> simp only [Option.map_some, stage, answer, versionsOf_set] <;>
        split <;> simp_all

theorem remove_of_missing {versions : Versions} {version : String}
    (missing : versions.find? version = none) : versions.remove version = versions := by
  have all : versions.list.filter (fun mv => mv.version ≠ version) = versions.list := by
    rw [List.filter_eq_self]
    intro mv member
    simpa using find?_eq_none_iff.mp missing mv member
  cases versions
  simpa [Versions.remove] using all

theorem eq_empty_of_isEmpty {versions : Versions} (empty : versions.list.isEmpty) :
    versions = {} := by
  cases versions
  simpa using empty

theorem versionsOf_delete (registry : Registry) (name version model : String) :
    versionsOf (perform (.delete name version) registry).2 model =
      if model = name then (versionsOf registry name).remove version
      else versionsOf registry model := by
  simp only [perform, delete]
  cases found : (versionsOf registry name).find? version with
  | none =>
      obtain ⟨error, raised⟩ := getOrRaise_eq_error found
      rw [raised, remove_of_missing found]
      split <;> simp_all
  | some mv =>
      rw [getOrRaise_eq_ok_iff.mpr found]
      by_cases empty : ((versionsOf registry name).remove version).list.isEmpty
      · rw [eq_empty_of_isEmpty empty]
        simp [versionsOf_erase]
      · simp [empty, versionsOf_set]

theorem versionsOf_updateMetrics (registry : Registry) (name version model : String)
    (metrics : Dict String ℚ) :
    versionsOf (perform (.updateMetrics name version metrics) registry).2 model =
        versionsOf registry model ∨
      versionsOf (perform (.updateMetrics name version metrics) registry).2 model =
        (versionsOf registry model).setMetrics version metrics := by
  simp only [perform, updateMetrics]
  cases getOrRaise registry name version with
  | error error => exact Or.inl rfl
  | ok mv =>
      simp only [versionsOf_set]
      split
      · next same => exact Or.inr (by rw [same])
      · exact Or.inl rfl

theorem versionsOf_register (registry : Registry) (name artifactPath model now : String)
    (metrics : Option (Dict String ℚ)) (version : Option String) :
    versionsOf (perform (.register name artifactPath metrics version now) registry).2 model =
        versionsOf registry model ∨
      ∃ mv fresh, mv.status = .staging ∧
        versionsOf (perform (.register name artifactPath metrics version now) registry).2 model =
          (versionsOf registry model).add mv fresh := by
  simp only [perform, register]
  by_cases unnamed : name = ""
  · simp [unnamed, answer]
  by_cases pathless : artifactPath = ""
  · simp [unnamed, pathless, answer]
  simp only [unnamed, pathless, if_false]
  split
  · next fresh =>
      simp only [answer, versionsOf_set]
      split
      · next same =>
          subst same
          exact Or.inr ⟨_, fresh, rfl, rfl⟩
      · exact Or.inl rfl
  · exact Or.inl rfl

theorem numbered_of_numbers {list : List ModelVersion}
    (numbers : ∀ mv ∈ list, intOf mv.version ≠ none) : numbered list = .ok list := by
  have none : list.find? (fun mv => intOf mv.version = none) = none := by
    simpa using numbers
  simp [numbered, none]

theorem numbered_of_not_numbers {list : List ModelVersion}
    (other : ¬ ∀ mv ∈ list, intOf mv.version ≠ none) : ∃ error, numbered list = .error error := by
  unfold numbered
  split
  · exact ⟨_, rfl⟩
  · next missed =>
      rw [List.find?_eq_none] at missed
      exact absurd (by simpa using missed) other

theorem getLatestProduction_eq {registry : Registry} {name : String}
    (countable : Countable (versionsOf registry name)) :
    getLatestProduction registry name =
      .ok ((sortDescending number (versionsOf registry name).list).find?
        (·.status = .production)) := by
  unfold getLatestProduction versionsOf at *
  cases present : registry.get? name with
  | none => simp [sortDescending]
  | some versions =>
      rw [present] at countable
      have numbers : numbered versions.list = .ok versions.list := numbered_of_numbers countable
      simp only [numbers]
      rfl

theorem findPreviousProduction_eq {versions : Versions} {current : ModelVersion}
    (countable : Countable versions) (known : current ∈ versions.list)
    (inUse : current.status = .production) :
    findPreviousProduction versions current.version =
      .ok (List.argmax number (archivedOf versions)) := by
  have candidates : versions.list.filter
      (fun mv => mv.status = .archived ∧ mv.version ≠ current.version) = archivedOf versions := by
    apply List.filter_congr
    intro mv member
    by_cases archived : mv.status = .archived
    · have differs : mv.version ≠ current.version := by
        intro same
        rw [eq_of_version member known same, inUse] at archived
        cases archived
      simp [archived, differs]
    · simp [archived]
  have numbers : ∀ mv ∈ archivedOf versions, intOf mv.version ≠ none :=
    fun mv member => countable mv (List.mem_filter.mp member).1
  simp only [findPreviousProduction, candidates, numbered_of_numbers numbers]
  rfl

theorem rollback_cases (registry : Registry) (name : String) :
    ((∃ error, perform (.rollback name) registry = (.error error, registry)) ∧
      (¬ Countable (versionsOf registry name) ∨ inProduction (versionsOf registry name) = [] ∨
        archivedOf (versionsOf registry name) = [])) ∨
    ∃ current previous, Countable (versionsOf registry name) ∧
      current ∈ (versionsOf registry name).list ∧ current.status = .production ∧
      previous ∈ List.argmax number (archivedOf (versionsOf registry name)) ∧
      perform (.rollback name) registry = (.ok (some { previous with status := .production }),
        registry.set name (setStatus previous.version .production
          (setStatus current.version .archived (versionsOf registry name)))) := by
  simp only [perform, rollback]
  cases present : registry.get? name with
  | none => exact Or.inl ⟨⟨_, rfl⟩, Or.inr (Or.inl (by simp [versionsOf, present, inProduction]))⟩
  | some versions =>
      have here : versionsOf registry name = versions := by simp [versionsOf, present]
      by_cases countable : Countable versions
      · have latest := getLatestProduction_eq (here ▸ countable)
        rw [here] at latest ⊢
        simp only [latest]
        cases found : (sortDescending number versions.list).find?
            (·.status = .production) with
        | none =>
            refine Or.inl ⟨⟨_, rfl⟩, Or.inr (Or.inl ?_)⟩
            have unused : ∀ mv ∈ versions.list, mv.status ≠ .production := by
              intro mv member
              have missed := List.find?_eq_none.mp found mv (mem_sortDescending.mpr member)
              simpa using missed
            simpa [inProduction, List.filter_eq_nil_iff] using unused
        | some current =>
            have known : current ∈ versions.list :=
              mem_sortDescending.mp (List.mem_of_find?_eq_some found)
            have inUse : current.status = .production := by simpa using List.find?_some found
            have chosen := findPreviousProduction_eq countable known inUse
            cases highest : List.argmax number (archivedOf versions) with
            | none =>
                simp only [chosen, highest]
                exact Or.inl ⟨⟨_, rfl⟩, Or.inr (Or.inr (List.argmax_eq_none.mp highest))⟩
            | some previous =>
                simp only [chosen, highest]
                exact Or.inr ⟨current, previous, countable, known, inUse, rfl, rfl⟩
      · rw [here]
        obtain ⟨error, raised⟩ := numbered_of_not_numbers countable
        have latest : getLatestProduction registry name = .error error := by
          simp [getLatestProduction, present, raised, Except.map]
        rw [latest]
        exact Or.inl ⟨⟨_, rfl⟩, Or.inl countable⟩

end RagSystem.ModelRegistry
