import RagSystem.Core.Versioning
import RagSystem.ModelEvolution.RegistryFile
import RagSystem.Transition.Run

/-! The registry in memory beside its file, when any save may fail: what a failed operation leaves
behind, and which version the next registration gets. -/

namespace RagSystem.ModelRegistry

open Transition

/-- An operation on the registry, with the time of a registration. -/
inductive Call
  | register (name artifactPath : String) (metrics : Option (Dict String ℚ))
      (version : Option String) (now : Stamp)
  | promote (name version : String)
  | rollback (name : String)
  | updateMetrics (name version : String) (metrics : Dict String ℚ)
  | delete (name version : String)
  deriving DecidableEq, Repr

def Call.op : Call → Op
  | .register name artifactPath metrics version now =>
      .register name artifactPath metrics version now.text
  | .promote name version => .promote name version
  | .rollback name => .rollback name
  | .updateMetrics name version metrics => .updateMetrics name version metrics
  | .delete name version => .delete name version

structure Store where
  memory : Registry := ∅
  file : Option Json := none
  deriving Repr

structure Request where
  call : Call
  saves : Bool := true
  deriving DecidableEq, Repr

inductive Outcome
  | returned (mv : Option ModelVersion)
  | refused (error : Error)
  | unsaved
  deriving DecidableEq, Repr

def Outcome.raises : Outcome → Bool
  | .returned _ => false
  | _ => true

def handle (store : Store) (request : Request) : Outcome × Store :=
  match perform request.call.op store.memory with
  | (.error error, memory) => (.refused error, { store with memory })
  | (.ok mv, memory) =>
      if request.saves then (.returned mv, ⟨memory, some (document memory)⟩)
      else (.unsaved, { store with memory })

def request (store : Store) (request : Request) : Option Store := some (handle store request).2

/-- A version with its metrics as a dictionary, whose order does not count. -/
structure Shown where
  name : String
  version : String
  artifactPath : String
  metrics : String → Option ℚ
  status : Status
  createdAt : String

def ModelVersion.shown (mv : ModelVersion) : Shown where
  name := mv.name
  version := mv.version
  artifactPath := mv.artifactPath
  metrics := mv.metrics.get?
  status := mv.status
  createdAt := mv.createdAt

def content (registry : Registry) (name : String) : Option (String → Option Shown) :=
  (registry.get? name).map (fun versions version =>
    (versions.find? version).map ModelVersion.shown)

def Reloads (store : Store) : Prop :=
  ∀ now, (load now store.file).map content = some (content store.memory)

/-- The version string of a registration: the given one, or one more than there are versions. -/
def versionFor (registry : Registry) (name : String) (version : Option String) : String :=
  version.getD (toString ((versionsOf registry name).list.length + 1))

/-- The call is carried out and leaves another registry than before. -/
def Changes (registry : Registry) : Call → Prop
  | .register name artifactPath _ version _ => name ≠ "" ∧ artifactPath ≠ "" ∧
      (versionsOf registry name).find? (versionFor registry name version) = none
  | .promote name version => ∃ mv, (versionsOf registry name).find? version = some mv ∧
      (mv.status = .staging ∨ mv.status = .canary)
  | .rollback name => Countable (versionsOf registry name) ∧
      inProduction (versionsOf registry name) ≠ [] ∧ archivedOf (versionsOf registry name) ≠ []
  | .updateMetrics name version metrics => ∃ mv,
      (versionsOf registry name).find? version = some mv ∧ mv.metrics.get? ≠ metrics.get?
  | .delete name version => ∃ mv, (versionsOf registry name).find? version = some mv

section Contents

variable {registry next : Registry}

theorem seen_of_content (same : content next = content registry) (name version : String) :
    ((versionsOf next name).find? version).map ModelVersion.shown =
      ((versionsOf registry name).find? version).map ModelVersion.shown := by
  have here := congrFun same name
  unfold content at here
  unfold versionsOf
  cases before : registry.get? name with
  | none =>
      rw [before, Option.map_none, Option.map_eq_none_iff] at here
      rw [here]
  | some versions =>
      rw [before, Option.map_some, Option.map_eq_some_iff] at here
      obtain ⟨others, after, agree⟩ := here
      rw [after]
      exact congrFun agree version

theorem find?_restage (versions : Versions) (stage : ModelVersion → Status) (version : String) :
    (versions.restage stage).find? version =
      (versions.find? version).map (fun mv => { mv with status := stage mv }) := by
  simp only [Versions.find?, Versions.restage, List.find?_map]
  rfl

theorem find?_setMetrics (versions : Versions) (version other : String) (metrics : Dict String ℚ) :
    (versions.setMetrics version metrics).find? other =
      (versions.find? other).map
        (fun mv => if mv.version = version then { mv with metrics } else mv) := by
  simp only [Versions.find?, Versions.setMetrics, List.find?_map]
  have kept : ((fun mv : ModelVersion => decide (mv.version = other)) ∘ fun mv : ModelVersion =>
      if mv.version = version then { mv with metrics } else mv) =
      fun mv => decide (mv.version = other) := by
    funext mv
    by_cases same : mv.version = version
    · simp [same]
    · simp [same]
  rw [kept]

theorem find?_remove (versions : Versions) (version : String) :
    (versions.remove version).find? version = none := by
  rw [find?_eq_none_iff]
  intro mv member
  simpa using (List.mem_filter.mp member).2

theorem find?_add (versions : Versions) {mv : ModelVersion}
    (fresh : versions.find? mv.version = none) :
    (versions.add mv fresh).find? mv.version = some mv :=
  find?_eq_some_iff.mpr ⟨List.mem_append_right _ (List.mem_singleton_self mv), rfl⟩

end Contents

section Changed

variable (registry : Registry)

theorem content_promote_iff (name version : String) :
    content (perform (.promote name version) registry).2 = content registry ↔
      ¬Changes registry (.promote name version) := by
  have versions := versionsOf_promote registry name version name
  rw [if_pos rfl] at versions
  cases found : (versionsOf registry name).find? version with
  | none =>
      obtain ⟨error, raised⟩ := getOrRaise_eq_error found
      simp [perform, promote, raised, answer, Changes, found]
  | some mv =>
      have ok := getOrRaise_eq_ok_iff.mpr found
      have own : mv.version = version := (find?_eq_some_iff.mp found).2
      cases stage : mv.status with
      | staging =>
          have changed : Changes registry (.promote name version) := ⟨mv, found, .inl stage⟩
          refine iff_of_false ?_ (not_not_intro changed)
          intro same
          have seen := seen_of_content same name version
          rw [versions] at seen
          simp [promoted, found, stage, setStatus, find?_restage, own, ModelVersion.shown] at seen
      | canary =>
          have changed : Changes registry (.promote name version) := ⟨mv, found, .inr stage⟩
          refine iff_of_false ?_ (not_not_intro changed)
          intro same
          have seen := seen_of_content same name version
          rw [versions] at seen
          simp [promoted, found, stage, setStatus, archivePreviousProduction, find?_restage, own,
            ModelVersion.shown] at seen
      | production => simp [perform, promote, ok, stage, answer, Changes, found]
      | archived => simp [perform, promote, ok, stage, answer, Changes, found]

theorem content_delete_iff (name version : String) :
    content (perform (.delete name version) registry).2 = content registry ↔
      ¬Changes registry (.delete name version) := by
  have versions := versionsOf_delete registry name version name
  rw [if_pos rfl] at versions
  cases found : (versionsOf registry name).find? version with
  | none =>
      obtain ⟨error, raised⟩ := getOrRaise_eq_error found
      simp [perform, delete, raised, Changes, found]
  | some mv =>
      refine iff_of_false ?_ (not_not_intro ⟨mv, found⟩)
      intro same
      have seen := seen_of_content same name version
      rw [versions, find?_remove, found] at seen
      cases seen

theorem register_cases (name artifactPath : String) (metrics : Option (Dict String ℚ))
    (version : Option String) (now : Stamp) :
    (Changes registry (.register name artifactPath metrics version now) ∧
      ∃ mv fresh, mv.version = versionFor registry name version ∧ mv.createdAt = now.text ∧
        perform (.register name artifactPath metrics version now.text) registry =
          (.ok (some mv), registry.set name ((versionsOf registry name).add mv fresh))) ∨
    ¬Changes registry (.register name artifactPath metrics version now) ∧
      ∃ error, perform (.register name artifactPath metrics version now.text) registry =
        (.error error, registry) := by
  simp only [perform, register]
  by_cases unnamed : name = ""
  · rw [if_pos unnamed]
    exact .inr ⟨fun changes => changes.1 unnamed, _, rfl⟩
  rw [if_neg unnamed]
  by_cases pathless : artifactPath = ""
  · rw [if_pos pathless]
    exact .inr ⟨fun changes => changes.2.1 pathless, _, rfl⟩
  rw [if_neg pathless]
  split
  · next fresh => exact .inl ⟨⟨unnamed, pathless, fresh⟩, _, fresh, rfl, rfl, rfl⟩
  · next taken => exact .inr ⟨fun changes => taken changes.2.2, _, rfl⟩

theorem content_register_iff (name artifactPath : String) (metrics : Option (Dict String ℚ))
    (version : Option String) (now : Stamp) :
    content (perform (.register name artifactPath metrics version now.text) registry).2 =
        content registry ↔
      ¬Changes registry (.register name artifactPath metrics version now) := by
  obtain ⟨changes, mv, fresh, -, -, done⟩ | ⟨kept, error, refused⟩ :=
    register_cases registry name artifactPath metrics version now
  · refine iff_of_false ?_ (not_not_intro changes)
    intro same
    have seen := seen_of_content same name mv.version
    rw [done, versionsOf_set, if_pos rfl, find?_add, fresh] at seen
    cases seen
  · rw [refused]
    exact iff_of_true rfl kept

theorem content_rollback_iff (name : String) :
    content (perform (.rollback name) registry).2 = content registry ↔
      ¬Changes registry (.rollback name) := by
  obtain ⟨⟨error, refused⟩, reason⟩ | ⟨current, previous, countable, known, inUse, chosen, done⟩ :=
    rollback_cases registry name
  · rw [refused]
    refine iff_of_true rfl ?_
    intro changes
    obtain ⟨countable, current, archived⟩ := changes
    obtain uncounted | unused | none := reason
    · exact uncounted countable
    · exact current unused
    · exact archived none
  · have archived := List.mem_filter.mp (List.argmax_mem chosen)
    have changed : Changes registry (.rollback name) := by
      refine ⟨countable, ?_, List.ne_nil_of_mem (List.argmax_mem chosen)⟩
      exact List.ne_nil_of_mem (List.mem_map_of_mem (List.mem_filter.mpr ⟨known, by simpa⟩))
    refine iff_of_false ?_ (not_not_intro changed)
    intro same
    have found := find?_eq_some_iff.mpr ⟨known, rfl⟩
    have differs : current.version ≠ previous.version := by
      intro equal
      have staged : previous.status = .archived := by simpa using archived.2
      rw [← eq_of_version known archived.1 equal, inUse] at staged
      cases staged
    have seen := seen_of_content same name current.version
    rw [done, versionsOf_set, if_pos rfl, found] at seen
    simp [setStatus, find?_restage, found, differs, ModelVersion.shown, inUse] at seen

theorem content_setMetrics_eq {versions : Versions} {name version : String}
    {metrics : Dict String ℚ} (present : registry.get? name = some versions)
    (shown : ∀ mv ∈ versions.list,
      (if mv.version = version then { mv with metrics } else mv).shown = mv.shown) :
    content (registry.set name (versions.setMetrics version metrics)) = content registry := by
  funext model
  by_cases here : model = name
  · subst here
    simp only [content, Dict.get?_set_self, present, Option.map_some, Option.some.injEq]
    funext other
    rw [find?_setMetrics, Option.map_map]
    cases hit : versions.find? other with
    | none => rfl
    | some held => exact congrArg some (shown held (find?_eq_some_iff.mp hit).1)
  · simp only [content, Dict.get?_set_of_ne here]

theorem content_updateMetrics_iff (name version : String) (metrics : Dict String ℚ) :
    content (perform (.updateMetrics name version metrics) registry).2 = content registry ↔
      ¬Changes registry (.updateMetrics name version metrics) := by
  cases found : (versionsOf registry name).find? version with
  | none =>
      obtain ⟨error, raised⟩ := getOrRaise_eq_error found
      simp [perform, updateMetrics, raised, Changes, found]
  | some mv =>
      have ok := getOrRaise_eq_ok_iff.mpr found
      have own : mv.version = version := (find?_eq_some_iff.mp found).2
      have done : (perform (.updateMetrics name version metrics) registry).2 =
          registry.set name ((versionsOf registry name).setMetrics version metrics) := by
        simp only [perform, updateMetrics, ok]
      rw [done]
      by_cases equal : mv.metrics.get? = metrics.get?
      · refine iff_of_true ?_ (by simp [Changes, found, equal])
        cases present : registry.get? name with
        | none => simp [versionsOf, present, Versions.find?] at found
        | some versions =>
            have these : versionsOf registry name = versions := by simp [versionsOf, present]
            rw [these] at found ⊢
            apply content_setMetrics_eq registry present
            intro other member
            by_cases same : other.version = version
            · obtain rfl : other = mv :=
                eq_of_version member (find?_eq_some_iff.mp found).1 (same.trans own.symm)
              simp [same, ModelVersion.shown, equal]
            · rw [if_neg same]
      · refine iff_of_false ?_ (not_not_intro ⟨mv, found, equal⟩)
        intro same
        have seen := seen_of_content same name version
        rw [versionsOf_set, if_pos rfl, find?_setMetrics, found] at seen
        simp only [Option.map_some, own, if_true, Option.some.injEq, ModelVersion.shown,
          Shown.mk.injEq] at seen
        exact equal seen.2.2.2.1.symm

theorem perform_error {registry next : Registry} {op : Op} {error : Error}
    (refused : perform op registry = (.error error, next)) : next = registry := by
  have answered : ∀ outcome, answer registry outcome = (.error error, next) → next = registry := by
    intro outcome same
    cases outcome with
    | error other => exact (Prod.ext_iff.mp same).2.symm
    | ok done => cases (Prod.ext_iff.mp same).1
  cases op with
  | register => exact answered _ refused
  | promote => exact answered _ refused
  | rollback => exact answered _ refused
  | updateMetrics name version metrics =>
      simp only [perform] at refused
      split at refused
      · exact (Prod.ext_iff.mp refused).2.symm
      · cases (Prod.ext_iff.mp refused).1
  | delete name version =>
      simp only [perform] at refused
      split at refused
      · exact (Prod.ext_iff.mp refused).2.symm
      · cases (Prod.ext_iff.mp refused).1

theorem content_perform_iff (call : Call) :
    content (perform call.op registry).2 = content registry ↔ ¬Changes registry call := by
  cases call with
  | register name artifactPath metrics version now =>
      exact content_register_iff registry name artifactPath metrics version now
  | promote name version => exact content_promote_iff registry name version
  | rollback name => exact content_rollback_iff registry name
  | updateMetrics name version metrics =>
      exact content_updateMetrics_iff registry name version metrics
  | delete name version => exact content_delete_iff registry name version

end Changed

section Dates

variable {registry : Registry}

theorem dated_iff : Dated registry ↔
    ∀ name, ∀ mv ∈ (versionsOf registry name).list, mv.createdAt ≠ "" := by
  constructor
  · intro dated name mv member
    cases present : registry.get? name with
    | none => simp [versionsOf, present] at member
    | some versions =>
        have listed := (Dict.mem_entries_iff registry name versions).mpr present
        have same : versionsOf registry name = versions := by simp [versionsOf, present]
        exact dated _ listed mv (same ▸ member)
  · intro dated entry listed mv member
    have present := (Dict.mem_entries_iff registry entry.1 entry.2).mp listed
    have same : versionsOf registry entry.1 = entry.2 := by simp [versionsOf, present]
    exact dated entry.1 mv (same.symm ▸ member)

theorem dated_set (dated : Dated registry) (name : String) {versions : Versions}
    (new : ∀ mv ∈ versions.list, mv.createdAt ≠ "") : Dated (registry.set name versions) := by
  rw [dated_iff] at dated ⊢
  intro model
  rw [versionsOf_set]
  split
  · exact new
  · exact dated model

theorem dated_restage {versions : Versions} (dated : ∀ mv ∈ versions.list, mv.createdAt ≠ "")
    (stage : ModelVersion → Status) : ∀ mv ∈ (versions.restage stage).list, mv.createdAt ≠ "" := by
  intro mv member
  obtain ⟨old, known, rfl⟩ := mem_restage.mp member
  exact dated old known

theorem dated_perform (dated : Dated registry) (call : Call) :
    Dated (perform call.op registry).2 := by
  have versions := dated_iff.mp dated
  cases call with
  | register name artifactPath metrics version now =>
      obtain ⟨-, mv, fresh, -, created, done⟩ | ⟨-, error, refused⟩ :=
        register_cases registry name artifactPath metrics version now
      · simp only [Call.op, done]
        apply dated_set dated
        intro other member
        obtain old | new := List.mem_append.mp member
        · exact versions name other old
        · rw [List.mem_singleton.mp new, created]
          exact now.written
      · simp only [Call.op, refused]
        exact dated
  | promote name version =>
      rw [dated_iff]
      intro model
      rw [Call.op, versionsOf_promote]
      split
      · simp only [promoted]
        split
        · exact dated_restage (versions name) _
        · exact dated_restage (dated_restage (versions name) _) _
        · exact versions name
      · exact versions model
  | rollback name =>
      obtain ⟨⟨error, refused⟩, -⟩ | ⟨current, previous, -, -, -, -, done⟩ :=
        rollback_cases registry name
      · simp only [Call.op, refused]
        exact dated
      · simp only [Call.op, done]
        exact dated_set dated name (dated_restage (dated_restage (versions name) _) _)
  | updateMetrics name version metrics =>
      rw [dated_iff]
      intro model
      obtain kept | changed := versionsOf_updateMetrics registry name version model metrics
      · rw [Call.op, kept]
        exact versions model
      · rw [Call.op, changed]
        intro mv member
        obtain ⟨old, known, rfl⟩ := List.mem_map.mp member
        have created := versions model old known
        split
        · exact created
        · exact created
  | delete name version =>
      rw [dated_iff]
      intro model
      rw [Call.op, versionsOf_delete]
      split
      · exact fun mv member => versions name mv (List.mem_of_mem_filter member)
      · exact versions model

end Dates

/-- The version is the text of a number that is above every existing version. -/
def Newest (versions : Versions) (version : String) : Prop :=
  ∃ number : Nat, version = toString number ∧ ∀ other ∈ versions.list,
    other.version ≠ version ∧ ∃ value, intOf other.version = some value ∧ value < number

/-- Every existing version is a number that is at most their count. -/
def CountedUp (versions : Versions) : Prop :=
  ∀ other ∈ versions.list, ∃ value, intOf other.version = some value ∧
    value ≤ versions.list.length

theorem newest_iff (versions : Versions) :
    Newest versions (toString (versions.list.length + 1)) ↔ CountedUp versions := by
  constructor
  · intro ⟨number, same, above⟩ other member
    obtain rfl : versions.list.length + 1 = number := by
      have digits := congrArg String.toList same
      rw [Nat.toString_eq_repr, Nat.toString_eq_repr, Nat.toList_repr, Nat.toList_repr] at digits
      rw [← Nat.ofDigitChars_ten_toDigits (n := versions.list.length + 1), digits,
        Nat.ofDigitChars_ten_toDigits]
    obtain ⟨-, value, read, below⟩ := above other member
    exact ⟨value, read, by push_cast at below; omega⟩
  · intro counted
    refine ⟨_, rfl, ?_⟩
    intro other member
    obtain ⟨value, read, below⟩ := counted other member
    refine ⟨?_, value, read, by push_cast; omega⟩
    intro same
    rw [same, Core.Versioning.intOf_toString] at read
    split at read
    · cases read
      push_cast at below
      omega
    · cases read

/-- An operation that raises leaves the registry in memory as the file has it, and a registration
without a version succeeds with the newest one if it is saved. -/
def FailsCleanly (event : Event Store Request) : Prop :=
  ((handle event.before event.action).1.raises = true → Reloads event.after) ∧
  ∀ name artifactPath metrics now,
    event.action = ⟨.register name artifactPath metrics none now, true⟩ →
    name ≠ "" → artifactPath ≠ "" →
    ∃ mv, (handle event.before event.action).1 = .returned (some mv) ∧
      Newest (versionsOf event.before.memory name) mv.version

/-- A save only fails where there is nothing to save, and versions are only drawn where the
existing ones are counted up. -/
def Careful (event : Event Store Request) : Prop :=
  (event.action.saves = false → ¬Changes event.before.memory event.action.call) ∧
  ∀ name artifactPath metrics now,
    event.action = ⟨.register name artifactPath metrics none now, true⟩ →
    name ≠ "" → artifactPath ≠ "" → CountedUp (versionsOf event.before.memory name)

section Requests

variable {store : Store}

theorem handle_cases (store : Store) (request : Request) :
    ((handle store request).2.memory = (perform request.call.op store.memory).2) ∧
    ((∃ mv, request.saves = true ∧ (handle store request).1 = .returned mv ∧
        (handle store request).2.file =
          some (document (perform request.call.op store.memory).2)) ∨
      (handle store request).1.raises = true ∧ (handle store request).2.file = store.file ∧
        (request.saves = true → (perform request.call.op store.memory).2 = store.memory)) := by
  unfold handle
  cases outcome : perform request.call.op store.memory with
  | mk result memory =>
      cases result with
      | error error =>
          refine ⟨rfl, .inr ⟨rfl, rfl, fun _ => ?_⟩⟩
          exact perform_error outcome
      | ok mv =>
          cases saves : request.saves with
          | true => exact ⟨rfl, .inl ⟨mv, rfl, rfl, rfl⟩⟩
          | false => exact ⟨rfl, .inr ⟨rfl, rfl, fun saved => by cases saved⟩⟩

theorem reloads_document {registry : Registry} (dated : Dated registry) :
    Reloads ⟨registry, some (document registry)⟩ := by
  intro now
  rw [load_document now dated]
  rfl

theorem reloads_iff {other : Store} (reloads : Reloads store) (same : other.file = store.file) :
    Reloads other ↔ content other.memory = content store.memory := by
  unfold Reloads at reloads ⊢
  rw [same]
  constructor
  · intro holds
    have first := holds ⟨"now", by decide⟩
    rw [reloads] at first
    exact (Option.some.inj first).symm
  · intro equal now
    rw [equal]
    exact reloads now

theorem raises_iff (reloads : Reloads store) (request : Request) :
    ((handle store request).1.raises = true → Reloads (handle store request).2) ↔
      (request.saves = false → ¬Changes store.memory request.call) := by
  obtain ⟨memory, ⟨mv, saved, returned, -⟩ | ⟨raised, file, unchanged⟩⟩ :=
    handle_cases store request
  · rw [returned, saved]
    exact iff_of_true (fun raises => by cases raises) (fun unsaved => by cases unsaved)
  · rw [reloads_iff reloads file, memory, content_perform_iff]
    cases saves : request.saves with
    | true =>
        have kept := (content_perform_iff store.memory request.call).mp
          (congrArg content (unchanged saves))
        exact iff_of_true (fun _ => kept) (fun unsaved => by cases unsaved)
    | false => exact ⟨fun clean _ => clean raised, fun clean _ => clean rfl⟩

theorem newest_register_iff (store : Store) {name artifactPath : String}
    (metrics : Option (Dict String ℚ)) (now : Stamp) (named : name ≠ "")
    (located : artifactPath ≠ "") :
    (∃ mv, (handle store ⟨.register name artifactPath metrics none now, true⟩).1 =
        .returned (some mv) ∧ Newest (versionsOf store.memory name) mv.version) ↔
      CountedUp (versionsOf store.memory name) := by
  rw [← newest_iff]
  obtain ⟨-, mv, fresh, version, -, done⟩ | ⟨taken, error, refused⟩ :=
    register_cases store.memory name artifactPath metrics none now
  · have returned : (handle store ⟨.register name artifactPath metrics none now, true⟩).1 =
        .returned (some mv) := by
      simp only [handle, Call.op, done, if_true]
    have drawn : mv.version = toString ((versionsOf store.memory name).list.length + 1) := version
    rw [returned, ← drawn]
    constructor
    · intro answered
      obtain ⟨other, same, newest⟩ := answered
      cases same
      exact newest
    · exact fun newest => ⟨mv, rfl, newest⟩
  · refine iff_of_false ?_ ?_
    · intro answered
      obtain ⟨mv, same, -⟩ := answered
      simp only [handle, Call.op, refused] at same
      cases same
    · intro counted
      obtain ⟨number, -, above⟩ := counted
      apply taken
      refine ⟨named, located, ?_⟩
      rw [find?_eq_none_iff]
      exact fun other member => (above other member).1

theorem failsCleanly_iff_careful (reloads : Reloads store) (request : Request) :
    FailsCleanly ⟨store, request, (handle store request).2⟩ ↔
      Careful ⟨store, request, (handle store request).2⟩ := by
  refine and_congr (raises_iff reloads request) ?_
  constructor
  · intro newest name artifactPath metrics now same named located
    obtain rfl : request = _ := same
    exact (newest_register_iff store metrics now named located).mp
      (newest name artifactPath metrics now rfl named located)
  · intro counted name artifactPath metrics now same named located
    obtain rfl : request = _ := same
    exact (newest_register_iff store metrics now named located).mpr
      (counted name artifactPath metrics now rfl named located)

theorem reloads_handle (dated : Dated store.memory) (reloads : Reloads store) {request : Request}
    (careful : Careful ⟨store, request, (handle store request).2⟩) :
    Dated (handle store request).2.memory ∧ Reloads (handle store request).2 := by
  have next := dated_perform dated request.call
  have clean := (raises_iff reloads request).mpr careful.1
  obtain ⟨memory, ⟨mv, -, -, file⟩ | ⟨raised, -, -⟩⟩ := handle_cases store request
  · refine ⟨memory ▸ next, ?_⟩
    generalize (handle store request).2 = after at memory file
    cases after with
    | mk held document =>
        obtain rfl : held = _ := memory
        obtain rfl : document = _ := file
        exact reloads_document next
  · exact ⟨memory ▸ next, clean raised⟩

end Requests

/-- The operations of a run all fail cleanly, and draw the newest versions, exactly if no save of a
change fails and no version is drawn beside one that is not counted up. -/
theorem failsCleanly_iff {start state : Store} {events : List (Event Store Request)}
    (dated : Dated start.memory) (loaded : Reloads start) (run : Run request start events state) :
    (∀ event ∈ events, FailsCleanly event) ↔ ∀ event ∈ events, Careful event := by
  apply Run.forall_event_iff (fun store => Dated store.memory ∧ Reloads store) FailsCleanly Careful
    ⟨dated, loaded⟩ ?_ ?_ run
  · intro store asked next holds stepped
    cases stepped
    exact failsCleanly_iff_careful holds.2 asked
  · intro store asked next holds stepped careful
    cases stepped
    exact reloads_handle holds.1 holds.2 careful

def noon : Stamp := ⟨"2025-01-01T12:00:00+00:00", by decide⟩

def savedRequests : List Request :=
  [⟨.register "llm" "/models/llm-1" none none noon, true⟩,
    ⟨.register "llm" "/models/llm-2" none none noon, true⟩,
    ⟨.delete "llm" "7", false⟩]

def savedEvents : List (Event Store Request) := (record request {} savedRequests).getD []

theorem run_savedEvents : Run request {} savedEvents (final {} savedEvents) := by
  have recorded : (record request {} savedRequests).isSome = true := by decide +kernel
  exact run_of_isSome recorded

theorem failsCleanly_iff_saved :
    (∀ event ∈ savedEvents, FailsCleanly event) ↔ ∀ event ∈ savedEvents, Careful event := by
  have dated : Dated ({} : Store).memory := by
    intro entry listed
    cases listed
  exact failsCleanly_iff dated (fun now => rfl) run_savedEvents

def storeAfter (requests : List Request) : Store :=
  requests.foldl (fun store asked => (handle store asked).2) {}

/-- A promotion whose save fails stays in memory; and with the first of two versions deleted, the
next registration is refused. -/
theorem unsaved_promotion_and_taken_version :
    (handle (storeAfter [⟨.register "llm" "/models/llm-1" none none noon, true⟩])
        ⟨.promote "llm" "1", false⟩).1 = .unsaved ∧
      ¬Reloads (storeAfter [⟨.register "llm" "/models/llm-1" none none noon, true⟩,
        ⟨.promote "llm" "1", false⟩]) ∧
      (handle (storeAfter [⟨.register "llm" "/models/llm-1" none none noon, true⟩,
          ⟨.register "llm" "/models/llm-2" none none noon, true⟩, ⟨.delete "llm" "1", true⟩])
        ⟨.register "llm" "/models/llm-3" none none noon, true⟩).1 =
        .refused (.valueError "Version '2' of model 'llm' already exists") := by
  refine ⟨by decide +kernel, ?_, by decide +kernel⟩
  intro reloads
  obtain ⟨loaded, read, same⟩ := Option.map_eq_some_iff.mp (reloads noon)
  have seen := congrArg (Option.map Shown.status) (seen_of_content same "llm" "1")
  have saved : ((load noon (storeAfter [⟨.register "llm" "/models/llm-1" none none noon, true⟩,
      ⟨.promote "llm" "1", false⟩]).file).bind (fun registry =>
        ((versionsOf registry "llm").find? "1").map ModelVersion.status)) = some .staging := by
    decide +kernel
  have held : ((versionsOf (storeAfter
      [⟨.register "llm" "/models/llm-1" none none noon, true⟩,
        ⟨.promote "llm" "1", false⟩]).memory "llm").find? "1").map ModelVersion.status =
      some .canary := by
    decide +kernel
  rw [read, Option.bind_some] at saved
  rw [Option.map_map, Option.map_map] at seen
  have agree := saved.symm.trans (seen.trans held)
  cases agree

end RagSystem.ModelRegistry
