import Mathlib.Data.Option.Basic
import RagSystem.Data.Json
import RagSystem.ModelEvolution.ModelRegistry

/-! The JSON document that the model registry is saved in, and what a reload of it gives. -/

namespace RagSystem.ModelRegistry

/-- A time as `isoformat` writes it. -/
structure Stamp where
  text : String
  written : text ≠ ""
  deriving DecidableEq, Repr

def Status.text : Status → String
  | .staging => "staging"
  | .canary => "canary"
  | .production => "production"
  | .archived => "archived"

def Status.ofText? (text : String) : Option Status :=
  [Status.staging, .canary, .production, .archived].find? (fun status => status.text = text)

def ModelVersion.toDict (mv : ModelVersion) : Json :=
  .obj [
    ("name", .str mv.name),
    ("version", .str mv.version),
    ("artifact_path", .str mv.artifactPath),
    ("metrics", .obj (mv.metrics.entries.map (fun entry => (entry.1, .float entry.2)))),
    ("status", .str mv.status.text),
    ("created_at", .str mv.createdAt)]

def textOf : Json → Option String
  | .str text => some text
  | _ => none

def numberOf : Json → Option ℚ
  | .float value => some value
  | .int value => some value
  | _ => none

/-- The bindings of an object, each read by `value`. -/
def bindingsOf {β : Type} (value : String → Json → Option β) : Json → Option (List (String × β))
  | .obj entries =>
      (Dict.ofList entries).entries.mapM (fun entry => (value entry.1 entry.2).map (entry.1, ·))
  | _ => none

/-- `from_dict`: a version without a time of creation is as old as the load. `none` is an error,
or a value that no version has. -/
def ModelVersion.fromDict (now : Stamp) : Json → Option ModelVersion
  | .obj entries => do
      let d := Dict.ofList entries
      let name ← (d.get? "name").bind textOf
      let version ← (d.get? "version").bind textOf
      let artifactPath ← (d.get? "artifact_path").bind textOf
      let metrics ← bindingsOf (fun _ => numberOf) ((d.get? "metrics").getD (.obj []))
      let status ← (textOf ((d.get? "status").getD (.str "staging"))).bind Status.ofText?
      let createdAt ← textOf ((d.get? "created_at").getD (.str ""))
      return {
        name, version, artifactPath, status
        metrics := Dict.ofList metrics
        createdAt := if createdAt = "" then now.text else createdAt }
  | _ => none

def versionsFrom (now : Stamp) (document : Json) : Option Versions := do
  let bindings ← bindingsOf (fun _ => ModelVersion.fromDict now) document
  if own : bindings.map Prod.fst = bindings.map (·.2.version) ∧ (bindings.map Prod.fst).Nodup then
    return ⟨bindings.map Prod.snd, by simpa [Function.comp_def, own.1] using own.1 ▸ own.2⟩
  else none

/-- `_load` of a document, or of no file. -/
def load (now : Stamp) : Option Json → Option Registry
  | none => some ∅
  | some (.obj entries) =>
      (bindingsOf (fun _ => versionsFrom now)
        (((Dict.ofList entries).get? "models").getD (.obj []))).map Dict.ofList
  | some _ => none

def Versions.toDict (versions : Versions) : Json :=
  .obj (versions.list.map (fun mv => (mv.version, mv.toDict)))

/-- The document that `_save` writes. -/
def document (registry : Registry) : Json :=
  .obj [("models", .obj (registry.entries.map (fun entry => (entry.1, entry.2.toDict))))]

def Dated (registry : Registry) : Prop :=
  ∀ entry ∈ registry.entries, ∀ mv ∈ entry.2.list, mv.createdAt ≠ ""

theorem ofText?_text (status : Status) : Status.ofText? status.text = some status := by
  cases status <;> rfl

theorem bindingsOf_obj {β : Type} {value : String → Json → Option β} {shown : String × β → Json}
    {bindings : List (String × β)} (nodup : (bindings.map Prod.fst).Nodup)
    (back : ∀ binding ∈ bindings, value binding.1 (shown binding) = some binding.2) :
    bindingsOf value (.obj (bindings.map (fun binding => (binding.1, shown binding)))) =
      some bindings := by
  have keys : ((bindings.map (fun binding => (binding.1, shown binding))).map Prod.fst).Nodup := by
    rw [List.map_map]
    exact nodup
  have listed : (Dict.ofList (bindings.map (fun binding => (binding.1, shown binding)))).entries =
      bindings.map (fun binding => (binding.1, shown binding)) :=
    Dict.entries_setAll Dict.empty keys
  rw [bindingsOf, listed]
  clear listed keys nodup
  induction bindings with
  | nil => rfl
  | cons binding rest ih =>
      have head := back binding List.mem_cons_self
      have tail := ih (fun other member => back other (List.mem_cons_of_mem binding member))
      rw [List.map_cons, List.mapM_cons, head, tail]
      rfl

theorem fromDict_toDict (now : Stamp) {mv : ModelVersion} (dated : mv.createdAt ≠ "") :
    ModelVersion.fromDict now mv.toDict = some mv := by
  have metrics : bindingsOf (fun _ => numberOf)
      (.obj (mv.metrics.entries.map (fun entry => (entry.1, Json.float entry.2)))) =
      some mv.metrics.entries :=
    bindingsOf_obj mv.metrics.nodup (fun _ _ => rfl)
  simp [ModelVersion.fromDict, ModelVersion.toDict, Dict.ofList, Dict.setAll, Dict.get?_set, textOf,
    metrics, ofText?_text, dated]
  exact congrArg (fun metrics => { mv with metrics }) (Dict.ofList_entries mv.metrics)

theorem versionsFrom_toDict (now : Stamp) {versions : Versions}
    (dated : ∀ mv ∈ versions.list, mv.createdAt ≠ "") :
    versionsFrom now versions.toDict = some versions := by
  have keys : (versions.list.map (fun mv => (mv.version, mv))).map Prod.fst =
      versions.list.map ModelVersion.version := by
    rw [List.map_map]
    rfl
  have shown : versions.toDict = .obj ((versions.list.map (fun mv => (mv.version, mv))).map
      (fun binding => (binding.1, binding.2.toDict))) := by
    rw [List.map_map]
    rfl
  have read : bindingsOf (fun _ => ModelVersion.fromDict now) versions.toDict =
      some (versions.list.map (fun mv => (mv.version, mv))) := by
    rw [shown]
    apply bindingsOf_obj (by rw [keys]; exact versions.distinct)
    intro binding member
    obtain ⟨mv, known, rfl⟩ := List.mem_map.mp member
    exact fromDict_toDict now (dated mv known)
  have own : (versions.list.map (fun mv => (mv.version, mv))).map Prod.fst =
        (versions.list.map (fun mv => (mv.version, mv))).map (·.2.version) ∧
      ((versions.list.map (fun mv => (mv.version, mv))).map Prod.fst).Nodup :=
    ⟨by simp [Function.comp_def], by rw [keys]; exact versions.distinct⟩
  simp only [versionsFrom, read, Option.bind_eq_bind, Option.bind_some, dif_pos own]
  cases versions with
  | mk list distinct => simp [Function.comp_def]

theorem load_document (now : Stamp) {registry : Registry} (dated : Dated registry) :
    load now (some (document registry)) = some registry := by
  have read : bindingsOf (fun _ => versionsFrom now)
      (.obj (registry.entries.map (fun entry => (entry.1, entry.2.toDict)))) =
      some registry.entries :=
    bindingsOf_obj registry.nodup
      (fun entry member => versionsFrom_toDict now (dated entry member))
  simp only [load, document, Dict.get?_ofList_singleton, if_true, Option.getD_some, read,
    Option.map_some, Dict.ofList_entries]

end RagSystem.ModelRegistry
