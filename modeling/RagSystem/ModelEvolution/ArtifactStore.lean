import Mathlib.Data.List.Sort
import Mathlib.Data.String.Basic
import RagSystem.Data.FileSystem
import RagSystem.Transition.Run

/-! `proxy/app/model_evolution/artifact_store.py`: the files of model versions in the local file
system and in S3, and what the two make of a sequence of calls. -/

namespace RagSystem.ModelEvolution

open Transition FileSystem

variable {γ : Type}

/-- What `local_path` names. -/
inductive Artifact (γ : Type)
  | directory (tree : FileTree γ)
  | file (name : String) (content : γ)

def Artifact.tree : Artifact γ → FileTree γ
  | directory tree => tree
  | file name content => .single name content

/-- A path that `pathlib` joins: empty names and single dots are dropped, two dots lead up. -/
def joinPath (base : PathName) : List String → PathName
  | [] => base
  | name :: rest =>
      if name = "" ∨ name = "." then joinPath base rest
      else if name = ".." then joinPath base.dropLast rest
      else joinPath (base ++ [name]) rest

/-- `sorted` on a set of names. -/
def sortedSet (names : List String) : List String := names.dedup.insertionSort (· ≤ ·)

/-- `data/artifacts/<bucket>` -/
def localPath (bucket : String) : PathName := joinPath ["data", "artifacts"] [bucket]

/-! ### The local backend -/

section Local

variable (base : PathName)

def uploadLocal (modelName version : String) (artifact : Artifact γ) (files : FileSystem γ) :
    FileSystem γ :=
  let dest := joinPath base [modelName, version]
  let made := makeDirs dest files
  if isDirectory made dest then copyTree artifact.tree dest made else made

def fileAt (files : FileSystem γ) (path : PathName) : Option γ :=
  match files.get? path with
  | some (.file content) => some content
  | _ => none

/-- The files that a copy of the version's directory into an empty one has; `none` is an error. -/
def downloadLocal (modelName version : String) (files : FileSystem γ) :
    Option (PathName → Option γ) :=
  let src := joinPath base [modelName, version]
  if isFile files src then none
  else some (fun path => if path = [] then none else fileAt files (src ++ path))

def listLocal (modelName : String) (files : FileSystem γ) : List String :=
  let modelDir := joinPath base [modelName]
  sortedSet ((files.keys.filter (fun path =>
    path ≠ [] ∧ path.dropLast = modelDir ∧ isDirectory files path)).map (fun path =>
      path.getLastD ""))

def deleteLocal (modelName version : String) (files : FileSystem γ) : FileSystem γ :=
  let path := joinPath base [modelName, version]
  if isDirectory files path then removeTree path files else files

end Local

/-! ### The S3 backend -/

abbrev Bucket (γ : Type) := Dict (List String) γ

/-- `models/<model_name>/<version>/`; a key that starts so has a part more. -/
def keyPrefix (modelName version : String) : List String := ["models", modelName, version]

def under (above : List String) (key : List String) : Bool :=
  above <+: key ∧ above.length < key.length

def objectsUnder (modelName version : String) (bucket : Bucket γ) : List (List String) :=
  bucket.keys.filter (under (keyPrefix modelName version))

def uploadS3 (modelName version : String) (artifact : Artifact γ) (bucket : Bucket γ) : Bucket γ :=
  bucket.setAll (artifact.tree.files.map (fun file =>
    (keyPrefix modelName version ++ file.1, file.2)))

def downloadS3 (modelName version : String) (bucket : Bucket γ) : Option (PathName → Option γ) :=
  let objects := objectsUnder modelName version bucket
  if ∃ first ∈ objects, ∃ second ∈ objects, first <+: second ∧ first ≠ second then none
  else some (fun path =>
    if path = [] then none else bucket.get? (keyPrefix modelName version ++ path))

/-- The common prefixes under `models/<model_name>/`. -/
def listS3 (modelName : String) (bucket : Bucket γ) : List String :=
  sortedSet (((bucket.keys.filter (fun key =>
    under ["models", modelName] key ∧ 3 < key.length)).map (fun key =>
      (key.drop 2).headD "")).filter (· ≠ ""))

def deleteS3 (modelName version : String) (bucket : Bucket γ) : Bucket γ :=
  let objects := objectsUnder modelName version bucket
  if objects.length ≤ 1000 then bucket.eraseAll objects else bucket

/-! ### Runs -/

/-- Both backends, and the last upload of each version that was not deleted since. -/
structure ArtifactState (γ : Type) where
  files : FileSystem γ
  bucket : Bucket γ := ∅
  stored : Dict (String × String) (FileTree γ) := ∅

def ArtifactState.initial (base : PathName) : ArtifactState γ := { files := makeDirs base ∅ }

inductive ArtifactCall (γ : Type)
  | upload (modelName version : String) (artifact : Artifact γ)
  | delete (modelName version : String)
  | download (modelName version : String)

def ArtifactCall.perform (base : PathName) (state : ArtifactState γ) :
    ArtifactCall γ → Option (ArtifactState γ)
  | upload modelName version artifact => some
      { files := uploadLocal base modelName version artifact state.files
        bucket := uploadS3 modelName version artifact state.bucket
        stored := state.stored.set (modelName, version) artifact.tree }
  | delete modelName version => some
      { files := deleteLocal base modelName version state.files
        bucket := deleteS3 modelName version state.bucket
        stored := state.stored.erase (modelName, version) }
  | download _ _ => some state

def ArtifactCall.target : ArtifactCall γ → Option (String × String)
  | upload modelName version _ => some (modelName, version)
  | delete modelName version => some (modelName, version)
  | download _ _ => none

/-! ### A map from versions to file trees -/

def Proper (name : String) : Prop := name ≠ "" ∧ name ≠ "." ∧ name ≠ ".."

instance (name : String) : Decidable (Proper name) := inferInstanceAs (Decidable (_ ∧ _))

def ArtifactState.filesOf (state : ArtifactState γ) (modelName version : String) (path : PathName) :
    Option γ :=
  (state.stored.get? (modelName, version)).bind fun tree =>
    (tree.files.find? (fun file => file.1 = path)).map Prod.snd

def ArtifactState.versionsOf (state : ArtifactState γ) (modelName : String) : List String :=
  sortedSet ((state.stored.keys.filter (fun key => key.1 = modelName)).map Prod.snd)

/-- Both backends give what is stored, and list the versions there are. -/
structure Agrees (base : PathName) (state : ArtifactState γ) : Prop where
  downloads : ∀ modelName version, Proper modelName → Proper version →
    downloadLocal base modelName version state.files = some (state.filesOf modelName version) ∧
    downloadS3 modelName version state.bucket = some (state.filesOf modelName version)
  versions : ∀ modelName, Proper modelName →
    listLocal base modelName state.files = state.versionsOf modelName ∧
    listS3 modelName state.bucket = state.versionsOf modelName

/-- The other versions are as they were. -/
def Untouched (base : PathName) (event : Event (ArtifactState γ) (ArtifactCall γ)) : Prop :=
  ∀ modelName version, Proper modelName → Proper version →
    event.action.target ≠ some (modelName, version) →
    downloadLocal base modelName version event.after.files =
      downloadLocal base modelName version event.before.files ∧
    downloadS3 modelName version event.after.bucket =
      downloadS3 modelName version event.before.bucket ∧
    (version ∈ listLocal base modelName event.after.files ↔
      version ∈ listLocal base modelName event.before.files) ∧
    (version ∈ listS3 modelName event.after.bucket ↔
      version ∈ listS3 modelName event.before.bucket)

/-- The names can be those of directories, an upload has a file, has every file that the version
had, and has none where a directory is left from an earlier one, and a deletion is of at most a
thousand objects. -/
def Plain (base : PathName) (state : ArtifactState γ) : ArtifactCall γ → Prop
  | .upload modelName version artifact => Proper modelName ∧ Proper version ∧
      artifact.tree.files ≠ [] ∧
      (∀ tree, state.stored.get? (modelName, version) = some tree →
        ∀ file ∈ tree.files, file.1 ∈ artifact.tree.files.map Prod.fst) ∧
      ∀ file ∈ artifact.tree.files,
        isDirectory state.files (joinPath base [modelName, version] ++ file.1) = false
  | .delete modelName version => Proper modelName ∧ Proper version ∧
      (objectsUnder modelName version state.bucket).length ≤ 1000
  | .download _ _ => True

end RagSystem.ModelEvolution
