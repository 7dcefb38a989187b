import Mathlib.Data.List.Dedup
import RagSystem.ModelEvolution.ArtifactStore

/-! The local backend and the S3 backend of `proxy/app/model_evolution/artifact_store.py` against
the map from versions to file trees. -/

namespace RagSystem.ModelEvolution

open Transition FileSystem

variable {γ : Type}

/-! ### What the backends hold -/

structure Holds (base : PathName) (state : ArtifactState γ) : Prop where
  ways : ∀ above, above ≠ [] → above <+: base → state.files.get? above = some .directory
  models : ∀ modelName, isFile state.files (base ++ [modelName]) = false
  versions : ∀ modelName version, state.files.get? (base ++ [modelName, version]) =
    (state.stored.get? (modelName, version)).map (fun _ => .directory)
  contents : ∀ modelName version path content, path ≠ [] →
    (state.files.get? (base ++ [modelName, version] ++ path) = some (.file content) ↔
      ∃ tree, state.stored.get? (modelName, version) = some tree ∧ (path, content) ∈ tree.files)
  objects : ∀ key content, state.bucket.get? key = some content ↔
    ∃ modelName version path tree, key = keyPrefix modelName version ++ path ∧
      state.stored.get? (modelName, version) = some tree ∧ (path, content) ∈ tree.files
  full : ∀ modelName version tree, state.stored.get? (modelName, version) = some tree →
    version ≠ "" ∧ tree.files ≠ []

theorem joinPath_proper (base : PathName) {names : List String}
    (proper : ∀ name ∈ names, Proper name) :
    joinPath base names = base ++ names := by
  induction names generalizing base with
  | nil => exact (List.append_nil base).symm
  | cons name rest ih =>
      obtain ⟨⟨some, single, double⟩, others⟩ := List.forall_mem_cons.mp proper
      rw [joinPath, if_neg (by simp [some, single]), if_neg double, ih _ others, List.append_assoc]
      rfl

theorem joinPath_version (base : PathName) {modelName version : String} (model : Proper modelName)
    (own : Proper version) : joinPath base [modelName, version] = base ++ [modelName, version] :=
  joinPath_proper base (by simp [model, own])

theorem sortedSet_congr {first second : List String}
    (same : ∀ name, name ∈ first ↔ name ∈ second) : sortedSet first = sortedSet second := by
  have perm : first.dedup.Perm second.dedup := by
    rw [List.perm_ext_iff_of_nodup first.nodup_dedup second.nodup_dedup]
    intro name
    rw [List.mem_dedup, List.mem_dedup, same]
  have sorted : (sortedSet first).Perm (sortedSet second) :=
    calc
      (sortedSet first).Perm first.dedup := List.perm_insertionSort _ _
      _ |>.Perm second.dedup := perm
      _ |>.Perm (sortedSet second) := (List.perm_insertionSort _ _).symm
  exact List.Perm.eq_of_sortedLE List.sortedLE_insertionSort List.sortedLE_insertionSort sorted

theorem path_eq_of_mem_files {tree : FileTree γ} {path : PathName} {first second : γ}
    (one : (path, first) ∈ tree.files) (other : (path, second) ∈ tree.files) : first = second := by
  have same := FileTree.node_unique (FileTree.mem_files.mp one) (FileTree.mem_files.mp other)
  exact FileNode.file.inj same

theorem filesOf_eq_some_iff {state : ArtifactState γ} {modelName version : String} {path : PathName}
    {content : γ} : state.filesOf modelName version path = some content ↔
      ∃ tree, state.stored.get? (modelName, version) = some tree ∧
        (path, content) ∈ tree.files := by
  unfold ArtifactState.filesOf
  rw [Option.bind_eq_some_iff]
  apply exists_congr
  intro tree
  apply and_congr_right
  intro _
  rw [Option.map_eq_some_iff]
  constructor
  · intro given
    rcases given with ⟨file, found, rfl⟩
    have here : file.1 = path := by simpa using List.find?_some found
    rw [← here]
    exact List.mem_of_find?_eq_some found
  · intro member
    have found : (tree.files.find? (fun file => file.1 = path)).isSome := by
      rw [List.find?_isSome]
      exact ⟨_, member, by simp⟩
    obtain ⟨file, isFound⟩ := Option.isSome_iff_exists.mp found
    have here : file.1 = path := by simpa using List.find?_some isFound
    have inside := List.mem_of_find?_eq_some isFound
    exact ⟨file, isFound, path_eq_of_mem_files (here ▸ inside) member⟩

theorem filesOf_nil (state : ArtifactState γ) (modelName version : String) :
    state.filesOf modelName version [] = none := by
  rw [Option.eq_none_iff_forall_not_mem]
  intro content found
  obtain ⟨tree, -, member⟩ := filesOf_eq_some_iff.mp found
  exact FileTree.ne_nil_of_mem (FileTree.mem_files.mp member) rfl

theorem fileAt_eq_some_iff {files : FileSystem γ} {path : PathName} {content : γ} :
    fileAt files path = some content ↔ files.get? path = some (.file content) := by
  unfold fileAt
  split
  · next found => simp [found]
  · next other =>
      constructor
      · intro none
        cases none
      · intro found
        exact absurd found (other content)

variable {base : PathName} {state : ArtifactState γ}

theorem Holds.isFile_version (holds : Holds base state) (modelName version : String) :
    isFile state.files (base ++ [modelName, version]) = false := by
  rw [isFile, holds.versions]
  cases state.stored.get? (modelName, version) <;> rfl

theorem Holds.downloadLocal (holds : Holds base state) {modelName version : String}
    (model : Proper modelName) (own : Proper version) :
    downloadLocal base modelName version state.files = some (state.filesOf modelName version) := by
  unfold ModelEvolution.downloadLocal
  rw [joinPath_version base model own]
  dsimp only
  rw [if_neg (by simp [holds.isFile_version])]
  congr 1
  funext path
  by_cases top : path = []
  · rw [if_pos top, top, filesOf_nil]
  · rw [if_neg top]
    ext content
    rw [fileAt_eq_some_iff, holds.contents _ _ _ _ top, filesOf_eq_some_iff]

theorem under_keyPrefix_iff {modelName version : String} {key : List String} :
    under (keyPrefix modelName version) key = true ↔
      ∃ path, path ≠ [] ∧ key = keyPrefix modelName version ++ path := by
  rw [under, decide_eq_true_eq]
  constructor
  · intro given
    rcases given with ⟨⟨path, rfl⟩, longer⟩
    rw [List.length_append] at longer
    exact ⟨path, List.length_pos_iff.mp (by omega), rfl⟩
  · intro given
    rcases given with ⟨path, some, rfl⟩
    have positive := List.length_pos_iff.mpr some
    rw [List.length_append]
    exact ⟨List.prefix_append _ _, by omega⟩

theorem keyPrefix_append_inj {modelName version otherModel otherVersion : String}
    {path other : PathName} (same : keyPrefix modelName version ++ path =
      keyPrefix otherModel otherVersion ++ other) :
    modelName = otherModel ∧ version = otherVersion ∧ path = other := by
  simpa [keyPrefix] using same

theorem mem_objectsUnder_iff (holds : Holds base state) {modelName version : String}
    {key : List String} :
    key ∈ objectsUnder modelName version state.bucket ↔
      ∃ path content tree, key = keyPrefix modelName version ++ path ∧
        state.stored.get? (modelName, version) = some tree ∧ (path, content) ∈ tree.files := by
  rw [objectsUnder, List.mem_filter, Dict.mem_keys_iff, under_keyPrefix_iff]
  constructor
  · intro given
    rcases given with ⟨⟨content, found⟩, path, -, rfl⟩
    obtain ⟨otherModel, otherVersion, other, tree, same, known, member⟩ :=
      (holds.objects _ _).mp found
    obtain ⟨rfl, rfl, rfl⟩ := keyPrefix_append_inj same
    exact ⟨path, content, tree, rfl, known, member⟩
  · intro given
    rcases given with ⟨path, content, tree, rfl, known, member⟩
    have some : path ≠ [] := FileTree.ne_nil_of_mem (FileTree.mem_files.mp member)
    exact ⟨⟨content, (holds.objects _ _).mpr ⟨_, _, path, tree, rfl, known, member⟩⟩,
      path, some, rfl⟩

theorem not_prefix_of_mem_files {tree : FileTree γ} {first second : PathName} {one other : γ}
    (file : (first, one) ∈ tree.files) (another : (second, other) ∈ tree.files)
    (through : first <+: second) : first = second := by
  rw [FileTree.mem_files] at file another
  obtain ⟨more, rfl⟩ := through
  by_contra differs
  have below : more ≠ [] := by
    intro given
    rcases given with rfl
    simp at differs
  have directory := FileTree.directory_of_append another (FileTree.ne_nil_of_mem file) below
  cases FileTree.node_unique file directory

theorem Holds.downloadS3 (holds : Holds base state) (modelName version : String) :
    downloadS3 modelName version state.bucket = some (state.filesOf modelName version) := by
  unfold ModelEvolution.downloadS3
  have beside : ¬ ∃ first ∈ objectsUnder modelName version state.bucket,
      ∃ second ∈ objectsUnder modelName version state.bucket,
        first <+: second ∧ first ≠ second := by
    intro given
    rcases given with ⟨first, isFirst, second, isSecond, through, differs⟩
    obtain ⟨path, content, tree, rfl, known, member⟩ := (mem_objectsUnder_iff holds).mp isFirst
    obtain ⟨other, another, same, rfl, again, among⟩ := (mem_objectsUnder_iff holds).mp isSecond
    obtain rfl := Option.some.inj (known.symm.trans again)
    have within := (List.prefix_append_right_inj _).mp through
    exact differs (by rw [not_prefix_of_mem_files member among within])
  dsimp only
  rw [if_neg beside]
  congr 1
  funext path
  by_cases top : path = []
  · rw [if_pos top, top, filesOf_nil]
  · rw [if_neg top]
    ext content
    rw [holds.objects, filesOf_eq_some_iff]
    constructor
    · intro given
      rcases given with ⟨otherModel, otherVersion, other, tree, same, known, member⟩
      obtain ⟨rfl, rfl, rfl⟩ := keyPrefix_append_inj same
      exact ⟨tree, known, member⟩
    · intro given
      rcases given with ⟨tree, known, member⟩
      exact ⟨modelName, version, path, tree, rfl, known, member⟩

theorem mem_versionsOf {modelName version : String} :
    version ∈ (state.stored.keys.filter (fun key => key.1 = modelName)).map Prod.snd ↔
      (state.stored.get? (modelName, version)).isSome := by
  simp only [List.mem_map, List.mem_filter, decide_eq_true_eq, Prod.exists, Dict.mem_keys_iff,
    Option.isSome_iff_exists]
  constructor
  · intro given
    rcases given with ⟨model, own, ⟨known, rfl⟩, rfl⟩
    exact known
  · intro known
    exact ⟨modelName, version, ⟨known, rfl⟩, rfl⟩

theorem Holds.listLocal (holds : Holds base state) {modelName : String}
    (model : Proper modelName) :
    listLocal base modelName state.files = state.versionsOf modelName := by
  unfold ModelEvolution.listLocal ArtifactState.versionsOf
  rw [joinPath_proper base (by simpa using model)]
  apply sortedSet_congr
  intro version
  have here := holds.versions modelName version
  rw [mem_versionsOf]
  simp only [List.mem_map, List.mem_filter, decide_eq_true_eq]
  constructor
  · intro given
    rcases given with ⟨path, ⟨-, some, parent, directory⟩, rfl⟩
    obtain ⟨above, version, rfl⟩ := (List.eq_nil_or_concat path).resolve_left some
    rw [List.concat_eq_append] at parent directory here ⊢
    rw [List.dropLast_concat] at parent
    have named : (above ++ [version]).getLastD "" = version := by simp
    rw [parent, List.append_assoc, List.singleton_append, isDirectory_iff] at directory
    rw [named] at here ⊢
    rw [directory] at here
    cases stored : state.stored.get? (modelName, version) with
    | none =>
        rw [stored] at here
        cases here
    | some tree => rfl
  · intro known
    obtain ⟨tree, stored⟩ := Option.isSome_iff_exists.mp known
    rw [stored, Option.map_some] at here
    refine ⟨base ++ [modelName, version], ⟨(Dict.mem_keys_iff _ _).mpr ⟨_, here⟩, by simp, ?_,
      isDirectory_iff.mpr here⟩, by simp⟩
    rw [List.append_cons base modelName [version], List.dropLast_concat]

theorem Holds.listS3 (holds : Holds base state) (modelName : String) :
    listS3 modelName state.bucket = state.versionsOf modelName := by
  unfold ModelEvolution.listS3 ArtifactState.versionsOf
  apply sortedSet_congr
  intro version
  rw [mem_versionsOf]
  simp only [List.mem_map, List.mem_filter, decide_eq_true_eq]
  constructor
  · intro given
    rcases given with ⟨⟨key, ⟨known, inside, -⟩, rfl⟩, -⟩
    obtain ⟨content, found⟩ := (Dict.mem_keys_iff _ _).mp known
    obtain ⟨otherModel, version, path, tree, rfl, stored, -⟩ := (holds.objects _ _).mp found
    have same : modelName = otherModel := by
      simpa [under, keyPrefix] using inside
    subst same
    exact Option.isSome_iff_exists.mpr ⟨tree, stored⟩
  · intro known
    obtain ⟨tree, stored⟩ := Option.isSome_iff_exists.mp known
    obtain ⟨named, some⟩ := holds.full _ _ _ stored
    obtain ⟨file, member⟩ := List.exists_mem_of_ne_nil _ some
    have positive : 0 < file.1.length :=
      List.length_pos_iff.mpr (FileTree.ne_nil_of_mem (FileTree.mem_files.mp member))
    refine ⟨⟨keyPrefix modelName version ++ file.1, ⟨?_, ?_, ?_⟩, rfl⟩, named⟩
    · exact (Dict.mem_keys_iff _ _).mpr ⟨file.2, (holds.objects _ _).mpr
        ⟨modelName, version, file.1, tree, rfl, stored, member⟩⟩
    · simp [under, keyPrefix]
    · rw [List.length_append]
      simp only [keyPrefix, List.length_cons, List.length_nil]
      omega

theorem Holds.agrees (holds : Holds base state) : Agrees base state where
  downloads := fun _ _ model own => ⟨holds.downloadLocal model own, holds.downloadS3 _ _⟩
  versions := fun _ model => ⟨holds.listLocal model, holds.listS3 _⟩

/-! ### The calls -/

theorem prefix_version_iff {above : PathName} {modelName version : String} :
    above <+: base ++ [modelName, version] ↔
      above <+: base ∨ above = base ++ [modelName] ∨ above = base ++ [modelName, version] := by
  rw [List.append_cons base modelName [version], List.prefix_concat_iff, List.prefix_concat_iff]
  constructor
  · intro given
    rcases given with rfl | rfl | inside
    · exact .inr (.inr (by simp))
    · exact .inr (.inl rfl)
    · exact .inl inside
  · intro given
    rcases given with inside | rfl | rfl
    · exact .inr (.inr inside)
    · exact .inr (.inl rfl)
    · exact .inl (by simp)

theorem Holds.clear (holds : Holds base state) (modelName version : String) :
    ∀ above, above ≠ [] → above <+: base ++ [modelName, version] →
      isFile state.files above = false := by
  intro above some inside
  rcases prefix_version_iff.mp inside with way | rfl | rfl
  · rw [isFile, holds.ways above some way]
  · exact holds.models modelName
  · exact holds.isFile_version modelName version

theorem version_append_inj {modelName version otherModel otherVersion : String}
    {path other : PathName} (same : base ++ [modelName, version] ++ path =
      base ++ [otherModel, otherVersion] ++ other) :
    modelName = otherModel ∧ version = otherVersion ∧ path = other := by
  simpa using same

theorem get?_stored_set {modelName version otherModel otherVersion : String}
    {tree : FileTree γ} (stored : Dict (String × String) (FileTree γ)) :
    (stored.set (modelName, version) tree).get? (otherModel, otherVersion) =
      if otherModel = modelName ∧ otherVersion = version then some tree
      else stored.get? (otherModel, otherVersion) := by
  rw [Dict.get?_set]
  simp only [Prod.mk.injEq]

theorem Holds.fits (holds : Holds base state) {modelName version : String} {tree : FileTree γ}
    (covers : ∀ earlier, state.stored.get? (modelName, version) = some earlier →
      ∀ file ∈ earlier.files, file.1 ∈ tree.files.map Prod.fst)
    (free : ∀ file ∈ tree.files,
      isDirectory state.files (base ++ [modelName, version] ++ file.1) = false) :
    Fits tree (base ++ [modelName, version])
      (makeDirs (base ++ [modelName, version]) state.files) := by
  have made := get?_makeDirs (holds.clear modelName version)
  have below (path : PathName) (some : path ≠ []) :
      (makeDirs (base ++ [modelName, version]) state.files).get?
        (base ++ [modelName, version] ++ path) =
      state.files.get? (base ++ [modelName, version] ++ path) := by
    rw [made, if_neg]
    intro given
    rcases given with ⟨-, inside⟩
    have positive := List.length_pos_iff.mpr some
    have shorter := inside.length_le
    rw [List.length_append] at shorter
    omega
  constructor
  · rw [isDirectory_iff, made, if_pos ⟨by simp, List.prefix_refl _⟩]
  · intro path member
    have some := FileTree.ne_nil_of_mem member
    rw [isFile, below path some]
    split
    · next content found =>
        obtain ⟨earlier, stored, known⟩ := (holds.contents _ _ _ _ some).mp found
        obtain ⟨file, among, same⟩ := List.mem_map.mp (covers earlier stored _ known)
        have again := FileTree.mem_files.mp among
        rw [same] at again
        cases FileTree.node_unique member again
    · rfl
  · intro path content member
    have some := FileTree.ne_nil_of_mem member
    have room := free (path, content) (FileTree.mem_files.mpr member)
    rw [isDirectory, below path some]
    exact room

theorem uploadLocal_eq {files : FileSystem γ} {modelName version : String}
    {artifact : Artifact γ} (model : Proper modelName) (own : Proper version)
    (fits : Fits artifact.tree (base ++ [modelName, version])
      (makeDirs (base ++ [modelName, version]) files)) :
    uploadLocal base modelName version artifact files =
      (makeDirs (base ++ [modelName, version]) files).setAll
        (placed (base ++ [modelName, version]) artifact.tree.entries) := by
  unfold uploadLocal
  rw [joinPath_version base model own]
  dsimp only
  rw [if_pos fits.place, copyTree_eq fits]

theorem get?_uploadS3 {bucket : Bucket γ} {modelName version : String} {artifact : Artifact γ}
    {path : PathName} {content : γ} (member : (path, content) ∈ artifact.tree.files) :
    (uploadS3 modelName version artifact bucket).get? (keyPrefix modelName version ++ path) =
      some content := by
  apply Dict.get?_setAll_of_agree
  · exact List.mem_map.mpr ⟨_, member, rfl⟩
  · intro other among
    obtain ⟨file, known, same⟩ := List.mem_map.mp among
    obtain ⟨here, rfl⟩ := Prod.mk.inj same
    have path := (keyPrefix_append_inj here).2.2
    exact path_eq_of_mem_files (path ▸ known) member

theorem get?_uploadS3_of_not_mem {bucket : Bucket γ} {modelName version : String}
    {artifact : Artifact γ} {key : List String}
    (absent : ∀ file ∈ artifact.tree.files, keyPrefix modelName version ++ file.1 ≠ key) :
    (uploadS3 modelName version artifact bucket).get? key = bucket.get? key := by
  apply Dict.get?_setAll_of_not_mem
  intro binding member
  obtain ⟨file, known, rfl⟩ := List.mem_map.mp member
  exact absent file known

theorem Holds.get?_uploaded_of_not_mem (holds : Holds base state) {modelName version : String}
    {artifact : Artifact γ} {path : PathName}
    (absent : ∀ entry ∈ artifact.tree.entries, base ++ [modelName, version] ++ entry.1 ≠ path) :
    ((makeDirs (base ++ [modelName, version]) state.files).setAll
      (placed (base ++ [modelName, version]) artifact.tree.entries)).get? path =
      if path ≠ [] ∧ path <+: base ++ [modelName, version] then some .directory
      else state.files.get? path := by
  rw [get?_placed_of_not_mem absent, get?_makeDirs (holds.clear modelName version)]

theorem Holds.contents_upload (holds : Holds base state) {modelName version : String}
    {artifact : Artifact γ}
    (covers : ∀ earlier, state.stored.get? (modelName, version) = some earlier →
      ∀ file ∈ earlier.files, file.1 ∈ artifact.tree.files.map Prod.fst)
    (other otherVersion : String) {path : PathName} (content : γ) (nonempty : path ≠ []) :
    ((makeDirs (base ++ [modelName, version]) state.files).setAll
      (placed (base ++ [modelName, version]) artifact.tree.entries)).get?
        (base ++ [other, otherVersion] ++ path) = some (.file content) ↔
      ∃ tree, (state.stored.set (modelName, version) artifact.tree).get? (other, otherVersion) =
        some tree ∧ (path, content) ∈ tree.files := by
  have longer : ¬ (base ++ [other, otherVersion] ++ path ≠ [] ∧
      base ++ [other, otherVersion] ++ path <+: base ++ [modelName, version]) := by
    intro given
    rcases given with ⟨-, inside⟩
    have shorter := inside.length_le
    have positive := List.length_pos_iff.mpr nonempty
    simp only [List.length_append, List.length_cons, List.length_nil] at shorter
    omega
  rw [get?_stored_set]
  by_cases here : other = modelName ∧ otherVersion = version
  · obtain ⟨rfl, rfl⟩ := here
    rw [if_pos ⟨rfl, rfl⟩]
    simp only [Option.some.injEq, exists_eq_left', FileTree.mem_files]
    by_cases entered : ∃ node, (path, node) ∈ artifact.tree.entries
    · obtain ⟨node, member⟩ := entered
      rw [get?_placed_of_mem artifact.tree.nodup member, Option.some.injEq]
      constructor
      · intro given
        rcases given with rfl
        exact member
      · exact fun file => FileTree.node_unique member file
    · push Not at entered
      have absent : ∀ entry ∈ artifact.tree.entries,
          base ++ [other, otherVersion] ++ entry.1 ≠ base ++ [other, otherVersion] ++ path := by
        intro entry member same
        have path := List.append_cancel_left same
        exact entered entry.2 (path ▸ member)
      rw [holds.get?_uploaded_of_not_mem absent, if_neg longer, holds.contents _ _ _ _ nonempty]
      constructor
      · intro given
        rcases given with ⟨earlier, stored, known⟩
        obtain ⟨⟨place, data⟩, among, same⟩ := List.mem_map.mp (covers earlier stored _ known)
        obtain rfl : place = path := same
        exact absurd (FileTree.mem_files.mp among) (entered _)
      · exact fun file => absurd file (entered _)
  · have absent : ∀ entry ∈ artifact.tree.entries,
        base ++ [modelName, version] ++ entry.1 ≠ base ++ [other, otherVersion] ++ path := by
      intro entry member same
      obtain ⟨rfl, rfl, -⟩ := version_append_inj same
      exact here ⟨rfl, rfl⟩
    rw [if_neg here, holds.get?_uploaded_of_not_mem absent, if_neg longer]
    exact holds.contents other otherVersion path content nonempty

theorem Holds.objects_upload (holds : Holds base state) {modelName version : String}
    {artifact : Artifact γ}
    (covers : ∀ earlier, state.stored.get? (modelName, version) = some earlier →
      ∀ file ∈ earlier.files, file.1 ∈ artifact.tree.files.map Prod.fst)
    (key : List String) (content : γ) :
    (uploadS3 modelName version artifact state.bucket).get? key = some content ↔
      ∃ other otherVersion path tree, key = keyPrefix other otherVersion ++ path ∧
        (state.stored.set (modelName, version) artifact.tree).get? (other, otherVersion) =
          some tree ∧ (path, content) ∈ tree.files := by
  by_cases uploaded : ∃ file ∈ artifact.tree.files, keyPrefix modelName version ++ file.1 = key
  · obtain ⟨file, member, rfl⟩ := uploaded
    rw [get?_uploadS3 member, Option.some.injEq]
    constructor
    · intro given
      rcases given with rfl
      exact ⟨modelName, version, file.1, artifact.tree, rfl,
        by rw [get?_stored_set, if_pos ⟨rfl, rfl⟩], member⟩
    · intro given
      rcases given with ⟨other, otherVersion, path, tree, same, stored, among⟩
      obtain ⟨rfl, rfl, rfl⟩ := keyPrefix_append_inj same
      rw [get?_stored_set, if_pos ⟨rfl, rfl⟩] at stored
      obtain rfl := Option.some.inj stored
      exact path_eq_of_mem_files member among
  · push Not at uploaded
    rw [get?_uploadS3_of_not_mem uploaded, holds.objects]
    constructor
    · intro given
      rcases given with ⟨other, otherVersion, path, tree, rfl, stored, member⟩
      by_cases here : other = modelName ∧ otherVersion = version
      · obtain ⟨rfl, rfl⟩ := here
        obtain ⟨file, among, same⟩ := List.mem_map.mp (covers tree stored _ member)
        exact absurd (congrArg _ same) (uploaded file among)
      · refine ⟨other, otherVersion, path, tree, rfl, ?_, member⟩
        rw [get?_stored_set, if_neg here]
        exact stored
    · intro given
      rcases given with ⟨other, otherVersion, path, tree, rfl, stored, member⟩
      rw [get?_stored_set] at stored
      by_cases here : other = modelName ∧ otherVersion = version
      · obtain ⟨rfl, rfl⟩ := here
        rw [if_pos ⟨rfl, rfl⟩, Option.some.injEq] at stored
        subst stored
        exact absurd rfl (uploaded (path, content) member)
      · rw [if_neg here] at stored
        exact ⟨other, otherVersion, path, tree, rfl, stored, member⟩

theorem Holds.upload (holds : Holds base state) {modelName version : String}
    {artifact : Artifact γ} (plain : Plain base state (.upload modelName version artifact)) :
    Holds base
      { files := uploadLocal base modelName version artifact state.files
        bucket := uploadS3 modelName version artifact state.bucket
        stored := state.stored.set (modelName, version) artifact.tree } := by
  obtain ⟨model, own, anyFile, covers, free⟩ := plain
  rw [joinPath_version base model own] at free
  rw [uploadLocal_eq model own (holds.fits covers free)]
  have above (path : PathName) (short : path.length ≤ base.length + 2) :
      ∀ entry ∈ artifact.tree.entries, base ++ [modelName, version] ++ entry.1 ≠ path := by
    intro entry member given
    rcases given with rfl
    have positive := List.length_pos_iff.mpr (FileTree.ne_nil_of_mem member)
    simp only [List.length_append, List.length_cons, List.length_nil] at short
    omega
  constructor
  · intro path nonempty way
    have short : path.length ≤ base.length + 2 := by
      have shorter := way.length_le
      omega
    rw [holds.get?_uploaded_of_not_mem (above path short),
      if_pos ⟨nonempty, way.trans (List.prefix_append _ _)⟩]
  · intro other
    rw [isFile, holds.get?_uploaded_of_not_mem (above _ (by simp))]
    by_cases way : base ++ [other] ≠ [] ∧ base ++ [other] <+: base ++ [modelName, version]
    · rw [if_pos way]
    · rw [if_neg way]
      exact holds.models other
  · intro other otherVersion
    rw [holds.get?_uploaded_of_not_mem (above _ (by simp)), get?_stored_set]
    by_cases here : other = modelName ∧ otherVersion = version
    · obtain ⟨rfl, rfl⟩ := here
      rw [if_pos ⟨by simp, List.prefix_refl _⟩, if_pos ⟨rfl, rfl⟩]
      rfl
    · have apart : ¬ (base ++ [other, otherVersion] ≠ [] ∧
          base ++ [other, otherVersion] <+: base ++ [modelName, version]) := by
        intro given
        rcases given with ⟨-, inside⟩
        have same := inside.eq_of_length (by simp)
        exact here (by simpa using same)
      rw [if_neg apart, if_neg here]
      exact holds.versions other otherVersion
  · intro other otherVersion path content nonempty
    exact holds.contents_upload covers other otherVersion content nonempty
  · exact holds.objects_upload covers
  · intro other otherVersion tree stored
    rw [get?_stored_set] at stored
    by_cases here : other = modelName ∧ otherVersion = version
    · rw [if_pos here, Option.some.injEq] at stored
      rw [here.2, ← stored]
      exact ⟨own.1, anyFile⟩
    · rw [if_neg here] at stored
      exact holds.full _ _ _ stored

theorem get?_stored_erase {modelName version otherModel otherVersion : String}
    (stored : Dict (String × String) (FileTree γ)) :
    (stored.erase (modelName, version)).get? (otherModel, otherVersion) =
      if otherModel = modelName ∧ otherVersion = version then none
      else stored.get? (otherModel, otherVersion) := by
  rw [Dict.get?_erase]
  simp only [Prod.mk.injEq]

theorem version_prefix_iff {modelName version other otherVersion : String} {path : PathName} :
    base ++ [modelName, version] <+: base ++ [other, otherVersion] ++ path ↔
      other = modelName ∧ otherVersion = version := by
  rw [List.append_assoc, List.prefix_append_right_inj]
  simp only [List.cons_append, List.nil_append, List.cons_prefix_cons, List.nil_prefix, and_true]
  exact and_congr eq_comm eq_comm

theorem not_below_version {modelName version : String} {path : PathName}
    (short : path.length < base.length + 2) : ¬ base ++ [modelName, version] <+: path := by
  intro inside
  have shorter := inside.length_le
  simp only [List.length_append, List.length_cons, List.length_nil] at shorter
  omega

theorem get?_deleteS3 (holds : Holds base state) {modelName version : String}
    (few : (objectsUnder modelName version state.bucket).length ≤ 1000)
    {other otherVersion : String} {path : PathName} (some : path ≠ []) :
    (deleteS3 modelName version state.bucket).get? (keyPrefix other otherVersion ++ path) =
      if other = modelName ∧ otherVersion = version then none
      else state.bucket.get? (keyPrefix other otherVersion ++ path) := by
  unfold deleteS3
  dsimp only
  rw [if_pos few, Dict.get?_eraseAll]
  by_cases here : other = modelName ∧ otherVersion = version
  · rw [if_pos here, here.1, here.2]
    split
    · rfl
    · next absent =>
        rw [Option.eq_none_iff_forall_not_mem]
        intro content found
        apply absent
        rw [objectsUnder, List.mem_filter, Dict.mem_keys_iff, under_keyPrefix_iff]
        exact ⟨⟨content, found⟩, path, some, rfl⟩
  · rw [if_neg here, if_neg]
    intro listed
    obtain ⟨below, content, tree, same, -⟩ := (mem_objectsUnder_iff holds).mp listed
    obtain ⟨rfl, rfl, -⟩ := keyPrefix_append_inj same
    exact here ⟨rfl, rfl⟩

theorem Holds.objects_delete (holds : Holds base state) {modelName version : String}
    (few : (objectsUnder modelName version state.bucket).length ≤ 1000) (key : List String)
    (content : γ) :
    (deleteS3 modelName version state.bucket).get? key = some content ↔
      ∃ other otherVersion path tree, key = keyPrefix other otherVersion ++ path ∧
        (state.stored.erase (modelName, version)).get? (other, otherVersion) = some tree ∧
        (path, content) ∈ tree.files := by
  constructor
  · intro kept
    have found : state.bucket.get? key = some content := by
      unfold deleteS3 at kept
      dsimp only at kept
      rw [if_pos few, Dict.get?_eraseAll] at kept
      split at kept
      · cases kept
      · exact kept
    obtain ⟨other, otherVersion, path, tree, rfl, stored, member⟩ := (holds.objects _ _).mp found
    have nonempty := FileTree.ne_nil_of_mem (FileTree.mem_files.mp member)
    refine ⟨other, otherVersion, path, tree, rfl, ?_, member⟩
    rw [get?_deleteS3 holds few nonempty] at kept
    rw [get?_stored_erase]
    split at kept
    · cases kept
    · next apart => rw [if_neg apart, stored]
  · intro given
    rcases given with ⟨other, otherVersion, path, tree, rfl, stored, member⟩
    have nonempty := FileTree.ne_nil_of_mem (FileTree.mem_files.mp member)
    rw [get?_stored_erase] at stored
    rw [get?_deleteS3 holds few nonempty]
    split at stored
    · cases stored
    · next apart =>
        rw [if_neg apart]
        exact (holds.objects _ _).mpr ⟨other, otherVersion, path, tree, rfl, stored, member⟩

theorem Holds.delete (holds : Holds base state) {modelName version : String}
    (plain : Plain base state (.delete modelName version)) :
    Holds base
      { files := deleteLocal base modelName version state.files
        bucket := deleteS3 modelName version state.bucket
        stored := state.stored.erase (modelName, version) } := by
  obtain ⟨model, own, few⟩ := plain
  have objects := holds.objects_delete few
  have full : ∀ other otherVersion tree,
      (state.stored.erase (modelName, version)).get? (other, otherVersion) = some tree →
      otherVersion ≠ "" ∧ tree.files ≠ [] := by
    intro other otherVersion tree stored
    rw [get?_stored_erase] at stored
    split at stored
    · cases stored
    · exact holds.full _ _ _ stored
  have here := holds.versions modelName version
  unfold deleteLocal
  rw [joinPath_version base model own]
  dsimp only
  cases stored : state.stored.get? (modelName, version) with
  | none =>
      -- nothing is stored, so nothing changes
      have same (other otherVersion : String) :
          (state.stored.erase (modelName, version)).get? (other, otherVersion) =
            state.stored.get? (other, otherVersion) := by
        rw [get?_stored_erase]
        split
        · next equal => rw [equal.1, equal.2, stored]
        · rfl
      rw [stored, Option.map_none] at here
      rw [if_neg (by simp [isDirectory, here])]
      refine ⟨holds.ways, holds.models, ?_, ?_, objects, full⟩
      · intro other otherVersion
        rw [same]
        exact holds.versions other otherVersion
      · intro other otherVersion path content nonempty
        rw [same]
        exact holds.contents other otherVersion path content nonempty
  | some tree =>
      rw [stored, Option.map_some] at here
      rw [if_pos (isDirectory_iff.mpr here)]
      refine ⟨?_, ?_, ?_, ?_, objects, full⟩
      · intro above nonempty way
        have shorter := way.length_le
        rw [get?_removeTree, if_neg (not_below_version (by omega))]
        exact holds.ways above nonempty way
      · intro other
        rw [isFile, get?_removeTree, if_neg (not_below_version (by simp))]
        exact holds.models other
      · intro other otherVersion
        rw [get?_removeTree, get?_stored_erase]
        have inside : base ++ [modelName, version] <+: base ++ [other, otherVersion] ↔
            other = modelName ∧ otherVersion = version := by
          rw [← version_prefix_iff, List.append_nil]
        simp only [inside]
        split
        · rfl
        · exact holds.versions other otherVersion
      · intro other otherVersion path content nonempty
        rw [get?_removeTree, get?_stored_erase]
        simp only [version_prefix_iff]
        split
        · simp
        · exact holds.contents other otherVersion path content nonempty

theorem holds_initial : Holds base (ArtifactState.initial base : ArtifactState γ) := by
  have made (path : PathName) : (makeDirs base (∅ : FileSystem γ)).get? path =
      if path ≠ [] ∧ path <+: base then some .directory else none :=
    get?_makeDirs (fun _ _ _ => rfl) path
  have outside (path : PathName) (longer : base.length < path.length) :
      (makeDirs base (∅ : FileSystem γ)).get? path = none := by
    rw [made, if_neg]
    intro given
    rcases given with ⟨-, inside⟩
    have shorter := inside.length_le
    omega
  constructor
  · intro above nonempty way
    exact (made above).trans (if_pos ⟨nonempty, way⟩)
  · intro modelName
    rw [isFile, ArtifactState.initial, outside _ (by simp)]
  · intro modelName version
    exact outside _ (by simp)
  · intro modelName version path content _
    rw [ArtifactState.initial, outside _ (by simp)]
    simp
  · intro key content
    simp [ArtifactState.initial]
  · intro modelName version tree stored
    cases stored

theorem Holds.perform (holds : Holds base state) {call : ArtifactCall γ} {next : ArtifactState γ}
    (stepped : call.perform base state = some next) (plain : Plain base state call) :
    Holds base next := by
  cases call with
  | upload modelName version artifact =>
      obtain rfl := Option.some.inj stepped
      exact holds.upload plain
  | delete modelName version =>
      obtain rfl := Option.some.inj stepped
      exact holds.delete plain
  | download modelName version =>
      obtain rfl := Option.some.inj stepped
      exact holds

theorem stored_perform {call : ArtifactCall γ} {next : ArtifactState γ}
    (stepped : call.perform base state = some next) {modelName version : String}
    (other : call.target ≠ some (modelName, version)) :
    next.stored.get? (modelName, version) = state.stored.get? (modelName, version) := by
  cases call with
  | upload ofModel ofVersion artifact =>
      obtain rfl := Option.some.inj stepped
      rw [get?_stored_set, if_neg]
      intro given
      rcases given with ⟨rfl, rfl⟩
      exact other rfl
  | delete ofModel ofVersion =>
      obtain rfl := Option.some.inj stepped
      rw [get?_stored_erase, if_neg]
      intro given
      rcases given with ⟨rfl, rfl⟩
      exact other rfl
  | download ofModel ofVersion =>
      obtain rfl := Option.some.inj stepped
      rfl

theorem mem_sortedSet {names : List String} {name : String} :
    name ∈ sortedSet names ↔ name ∈ names := by
  rw [sortedSet, List.mem_insertionSort, List.mem_dedup]

theorem Holds.untouched (holds : Holds base state) {call : ArtifactCall γ}
    {next : ArtifactState γ} (stepped : call.perform base state = some next)
    (plain : Plain base state call) : Untouched base ⟨state, call, next⟩ := by
  intro modelName version model own other
  have after := holds.perform stepped plain
  have stored := stored_perform stepped other
  have files : next.filesOf modelName version = state.filesOf modelName version := by
    funext path
    rw [ArtifactState.filesOf, ArtifactState.filesOf, stored]
  have listed : version ∈ next.versionsOf modelName ↔ version ∈ state.versionsOf modelName := by
    rw [ArtifactState.versionsOf, ArtifactState.versionsOf, mem_sortedSet, mem_sortedSet,
      mem_versionsOf, mem_versionsOf, stored]
  refine ⟨?_, ?_, ?_, ?_⟩
  · rw [after.downloadLocal model own, holds.downloadLocal model own, files]
  · rw [after.downloadS3, holds.downloadS3, files]
  · rw [after.listLocal model, holds.listLocal model, listed]
  · rw [after.listS3, holds.listS3, listed]

/-- After any sequence of such calls both backends give the files of the last upload of each version
that was not deleted since, and list the versions that have one; and no call touches a version other
than its own. -/
theorem agrees_of_plain {events : List (Event (ArtifactState γ) (ArtifactCall γ))}
    (run : Run (ArtifactCall.perform base) (.initial base) events state)
    (plain : ∀ event ∈ events, Plain base event.before event.action) :
    Agrees base state ∧ ∀ event ∈ events, Untouched base event := by
  have kept : ∀ (state : ArtifactState γ) call next, Holds base state →
      call.perform base state = some next → Plain base state call → Holds base next :=
    fun _ _ _ holds stepped fine => holds.perform stepped fine
  constructor
  · exact (run.invariant (fun event => Plain base event.before event.action) (Holds base)
      holds_initial kept plain).agrees
  · intro event member
    obtain ⟨stepped, holds⟩ := run.invariant_before
      (fun event => Plain base event.before event.action) (Holds base) holds_initial kept plain
      member
    exact holds.untouched stepped (plain event member)

/-- The upload of a file and the deletion of its version. -/
theorem agrees_after_deletion :
    ∃ events state, Run (ArtifactCall.perform (localPath "rag-artifacts"))
      (.initial (localPath "rag-artifacts") : ArtifactState String) events state ∧
      events.length = 2 ∧ Agrees (localPath "rag-artifacts") state ∧
      ∀ event ∈ events, Untouched (localPath "rag-artifacts") event := by
  have run : Run (ArtifactCall.perform (localPath "rag-artifacts"))
      (.initial (localPath "rag-artifacts") : ArtifactState String) _ _ :=
    (Run.nil.snoc (.upload "ranker" "1" (.file "weights" "w")) rfl).snoc
      (.delete "ranker" "1") rfl
  refine ⟨_, _, run, rfl, agrees_of_plain run ?_⟩
  intro event member
  rw [List.nil_append, List.singleton_append, List.mem_cons, List.mem_singleton] at member
  rcases member with rfl | rfl
  · refine ⟨by decide, by decide, by decide, ?_, by decide +kernel⟩
    intro tree stored
    cases stored
  · exact ⟨by decide, by decide, by decide +kernel⟩

/-- A version that is uploaded again with another file keeps the first one as well. -/
theorem reupload_overlays :
    ∃ events state, Run (ArtifactCall.perform (localPath "rag-artifacts"))
      (.initial (localPath "rag-artifacts") : ArtifactState String) events state ∧
      ¬ Agrees (localPath "rag-artifacts") state := by
  refine ⟨_, _, (Run.nil.snoc (.upload "ranker" "1" (.file "old" "w")) rfl).snoc
    (.upload "ranker" "1" (.file "new" "w")) rfl, ?_⟩
  intro agrees
  have downloaded := (agrees.downloads "ranker" "1" (by decide) (by decide)).1
  have old := congrArg (fun files => files.map (· ["old"])) downloaded
  revert old
  decide +kernel

end RagSystem.ModelEvolution
