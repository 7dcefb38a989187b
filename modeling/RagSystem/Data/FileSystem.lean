import Mathlib.Data.List.Induction
import RagSystem.Data.Dict

/-! Directory trees as dictionaries of paths: making directories, copying a tree into them, and
removing one. -/

/-- The names on the way to a file or a directory. -/
abbrev PathName := List String

inductive FileNode (γ : Type)
  | directory
  | file (content : γ)
  deriving DecidableEq, Repr

abbrev FileSystem (γ : Type) := Dict PathName (FileNode γ)

/-- What stands in a directory and below it, each directory before what is in it. -/
structure FileTree (γ : Type) where
  entries : List (PathName × FileNode γ)
  nodup : (entries.map Prod.fst).Nodup
  rooted : ∀ earlier entry later, entries = earlier ++ entry :: later →
    entry.1 ≠ [] ∧ (entry.1.dropLast = [] ∨ (entry.1.dropLast, FileNode.directory) ∈ earlier)

namespace FileTree

variable {γ : Type}

/-- The tree with one file. -/
def single (name : String) (content : γ) : FileTree γ where
  entries := [([name], .file content)]
  nodup := List.nodup_singleton _
  rooted := by
    intro earlier entry later split
    cases earlier with
    | nil =>
        obtain ⟨rfl, -⟩ := List.cons.inj split
        simp
    | cons first rest => simp at split

def files (tree : FileTree γ) : List (PathName × γ) :=
  tree.entries.filterMap (fun entry =>
    match entry.2 with
    | .file content => some (entry.1, content)
    | .directory => none)

theorem mem_files {tree : FileTree γ} {path : PathName} {content : γ} :
    (path, content) ∈ tree.files ↔ (path, .file content) ∈ tree.entries := by
  simp only [files, List.mem_filterMap, Prod.exists]
  constructor
  · intro given
    rcases given with ⟨other, node, member, found⟩
    cases node with
    | directory => simp at found
    | file held =>
        simp only [Option.some.injEq, Prod.mk.injEq] at found
        obtain ⟨rfl, rfl⟩ := found
        exact member
  · intro member
    exact ⟨path, .file content, member, rfl⟩

theorem ne_nil_of_mem {tree : FileTree γ} {entry : PathName × FileNode γ}
    (member : entry ∈ tree.entries) :
    entry.1 ≠ [] := by
  obtain ⟨earlier, later, split⟩ := List.append_of_mem member
  exact (tree.rooted _ _ _ split).1

theorem node_unique {tree : FileTree γ} {path : PathName} {first second : FileNode γ}
    (one : (path, first) ∈ tree.entries) (other : (path, second) ∈ tree.entries) :
    first = second :=
  congrArg Prod.snd (List.inj_on_of_nodup_map tree.nodup one other rfl)

theorem directory_of_append {tree : FileTree γ} {above more : PathName} {node : FileNode γ}
    (member : (above ++ more, node) ∈ tree.entries) (some : above ≠ []) (below : more ≠ []) :
    (above, FileNode.directory) ∈ tree.entries := by
  induction more using List.reverseRecOn generalizing node with
  | nil => contradiction
  | append_singleton more name ih =>
      obtain ⟨earlier, later, split⟩ := List.append_of_mem member
      have parent := (tree.rooted _ _ _ split).2
      rw [← List.append_assoc, List.dropLast_concat] at parent
      rcases parent with top | known
      · exact absurd (List.append_eq_nil_iff.mp top).1 some
      · have parentMember : (above ++ more, FileNode.directory) ∈ tree.entries := by
          rw [split]
          exact List.mem_append_left _ known
        by_cases last : more = []
        · rwa [last, List.append_nil] at parentMember
        · exact ih parentMember last

end FileTree

namespace FileSystem

variable {γ : Type}

def isDirectory (files : FileSystem γ) (path : PathName) : Bool :=
  match files.get? path with
  | some .directory => true
  | _ => false

def isFile (files : FileSystem γ) (path : PathName) : Bool :=
  match files.get? path with
  | some (.file _) => true
  | _ => false

/-- The directories on the way to the path, until a file is in it. -/
def makeDirsFrom (above : PathName) : List String → FileSystem γ → FileSystem γ
  | [], files => files
  | name :: rest, files =>
      if isFile files (above ++ [name]) then files
      else makeDirsFrom (above ++ [name]) rest (files.set (above ++ [name]) .directory)

def makeDirs (path : PathName) (files : FileSystem γ) : FileSystem γ := makeDirsFrom [] path files

/-- One entry of a tree that is copied. A file whose place a directory has goes into that directory
under its own name. What cannot be written is left out. -/
def copyEntry (dest : PathName) (files : FileSystem γ) (entry : PathName × FileNode γ) :
    FileSystem γ :=
  let place := dest ++ entry.1
  match entry.2 with
  | .directory =>
      if isFile files place ∨ ¬ isDirectory files place.dropLast then files
      else files.set place .directory
  | .file content =>
      let target := if isDirectory files place then place ++ [place.getLastD ""] else place
      if isDirectory files target ∨ ¬ isDirectory files target.dropLast then files
      else files.set target (.file content)

def copyTree (tree : FileTree γ) (dest : PathName) (files : FileSystem γ) : FileSystem γ :=
  tree.entries.foldl (copyEntry dest) files

def removeTree (path : PathName) (files : FileSystem γ) : FileSystem γ :=
  files.eraseAll (files.keys.filter (path <+: ·))

theorem get?_removeTree (path other : PathName) (files : FileSystem γ) :
    (removeTree path files).get? other = if path <+: other then none else files.get? other := by
  rw [removeTree, Dict.get?_eraseAll]
  by_cases below : path <+: other
  · rw [if_pos below]
    split
    · rfl
    · next absent =>
        have unknown : other ∉ files.keys := fun known =>
          absent (List.mem_filter.mpr ⟨known, by simpa using below⟩)
        exact Dict.get?_eq_none_of_not_mem unknown
  · rw [if_neg below, if_neg (by simp [below])]

theorem isFile_set_of_ne {files : FileSystem γ} {path other : PathName} (differs : other ≠ path)
    (node : FileNode γ) : isFile (files.set path node) other = isFile files other := by
  rw [isFile, isFile, Dict.get?_set_of_ne differs]

theorem get?_makeDirsFrom {above : PathName} {names : List String} {files : FileSystem γ}
    (clear : ∀ path, path ≠ [] → path <+: names → isFile files (above ++ path) = false)
    (other : PathName) :
    (makeDirsFrom above names files).get? other =
      if above <+: other ∧ other ≠ above ∧ other <+: above ++ names then some .directory
      else files.get? other := by
  induction names generalizing above files with
  | nil =>
      have outside : ¬ (above <+: other ∧ other ≠ above ∧ other <+: above ++ []) := by
        intro given
        rcases given with ⟨into, differs, back⟩
        rw [List.append_nil] at back
        exact differs (back.eq_of_length_le into.length_le)
      rw [makeDirsFrom, if_neg outside]
  | cons name rest ih =>
      have free : isFile files (above ++ [name]) = false :=
        clear [name] (List.cons_ne_nil _ _) (List.prefix_append [name] rest)
      have later : ∀ path, path ≠ [] → path <+: rest →
          isFile (files.set (above ++ [name]) .directory) (above ++ [name] ++ path) = false := by
        intro path some within
        have differs : above ++ [name] ++ path ≠ above ++ [name] := by simpa using some
        rw [isFile_set_of_ne differs, List.append_assoc]
        exact clear ([name] ++ path) (by simp) ((List.prefix_append_right_inj [name]).mpr within)
      rw [makeDirsFrom, if_neg (by simp [free]), ih later, Dict.get?_set, List.append_assoc,
        List.singleton_append]
      by_cases here : other = above ++ [name]
      · subst here
        have inside : above <+: above ++ [name] ∧ above ++ [name] ≠ above ∧
            above ++ [name] <+: above ++ name :: rest :=
          ⟨List.prefix_append _ _, by simp, (List.prefix_append_right_inj above).mpr
            (List.prefix_append [name] rest)⟩
        rw [if_pos inside, if_neg (by simp), if_pos rfl]
      · rw [if_neg here]
        have same : (above ++ [name] <+: other ∧ other ≠ above ++ [name] ∧
              other <+: above ++ name :: rest) ↔
            (above <+: other ∧ other ≠ above ∧ other <+: above ++ name :: rest) := by
          constructor
          · intro given
            rcases given with ⟨into, -, within⟩
            refine ⟨(List.prefix_append above [name]).trans into, ?_, within⟩
            intro given
            rcases given with rfl
            have longer := into.length_le
            rw [List.length_append, List.length_singleton] at longer
            omega
          · intro given
            rcases given with ⟨⟨more, rfl⟩, differs, within⟩
            have further := (List.prefix_append_right_inj above).mp within
            cases more with
            | nil => simp at differs
            | cons first more =>
                obtain ⟨rfl, -⟩ := List.cons_prefix_cons.mp further
                exact ⟨⟨more, by simp⟩, here, within⟩
        simp only [same]

theorem get?_makeDirs {path : PathName} {files : FileSystem γ}
    (clear : ∀ above, above ≠ [] → above <+: path → isFile files above = false) (other : PathName) :
    (makeDirs path files).get? other =
      if other ≠ [] ∧ other <+: path then some .directory else files.get? other := by
  rw [makeDirs, get?_makeDirsFrom clear]
  simp

/-- The tree can be copied to the place, which is a directory: no file is where the tree has a
directory, nor the other way round. -/
structure Fits (tree : FileTree γ) (dest : PathName) (files : FileSystem γ) : Prop where
  place : isDirectory files dest = true
  directories : ∀ path, (path, FileNode.directory) ∈ tree.entries →
    isFile files (dest ++ path) = false
  files : ∀ path content, (path, FileNode.file content) ∈ tree.entries →
    isDirectory files (dest ++ path) = false

/-- The entries at their places. -/
def placed (dest : PathName) (entries : List (PathName × FileNode γ)) :
    List (PathName × FileNode γ) :=
  entries.map (fun entry => (dest ++ entry.1, entry.2))

theorem mem_placed {dest path : PathName} {node : FileNode γ}
    {entries : List (PathName × FileNode γ)} :
    (dest ++ path, node) ∈ placed dest entries ↔ (path, node) ∈ entries := by
  simp [placed]

theorem get?_placed_of_mem {dest path : PathName} {node : FileNode γ}
    {entries : List (PathName × FileNode γ)}
    (nodup : (entries.map Prod.fst).Nodup) (member : (path, node) ∈ entries)
    (files : FileSystem γ) :
    (files.setAll (placed dest entries)).get? (dest ++ path) = some node := by
  apply Dict.get?_setAll_of_agree (mem_placed.mpr member)
  intro other among
  exact congrArg Prod.snd (List.inj_on_of_nodup_map nodup (mem_placed.mp among) member rfl)

theorem get?_placed_of_not_mem {dest path : PathName} {entries : List (PathName × FileNode γ)}
    (absent : ∀ entry ∈ entries, dest ++ entry.1 ≠ path) (files : FileSystem γ) :
    (files.setAll (placed dest entries)).get? path = files.get? path := by
  apply Dict.get?_setAll_of_not_mem
  intro binding member
  obtain ⟨entry, known, rfl⟩ := List.mem_map.mp member
  exact absent entry known

theorem isDirectory_iff {files : FileSystem γ} {path : PathName} :
    isDirectory files path = true ↔ files.get? path = some .directory := by
  unfold isDirectory
  split
  · next found => simp [found]
  · next other => simpa using other

theorem copyEntry_eq {dest : PathName} {files : FileSystem γ} {entry : PathName × FileNode γ}
    (above : isDirectory files (dest ++ entry.1).dropLast = true)
    (noFile : entry.2 = .directory → isFile files (dest ++ entry.1) = false)
    (noDirectory : ∀ content, entry.2 = .file content →
      isDirectory files (dest ++ entry.1) = false) :
    copyEntry dest files entry = files.set (dest ++ entry.1) entry.2 := by
  obtain ⟨path, node⟩ := entry
  cases node with
  | directory => simp_all [copyEntry]
  | file content => simp_all [copyEntry]

theorem copyTree_eq {tree : FileTree γ} {dest : PathName} {files : FileSystem γ}
    (fits : Fits tree dest files) :
    copyTree tree dest files = files.setAll (placed dest tree.entries) := by
  have upTo : ∀ earlier later, tree.entries = earlier ++ later →
      earlier.foldl (copyEntry dest) files = files.setAll (placed dest earlier) := by
    intro earlier
    induction earlier using List.reverseRecOn with
    | nil => exact fun _ _ => rfl
    | append_singleton earlier entry ih =>
        intro later split
        rw [List.append_assoc, List.singleton_append] at split
        have member : entry ∈ tree.entries := by simp [split]
        have known : ∀ other ∈ earlier, other ∈ tree.entries := by
          intro other before
          rw [split]
          exact List.mem_append_left _ before
        have distinct := tree.nodup
        rw [split, List.map_append, List.map_cons, List.nodup_append'] at distinct
        obtain ⟨some, parent⟩ := tree.rooted earlier entry later split
        have fresh : (files.setAll (placed dest earlier)).get? (dest ++ entry.1) =
            files.get? (dest ++ entry.1) := by
          apply get?_placed_of_not_mem
          intro other before same
          have twice : other.1 = entry.1 := List.append_cancel_left same
          exact distinct.2.2 (List.mem_map_of_mem before) (twice ▸ List.mem_cons_self)
        have above : isDirectory (files.setAll (placed dest earlier))
            (dest ++ entry.1).dropLast = true := by
          rw [List.dropLast_append_of_ne_nil some, isDirectory_iff]
          rcases parent with top | parentKnown
          · rw [top, List.append_nil, get?_placed_of_not_mem]
            · exact isDirectory_iff.mp fits.place
            · intro other before same
              exact FileTree.ne_nil_of_mem (known other before) (by simpa using same)
          · exact get?_placed_of_mem distinct.1 parentKnown files
        have written : copyEntry dest (files.setAll (placed dest earlier)) entry =
            (files.setAll (placed dest earlier)).set (dest ++ entry.1) entry.2 := by
          apply copyEntry_eq above
          · intro directory
            rw [isFile, fresh]
            exact fits.directories entry.1 (directory ▸ member)
          · intro content file
            rw [isDirectory, fresh]
            exact fits.files entry.1 content (file ▸ member)
        rw [List.foldl_append, ih _ split, List.foldl_cons, List.foldl_nil, written, placed,
          placed, List.map_append, Dict.setAll_append]
        rfl
  exact upTo tree.entries [] (List.append_nil _).symm

end FileSystem
