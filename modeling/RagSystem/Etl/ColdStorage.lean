import Mathlib.Data.List.Lex
import RagSystem.Data.Grouping
import RagSystem.Data.StableSort

/-! The cleanup of the cold storage (`etl/scheduler/cold_storage_cleanup.py`): the files of a
document are ordered by the first number of their version, and those behind the limit removed. -/

namespace RagSystem.Etl.ColdStorage

abbrev Name := List Char

def extension : Name := ".parquet".toList

/-- `\d`. -/
def isDigit (char : Char) : Bool := (decimalDigit char).isSome

/-- `int`; the name of a file is too short for the digits that it refuses. -/
def numberOf (digits : Name) : Nat :=
  digits.foldl (fun value char => 10 * value + (decimalDigit char).getD 0) 0

/-- `\d+(?:_\d+)*`: digits and underscores, with digits before and behind each underscore. -/
def isVersion (text : Name) : Bool :=
  text.all (fun char => char = '_' || isDigit char) &&
    (text.splitOn '_').all (fun part => !part.isEmpty)

/-- The version in `_v(..)\.parquet$`. -/
def versionBehind : Name → Option Name
  | '_' :: 'v' :: rest =>
      let length := rest.length - extension.length
      if rest.drop length = extension ∧ isVersion (rest.take length) then some (rest.take length)
      else none
  | _ => none

/-- The shortest name of a document, of at least one of the given characters, with a version behind
it. -/
def splitName (inside : Char → Bool) (name : Name) : Option (Name × Name) :=
  (List.range' 1 name.length).findSome? (fun length =>
    if (name.take length).all inside then
      (versionBehind (name.drop length)).map (fun version => (name.take length, version))
    else none)

/-- `pattern.match(name)`; the point stands for every character but the line break. -/
def matchName (name : Name) : Option (Name × Name) := splitName (· ≠ '\n') name

structure VersionFile where
  document : Name
  path : Name
  major : Nat
  deriving DecidableEq, Repr

/-- `int(version_str.split("_")[0])`. -/
def majorVersion (version : Name) : Nat := numberOf ((version.splitOn '_').headD [])

/-- The files that `glob("*.parquet")` lists and the pattern matches. -/
def versionFiles (names : List Name) : List VersionFile :=
  (names.filter (fun name => extension.isSuffixOf name)).filterMap (fun name =>
    (matchName name).map (fun found => ⟨found.1, name, majorVersion found.2⟩))

def byMajor (files : List VersionFile) : List VersionFile :=
  sortDescending (fun file => (file.major : ℚ)) files

def listParquetVersions (names : List Name) : Dict Name (List VersionFile) :=
  (groupBy VersionFile.document (versionFiles names)).mapValues byMajor

def pruneOldVersions (versionMap : Dict Name (List VersionFile)) (maxVersions : Nat) :
    List Name :=
  versionMap.entries.flatMap (fun entry =>
    if entry.2.length ≤ maxVersions then []
    else (entry.2.drop maxVersions).map VersionFile.path)

/-- The names in a directory, in the order in which it lists them; a missing one has none. -/
structure Directory where
  names : List Name
  nodup : names.Nodup

def Directory.remove (directory : Directory) (paths : List Name) : Directory where
  names := directory.names.filter (fun name => !paths.contains name)
  nodup := directory.nodup.filter _

def coldStorageEnabled : Bool := true

def coldStorageMaxVersions : Nat := 5

def cleanupColdStorage (directory : Directory) (maxVersions : Option Nat) : Directory × Nat :=
  if coldStorageEnabled then
    let removed := pruneOldVersions (listParquetVersions directory.names)
      (maxVersions.getD coldStorageMaxVersions)
    (directory.remove removed, removed.length)
  else (directory, 0)

/-! Names and what they are made of. -/

section Names

variable {name document version other rest : Name} {inside : Char → Bool}

theorem versionBehind_iff : versionBehind rest = some version ↔
    isVersion version ∧ rest = '_' :: 'v' :: (version ++ extension) := by
  constructor
  · intro found
    unfold versionBehind at found
    split at found
    · next text =>
        dsimp only at found
        split at found
        · next both =>
            obtain rfl := Option.some.inj found
            refine ⟨both.2, ?_⟩
            conv_lhs => rw [← List.take_append_drop (text.length - extension.length) text, both.1]
        · cases found
    · cases found
  · intro both
    obtain ⟨form, rfl⟩ := both
    have length : (version ++ extension).length - extension.length = version.length := by
      rw [List.length_append, Nat.add_sub_cancel]
    simp only [versionBehind, length, List.take_left, List.drop_left, form, and_self, if_true]

theorem mark_notMem_version (form : isVersion version = true) :
    'v' ∉ version ++ extension := by
  intro member
  rcases List.mem_append.mp member with inVersion | inExtension
  · have digits := List.all_eq_true.mp (Bool.and_eq_true_iff.mp form).1 'v' inVersion
    exact absurd digits (by decide)
  · exact absurd inExtension (by decide)

theorem split_unique {front back otherFront otherBack : Name}
    (same : front ++ '_' :: 'v' :: back = otherFront ++ '_' :: 'v' :: otherBack)
    (free : 'v' ∉ back) (otherFree : 'v' ∉ otherBack) : front = otherFront ∧ back = otherBack := by
  have reversed := congrArg List.reverse same
  simp only [List.reverse_append, List.reverse_cons, List.append_assoc, List.cons_append,
    List.nil_append] at reversed
  have unmarked : 'v' ∉ back.reverse := fun member => free (List.mem_reverse.mp member)
  have otherUnmarked : 'v' ∉ otherBack.reverse :=
    fun member => otherFree (List.mem_reverse.mp member)
  have backs : back.reverse = otherBack.reverse := by
    have taken := congrArg (List.takeWhile (fun char => char != 'v')) reversed
    rw [List.takeWhile_append_of_pos, List.takeWhile_append_of_pos] at taken
    · simpa using taken
    · intro char member
      simpa using fun equal : char = 'v' => otherUnmarked (equal ▸ member)
    · intro char member
      simpa using fun equal : char = 'v' => unmarked (equal ▸ member)
  rw [backs] at reversed
  have fronts := List.append_cancel_left reversed
  exact ⟨List.reverse_injective (by simpa using fronts), List.reverse_injective backs⟩

theorem splitName_iff : splitName inside name = some (document, version) ↔
    document ≠ [] ∧ document.all inside ∧ isVersion version ∧
      name = document ++ '_' :: 'v' :: (version ++ extension) := by
  have sound : ∀ found, splitName inside name = some found →
      found.1 ≠ [] ∧ found.1.all inside ∧ isVersion found.2 ∧
        name = found.1 ++ '_' :: 'v' :: (found.2 ++ extension) := by
    intro found matched
    obtain ⟨length, listed, here⟩ := List.exists_of_findSome?_eq_some matched
    have range := List.mem_range'_1.mp listed
    split at here
    · next allowed =>
        obtain ⟨behind, versioned, rfl⟩ := Option.map_eq_some_iff.mp here
        obtain ⟨form, rest⟩ := versionBehind_iff.mp versioned
        refine ⟨?_, allowed, form, ?_⟩
        · apply List.ne_nil_of_length_pos
          rw [List.length_take]
          omega
        · conv_lhs => rw [← List.take_append_drop length name, rest]
    · cases here
  constructor
  · exact fun matched => sound _ matched
  · intro parts
    obtain ⟨nonempty, allowed, form, named⟩ := parts
    have candidate : (splitName inside name).isSome := by
      apply List.findSome?_isSome_iff.mpr
      refine ⟨document.length, ?_, ?_⟩
      · have positive := List.length_pos_of_ne_nil nonempty
        rw [List.mem_range'_1, named, List.length_append]
        omega
      · have behind : versionBehind ('_' :: 'v' :: (version ++ extension)) = some version :=
          versionBehind_iff.mpr ⟨form, rfl⟩
        rw [named, List.take_left, List.drop_left, if_pos allowed, behind]
        rfl
    obtain ⟨found, matched⟩ := Option.isSome_iff_exists.mp candidate
    obtain ⟨_, _, otherForm, otherNamed⟩ := sound found matched
    obtain ⟨sameDocument, sameBehind⟩ := split_unique (otherNamed.symm.trans named)
      (mark_notMem_version otherForm) (mark_notMem_version form)
    rw [matched, ← sameDocument, ← List.append_cancel_right sameBehind]

end Names

end RagSystem.Etl.ColdStorage
