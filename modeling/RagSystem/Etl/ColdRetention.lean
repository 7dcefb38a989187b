import RagSystem.Etl.ColdStorage

/-! When a cleanup keeps the newest versions of every document. -/

namespace RagSystem.Etl.ColdStorage

/-- The document that a name belongs to and the components of its version, whatever characters the
document's name is made of. -/
def parts (name : Name) : Option (Name × Name) := splitName (fun _ => true) name

def versionOf (name : Name) : List Nat :=
  match parts name with
  | some found => (found.2.splitOn '_').map numberOf
  | none => []

def filesOf (document : Name) (names : List Name) : List Name :=
  names.filter (fun name => (parts name).map Prod.fst = some document)

/-- As many files of the document remain as there may be, and none that is gone has a greater
version, component by component, than one that remains. -/
def KeepsNewest (maxVersions : Nat) (before after : Directory) (document : Name) : Prop :=
  (filesOf document after.names).length =
      min maxVersions (filesOf document before.names).length ∧
    ∀ kept ∈ filesOf document after.names, ∀ gone ∈ filesOf document before.names,
      gone ∉ after.names → versionOf gone ≤ versionOf kept

def major (name : Name) : Nat := (versionOf name).headD 0

/-- A greater first number, or the same one and an earlier place in the listing. -/
def Ahead (directory : Directory) (first second : Name) : Prop :=
  major second < major first ∨
    major first = major second ∧ [first, second].Sublist directory.names

instance (directory : Directory) : DecidableRel (Ahead directory) :=
  fun _ _ => inferInstanceAs (Decidable (_ ∨ _ ∧ _))

def rank (directory : Directory) (document name : Name) : Nat :=
  ((filesOf document directory.names).filter (fun other => Ahead directory other name)).length

/-- The documents whose names have a line break do not have too many files. -/
def Unbroken (maxVersions : Nat) (directory : Directory) : Prop :=
  ∀ document, '\n' ∈ document → (filesOf document directory.names).length ≤ maxVersions

/-- The limit does not separate two files of a document that share the first number of their version
and of which the lower one is listed first. -/
def CutInOrder (maxVersions : Nat) (directory : Directory) : Prop :=
  ∀ document, '\n' ∉ document →
    ∀ first ∈ filesOf document directory.names, ∀ second ∈ filesOf document directory.names,
      [first, second].Sublist directory.names → major first = major second →
      versionOf first < versionOf second →
      ¬ (rank directory document first < maxVersions ∧
        maxVersions ≤ rank directory document second)

section Files

variable {directory : Directory} {names : List Name} {document name other : Name}
  {maxVersions : Nat}

theorem mem_filesOf : name ∈ filesOf document names ↔
    name ∈ names ∧ ∃ version, parts name = some (document, version) := by
  simp [filesOf]

theorem matchName_iff {found : Name × Name} :
    matchName name = some found ↔ parts name = some found ∧ '\n' ∉ found.1 := by
  rw [matchName, parts, splitName_iff, splitName_iff]
  have plain : found.1.all (fun char => decide (char ≠ '\n')) = true ↔ '\n' ∉ found.1 := by
    rw [List.all_eq_true]
    constructor
    · intro each member
      simpa using each '\n' member
    · intro free char member
      simpa using fun equal : char = '\n' => free (equal ▸ member)
  rw [plain]
  simp only [List.all_eq_true, implies_true, true_and]
  constructor
  · exact fun both => ⟨⟨both.1, both.2.2⟩, both.2.1⟩
  · exact fun both => ⟨both.1.1, both.2, both.1.2⟩

theorem isSuffixOf_of_matchName {found : Name × Name} (matched : matchName name = some found) :
    extension.isSuffixOf name = true := by
  obtain ⟨_, _, _, rfl⟩ := splitName_iff.mp matched
  apply List.isSuffixOf_iff_suffix.mpr
  exact ⟨found.1 ++ '_' :: 'v' :: found.2, by simp⟩

def entryOf (document name : Name) : VersionFile := ⟨document, name, major name⟩

theorem majorVersion_eq {version : Name} (found : parts name = some (document, version)) :
    majorVersion version = major name := by
  simp only [major, versionOf, found, majorVersion]
  cases version.splitOn '_' with
  | nil => rfl
  | cons first rest => rfl

theorem groupOf_versionFiles (plain : '\n' ∉ document) (names : List Name) :
    groupOf VersionFile.document (versionFiles names) document =
      (filesOf document names).map (entryOf document) := by
  induction names with
  | nil => rfl
  | cons name rest ih =>
      rw [versionFiles, groupOf, filesOf] at *
      by_cases own : (parts name).map Prod.fst = some document
      · obtain ⟨found, split, rfl⟩ := Option.map_eq_some_iff.mp own
        have matched : matchName name = some found := matchName_iff.mpr ⟨split, plain⟩
        have number : majorVersion found.2 = major name := majorVersion_eq split
        rw [List.filter_cons_of_pos (isSuffixOf_of_matchName matched), List.filterMap_cons, matched]
        simp only [Option.map_some]
        rw [List.filter_cons_of_pos (by simp), ih, List.filter_cons_of_pos (by simpa using own),
          List.map_cons, entryOf, number]
      · have skipped : ∀ found, matchName name = some found → found.1 ≠ document := by
          intro found matched given
          rcases given with rfl
          exact own (by rw [(matchName_iff.mp matched).1, Option.map_some])
        have passed : (name :: rest).filter
            (fun name => (parts name).map Prod.fst = some document) =
            rest.filter (fun name => (parts name).map Prod.fst = some document) :=
          List.filter_cons_of_neg (by simpa using own)
        rw [passed, ← ih]
        by_cases listed : extension.isSuffixOf name
        · rw [List.filter_cons_of_pos listed, List.filterMap_cons]
          cases matched : matchName name with
          | none => rfl
          | some found =>
              simp only [Option.map_some]
              rw [List.filter_cons_of_neg (by simpa using skipped found matched)]
        · rw [List.filter_cons_of_neg listed]

def ordered (document : Name) (names : List Name) : List Name :=
  sortDescending (fun name => (major name : ℚ)) (filesOf document names)

theorem byMajor_map (document : Name) (files : List Name) :
    byMajor (files.map (entryOf document)) =
      (sortDescending (fun name => (major name : ℚ)) files).map (entryOf document) := by
  rw [byMajor, sortDescending, sortDescending]
  symm
  apply List.map_insertionSort
  intro first _ second _
  exact Iff.rfl

theorem mem_pruned : name ∈ pruneOldVersions (listParquetVersions names) maxVersions ↔
    ∃ document, '\n' ∉ document ∧ name ∈ (ordered document names).drop maxVersions := by
  have groups : (listParquetVersions names).entries =
      (groupBy VersionFile.document (versionFiles names)).keys.map (fun document =>
        (document, byMajor (groupOf VersionFile.document (versionFiles names) document))) := by
    simp only [listParquetVersions, Dict.mapValues, entries_groupBy, List.map_map,
      Function.comp_def]
  have short : ∀ files : List VersionFile,
      (if files.length ≤ maxVersions then []
        else (files.drop maxVersions).map VersionFile.path) =
      (files.drop maxVersions).map VersionFile.path := by
    intro files
    split
    · next few => rw [List.drop_eq_nil_of_le few, List.map_nil]
    · rfl
  have group (document : Name) (plain : '\n' ∉ document) :
      ((byMajor (groupOf VersionFile.document (versionFiles names) document)).drop
        maxVersions).map VersionFile.path = (ordered document names).drop maxVersions := by
    rw [groupOf_versionFiles plain, byMajor_map, ← List.map_drop, List.map_map]
    exact List.map_id _
  rw [pruneOldVersions, groups, List.flatMap_map]
  simp only [short, List.mem_flatMap]
  constructor
  · intro removed
    obtain ⟨document, key, member⟩ := removed
    have plain : '\n' ∉ document := by
      obtain ⟨file, among, rfl⟩ := List.mem_map.mp (mem_keys_groupBy.mp key)
      obtain ⟨path, _, found⟩ := List.mem_filterMap.mp among
      obtain ⟨pair, matched, rfl⟩ := Option.map_eq_some_iff.mp found
      exact (matchName_iff.mp matched).2
    exact ⟨document, plain, by rwa [group document plain] at member⟩
  · intro behind
    obtain ⟨document, plain, member⟩ := behind
    refine ⟨document, ?_, by rwa [group document plain]⟩
    have file := mem_sortDescending.mp (List.mem_of_mem_drop member)
    apply mem_keys_groupBy.mpr
    have entry : entryOf document name ∈
        groupOf VersionFile.document (versionFiles names) document := by
      rw [groupOf_versionFiles plain]
      exact List.mem_map_of_mem file
    exact List.mem_map.mpr ⟨_, (mem_groupOf.mp entry).1, rfl⟩

theorem mem_filesOf_cleanup (plain : '\n' ∉ document) :
    name ∈ filesOf document (cleanupColdStorage directory (some maxVersions)).1.names ↔
      name ∈ (ordered document directory.names).take maxVersions := by
  have nodup : (ordered document directory.names).Nodup :=
    sortDescending_perm.nodup_iff.mpr (directory.nodup.filter _)
  have member : name ∈ filesOf document directory.names ↔
      name ∈ (ordered document directory.names).take maxVersions ∨
        name ∈ (ordered document directory.names).drop maxVersions := by
    rw [← List.mem_append, List.take_append_drop]
    exact mem_sortDescending.symm
  have apart : name ∈ (ordered document directory.names).take maxVersions →
      name ∉ (ordered document directory.names).drop maxVersions := by
    intro taken dropped
    rw [← List.take_append_drop maxVersions (ordered document directory.names)] at nodup
    exact List.disjoint_of_nodup_append nodup taken dropped
  have pruned (file : name ∈ filesOf document directory.names) :
      name ∈ pruneOldVersions (listParquetVersions directory.names) maxVersions ↔
        name ∈ (ordered document directory.names).drop maxVersions := by
    rw [mem_pruned]
    constructor
    · intro removed
      obtain ⟨other, _, behind⟩ := removed
      obtain ⟨_, version, split⟩ := mem_filesOf.mp file
      obtain ⟨_, _, again⟩ :=
        mem_filesOf.mp (mem_sortDescending.mp (List.mem_of_mem_drop behind))
      obtain ⟨rfl, rfl⟩ := Prod.mk.inj (Option.some.inj (split.symm.trans again))
      exact behind
    · exact fun behind => ⟨document, plain, behind⟩
  have left : name ∈ filesOf document (cleanupColdStorage directory (some maxVersions)).1.names ↔
      name ∈ filesOf document directory.names ∧
        name ∉ pruneOldVersions (listParquetVersions directory.names) maxVersions := by
    change name ∈ (directory.names.filter _).filter _ ↔ _
    rw [List.filter_comm, List.mem_filter]
    apply and_congr_right
    intro _
    rw [Bool.not_eq_true', ← Bool.not_eq_true, List.contains_iff_mem, Option.getD_some]
  rw [left]
  constructor
  · intro both
    rw [pruned both.1] at both
    exact (member.mp both.1).resolve_right both.2
  · intro taken
    have file := member.mpr (Or.inl taken)
    exact ⟨file, fun removed => apart taken ((pruned file).mp removed)⟩

theorem length_filesOf_cleanup (plain : '\n' ∉ document) :
    (filesOf document (cleanupColdStorage directory (some maxVersions)).1.names).length =
      min maxVersions (filesOf document directory.names).length := by
  have nodup : (ordered document directory.names).Nodup :=
    sortDescending_perm.nodup_iff.mpr (directory.nodup.filter _)
  have permuted : (filesOf document
      (cleanupColdStorage directory (some maxVersions)).1.names).Perm
      ((ordered document directory.names).take maxVersions) := by
    apply (List.perm_ext_iff_of_nodup _ (nodup.sublist (List.take_sublist _ _))).mpr
    · exact fun name => mem_filesOf_cleanup plain
    · exact (cleanupColdStorage directory (some maxVersions)).1.nodup.filter _
  rw [permuted.length_eq, List.length_take, ordered, length_sortDescending]

theorem filesOf_cleanup_of_break (broken : '\n' ∈ document) :
    filesOf document (cleanupColdStorage directory (some maxVersions)).1.names =
      filesOf document directory.names := by
  change (directory.names.filter _).filter _ = directory.names.filter _
  rw [List.filter_comm]
  apply List.filter_eq_self.mpr
  intro name member
  rw [Bool.not_eq_true', ← Bool.not_eq_true, List.contains_iff_mem, Option.getD_some, mem_pruned]
  intro removed
  obtain ⟨other, plain, behind⟩ := removed
  obtain ⟨_, version, split⟩ := mem_filesOf.mp member
  obtain ⟨_, _, again⟩ := mem_filesOf.mp (mem_sortDescending.mp (List.mem_of_mem_drop behind))
  obtain ⟨rfl, rfl⟩ := Prod.mk.inj (Option.some.inj (split.symm.trans again))
  exact plain broken

theorem sublist_pair_asymm (nodup : names.Nodup) (forward : [name, other].Sublist names) :
    ¬ [other, name].Sublist names := by
  induction names with
  | nil => cases forward
  | cons head rest ih =>
      obtain ⟨fresh, nodups⟩ := List.nodup_cons.mp nodup
      intro backward
      rcases List.sublist_cons_iff.mp forward with inRest | ⟨_, first, behind⟩
      · rcases List.sublist_cons_iff.mp backward with inside | ⟨_, second, _⟩
        · exact ih nodups inRest inside
        · obtain ⟨rfl, rfl⟩ := List.cons.inj second
          exact fresh (inRest.subset (by simp))
      · obtain ⟨rfl, rfl⟩ := List.cons.inj first
        have later : other ∈ rest := behind.subset (by simp)
        rcases List.sublist_cons_iff.mp backward with inside | ⟨_, second, _⟩
        · exact fresh (inside.subset (by simp))
        · obtain ⟨rfl, rfl⟩ := List.cons.inj second
          exact fresh later

theorem ahead_asymm (first second : Name) :
    Ahead directory first second → ¬ Ahead directory second first := by
  intro before behind
  rcases before with greater | tied
  · rcases behind with less | equal
    · omega
    · omega
  · rcases behind with less | equal
    · omega
    · exact sublist_pair_asymm directory.nodup tied.2 equal.2

theorem pairwise_ordered (document : Name) :
    (ordered document directory.names).Pairwise (Ahead directory) := by
  have listed : (filesOf document directory.names).Pairwise
      (fun first second => [first, second].Sublist directory.names) := by
    apply List.Pairwise.filter
    apply List.pairwise_iff_forall_sublist.mpr
    exact id
  apply (sortDescending_outranks listed).imp
  intro first second before
  rcases before with greater | tied
  · exact Or.inl (Nat.cast_lt.mp greater)
  · exact Or.inr ⟨Nat.cast_injective tied.1, tied.2⟩

theorem mem_take_iff (file : name ∈ filesOf document directory.names) :
    name ∈ (ordered document directory.names).take maxVersions ↔
      rank directory document name < maxVersions := by
  have ranked : ((ordered document directory.names).filter
      (fun other => Ahead directory other name)).length = rank directory document name :=
    (sortDescending_perm.filter _).length_eq
  rw [mem_take_iff_of_ordered maxVersions ahead_asymm (pairwise_ordered document)
    (mem_sortDescending.mpr file), ranked]

theorem ahead_of_rank (file : name ∈ filesOf document directory.names)
    (otherFile : other ∈ filesOf document directory.names)
    (front : rank directory document name < maxVersions)
    (behind : maxVersions ≤ rank directory document other) : Ahead directory name other := by
  have taken := (mem_take_iff file).mpr front
  have left : other ∉ (ordered document directory.names).take maxVersions := by
    rw [mem_take_iff otherFile]
    exact Nat.not_lt.mpr behind
  have pairs : (ordered document directory.names).Pairwise (Ahead directory) :=
    pairwise_ordered document
  rw [← List.take_append_drop maxVersions (ordered document directory.names)] at pairs
  apply (List.pairwise_append.mp pairs).2.2 name taken other
  have listed : other ∈ ordered document directory.names := mem_sortDescending.mpr otherFile
  rw [← List.take_append_drop maxVersions (ordered document directory.names)] at listed
  exact (List.mem_append.mp listed).resolve_left left

theorem versionOf_lt_of_major (file : name ∈ filesOf document names)
    (otherFile : other ∈ filesOf document names) (lower : major name < major other) :
    versionOf name < versionOf other := by
  have some : ∀ file, file ∈ filesOf document names →
      ∃ first rest, versionOf file = first :: rest := by
    intro file member
    obtain ⟨_, version, split⟩ := mem_filesOf.mp member
    simp only [versionOf, split]
    exact List.exists_cons_of_ne_nil (by simp [List.splitOn_ne_nil])
  obtain ⟨first, rest, numbers⟩ := some name file
  obtain ⟨second, others, otherNumbers⟩ := some other otherFile
  rw [major, major, numbers, otherNumbers] at lower
  rw [numbers, otherNumbers]
  exact List.Lex.rel lower

theorem keepsNewest_iff (plain : '\n' ∉ document) :
    KeepsNewest maxVersions directory (cleanupColdStorage directory (some maxVersions)).1
        document ↔
      ∀ first ∈ filesOf document directory.names, ∀ second ∈ filesOf document directory.names,
        [first, second].Sublist directory.names → major first = major second →
        versionOf first < versionOf second →
        ¬ (rank directory document first < maxVersions ∧
          maxVersions ≤ rank directory document second) := by
  have stays (name : Name) (file : name ∈ filesOf document directory.names) :
      name ∈ (cleanupColdStorage directory (some maxVersions)).1.names ↔
        rank directory document name < maxVersions := by
    rw [← mem_take_iff file, ← mem_filesOf_cleanup plain, mem_filesOf]
    exact (and_iff_left (mem_filesOf.mp file).2).symm
  have kept (name : Name) :
      name ∈ filesOf document (cleanupColdStorage directory (some maxVersions)).1.names ↔
        name ∈ filesOf document directory.names ∧ rank directory document name < maxVersions := by
    rw [mem_filesOf_cleanup plain]
    constructor
    · intro taken
      have file := mem_sortDescending.mp (List.mem_of_mem_take taken)
      exact ⟨file, (mem_take_iff file).mp taken⟩
    · exact fun both => (mem_take_iff both.1).mpr both.2
  constructor
  · intro keeps first firstIn second secondIn _ _ lower between
    have outside : second ∉ (cleanupColdStorage directory (some maxVersions)).1.names := by
      rw [stays second secondIn]
      exact Nat.not_lt.mpr between.2
    have above := keeps.2 first ((kept first).mpr ⟨firstIn, between.1⟩) second secondIn outside
    exact absurd lower (not_lt.mpr above)
  · intro separate
    refine ⟨length_filesOf_cleanup plain, ?_⟩
    intro first firstKept second secondIn outside
    obtain ⟨firstIn, inFront⟩ := (kept first).mp firstKept
    rw [stays second secondIn, Nat.not_lt] at outside
    by_contra lower
    rcases ahead_of_rank firstIn secondIn inFront outside with greater | tied
    · exact lower (versionOf_lt_of_major secondIn firstIn greater).le
    · exact separate first firstIn second secondIn tied.2 tied.1 (not_le.mp lower)
        ⟨inFront, outside⟩

/-- A cleanup keeps the newest versions of every document exactly where no document with too many
files has a line break in its name, and no limit separates files that are listed from the lower
version to the higher and share its first number. -/
theorem cleanup_keeps_newest_iff (directory : Directory) (maxVersions : Nat) :
    (∀ document, KeepsNewest maxVersions directory
        (cleanupColdStorage directory (some maxVersions)).1 document) ↔
      Unbroken maxVersions directory ∧ CutInOrder maxVersions directory := by
  have broken (document : Name) (inside : '\n' ∈ document) :
      KeepsNewest maxVersions directory
          (cleanupColdStorage directory (some maxVersions)).1 document ↔
        (filesOf document directory.names).length ≤ maxVersions := by
    have same : filesOf document (cleanupColdStorage directory (some maxVersions)).1.names =
        filesOf document directory.names := filesOf_cleanup_of_break inside
    rw [KeepsNewest, same]
    constructor
    · exact fun keeps => by have := keeps.1; omega
    · intro few
      refine ⟨by omega, ?_⟩
      intro kept keptIn gone goneIn outside
      rw [← same] at goneIn
      exact absurd (mem_filesOf.mp goneIn).1 outside
  constructor
  · intro keeps
    constructor
    · exact fun document inside => (broken document inside).mp (keeps document)
    · exact fun document plain => (keepsNewest_iff plain).mp (keeps document)
  · intro both document
    by_cases inside : '\n' ∈ document
    · exact (broken document inside).mpr (both.1 document inside)
    · exact (keepsNewest_iff inside).mpr (both.2 document inside)

/-- The higher of two versions with the same first number is removed where it is listed last. -/
theorem cleanup_removes_newest :
    (cleanupColdStorage ⟨["doc_v1_2.parquet".toList, "doc_v1_10.parquet".toList], by decide⟩
        (some 1)).1.names = ["doc_v1_2.parquet".toList] ∧
      ¬ KeepsNewest 1 ⟨["doc_v1_2.parquet".toList, "doc_v1_10.parquet".toList], by decide⟩
        (cleanupColdStorage ⟨["doc_v1_2.parquet".toList, "doc_v1_10.parquet".toList], by decide⟩
          (some 1)).1 "doc".toList := by
  have left : (cleanupColdStorage
      ⟨["doc_v1_2.parquet".toList, "doc_v1_10.parquet".toList], by decide⟩ (some 1)).1.names =
      ["doc_v1_2.parquet".toList] := by
    decide +kernel
  refine ⟨left, ?_⟩
  intro keeps
  have above := keeps.2 "doc_v1_2.parquet".toList (by decide +kernel) "doc_v1_10.parquet".toList
    (by decide +kernel) (by rw [left]; decide +kernel)
  exact absurd above (by decide +kernel)

end Files

end RagSystem.Etl.ColdStorage
