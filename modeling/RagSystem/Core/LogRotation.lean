import RagSystem.Core.Hitl

/-! The rotation of the interaction log in `proxy/app/core/hitl.py`: the chain of backups that a
sequence of writes leaves behind, and when it and the reader keep the newest records. -/

namespace RagSystem.Core.Hitl

open ModelEvolution

/-! ### The rotation -/

def maxBackupCount : Nat := 5

def defaultMaxInteractionsSize : Int := 10 * 1024 * 1024

/-- `Path(f"{filepath}.{i}")` -/
def backupFile (file : LogFile) (number : Nat) : LogFile :=
  { file with name := file.name ++ "." ++ toString number }

/-- `rename`, where there is something to rename. -/
def renameFile (source target : LogFile) (files : Files) : Files :=
  match files.get? source with
  | some lines => (files.erase source).set target lines
  | none => files

def shiftBackups (file : LogFile) (maxBackups : Nat) : Nat → Files → Files
  | 0, files => files
  | number + 1, files =>
      let cleared :=
        if number + 1 = maxBackups then files.erase (backupFile file (number + 2)) else files
      shiftBackups file maxBackups number
        (renameFile (backupFile file (number + 1)) (backupFile file (number + 2)) cleared)

section Writing

variable (size : LogRecord → Nat)

/-- `st_size`: the bytes of the lines. -/
def fileSize (lines : List LogRecord) : Nat := (lines.map size).sum

def isFull (file : LogFile) (maxSize : Int) (files : Files) : Bool :=
  match files.get? file with
  | none => false
  | some lines => maxSize ≤ fileSize size lines

def rotateIfNeeded (file : LogFile) (maxSize : Int) (maxBackups : Nat) (files : Files) : Files :=
  if isFull size file maxSize files then
    renameFile file (backupFile file 1) (shiftBackups file maxBackups maxBackups files)
  else files

/-- A call of `log_interaction`: the size passed on to the rotation, and the record, unless it
cannot be written out once the file has been opened. -/
structure Write where
  maxSize : Int
  record : Option LogRecord

variable (logger : InteractionLogger) (maxBackups : Nat)

def Write.perform (files : Files) (write : Write) : Files :=
  let active := logger.interactionsFile
  let files := rotateIfNeeded size active write.maxSize maxBackups files
  files.set active ((files.get? active).getD [] ++ write.record.toList)

def filesAfter (writes : List Write) : Files :=
  writes.foldl (Write.perform size logger maxBackups) ∅

def rotations : Files → List Write → Nat
  | _, [] => 0
  | files, write :: rest =>
      (if isFull size logger.interactionsFile write.maxSize files then 1 else 0) +
        rotations (write.perform size logger maxBackups files) rest

def written (writes : List Write) : List LogRecord := writes.filterMap Write.record

/-- `log_interaction` with the constants of its module. -/
def loggedWrite (now : String) (entry : Interaction) : Write where
  maxSize := defaultMaxInteractionsSize
  record := some (InteractionLogger.interactionRecord now entry)

end Writing

/-! ### Files under numbered names -/

section Names

variable {file : LogFile} {files : Files}

theorem toString_nat_injective {number other : Nat} (same : toString number = toString other) :
    number = other := by
  have digits : Nat.toDigits 10 number = Nat.toDigits 10 other := by
    rw [← Nat.toList_repr, ← Nat.toList_repr]
    exact congrArg String.toList same
  calc number = Nat.ofDigitChars 10 (Nat.toDigits 10 number) 0 :=
        Nat.ofDigitChars_ten_toDigits.symm
    _ = Nat.ofDigitChars 10 (Nat.toDigits 10 other) 0 := by rw [digits]
    _ = other := Nat.ofDigitChars_ten_toDigits

theorem backupFile_inj {number other : Nat} :
    backupFile file number = backupFile file other ↔ number = other := by
  constructor
  · intro same
    have names := congrArg (fun file => file.name.toList) same
    simp only [backupFile, String.toList_append] at names
    exact toString_nat_injective (String.toList_inj.mp (List.append_cancel_left names))
  · exact congrArg (backupFile file)

theorem backupFile_ne (number : Nat) : backupFile file number ≠ file := by
  intro same
  have lengths := congrArg (fun file => file.name.toList.length) same
  simp only [backupFile, String.toList_append, List.length_append] at lengths
  have dot : ".".toList.length = 1 := rfl
  omega

theorem get?_renameFile {source target other : LogFile} :
    (renameFile source target files).get? other =
      if other = target then (files.get? source).or (files.get? target)
      else if other = source then none
      else files.get? other := by
  rw [renameFile]
  cases found : files.get? source with
  | none =>
      rw [Option.none_or]
      split_ifs with at_target at_source
      · rw [at_target]
      · rw [at_source, found]
      · rfl
  | some lines =>
      dsimp only
      rw [Dict.get?_set, Dict.get?_erase, Option.some_or]

theorem get?_shiftBackups_of_ne {maxBackups : Nat} (number : Nat) {other : LogFile}
    (outside : ∀ number, other ≠ backupFile file number) :
    (shiftBackups file maxBackups number files).get? other = files.get? other := by
  induction number generalizing files with
  | zero => rfl
  | succ number ih =>
      rw [shiftBackups, ih, get?_renameFile, if_neg (outside _), if_neg (outside _)]
      split_ifs
      · rw [Dict.get?_erase, if_neg (outside _)]
      · rfl

theorem get?_shiftBackups {maxBackups : Nat} (number : Nat)
    (room : number ≠ maxBackups → files.get? (backupFile file (number + 1)) = none)
    (place : Nat) :
    (shiftBackups file maxBackups number files).get? (backupFile file (place + 2)) =
      if place < number then files.get? (backupFile file (place + 1))
      else files.get? (backupFile file (place + 2)) := by
  induction number generalizing files with
  | zero => rfl
  | succ number ih =>
      have apart : backupFile file (number + 1) ≠ backupFile file (number + 2) := by
        rw [Ne, backupFile_inj]
        omega
      let cleared := if number + 1 = maxBackups then files.erase (backupFile file (number + 2))
        else files
      have freed : cleared.get? (backupFile file (number + 2)) = none := by
        by_cases last : number + 1 = maxBackups
        · simp only [cleared, if_pos last, Dict.get?_erase, if_true]
        · simp only [cleared, if_neg last]
          exact room last
      have kept (other : Nat) (differs : other ≠ number + 2) :
          cleared.get? (backupFile file other) = files.get? (backupFile file other) := by
        by_cases last : number + 1 = maxBackups
        · simp only [cleared, if_pos last, Dict.get?_erase, backupFile_inj, differs, if_false]
        · simp only [cleared, if_neg last]
      have gone : (renameFile (backupFile file (number + 1)) (backupFile file (number + 2))
          cleared).get? (backupFile file (number + 1)) = none := by
        rw [get?_renameFile, if_neg apart, if_pos rfl]
      change (shiftBackups file maxBackups number (renameFile (backupFile file (number + 1))
        (backupFile file (number + 2)) cleared)).get? (backupFile file (place + 2)) = _
      clear_value cleared
      rw [ih (fun _ => gone), get?_renameFile, get?_renameFile]
      simp only [backupFile_inj]
      by_cases below : place < number
      · rw [if_pos below, if_neg (by omega), if_neg (by omega), if_pos (by omega),
          kept _ (by omega)]
      · rw [if_neg below]
        by_cases top : place = number
        · subst top
          rw [if_pos rfl, if_pos (by omega), freed, Option.or_none, kept _ (by omega)]
        · rw [if_neg (by omega), if_neg (by omega), if_neg (by omega), kept _ (by omega)]

end Names

/-! ### The chain of backups -/

/-- The active file, if it is there, and the backups in the order of their numbers. -/
structure Chained (file : LogFile) (files : Files) (active : Option (List LogRecord))
    (backups : List (List LogRecord)) : Prop where
  active : files.get? file = active
  backups : ∀ place, files.get? (backupFile file (place + 1)) = backups[place]?

def retained (active : Option (List LogRecord)) (backups : List (List LogRecord)) :
    List LogRecord :=
  backups.reverse.flatten ++ active.getD []

section Chain

variable {size : LogRecord → Nat} {file : LogFile} {files : Files} {maxBackups : Nat}
  {active : Option (List LogRecord)} {backups : List (List LogRecord)}

theorem exists_of_isFull {maxSize : Int} (full : isFull size file maxSize files = true) :
    ∃ lines, files.get? file = some lines := by
  rw [isFull] at full
  cases found : files.get? file with
  | none =>
      rw [found] at full
      cases full
  | some lines => exact ⟨lines, rfl⟩

theorem chained_rotateIfNeeded {maxSize : Int} (chained : Chained file files active backups)
    (short : backups.length ≤ maxBackups + 1) (full : isFull size file maxSize files = true) :
    Chained file (rotateIfNeeded size file maxSize maxBackups files) none
      (active.getD [] :: backups.take maxBackups) := by
  obtain ⟨lines, found⟩ := exists_of_isFull full
  obtain rfl : active = some lines := chained.active.symm.trans found
  have apart : file ≠ backupFile file 1 := (backupFile_ne 1).symm
  have still : (shiftBackups file maxBackups maxBackups files).get? file = some lines := by
    rw [get?_shiftBackups_of_ne _ (fun number => (backupFile_ne number).symm), chained.active]
  rw [rotateIfNeeded, if_pos full]
  constructor
  · rw [get?_renameFile, if_neg apart, if_pos rfl]
  · intro place
    rw [get?_renameFile, still]
    cases place with
    | zero =>
        rw [if_pos rfl]
        rfl
    | succ place =>
        rw [if_neg (by rw [backupFile_inj]; omega), if_neg (backupFile_ne _),
          get?_shiftBackups _ (fun differs => absurd rfl differs), List.getElem?_cons_succ,
          List.getElem?_take]
        by_cases below : place < maxBackups
        · rw [if_pos below, if_pos below, chained.backups]
        · rw [if_neg below, if_neg below, chained.backups, List.getElem?_eq_none (by omega)]

theorem chained_set (chained : Chained file files active backups) (lines : List LogRecord) :
    Chained file (files.set file lines) (some lines) backups := by
  constructor
  · rw [Dict.get?_set_self]
  · intro place
    rw [Dict.get?_set_of_ne (backupFile_ne _), chained.backups]

/-- What a run keeps: as many backups as rotations, up to one more than the limit, and the end of
what was written. -/
structure Keeps (file : LogFile) (maxBackups : Nat) (files : Files) (count : Nat)
    (records : List LogRecord) (active : Option (List LogRecord))
    (backups : List (List LogRecord)) : Prop where
  chained : Chained file files active backups
  length : backups.length = min count (maxBackups + 1)
  suffix : retained active backups <:+ records

theorem retained_take_suffix (maxBackups : Nat) (backups : List (List LogRecord))
    (lines : List LogRecord) :
    retained none (lines :: backups.take maxBackups) <:+ retained (some lines) backups := by
  have split : backups.reverse = (backups.drop maxBackups).reverse ++
      (backups.take maxBackups).reverse := by
    rw [← List.reverse_append, List.take_append_drop]
  refine ⟨(backups.drop maxBackups).reverse.flatten, ?_⟩
  simp only [retained, split, List.reverse_cons, List.flatten_append, List.flatten_cons,
    List.flatten_nil, Option.getD_none, Option.getD_some, List.append_nil, List.append_assoc]

variable {logger : InteractionLogger} {count : Nat} {records : List LogRecord}

theorem keeps_perform (size : LogRecord → Nat)
    (keeps : Keeps logger.interactionsFile maxBackups files count records active backups)
    (write : Write) :
    ∃ active backups, Keeps logger.interactionsFile maxBackups
      (write.perform size logger maxBackups files)
      (count + if isFull size logger.interactionsFile write.maxSize files then 1 else 0)
      (records ++ write.record.toList) active backups := by
  have short : backups.length ≤ maxBackups + 1 := by rw [keeps.length]; exact min_le_right _ _
  by_cases full : isFull size logger.interactionsFile write.maxSize files = true
  · have rotated := chained_rotateIfNeeded keeps.chained short full
    obtain ⟨lines, found⟩ := exists_of_isFull full
    obtain rfl : active = some lines := keeps.chained.active.symm.trans found
    refine ⟨some write.record.toList, lines :: backups.take maxBackups, ?_, ?_, ?_⟩
    · have begun := chained_set rotated write.record.toList
      rw [Write.perform, rotated.active]
      exact begun
    · rw [List.length_cons, List.length_take, keeps.length, if_pos full]
      omega
    · have older := (retained_take_suffix maxBackups backups lines).trans keeps.suffix
      obtain ⟨lost, split⟩ := older
      refine ⟨lost, ?_⟩
      rw [← split, List.append_assoc]
      simp [retained]
  · refine ⟨some (active.getD [] ++ write.record.toList), backups, ?_, ?_, ?_⟩
    · have same : rotateIfNeeded size logger.interactionsFile write.maxSize maxBackups files =
          files := by rw [rotateIfNeeded, if_neg full]
      have begun := chained_set keeps.chained (active.getD [] ++ write.record.toList)
      rw [Write.perform, same, keeps.chained.active]
      exact begun
    · rw [keeps.length, if_neg full]
      rfl
    · obtain ⟨lost, split⟩ := keeps.suffix
      refine ⟨lost, ?_⟩
      rw [← split, List.append_assoc]
      simp [retained]

theorem keeps_foldl (size : LogRecord → Nat) (writes : List Write)
    (keeps : Keeps logger.interactionsFile maxBackups files count records active backups) :
    ∃ active backups, Keeps logger.interactionsFile maxBackups
      (writes.foldl (Write.perform size logger maxBackups) files)
      (count + rotations size logger maxBackups files writes) (records ++ written writes)
      active backups := by
  induction writes generalizing files count records active backups with
  | nil => exact ⟨active, backups, by simpa [rotations, written] using keeps⟩
  | cons write rest ih =>
      obtain ⟨_, _, kept⟩ := keeps_perform size keeps write
      have later := ih kept
      have all : written (write :: rest) = write.record.toList ++ written rest := by
        cases found : write.record with
        | none => exact List.filterMap_cons_none found
        | some record => exact List.filterMap_cons_some found
      rw [List.foldl_cons, rotations, all, ← List.append_assoc, ← Nat.add_assoc]
      exact later

theorem keeps_filesAfter (size : LogRecord → Nat) (logger : InteractionLogger) (maxBackups : Nat)
    (writes : List Write) :
    ∃ active backups, Keeps logger.interactionsFile maxBackups
      (filesAfter size logger maxBackups writes) (rotations size logger maxBackups ∅ writes)
      (written writes) active backups := by
  have start : Keeps logger.interactionsFile maxBackups ∅ 0 [] none [] :=
    ⟨⟨rfl, fun _ => rfl⟩, (Nat.zero_min _).symm, List.suffix_rfl⟩
  simpa [filesAfter] using keeps_foldl size writes start

end Chain

/-! ### The newest records -/

section Newest

/-- The backups and the active file hold the end of what was written, no more backups are there
than the limit, and the reader returns the last records of the whole, newest first. -/
def KeepsNewest (logger : InteractionLogger) (maxBackups : Nat) (records : List LogRecord)
    (limit : Nat) (files : Files) : Prop :=
  ∃ active backups, Chained logger.interactionsFile files active backups ∧
    retained active backups <:+ records ∧ backups.length ≤ maxBackups ∧
    logger.getInteractions limit files =
      ((retained active backups).drop ((retained active backups).length - limit)).reverse

/-- The active file has all that is asked for: nothing is asked for and it has nothing, or it is
long enough, or no backup has a record. -/
def ReaderSees (logger : InteractionLogger) (limit : Nat) (files : Files) : Prop :=
  let lines := (files.get? logger.interactionsFile).getD []
  (limit = 0 ∧ lines = []) ∨ (0 < limit ∧ (limit ≤ lines.length ∨
    ∀ number older, files.get? (backupFile logger.interactionsFile (number + 1)) = some older →
      older = []))

variable {lines older : List LogRecord} {limit : Nat}

theorem drop_eq_iff (positive : 0 < limit) :
    lines.drop (lines.length - limit) =
      (older ++ lines).drop ((older ++ lines).length - limit) ↔
      limit ≤ lines.length ∨ older = [] := by
  constructor
  · intro same
    have lengths := congrArg List.length same
    simp only [List.length_drop, List.length_append] at lengths
    by_cases enough : limit ≤ lines.length
    · exact Or.inl enough
    · exact Or.inr (List.length_eq_zero_iff.mp (by omega))
  · intro fine
    rcases fine with enough | empty
    · have behind : (older ++ lines).length - limit = older.length + (lines.length - limit) := by
        rw [List.length_append]
        omega
      rw [behind, ← List.drop_drop, List.drop_left]
    · rw [empty, List.nil_append]

theorem flatten_eq_nil_iff {file : LogFile} {files : Files} {active : Option (List LogRecord)}
    {backups : List (List LogRecord)} (chained : Chained file files active backups) :
    backups.reverse.flatten = [] ↔
      ∀ number older, files.get? (backupFile file (number + 1)) = some older → older = [] := by
  simp only [List.flatten_eq_nil_iff, List.mem_reverse, chained.backups]
  constructor
  · exact fun empty number older found => empty older (List.mem_of_getElem? found)
  · intro empty older member
    obtain ⟨number, found⟩ := List.mem_iff_getElem?.mp member
    exact empty number older found

variable {logger : InteractionLogger} {files : Files} {active : Option (List LogRecord)}
  {backups : List (List LogRecord)}

theorem getInteractions_eq_iff (chained : Chained logger.interactionsFile files active backups) :
    logger.getInteractions limit files =
        ((retained active backups).drop ((retained active backups).length - limit)).reverse ↔
      ReaderSees logger limit files := by
  rw [ReaderSees, InteractionLogger.getInteractions, List.reverse_inj, chained.active, retained]
  by_cases zero : limit = 0
  · subst zero
    simp only [if_true, Nat.sub_zero, List.drop_length, true_and, Nat.lt_irrefl, false_and,
      or_false]
  · have positive : 0 < limit := Nat.pos_of_ne_zero zero
    rw [if_neg zero, drop_eq_iff positive, flatten_eq_nil_iff chained]
    simp only [zero, false_and, false_or, positive, true_and]

theorem Chained.unique {file : LogFile} {other : Option (List LogRecord)}
    {others : List (List LogRecord)} (chained : Chained file files active backups)
    (again : Chained file files other others) : other = active ∧ others = backups := by
  constructor
  · exact again.active.symm.trans chained.active
  · apply List.ext_getElem?
    intro place
    rw [← again.backups, ← chained.backups]

variable (size : LogRecord → Nat) (logger) (maxBackups : Nat) (writes : List Write) (limit)

/-- The log keeps the newest records exactly as long as the backups have not been used up and the
reader asks for no more than the active file has. -/
theorem rotation_keepsNewest_iff :
    KeepsNewest logger maxBackups (written writes) limit
        (filesAfter size logger maxBackups writes) ↔
      rotations size logger maxBackups ∅ writes ≤ maxBackups ∧
        ReaderSees logger limit (filesAfter size logger maxBackups writes) := by
  obtain ⟨active, backups, keeps⟩ := keeps_filesAfter size logger maxBackups writes
  have length := keeps.length
  constructor
  · intro kept
    obtain ⟨other, others, chained, _, few, newest⟩ := kept
    obtain ⟨rfl, rfl⟩ := keeps.chained.unique chained
    exact ⟨by omega, (getInteractions_eq_iff chained).mp newest⟩
  · intro fine
    refine ⟨active, backups, keeps.chained, keeps.suffix, by omega, ?_⟩
    exact (getInteractions_eq_iff keeps.chained).mpr fine.2

end Newest

/-! ### One backup too many -/

def largeWrites : List Write :=
  List.replicate 7 (loggedWrite "2026-01-01T00:00:00+00:00"
    { requestId := "r", userQuery := "vpn", response := "long" })

theorem sixth_backup_kept : ¬ KeepsNewest {} maxBackupCount (written largeWrites) 1
    (filesAfter (fun _ => 11534336) {} maxBackupCount largeWrites) := by
  intro kept
  obtain ⟨active, backups, chained, _, few, _⟩ := kept
  have there : ((filesAfter (fun _ => 11534336) {} maxBackupCount largeWrites).get?
      (backupFile (InteractionLogger.interactionsFile {}) 6)).isSome = true := by decide +kernel
  rw [chained.backups 5] at there
  have short : backups.length ≤ 5 := few
  rw [List.getElem?_eq_none short] at there
  cases there

end RagSystem.Core.Hitl
