import RagSystem.Etl.IncrementalExtraction

/-! One run of an extractor: it has extracted, or will come to, every object that its extractor
wanted when it began. -/

namespace RagSystem.Etl.Incremental

open Transition

namespace Extractor

variable (extractor : Extractor)

def foundKeys (objects : Dict String Item) (wal : Wal) (space : Option String) : List String :=
  ((extractor.results objects wal space).getD []).map Prod.fst

def toList (objects : Dict String Item) (job : Job) : List String :=
  (match job.start with
    | some offset => (extractor.foundKeys objects job.loaded (job.spaces.headD none)).drop offset
    | none => []) ++ job.spaces.tail.flatMap (extractor.foundKeys objects job.loaded)

end Extractor

def Side.pending (side : Side) (key : String) (item : Item) : Bool :=
  side.extracted.get? key ≠ some item.revision

/-- What is pending is not on record, and the date does not hide it. -/
def Caught (extractor : Extractor) (side : Side) (wal : Wal) : Prop :=
  ∀ key item, side.objects.get? key = some item → extractor.wants key item = true →
    side.pending key item = true → extractor.skips wal key item = false ∧
      ∀ date, extractor.standing wal = some date → extractor.passes date item.modified = true

def HasRevision (side : Side) (key : String) (revision : Nat) : Prop :=
  ∃ read, side.extracted.get? key = some read ∧ revision ≤ read

def Job.toVisit (job : Job) : List (Option String) :=
  if job.start.isSome then job.spaces else job.spaces.tail

/-- A run in progress has or will come to every object that was wanted when it began. -/
structure JobSound (extractor : Extractor) (side : Side) (job : Job) : Prop where
  spaces : ∀ space ∈ job.spaces, space ∈ extractor.spaces
  listing : job.start ≠ none → job.spaces ≠ []
  grown : ∀ key item, job.began.get? key = some item →
    ∃ current, side.objects.get? key = some current ∧ item.revision ≤ current.revision
  queued : ∀ entry ∈ job.queue, ∃ current, side.objects.get? entry.1 = some current ∧
    entry.2.revision ≤ current.revision ∧
    (extractor.fetches = false → extractor.wants entry.1 current = true → current = entry.2)
  recent : ∀ entry ∈ job.queue, ∀ item, job.began.get? entry.1 = some item →
    item.revision ≤ entry.2.revision
  skipped : ∀ entry ∈ job.queue, extractor.skips job.copy entry.1 entry.2 = true →
    HasRevision side entry.1 entry.2.revision
  nodup : extractor.fetches = false → (job.queue.map Prod.fst).Nodup
  due : ∀ key item, job.began.get? key = some item → extractor.wants key item = true →
    HasRevision side key item.revision ∨ job.complete = false ∨ key ∈ job.queue.map Prod.fst ∨
      key ∈ extractor.toList side.objects job ∨
      ∃ space ∈ job.toVisit, extractor.finds job.loaded space = none

variable {side : Side} {extractor : Extractor} {job : Job} {wal : Wal} {key : String} {item : Item}

theorem pending_eq_false : side.pending key item = false ↔
    side.extracted.get? key = some item.revision := by
  simp [Side.pending]

theorem pending_eq_true : side.pending key item = true ↔
    side.extracted.get? key ≠ some item.revision := by
  simp [Side.pending]

theorem Extractor.mem_results {objects : Dict String Item} {wal : Wal} {space : Option String}
    {found : List (String × Item)} (listed : extractor.results objects wal space = some found)
    (entry : String × Item) : entry ∈ found ↔ objects.get? entry.1 = some entry.2 ∧
      extractor.inSpace space entry.1 entry.2 = true ∧
      ∀ date, extractor.date wal = some date → extractor.passes date entry.2.modified = true := by
  obtain ⟨clause, finds, rfl⟩ := Option.map_eq_some_iff.mp listed
  rw [(extractor.order_perm _).mem_iff, List.mem_filter, extractor.finds_eq wal space clause finds,
    Bool.and_eq_true, Option.all_eq_true, ← Dict.mem_entries_iff]

theorem Extractor.nodup_results {objects : Dict String Item} {wal : Wal} {space : Option String}
    {found : List (String × Item)} (listed : extractor.results objects wal space = some found) :
    (found.map Prod.fst).Nodup := by
  obtain ⟨clause, finds, rfl⟩ := Option.map_eq_some_iff.mp listed
  apply ((extractor.order_perm _).map Prod.fst).nodup_iff.mpr
  exact (List.filter_sublist.map Prod.fst).nodup objects.nodup

theorem Extractor.wants_of_inSpace {space : Option String} (inside : space ∈ extractor.spaces)
    (found : extractor.inSpace space key item = true) : extractor.wants key item = true :=
  List.any_eq_true.mpr ⟨space, inside, found⟩

theorem Extractor.toList_of_start {objects : Dict String Item} {offset : Nat}
    {space : Option String} {later : List (Option String)} (started : job.start = some offset)
    (shape : job.spaces = space :: later) :
    extractor.toList objects job = (extractor.foundKeys objects job.loaded space).drop offset ++
      later.flatMap (extractor.foundKeys objects job.loaded) := by
  simp [Extractor.toList, started, shape]

theorem Job.mem_toVisit {space : Option String} (later : space ∈ job.spaces.tail) :
    space ∈ job.toVisit := by
  unfold Job.toVisit
  split
  · exact List.mem_of_mem_tail later
  · exact later

theorem Extractor.le_of_lastPage {wal : Wal} {found : List (String × Item)} {offset : Nat}
    (last : extractor.lastPage wal offset ((found.drop offset).take extractor.limit).length
      found.length = true) : found.length ≤ offset + extractor.limit := by
  unfold Extractor.lastPage at last
  split at last
  · exact of_decide_eq_true last
  · have short := of_decide_eq_true last
    rw [List.length_take, List.length_drop] at short
    omega

theorem hasRevision_of_not_pending {revision : Nat} (extracted : side.pending key item = false)
    (older : revision ≤ item.revision) : HasRevision side key revision :=
  ⟨item.revision, pending_eq_false.mp extracted, older⟩

theorem JobSound.begun (caught : Caught extractor side wal)
    (starts : extractor.standing wal = none → ∀ date, extractor.date wal = some date →
      ∀ key item, side.objects.get? key = some item → extractor.wants key item = true →
        side.pending key item = true → extractor.passes date item.modified = true) :
    JobSound extractor side (extractor.begin side.objects wal) where
  spaces := fun _ member => member
  listing := fun _ => extractor.spaces_ne
  grown := fun key item found => ⟨item, found, Nat.le_refl _⟩
  queued := by
    intro entry member
    cases member
  recent := by
    intro entry member
    cases member
  skipped := by
    intro entry member
    cases member
  nodup := fun _ => List.nodup_nil
  due := by
    intro key item found wanted
    cases state : side.pending key item with
    | false => exact Or.inl (hasRevision_of_not_pending state (Nat.le_refl _))
    | true =>
        have passes : ∀ date, extractor.date wal = some date →
            extractor.passes date item.modified = true := by
          intro date dated
          cases standing : extractor.standing wal with
          | none => exact starts standing date dated key item found wanted state
          | some time =>
              have same := extractor.date_of_standing wal time standing
              obtain rfl := Option.some.inj (same.symm.trans dated)
              exact (caught key item found wanted state).2 time standing
        obtain ⟨space, inside, here⟩ := List.any_eq_true.mp wanted
        right; right; right
        cases finds : extractor.results side.objects wal space with
        | none =>
            right
            exact ⟨space, inside, Option.map_eq_none_iff.mp finds⟩
        | some results =>
            left
            have member := (Extractor.mem_results finds (key, item)).mpr ⟨found, here, passes⟩
            have listed : key ∈ extractor.foundKeys side.objects wal space := by
              rw [Extractor.foundKeys, finds]
              exact List.mem_map_of_mem member
            show key ∈ (extractor.foundKeys side.objects wal
                (extractor.spaces.headD none)).drop 0 ++
              extractor.spaces.tail.flatMap (extractor.foundKeys side.objects wal)
            cases shape : extractor.spaces with
            | nil => exact absurd shape extractor.spaces_ne
            | cons first later =>
                rw [shape] at inside
                rcases List.mem_cons.mp inside with rfl | inside
                · exact List.mem_append_left _ listed
                · exact List.mem_append_right _ (List.mem_flatMap.mpr ⟨space, inside, listed⟩)

theorem JobSound.withJob (sound : JobSound extractor side job) (running : Option Job) :
    JobSound extractor { side with job := running } job :=
  ⟨sound.spaces, sound.listing, sound.grown, sound.queued, sound.recent, sound.skipped,
    sound.nodup, sound.due⟩

theorem JobSound.pop {entry : String × Item} {rest : List (String × Item)}
    (sound : JobSound extractor side job) (shape : job.queue = entry :: rest) (complete : Bool)
    (narrows : complete = true → job.complete = true)
    (come : complete = true → ∀ item, job.began.get? entry.1 = some item →
      HasRevision side entry.1 item.revision) :
    JobSound extractor side { job with queue := rest, complete := complete } where
  spaces := sound.spaces
  listing := sound.listing
  grown := sound.grown
  queued := fun other member => sound.queued other (shape ▸ List.mem_cons_of_mem _ member)
  recent := fun other member => sound.recent other (shape ▸ List.mem_cons_of_mem _ member)
  skipped := fun other member => sound.skipped other (shape ▸ List.mem_cons_of_mem _ member)
  nodup := by
    intro listed
    have all := sound.nodup listed
    rw [shape, List.map_cons, List.nodup_cons] at all
    exact all.2
  due := by
    intro key item found wanted
    cases whole : complete with
    | false => exact Or.inr (Or.inl rfl)
    | true =>
        rcases sound.due key item found wanted with has | broken | queued | later
        · exact Or.inl has
        · rw [narrows whole] at broken
          cases broken
        · rw [shape, List.map_cons, List.mem_cons] at queued
          rcases queued with rfl | queued
          · exact Or.inl (come whole item found)
          · exact Or.inr (Or.inr (Or.inl queued))
        · exact Or.inr (Or.inr (Or.inr later))

theorem JobSound.cut (sound : JobSound extractor side job) :
    JobSound extractor side (Extractor.cutOff job) where
  spaces := by
    intro space member
    cases member
  listing := fun open_ => absurd rfl open_
  grown := sound.grown
  queued := by
    intro entry member
    cases member
  recent := by
    intro entry member
    cases member
  skipped := by
    intro entry member
    cases member
  nodup := fun _ => List.nodup_nil
  due := by
    intro key item found wanted
    cases whole : (Extractor.cutOff job).complete with
    | false => exact Or.inr (Or.inl rfl)
    | true =>
        simp only [Extractor.cutOff, Bool.and_eq_true, decide_eq_true_eq] at whole
        obtain ⟨⟨⟨complete, queue⟩, start⟩, spaces⟩ := whole
        have noQueue := List.isEmpty_iff.mp queue
        have noStart := Option.isNone_iff_eq_none.mp start
        have noTail : job.spaces.tail = [] := by
          apply List.eq_nil_of_length_eq_zero
          rw [List.length_tail]
          omega
        rcases sound.due key item found wanted with has | broken | queued | listed | rejected
        · exact Or.inl has
        · rw [complete] at broken
          cases broken
        · simp [noQueue] at queued
        · simp [Extractor.toList, noStart, noTail] at listed
        · simp [Job.toVisit, noStart, noTail] at rejected

theorem JobSound.cutIf (sound : JobSound extractor side job) (stops : Bool) :
    JobSound extractor side (if stops then Extractor.cutOff job else job) := by
  split
  · exact sound.cut
  · exact sound

theorem JobSound.requested {offset : Nat} {found : List (String × Item)}
    (sound : JobSound extractor side job) (caught : Caught extractor side job.copy)
    (started : job.start = some offset)
    (listed : extractor.results side.objects job.loaded (job.spaces.headD none) = some found)
    (lazily : extractor.fetches = false → job.queue = []) :
    JobSound extractor side { job with
      queue := job.queue ++ (found.drop offset).take extractor.limit
      start := if extractor.lastPage job.loaded offset
          ((found.drop offset).take extractor.limit).length found.length then none
        else some (offset + extractor.limit) } := by
  have open_ : job.spaces ≠ [] := sound.listing (by simp [started])
  obtain ⟨space, later, shape⟩ := List.exists_cons_of_ne_nil open_
  rw [shape, List.headD_cons] at listed
  have results := Extractor.mem_results listed
  have paged : ∀ entry ∈ (found.drop offset).take extractor.limit, entry ∈ found :=
    fun entry member => List.mem_of_mem_drop (List.mem_of_mem_take member)
  constructor
  case spaces => exact sound.spaces
  case listing => exact fun _ => open_
  case grown => exact sound.grown
  case queued =>
    intro entry member
    rcases List.mem_append.mp member with old | new
    · exact sound.queued entry old
    · exact ⟨entry.2, ((results entry).mp (paged entry new)).1, Nat.le_refl _, fun _ _ => rfl⟩
  case recent =>
    intro entry member item began
    rcases List.mem_append.mp member with old | new
    · exact sound.recent entry old item began
    · obtain ⟨current, held, older⟩ := sound.grown entry.1 item began
      obtain rfl := Option.some.inj (held.symm.trans ((results entry).mp (paged entry new)).1)
      exact older
  case skipped =>
    intro entry member skip
    rcases List.mem_append.mp member with old | new
    · exact sound.skipped entry old skip
    · obtain ⟨held, inside, -⟩ := (results entry).mp (paged entry new)
      have wanted := Extractor.wants_of_inSpace
        (sound.spaces space (shape ▸ List.mem_cons_self)) inside
      cases state : side.pending entry.1 entry.2 with
      | false => exact hasRevision_of_not_pending state (Nat.le_refl _)
      | true =>
          have unskipped := (caught entry.1 entry.2 held wanted state).1
          exact absurd skip (by simp [unskipped])
  case nodup =>
    intro listedOnce
    have queue : (job.queue ++ (found.drop offset).take extractor.limit) =
        (found.drop offset).take extractor.limit := by rw [lazily listedOnce, List.nil_append]
    rw [queue]
    have part := (List.take_sublist extractor.limit (found.drop offset)).trans
      (List.drop_sublist offset found)
    exact (part.map Prod.fst).nodup (Extractor.nodup_results listed)
  case due =>
    intro key item began wanted
    rcases sound.due key item began wanted with has | broken | queued | due | rejected
    · exact Or.inl has
    · exact Or.inr (Or.inl broken)
    · right; right; left
      rw [List.map_append]
      exact List.mem_append_left _ queued
    · rw [Extractor.toList_of_start started shape, List.mem_append] at due
      rcases due with here | tail
      · rw [Extractor.foundKeys, listed, Option.getD_some, ← List.map_drop] at here
        obtain ⟨entry, member, rfl⟩ := List.mem_map.mp here
        rw [← List.take_append_drop extractor.limit (found.drop offset), List.drop_drop,
          List.mem_append] at member
        right; right
        rcases member with paged | member
        · left
          rw [List.map_append]
          exact List.mem_append_right _ (List.mem_map_of_mem paged)
        · right; left
          split
          · rename_i last
            rw [List.drop_eq_nil_of_le (Extractor.le_of_lastPage last)] at member
            cases member
          · apply List.mem_append_left
            show entry.1 ∈ (extractor.foundKeys side.objects job.loaded
              (job.spaces.headD none)).drop (offset + extractor.limit)
            rw [shape, List.headD_cons, Extractor.foundKeys, listed, Option.getD_some,
              ← List.map_drop]
            exact List.mem_map_of_mem member
      · right; right; right; left
        exact List.mem_append_right _ (by rwa [shape])
    · right; right; right; right
      obtain ⟨other, member, rejected⟩ := rejected
      rw [Job.toVisit, started, shape] at member
      rcases List.mem_cons.mp member with rfl | member
      · rw [Extractor.results, rejected] at listed
        cases listed
      · have tail : other ∈ job.spaces.tail := by rwa [shape]
        exact ⟨other, Job.mem_toVisit tail, rejected⟩

theorem JobSound.advanced {space next : Option String} {later : List (Option String)}
    (sound : JobSound extractor side job) (shape : job.spaces = space :: next :: later)
    (ended : job.start = none) :
    JobSound extractor side { job with spaces := next :: later, start := some 0 } where
  spaces := fun other member => sound.spaces other (shape ▸ List.mem_cons_of_mem _ member)
  listing := by simp
  grown := sound.grown
  queued := sound.queued
  recent := sound.recent
  skipped := sound.skipped
  nodup := sound.nodup
  due := by
    intro key item found wanted
    rcases sound.due key item found wanted with has | broken | queued | due | rejected
    · exact Or.inl has
    · exact Or.inr (Or.inl broken)
    · exact Or.inr (Or.inr (Or.inl queued))
    · right; right; right; left
      simpa [Extractor.toList, ended, shape] using due
    · right; right; right; right
      simpa [Job.toVisit, ended, shape] using rejected

theorem HasRevision.kept {revision read : Nat} {other : String}
    (has : HasRevision side other revision) (newer : other = key → revision ≤ read) :
    HasRevision { side with extracted := side.extracted.set key read } other revision := by
  obtain ⟨held, found, older⟩ := has
  by_cases same : other = key
  · subst same
    exact ⟨read, Dict.get?_set_self _ _ _, newer rfl⟩
  · exact ⟨held, (Dict.get?_set_of_ne same _ _).trans found, older⟩

theorem JobSound.read {rest : List (String × Item)} (sound : JobSound extractor side job)
    (shape : job.queue = (key, item) :: rest) :
    ∃ current, side.objects.get? key = some current ∧
      extractor.revisionRead side.objects key item ≤ current.revision ∧
      item.revision ≤ extractor.revisionRead side.objects key item ∧
      (extractor.fetches = true →
        extractor.revisionRead side.objects key item = current.revision) ∧
      (extractor.wants key current = true →
        extractor.revisionRead side.objects key item = current.revision) := by
  obtain ⟨current, held, older, same⟩ := sound.queued (key, item) (shape ▸ List.mem_cons_self)
  refine ⟨current, held, ?_⟩
  unfold Extractor.revisionRead
  cases fetches : extractor.fetches with
  | true => simp [held, older]
  | false =>
      refine ⟨by simpa using older, by simp, by simp, fun wanted => ?_⟩
      rw [same fetches wanted]
      simp

theorem JobSound.saved {rest : List (String × Item)} (sound : JobSound extractor side job)
    (shape : job.queue = (key, item) :: rest) (copy : Wal) (total : Nat)
    (records : ∀ other, other ≠ key → ∀ given,
      extractor.skips copy other given = extractor.skips job.copy other given) :
    JobSound extractor
      { side with
        extracted := side.extracted.set key (extractor.revisionRead side.objects key item) }
      { job with queue := rest, copy := copy, total := total } := by
  obtain ⟨current, held, bounded, newer, fetched, -⟩ := sound.read shape
  have inRest : ∀ entry ∈ rest, entry ∈ job.queue :=
    fun entry member => shape ▸ List.mem_cons_of_mem _ member
  constructor
  case spaces => exact sound.spaces
  case listing => exact sound.listing
  case grown => exact sound.grown
  case queued => exact fun entry member => sound.queued entry (inRest entry member)
  case recent => exact fun entry member => sound.recent entry (inRest entry member)
  case nodup =>
    intro listed
    have all := sound.nodup listed
    rw [shape, List.map_cons, List.nodup_cons] at all
    exact all.2
  case skipped =>
    intro entry member skip
    by_cases same : entry.1 = key
    · -- listed twice, so it was fetched
      have fetches : extractor.fetches = true := by
        by_contra listed
        have all := sound.nodup (Bool.not_eq_true _ |>.mp listed)
        rw [shape, List.map_cons, List.nodup_cons] at all
        have again : entry.1 ∈ rest.map Prod.fst := List.mem_map_of_mem member
        exact all.1 (same ▸ again)
      obtain ⟨other, otherHeld, older, -⟩ := sound.queued entry (inRest entry member)
      rw [same] at otherHeld
      obtain rfl := Option.some.inj (otherHeld.symm.trans held)
      rw [same]
      exact ⟨_, Dict.get?_set_self _ _ _, (fetched fetches).symm ▸ older⟩
    · rw [records entry.1 same] at skip
      exact (sound.skipped entry (inRest entry member) skip).kept fun equal => absurd equal same
  case due =>
    intro other given began wanted
    by_cases same : other = key
    · subst same
      left
      have recent := sound.recent (other, item) (shape ▸ List.mem_cons_self) given began
      exact ⟨_, Dict.get?_set_self _ _ _, recent.trans newer⟩
    · rcases sound.due other given began wanted with has | broken | queued | later
      · exact Or.inl (has.kept fun equal => absurd equal same)
      · exact Or.inr (Or.inl broken)
      · rw [shape, List.map_cons, List.mem_cons] at queued
        exact Or.inr (Or.inr (Or.inl (queued.resolve_left same)))
      · exact Or.inr (Or.inr (Or.inr later))

theorem JobSound.modified {written : Item} (sound : JobSound extractor side job)
    (newer : ∀ old, side.objects.get? key = some old → old.revision ≤ written.revision)
    (unqueued : extractor.fetches = false → extractor.wants key written = true →
      ∀ entry ∈ job.queue, entry.1 ≠ key)
    (keeps : ∀ other given, side.objects.get? other = some given →
      side.pending other given = true → other ∈ extractor.toList side.objects job →
      other ∈ extractor.toList (side.objects.set key written) job) :
    JobSound extractor { side with objects := side.objects.set key written } job := by
  have grows : ∀ other old, side.objects.get? other = some old → ∃ current,
      (side.objects.set key written).get? other = some current ∧
        old.revision ≤ current.revision ∧ (other ≠ key → current = old) := by
    intro other old held
    by_cases same : other = key
    · subst same
      exact ⟨written, Dict.get?_set_self _ _ _, newer old held, fun differs => absurd rfl differs⟩
    · exact ⟨old, (Dict.get?_set_of_ne same _ _).trans held, Nat.le_refl _, fun _ => rfl⟩
  constructor
  case spaces => exact sound.spaces
  case listing => exact sound.listing
  case recent => exact sound.recent
  case skipped => exact sound.skipped
  case nodup => exact sound.nodup
  case grown =>
    intro other item began
    obtain ⟨old, held, older⟩ := sound.grown other item began
    obtain ⟨current, now, later, -⟩ := grows other old held
    exact ⟨current, now, older.trans later⟩
  case queued =>
    intro entry member
    obtain ⟨old, held, older, same⟩ := sound.queued entry member
    obtain ⟨current, now, later, unchanged⟩ := grows entry.1 old held
    refine ⟨current, now, older.trans later, fun listed wanted => ?_⟩
    by_cases equal : entry.1 = key
    · have set := Dict.get?_set_self side.objects key written
      rw [equal] at now
      obtain rfl := Option.some.inj (set.symm.trans now)
      exact absurd equal (unqueued listed (equal ▸ wanted) entry member)
    · obtain rfl := unchanged equal
      exact same listed wanted
  case due =>
    intro other item began wanted
    rcases sound.due other item began wanted with has | broken | queued | due | rejected
    · exact Or.inl has
    · exact Or.inr (Or.inl broken)
    · exact Or.inr (Or.inr (Or.inl queued))
    · obtain ⟨old, held, older⟩ := sound.grown other item began
      cases state : side.pending other old with
      | false => exact Or.inl (hasRevision_of_not_pending state older)
      | true => exact Or.inr (Or.inr (Or.inr (Or.inl (keeps other old held state due))))
    · exact Or.inr (Or.inr (Or.inr (Or.inr rejected)))

inductive Turns (extractor : Extractor) (objects : Dict String Item) (now : Rat) (job : Job) :
    Turn → Prop
  | raised : Turns extractor objects now job .raised
  | finished (ended : job.start = none) (empty : job.queue = []) (last : job.spaces.tail = []) :
      Turns extractor objects now job .finished
  | requested {offset : Nat} {found : List (String × Item)} (started : job.start = some offset)
      (listed : extractor.results objects job.loaded (job.spaces.headD none) = some found)
      (lazily : extractor.fetches = false → job.queue = []) :
      Turns extractor objects now job (.going { job with
        queue := job.queue ++ (found.drop offset).take extractor.limit
        start := if extractor.lastPage job.loaded offset
            ((found.drop offset).take extractor.limit).length found.length then none
          else some (offset + extractor.limit) })
  | skipped {key : String} {item : Item} {rest : List (String × Item)}
      (shape : job.queue = (key, item) :: rest)
      (skip : extractor.skips job.copy key item = true) :
      Turns extractor objects now job (.going { job with queue := rest })
  | failed {key : String} {item : Item} {rest : List (String × Item)}
      (shape : job.queue = (key, item) :: rest) :
      Turns extractor objects now job (.going { job with queue := rest, complete := false })
  | interrupted : Turns extractor objects now job (.going (Extractor.cutOff job))
  | saved {key : String} {item : Item} {rest : List (String × Item)}
      (shape : job.queue = (key, item) :: rest) (stops : Bool)
      {done : Job} (made : done = { job with
        queue := rest
        copy := extractor.records job.copy key item now
        total := job.total + 1 }) :
      Turns extractor objects now job (.saved (if stops then Extractor.cutOff done else done) key
        (extractor.revisionRead objects key item))
  | advanced {space next : Option String} {later : List (Option String)}
      (shape : job.spaces = space :: next :: later) (ended : job.start = none) :
      Turns extractor objects now job (.going { job with spaces := next :: later, start := some 0 })

variable {objects : Dict String Item} {input : Input} {now : Rat}

theorem request_turns {offset : Nat} (started : job.start = some offset)
    (lazily : extractor.fetches = false → job.queue = []) :
    Turns extractor objects now job (extractor.request objects job offset) := by
  unfold Extractor.request
  cases listed : extractor.results objects job.loaded (job.spaces.headD none) with
  | none => exact Turns.raised
  | some found => exact Turns.requested started listed lazily

theorem process_turns {rest : List (String × Item)} (shape : job.queue = (key, item) :: rest) :
    Turns extractor objects now job (extractor.process objects input now job key item rest) := by
  unfold Extractor.process
  split
  · exact Turns.raised
  · split
    · rename_i skip
      exact Turns.skipped shape skip
    · split
      · exact Turns.failed shape
      · split
        · exact Turns.interrupted
        · exact Turns.saved shape _ rfl

theorem advance_turns (ended : job.start = none) (empty : job.queue = []) :
    Turns extractor objects now job (Extractor.advance input job) := by
  unfold Extractor.advance
  split
  · rename_i space next later shape
    split
    · exact Turns.raised
    · exact Turns.advanced shape ended
  · rename_i short
    split
    · exact Turns.raised
    · apply Turns.finished ended empty
      cases spaces : job.spaces with
      | nil => rfl
      | cons space rest =>
          cases rest with
          | nil => rfl
          | cons next later => exact absurd spaces (short space next later)

theorem turn_turns (extractor : Extractor) (objects : Dict String Item) (input : Input) (now : Rat)
    (job : Job) : Turns extractor objects now job (extractor.turn objects input now job) := by
  unfold Extractor.turn
  split
  · rename_i offset started empty
    split
    · exact request_turns started fun _ => empty
    · exact Turns.raised
  · rename_i offset key item rest started shape
    split
    · rename_i fetches
      split
      · exact request_turns started fun listed => absurd fetches (by simp [listed])
      · exact Turns.raised
    · exact process_turns shape
  · rename_i key item rest ended shape
    exact process_turns shape
  · rename_i ended empty
    exact advance_turns ended empty

theorem JobSound.going {next : Job} (sound : JobSound extractor side job)
    (caught : Caught extractor side job.copy)
    (turns : Turns extractor side.objects now job (.going next)) :
    JobSound extractor side next ∧ next.copy = job.copy := by
  cases turns with
  | requested started listed lazily =>
      exact ⟨sound.requested caught started listed lazily, rfl⟩
  | @skipped key item rest shape skip =>
      have popped := sound.pop shape job.complete (fun whole => whole) fun _ given began => by
        obtain ⟨read, found, older⟩ := sound.skipped (key, item) (shape ▸ List.mem_cons_self) skip
        have recent := sound.recent (key, item) (shape ▸ List.mem_cons_self) given began
        exact ⟨read, found, recent.trans older⟩
      exact ⟨popped, rfl⟩
  | failed shape =>
      exact ⟨sound.pop shape false (by simp) (by simp), rfl⟩
  | interrupted => exact ⟨sound.cut, rfl⟩
  | advanced shape ended => exact ⟨sound.advanced shape ended, rfl⟩

theorem JobSound.ended (sound : JobSound extractor side job) (ended : job.start = none)
    (empty : job.queue = []) (last : job.spaces.tail = []) (complete : job.complete = true)
    (began : job.began.get? key = some item) (wanted : extractor.wants key item = true) :
    HasRevision side key item.revision := by
  rcases sound.due key item began wanted with has | broken | queued | listed | rejected
  · exact has
  · rw [complete] at broken
    cases broken
  · simp [empty] at queued
  · simp [Extractor.toList, ended, last] at listed
  · simp [Job.toVisit, ended, last] at rejected

end RagSystem.Etl.Incremental
