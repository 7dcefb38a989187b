import Mathlib.Data.List.Pairwise
import RagSystem.Etl.RemoteEmbedder

/-! When the rows of an encoding are the vectors that the service returned for its texts. -/

namespace RagSystem.Etl.Embedding

open Batches

variable {φ : Type} (numpy : Numpy φ) (embedder : RemoteEmbedder) (service : Service)
  (normalizeEmbeddings : Bool) (texts : List String)

def takes : Reply → Option (List Entry)
  | .raised => none
  | .answered status data =>
      if refuses embedder status then none
      else if data.all (fun entry => entry.embedding.isSome) then some data
      else none

def taken (start : Nat) : Option (List Entry) :=
  (List.range embedder.retryConfig.maxAttempts.toNat).findSome? (fun attempt =>
    takes embedder (service start attempt
      (truncated embedder (batchAt embedder.maxBatchSize.toNat texts start))))

def Entry.vector (entry : Entry) : List ℚ := entry.embedding.getD []

/-- The entry is the service's answer to the text at a place of the batch: the one with this index,
or the one at this place where the reply indexes none. -/
def Answers (data : List Entry) (place : Nat) (entry : Entry) : Prop :=
  if ∀ other ∈ data, other.index = none then data[place]? = some entry
  else entry ∈ data ∧ entry.position = place

def rowOf (entry : Entry) : List φ :=
  let row := entry.vector.map numpy.float32
  if normalizeEmbeddings then unit numpy row else row

/-- One row for each text, made of an answer to this very text. -/
def Aligned (rows : List (List φ)) : Prop :=
  rows.length = texts.length ∧
    ∀ place row, rows[place]? = some row →
      ∃ data entry,
        taken embedder service texts
          (place / embedder.maxBatchSize.toNat * embedder.maxBatchSize.toNat) = some data ∧
        Answers data (place % embedder.maxBatchSize.toNat) entry ∧
        row = rowOf numpy normalizeEmbeddings entry

/-- One entry for each text of the batch: indexed from zero on, in any order, or not at all. -/
def Covers (count : Nat) (data : List Entry) : Prop :=
  data.length = count ∧
    ((∀ entry ∈ data, entry.index = none) ∨
      (data.map Entry.position).Perm ((List.range count).map Int.ofNat))

inductive Raises : Prop
  | noStep (zero : embedder.maxBatchSize = 0)
  | exhausted (start : Nat)
      (placed : start ∈ starts embedder.maxBatchSize.toNat texts.length)
      (failed : taken embedder service texts start = none)
  | ragged (first second : Nat)
      (firstPlaced : first ∈ starts embedder.maxBatchSize.toNat texts.length)
      (secondPlaced : second ∈ starts embedder.maxBatchSize.toNat texts.length)
      (firstData secondData : List Entry)
      (firstTaken : taken embedder service texts first = some firstData)
      (secondTaken : taken embedder service texts second = some secondData)
      (entry other : Entry) (inFirst : entry ∈ firstData) (inSecond : other ∈ secondData)
      (differ : entry.vector.length ≠ other.vector.length)
  | nothing (normalizes : normalizeEmbeddings = true)
      (empty : ∀ start ∈ starts embedder.maxBatchSize.toNat texts.length,
        taken embedder service texts start = some [])

/-- The replies that are taken have one entry for each text. -/
def Covered : Prop :=
  0 < embedder.maxBatchSize ∧
    ∀ start ∈ starts embedder.maxBatchSize.toNat texts.length,
      ∀ data, taken embedder service texts start = some data →
        Covers (min embedder.maxBatchSize.toNat (texts.length - start)) data

section Entries

variable {data : List Entry} {count place : Nat} {entry : Entry}

theorem sortByIndex_perm : (sortByIndex data).Perm data := List.perm_insertionSort _ data

theorem mem_sortByIndex : entry ∈ sortByIndex data ↔ entry ∈ data := sortByIndex_perm.mem_iff

theorem pairwise_sortByIndex :
    (sortByIndex data).Pairwise (fun first second => first.position ≤ second.position) := by
  have total : Std.Total (fun first second : Entry => first.position ≤ second.position) :=
    ⟨fun first second => le_total first.position second.position⟩
  have transitive : IsTrans Entry (fun first second => first.position ≤ second.position) :=
    ⟨fun _ _ _ => le_trans⟩
  exact List.pairwise_insertionSort _ data

theorem sortByIndex_eq_self (unindexed : ∀ entry ∈ data, entry.index = none) :
    sortByIndex data = data := by
  apply List.Pairwise.insertionSort_eq
  apply List.pairwise_of_forall_mem_list
  intro first firstIn second secondIn
  rw [Entry.position, Entry.position, unindexed first firstIn, unindexed second secondIn]

theorem position_sortByIndex
    (permuted : (data.map Entry.position).Perm ((List.range count).map Int.ofNat)) :
    (sortByIndex data).map Entry.position = (List.range count).map Int.ofNat := by
  have ordered : ((sortByIndex data).map Entry.position).Pairwise (· ≤ ·) :=
    List.pairwise_map.mpr pairwise_sortByIndex
  have numbers : ((List.range count).map Int.ofNat).Pairwise (· ≤ ·) := by
    apply List.pairwise_map.mpr
    apply List.pairwise_le_range.imp
    intro first second below
    exact Int.ofNat_le.mpr below
  apply List.Perm.eq_of_pairwise (fun _ _ _ _ => le_antisymm) ordered numbers
  exact (sortByIndex_perm.map Entry.position).trans permuted

theorem Covers.answers (covers : Covers count data) (inside : place < count) :
    ∃ entry, (sortByIndex data)[place]? = some entry ∧ Answers data place entry := by
  obtain ⟨counted, indexed⟩ := covers
  by_cases unindexed : ∀ entry ∈ data, entry.index = none
  · have bound : place < data.length := by omega
    refine ⟨data[place], ?_, ?_⟩
    · rw [sortByIndex_eq_self unindexed, List.getElem?_eq_getElem bound]
    · rw [Answers, if_pos unindexed, List.getElem?_eq_getElem bound]
  · have permuted := indexed.resolve_left unindexed
    have bound : place < (sortByIndex data).length := by
      rw [sortByIndex_perm.length_eq]
      omega
    have positions := congrArg (·[place]?) (position_sortByIndex permuted)
    refine ⟨(sortByIndex data)[place], List.getElem?_eq_getElem bound, ?_⟩
    rw [Answers, if_neg unindexed]
    refine ⟨mem_sortByIndex.mp (List.getElem_mem bound), ?_⟩
    simpa [List.getElem?_eq_getElem bound, List.getElem?_range inside] using positions

theorem covers_of_answers (answered : ∀ place < count, ∃ entry, Answers data place entry) :
    count ≤ data.length ∧ (data.length = count → Covers count data) := by
  by_cases unindexed : ∀ entry ∈ data, entry.index = none
  · refine ⟨?_, fun counted => ⟨counted, Or.inl unindexed⟩⟩
    by_contra few
    obtain ⟨entry, answer⟩ := answered data.length (Nat.not_le.mp few)
    rw [Answers, if_pos unindexed, List.getElem?_eq_none (Nat.le_refl _)] at answer
    cases answer
  · have contained : (List.range count).map Int.ofNat ⊆ data.map Entry.position := by
      intro position member
      obtain ⟨place, inside, rfl⟩ := List.mem_map.mp member
      obtain ⟨entry, answer⟩ := answered place (List.mem_range.mp inside)
      rw [Answers, if_neg unindexed] at answer
      exact List.mem_map.mpr ⟨entry, answer.1, answer.2⟩
    have distinct : ((List.range count).map Int.ofNat).Nodup :=
      List.nodup_range.map (fun _ _ => Int.ofNat.inj)
    have part := List.subperm_of_subset distinct contained
    have lengths := part.length_le
    rw [List.length_map, List.length_map, List.length_range] at lengths
    refine ⟨lengths, fun counted => ⟨counted, Or.inr ?_⟩⟩
    apply List.Perm.symm
    apply part.perm_of_length_le
    rw [List.length_map, List.length_map, List.length_range, counted]

end Entries

section Calls

variable {embedder service texts}

theorem mapM_embedding (entries : List Entry) :
    entries.mapM Entry.embedding =
      if entries.all (fun entry => entry.embedding.isSome) then some (entries.map Entry.vector)
      else none := by
  induction entries with
  | nil => rfl
  | cons entry rest ih =>
      rw [List.mapM_cons, ih]
      cases vector : entry.embedding with
      | none => simp [vector]
      | some numbers =>
          cases all : rest.all (fun entry => entry.embedding.isSome) with
          | false => simp [vector, all]
          | true => simp [vector, all, Entry.vector]

theorem callApiSync_eq (post : List String → Reply) (batch : List String) :
    callApiSync embedder post batch =
      (takes embedder (post (truncated embedder batch))).map
        (fun data => (sortByIndex data).map Entry.vector) := by
  cases replied : post (truncated embedder batch) with
  | raised => simp only [callApiSync, replied, takes, Option.map_none]
  | answered status data =>
      have same : (sortByIndex data).all (fun entry => entry.embedding.isSome) =
          data.all (fun entry => entry.embedding.isSome) := sortByIndex_perm.all_eq
      simp only [callApiSync, replied, takes]
      split
      · rfl
      · rw [mapM_embedding, same]
        split
        · rfl
        · rfl

variable (embedder service texts) in
def part (start : Nat) : List Entry := sortByIndex ((taken embedder service texts start).getD [])

theorem callApiWithRetry_eq (start : Nat) :
    callApiWithRetry embedder (service start)
        (batchAt embedder.maxBatchSize.toNat texts start) =
      match taken embedder service texts start with
      | some _ => .ok ((part embedder service texts start).map Entry.vector)
      | none => .error (.retryExhausted embedder.retryConfig.maxAttempts) := by
  have found : (List.range embedder.retryConfig.maxAttempts.toNat).findSome? (fun attempt =>
      callApiSync embedder (service start attempt)
        (batchAt embedder.maxBatchSize.toNat texts start)) =
      (taken embedder service texts start).map
        (fun data => (sortByIndex data).map Entry.vector) := by
    rw [taken, List.map_findSome?]
    congr 1
    funext attempt
    exact callApiSync_eq _ _
  rw [callApiWithRetry, found, part]
  cases taken embedder service texts start with
  | none => rfl
  | some data => rfl

theorem collect_eq (list : List Nat) :
    collect embedder service texts list =
      if ∀ start ∈ list, (taken embedder service texts start).isSome then
        .ok ((list.flatMap (part embedder service texts)).map Entry.vector)
      else .error (.retryExhausted embedder.retryConfig.maxAttempts) := by
  induction list with
  | nil => rfl
  | cons start rest ih =>
      simp only [collect, callApiWithRetry_eq, ih]
      cases found : taken embedder service texts start with
      | none =>
          have failed : ¬ ∀ other ∈ start :: rest,
              (taken embedder service texts other).isSome := by
            intro all
            simpa [found] using all start List.mem_cons_self
          rw [if_neg failed]
          rfl
      | some data =>
          by_cases all : ∀ start ∈ rest, (taken embedder service texts start).isSome
          · rw [if_pos all, if_pos (by simpa [found] using all), List.flatMap_cons,
              List.map_append]
            rfl
          · rw [if_neg all, if_neg (by simpa [found] using all)]
            rfl

end Calls

section Encoding

variable {numpy embedder service normalizeEmbeddings texts} {rows : List (List φ)}

variable (embedder service texts) in
def entries : List Entry :=
  (starts embedder.maxBatchSize.toNat texts.length).flatMap (part embedder service texts)

theorem pairwise_lengths_iff (list : List Entry) :
    (list.map Entry.vector).Pairwise (fun first second => first.length = second.length) ↔
      ∀ entry ∈ list, ∀ other ∈ list, entry.vector.length = other.vector.length := by
  rw [List.pairwise_map]
  constructor
  · intro pairs entry member other otherIn
    have symmetric : Std.Symm (fun first second : Entry =>
        first.vector.length = second.vector.length) := ⟨fun _ _ => Eq.symm⟩
    apply pairs.forall_of_forall _ member otherIn
    exact fun _ _ => rfl
  · intro all
    exact List.pairwise_of_forall_mem_list all

variable (numpy) in
theorem map_array (list : List Entry) (shape : List φ → List φ) :
    ((list.map Entry.vector).map (List.map numpy.float32)).map shape =
      list.map (fun entry => shape (entry.vector.map numpy.float32)) := by
  rw [List.map_map, List.map_map]
  rfl

theorem encodeList_ok_iff (some : texts ≠ []) :
    encodeList embedder numpy service normalizeEmbeddings texts = .ok rows ↔
      embedder.maxBatchSize ≠ 0 ∧
        (∀ start ∈ starts embedder.maxBatchSize.toNat texts.length,
          (taken embedder service texts start).isSome) ∧
        (∀ entry ∈ entries embedder service texts, ∀ other ∈ entries embedder service texts,
          entry.vector.length = other.vector.length) ∧
        ¬ (normalizeEmbeddings = true ∧ entries embedder service texts = []) ∧
        rows = (entries embedder service texts).map (rowOf numpy normalizeEmbeddings) := by
  rw [encodeList, if_neg some, ← pairwise_lengths_iff]
  by_cases zero : embedder.maxBatchSize = 0
  · simp [zero]
  rw [if_neg zero, collect_eq]
  by_cases all : ∀ start ∈ starts embedder.maxBatchSize.toNat texts.length,
      (taken embedder service texts start).isSome
  swap
  · simp only [if_neg all]
    simp [all, bind, Except.bind]
  simp only [if_pos all]
  have same : (starts embedder.maxBatchSize.toNat texts.length).flatMap
      (part embedder service texts) = entries embedder service texts := rfl
  rw [same]
  by_cases even : ((entries embedder service texts).map Entry.vector).Pairwise
      (fun first second => first.length = second.length)
  swap
  · simp [asArray, even, bind, Except.bind]
  have built : asArray numpy ((entries embedder service texts).map Entry.vector) =
      .ok (((entries embedder service texts).map Entry.vector).map (List.map numpy.float32)) :=
    if_pos even
  cases normalizeEmbeddings with
  | false =>
      have plain := map_array numpy (entries embedder service texts) id
      rw [List.map_id] at plain
      simp only [bind, Except.bind, built, plain]
      constructor
      · intro returned
        refine ⟨zero, all, even, ?_, (Except.ok.inj returned).symm⟩
        exact fun both => absurd both.1 Bool.false_ne_true
      · intro ended
        exact congrArg Except.ok ended.2.2.2.2.symm
  | true =>
      simp only [bind, Except.bind, built, normalized, map_array]
      by_cases empty : entries embedder service texts = []
      · simp [empty]
      · simp only [if_true, List.map_eq_nil_iff, if_neg empty]
        constructor
        · intro returned
          exact ⟨zero, all, even, fun both => empty both.2, (Except.ok.inj returned).symm⟩
        · intro ended
          exact congrArg Except.ok ended.2.2.2.2.symm

variable (numpy normalizeEmbeddings) in
theorem raises_iff (some : texts ≠ []) :
    Raises embedder service normalizeEmbeddings texts ↔
      ∀ rows, encodeList embedder numpy service normalizeEmbeddings texts ≠ .ok rows := by
  constructor
  · intro raises rows returned
    obtain ⟨step, all, even, kept, -⟩ := (encodeList_ok_iff some).mp returned
    cases raises with
    | noStep zero => exact step zero
    | exhausted start placed failed => simpa [failed] using all start placed
    | ragged first second firstPlaced secondPlaced firstData secondData firstTaken secondTaken
        entry other inFirst inSecond differ =>
        apply differ
        apply even
        · apply List.mem_flatMap.mpr
          exact ⟨first, firstPlaced, mem_sortByIndex.mpr (by rwa [firstTaken])⟩
        · apply List.mem_flatMap.mpr
          exact ⟨second, secondPlaced, mem_sortByIndex.mpr (by rwa [secondTaken])⟩
    | nothing normalizes empty =>
        apply kept
        refine ⟨normalizes, List.flatMap_eq_nil_iff.mpr ?_⟩
        intro start placed
        rw [part, empty start placed]
        rfl
  · intro raised
    by_contra none
    apply raised _
    apply (encodeList_ok_iff some).mpr
    have all : ∀ start ∈ starts embedder.maxBatchSize.toNat texts.length,
        (taken embedder service texts start).isSome := by
      intro start placed
      apply Option.isSome_iff_ne_none.mpr
      exact fun failed => none (Raises.exhausted start placed failed)
    refine ⟨fun zero => none (Raises.noStep zero), all, ?_, ?_, rfl⟩
    · intro entry inFirst other inSecond
      obtain ⟨first, firstPlaced, inPart⟩ := List.mem_flatMap.mp inFirst
      obtain ⟨second, secondPlaced, inOther⟩ := List.mem_flatMap.mp inSecond
      obtain ⟨firstData, firstTaken⟩ := Option.isSome_iff_exists.mp (all first firstPlaced)
      obtain ⟨secondData, secondTaken⟩ := Option.isSome_iff_exists.mp (all second secondPlaced)
      rw [part, firstTaken] at inPart
      rw [part, secondTaken] at inOther
      by_contra differ
      exact none (Raises.ragged first second firstPlaced secondPlaced firstData secondData
        firstTaken secondTaken entry other (mem_sortByIndex.mp inPart)
        (mem_sortByIndex.mp inOther) differ)
    · intro both
      apply none
      apply Raises.nothing both.1
      intro start placed
      obtain ⟨data, found⟩ := Option.isSome_iff_exists.mp (all start placed)
      have empty := List.flatMap_eq_nil_iff.mp both.2 start placed
      rw [part, found] at empty
      have lengths : (sortByIndex data).length = data.length := sortByIndex_perm.length_eq
      rw [show sortByIndex data = [] from empty] at lengths
      rw [found, List.eq_nil_of_length_eq_zero lengths.symm]

theorem covered_of_aligned (positive : 0 < embedder.maxBatchSize)
    (all : ∀ start ∈ starts embedder.maxBatchSize.toNat texts.length,
      (taken embedder service texts start).isSome)
    (aligned : Aligned numpy embedder service normalizeEmbeddings texts
      ((entries embedder service texts).map (rowOf numpy normalizeEmbeddings))) :
    Covered embedder service texts := by
  have size : 0 < embedder.maxBatchSize.toNat := by omega
  have lengths : ((starts embedder.maxBatchSize.toNat texts.length).flatMap
      (part embedder service texts)).length = texts.length := by
    have lengths := aligned.1
    rw [List.length_map] at lengths
    exact lengths
  have covers : ∀ start ∈ starts embedder.maxBatchSize.toNat texts.length,
      ∀ data, taken embedder service texts start = Option.some data →
      min embedder.maxBatchSize.toNat (texts.length - start) ≤ data.length ∧
        (data.length = min embedder.maxBatchSize.toNat (texts.length - start) →
          Covers (min embedder.maxBatchSize.toNat (texts.length - start)) data) := by
    intro start placed data found
    apply covers_of_answers
    intro place inside
    obtain ⟨⟨slice, rfl⟩, below⟩ := (mem_starts size).mp placed
    have whole : embedder.maxBatchSize.toNat * slice + place < texts.length := by omega
    have within : place < embedder.maxBatchSize.toNat := by omega
    have row := List.getElem?_eq_getElem (show embedder.maxBatchSize.toNat * slice + place <
      ((entries embedder service texts).map (rowOf numpy normalizeEmbeddings)).length by
        rw [aligned.1]; exact whole)
    obtain ⟨other, entry, same, answer, -⟩ := aligned.2 _ _ row
    rw [Nat.mul_add_div size, Nat.div_eq_of_lt within, Nat.add_zero,
      Nat.mul_comm slice, found] at same
    rw [Nat.mul_add_mod, Nat.mod_eq_of_lt within] at answer
    obtain rfl := Option.some.inj same
    exact ⟨entry, answer⟩
  have enough : ∀ start ∈ starts embedder.maxBatchSize.toNat texts.length,
      min embedder.maxBatchSize.toNat (texts.length - start) ≤
        (part embedder service texts start).length := by
    intro start placed
    obtain ⟨data, found⟩ := Option.isSome_iff_exists.mp (all start placed)
    rw [part, found]
    exact ((covers start placed data found).1).trans sortByIndex_perm.length_eq.ge
  have same := length_eq_of_le size enough lengths
  refine ⟨positive, ?_⟩
  intro start placed data found
  apply (covers start placed data found).2
  rw [← same start placed, part, found]
  exact sortByIndex_perm.length_eq.symm

theorem aligned_of_covered (covered : Covered embedder service texts)
    (all : ∀ start ∈ starts embedder.maxBatchSize.toNat texts.length,
      (taken embedder service texts start).isSome) :
    Aligned numpy embedder service normalizeEmbeddings texts
      ((entries embedder service texts).map (rowOf numpy normalizeEmbeddings)) := by
  have size : 0 < embedder.maxBatchSize.toNat := Int.pos_iff_toNat_pos.mp covered.1
  have same : ∀ start ∈ starts embedder.maxBatchSize.toNat texts.length,
      (part embedder service texts start).length =
        min embedder.maxBatchSize.toNat (texts.length - start) := by
    intro start placed
    obtain ⟨data, found⟩ := Option.isSome_iff_exists.mp (all start placed)
    rw [part, found]
    exact sortByIndex_perm.length_eq.trans (covered.2 start placed data found).1
  constructor
  · rw [List.length_map]
    exact length_flatMap_starts size same
  · intro place row found
    rw [List.getElem?_map, entries, getElem?_flatMap_starts size same] at found
    by_cases inside : place < texts.length
    swap
    · rw [if_neg inside] at found
      cases found
    rw [if_pos inside] at found
    have placed : place / embedder.maxBatchSize.toNat * embedder.maxBatchSize.toNat ∈
        starts embedder.maxBatchSize.toNat texts.length := by
      apply (mem_starts size).mpr
      exact ⟨Nat.dvd_mul_left _ _, (Nat.div_mul_le_self _ _).trans_lt inside⟩
    obtain ⟨data, reply⟩ := Option.isSome_iff_exists.mp (all _ placed)
    have within : place % embedder.maxBatchSize.toNat <
        min embedder.maxBatchSize.toNat (texts.length -
          place / embedder.maxBatchSize.toNat * embedder.maxBatchSize.toNat) := by
      have below := Nat.mod_lt place size
      have whole := Nat.div_add_mod' place embedder.maxBatchSize.toNat
      omega
    obtain ⟨entry, sorted, answer⟩ := (covered.2 _ placed data reply).answers within
    rw [part, reply, Option.getD_some, sorted] at found
    exact ⟨data, entry, reply, answer, (Option.some.inj found).symm⟩

variable (numpy normalizeEmbeddings) in
theorem aligned_iff (some : texts ≠ [])
    (all : ∀ start ∈ starts embedder.maxBatchSize.toNat texts.length,
      (taken embedder service texts start).isSome) :
    Aligned numpy embedder service normalizeEmbeddings texts
        ((entries embedder service texts).map (rowOf numpy normalizeEmbeddings)) ↔
      Covered embedder service texts := by
  constructor
  · intro aligned
    by_cases positive : 0 < embedder.maxBatchSize
    · exact covered_of_aligned positive all aligned
    · have none : entries embedder service texts = [] := by
        rw [entries, Int.toNat_of_nonpos (Int.not_lt.mp positive), starts, Nat.div_zero]
        rfl
      have lengths := aligned.1
      rw [none, List.map_nil, List.length_nil] at lengths
      exact absurd (List.eq_nil_of_length_eq_zero lengths.symm) some
  · exact fun covered => aligned_of_covered covered all

variable (numpy embedder service normalizeEmbeddings texts) in
/-- An encoding raises or returns the answer to each text in its place, exactly where it has to
raise or every reply that is taken covers its batch. -/
theorem encode_aligned_iff :
    (∀ encoded,
        encode embedder numpy service normalizeEmbeddings (.many texts) = .ok encoded →
        ∃ rows, encoded = .array rows ∧
          Aligned numpy embedder service normalizeEmbeddings texts rows) ↔
      texts = [] ∨ Raises embedder service normalizeEmbeddings texts ∨
        Covered embedder service texts := by
  have lists : (∀ encoded,
        encode embedder numpy service normalizeEmbeddings (.many texts) = .ok encoded →
        ∃ rows, encoded = .array rows ∧
          Aligned numpy embedder service normalizeEmbeddings texts rows) ↔
      ∀ rows, encodeList embedder numpy service normalizeEmbeddings texts = .ok rows →
        Aligned numpy embedder service normalizeEmbeddings texts rows := by
    rw [encode]
    cases encodeList embedder numpy service normalizeEmbeddings texts with
    | error failure => simp [bind, Except.bind]
    | ok rows => simp [bind, Except.bind, pure, Except.pure]
  rw [lists]
  by_cases none : texts = []
  · subst none
    simp [encodeList, Aligned]
  rw [or_iff_right none]
  by_cases raises : Raises embedder service normalizeEmbeddings texts
  · constructor
    · exact fun _ => Or.inl raises
    · intro _ rows returned
      exact absurd returned ((raises_iff numpy normalizeEmbeddings none).mp raises rows)
  rw [or_iff_right raises]
  obtain ⟨rows, returned⟩ : ∃ rows,
      encodeList embedder numpy service normalizeEmbeddings texts = .ok rows := by
    by_contra raised
    apply raises
    apply (raises_iff numpy normalizeEmbeddings none).mpr
    exact fun rows returned => raised ⟨rows, returned⟩
  obtain ⟨-, all, -, -, rfl⟩ := (encodeList_ok_iff none).mp returned
  rw [← aligned_iff numpy normalizeEmbeddings none all]
  constructor
  · exact fun every => every _ returned
  · intro aligned rows other
    obtain rfl := Except.ok.inj (returned.symm.trans other)
    exact aligned

/-- A reply that leaves out a text leaves the array one row short. -/
theorem encode_short_reply :
    encode {} ⟨id, List.sum, (· = 0), 1, (· / ·)⟩
        (fun _ _ _ => .answered 200 [⟨some 1, some [1, 0]⟩]) true (.many ["first", "second"]) =
        .ok (.array [[1, 0]]) ∧
      ¬ Aligned ⟨id, List.sum, (· = 0), 1, (· / ·)⟩ {}
        (fun _ _ _ => .answered 200 [⟨some 1, some [1, 0]⟩]) true ["first", "second"]
        [[1, 0]] := by
  refine ⟨by decide +kernel, ?_⟩
  intro aligned
  exact absurd aligned.1 (by decide)

end Encoding

end RagSystem.Etl.Embedding
