import RagSystem.Core.Context
import RagSystem.Data.Grouping
import RagSystem.Etl.AccessEndToEnd

/-! Chunks taken together: duplicates by their hash, and chunks of one semantic key
(`proxy/app/core/context/builder.py`). -/

namespace RagSystem.Core.SemanticGroups

structure KeyedChunk extends ChunkDict where
  semanticKey : Option String := none
  hash : Option String := none
  deriving DecidableEq, Repr

/-- `chunk.get("semantic_key", chunk.get("hash", ""))`. -/
def groupKey (chunk : KeyedChunk × ℚ) : String := chunk.1.semanticKey.getD (chunk.1.hash.getD "")

/-- One pair for a group: `none` is the `KeyError` of a chunk without text. -/
def mergeGroup : List (KeyedChunk × ℚ) → Option (KeyedChunk × ℚ)
  | [] => none
  | [single] => some single
  | first :: second :: rest =>
      let group := first :: second :: rest
      (group.mapM (fun chunk : KeyedChunk × ℚ => chunk.1.own.text)).map fun texts =>
        let combined := { first.1.own with text := some ("\n\n".intercalate texts) }
        ({ first.1 with own := combined }, (group.map Prod.snd).sum / group.length)

def groupsOf (chunks : List (KeyedChunk × ℚ)) : List (List (KeyedChunk × ℚ)) :=
  (groupBy groupKey chunks).entries.map Prod.snd

def groupBySemanticKey (chunks : List (KeyedChunk × ℚ)) : Option (List (KeyedChunk × ℚ)) :=
  (groupsOf chunks).mapM mergeGroup

/-! Duplicates. -/

variable (helpers : Helpers)

def identityOf (ranked : Ranked) : List String :=
  let chunk := ranked.1
  [chunk.text, chunk.own.sourceType.getD "", chunk.own.sourceId.getD "",
    chunk.own.access.version.getD "", chunk.own.docTitle.getD ""]

def joinedOf (ranked : Ranked) : String := "|".intercalate (identityOf ranked)

def ToldApart (chunks : List Ranked) : Prop :=
  ∀ first ∈ chunks, ∀ second ∈ chunks, joinedOf first = joinedOf second →
    identityOf first = identityOf second

variable {helpers} {chunks : List Ranked}

theorem unseen_eq (seen : List String) (chunks : List Ranked) :
    unseen helpers seen chunks =
      (firstOfEach (fun ranked => computeChunkHash helpers ranked.1) chunks).filter
        (fun ranked => computeChunkHash helpers ranked.1 ∉ seen) := by
  induction chunks generalizing seen with
  | nil => rfl
  | cons ranked rest ih =>
      simp only [unseen, firstOfEach]
      by_cases known : computeChunkHash helpers ranked.1 ∈ seen
      · rw [if_pos known, ih, List.filter_cons_of_neg (by simpa using known), List.filter_filter]
        apply List.filter_congr
        intro other _
        by_cases same : computeChunkHash helpers other.1 = computeChunkHash helpers ranked.1
        · simp [same, known]
        · simp [same]
      · rw [if_neg known, ih, List.filter_cons_of_pos (by simpa using known), List.filter_filter]
        congr 1
        apply List.filter_congr
        intro other _
        simp [List.mem_cons, not_or, Bool.and_comm]

theorem deduplicateChunks_eq (chunks : List Ranked) :
    deduplicateChunks helpers chunks =
      firstOfEach (fun ranked => computeChunkHash helpers ranked.1) chunks := by
  rw [deduplicateChunks, unseen_eq]
  simp

theorem deduplicateChunks_eq_joined (collisionFree : Function.Injective helpers.sha256)
    (chunks : List Ranked) : deduplicateChunks helpers chunks = firstOfEach joinedOf chunks := by
  rw [deduplicateChunks_eq]
  apply firstOfEach_congr
  intro first _ second _
  exact collisionFree.eq_iff

theorem deduplicateChunks_identity_iff (collisionFree : Function.Injective helpers.sha256)
    (chunks : List Ranked) :
    deduplicateChunks helpers chunks = firstOfEach identityOf chunks ↔ ToldApart chunks := by
  rw [deduplicateChunks_eq_joined collisionFree]
  apply firstOfEach_eq_iff
  intro first second same
  rw [joinedOf, joinedOf, same]

/-! Semantic keys. -/

def ShareKey (first second : KeyedChunk × ℚ) : Prop :=
  first.1.semanticKey = second.1.semanticKey ∧ first.1.semanticKey.getD "" ≠ ""

instance (first second : KeyedChunk × ℚ) : Decidable (ShareKey first second) :=
  inferInstanceAs (Decidable (_ ∧ _))

def MergesOnlyKeyed (chunks : List (KeyedChunk × ℚ)) : Prop :=
  ∀ group ∈ groupsOf chunks, group.Pairwise ShareKey

/-- No two chunks fall under one key, unless it is a semantic key that both carry. -/
def FallbackApart (chunks : List (KeyedChunk × ℚ)) : Prop :=
  chunks.Pairwise (fun first second => groupKey first = groupKey second → ShareKey first second)

theorem groupsOf_eq (chunks : List (KeyedChunk × ℚ)) :
    groupsOf chunks = (groupBy groupKey chunks).keys.map (groupOf groupKey chunks) := by
  rw [groupsOf, entries_groupBy, List.map_map]
  rfl

theorem mergesOnlyKeyed_iff (chunks : List (KeyedChunk × ℚ)) :
    MergesOnlyKeyed chunks ↔ FallbackApart chunks := by
  rw [MergesOnlyKeyed, FallbackApart, pairwise_groupOf_iff, groupsOf_eq, List.forall_mem_map]
  simp only [mem_keys_groupBy]

/-- A chunk as the index has it: with a semantic key, which may be empty, and without `hash`. -/
def indexed (stored : Etl.StoredPayload × ℚ) : KeyedChunk × ℚ :=
  let payload := stored.1
  ({ own :=
      { access := payload.fields, text := some payload.text, title := some payload.title
        docTitle := some payload.docTitle, sourceType := some payload.sourceType
        sourceId := some payload.sourceId, createdAt := some (.text payload.createdAt)
        updatedAt := some (.text payload.updatedAt) }
     semanticKey := some payload.semanticKey }, stored.2)

/-- Deduplication leaves the first chunk of each identity if and only if the joined fields tell the
chunks apart; grouping merges only chunks of one semantic key if and only if no other chunks fall
under one key. -/
theorem dedup_and_grouping_iff (helpers : Helpers)
    (collisionFree : Function.Injective helpers.sha256)
    (chunks : List Ranked) (keyed : List (KeyedChunk × ℚ)) :
    (deduplicateChunks helpers chunks = firstOfEach identityOf chunks ↔ ToldApart chunks) ∧
      (MergesOnlyKeyed keyed ↔ FallbackApart keyed) :=
  ⟨deduplicateChunks_identity_iff collisionFree chunks, mergesOnlyKeyed_iff keyed⟩

def delimited : List Ranked :=
  [(⟨{ text := some "Install", sourceId := some "manual", access := { version := some "1" },
       docTitle := some "2|Windows" }, none⟩, 9 / 10),
    (⟨{ text := some "Install", sourceId := some "manual", access := { version := some "1|2" },
        docTitle := some "Windows" }, none⟩, 8 / 10)]

def unkeyed : List (KeyedChunk × ℚ) :=
  [({ own := { text := some "Install" }, semanticKey := some "" }, 9 / 10),
    ({ own := { text := some "Refund" }, semanticKey := some "" }, 8 / 10)]

theorem dedup_and_grouping_at :
    (deduplicateChunks Helpers.plain delimited = firstOfEach identityOf delimited ↔
        ToldApart delimited) ∧
      (MergesOnlyKeyed unkeyed ↔ FallbackApart unkeyed) :=
  dedup_and_grouping_iff Helpers.plain Function.injective_id delimited unkeyed

/-- A chunk is dropped that no other equals, and two unrelated chunks become one. -/
theorem delimited_and_unkeyed :
    deduplicateChunks Helpers.plain delimited = delimited.take 1 ∧
      deduplicateChunks Helpers.plain delimited ≠ firstOfEach identityOf delimited ∧
      groupBySemanticKey unkeyed =
        some [({ own := { text := some "Install\n\nRefund" }, semanticKey := some "" }, 17 / 20)] ∧
      ¬ MergesOnlyKeyed unkeyed := by
  rw [mergesOnlyKeyed_iff]
  unfold FallbackApart
  decide +kernel

end RagSystem.Core.SemanticGroups
