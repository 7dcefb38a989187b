import RagSystem.Core.Context
import RagSystem.Data.Grouping
import RagSystem.Etl.MdKeyChunker

/-! Chunks with their neighbours in the document (`surround_chunks` of
`proxy/app/core/token_optimizer.py`). -/

namespace RagSystem.Core.NeighbourExpansion

/-- A chunk dict in the list: `ref` is its `id`, which two places of one dict share. -/
structure Item extends ChunkDict where
  ref : Nat
  chunkIndex : Option Int := none
  deriving DecidableEq, Repr

/-- `chunk.get("text", "")[:80]`. -/
def chunkHash (item : Item) : String := clip 80 item.text

def sourceOf (item : Item) : String := item.own.sourceId.getD "unknown"

/-- `group.sort(key=..)`. -/
def sortGroup (group : List Item) : List Item :=
  group.insertionSort (fun first second => first.chunkIndex.getD 0 ≤ second.chunkIndex.getD 0)

/-- `{id(c): i for i, c in enumerate(group)}`. -/
def indicesOf (group : List Item) : Dict Nat Nat :=
  Dict.ofList (group.zipIdx.map (fun entry => (entry.1.ref, entry.2)))

structure Expansion where
  seenHashes : List String := []
  expanded : List Item := []
  deriving DecidableEq, Repr

namespace Expansion

def add (state : Expansion) (item : Item) : Expansion :=
  if chunkHash item ∈ state.seenHashes then state
  else ⟨chunkHash item :: state.seenHashes, state.expanded ++ [item]⟩

def neighbours (nearbyCount : Nat) (group : List Item) (place : Nat) : List Item :=
  let start := place - nearbyCount
  let stop := min group.length (place + nearbyCount + 1)
  ((List.range' start (stop - start)).filter (· ≠ place)).filterMap (group[·]?)

def visit (nearbyCount : Nat) (group : List Item) (state : Expansion) (item : Item) : Expansion :=
  if chunkHash item ∈ state.seenHashes then state
  else
    let place := ((indicesOf group).get? item.ref).getD 0
    (neighbours nearbyCount group place).foldl add (state.add item)

def visitGroup (nearbyCount : Nat) (state : Expansion) (group : List Item) : Expansion :=
  (sortGroup group).foldl (visit nearbyCount (sortGroup group)) state

end Expansion

def surroundChunks (chunks : List Item) (nearbyCount : Nat) : List Item :=
  if chunks = [] ∨ nearbyCount = 0 then chunks
  else
    ((groupBy sourceOf chunks).entries.foldl
      (fun state entry => Expansion.visitGroup nearbyCount state entry.2) {}).expanded

/-! What is seen and what is kept. -/

namespace Expansion

/-- The kept items are some of the sources, one for each hash seen. -/
structure Sound (sources : List Item) (state : Expansion) : Prop where
  once : (state.expanded.map chunkHash).Nodup
  seen : ∀ hash, hash ∈ state.seenHashes ↔ hash ∈ state.expanded.map chunkHash
  given : ∀ item ∈ state.expanded, item ∈ sources

variable {sources group : List Item} {state : Expansion} {item : Item} {nearbyCount : Nat}

theorem sound_empty : Sound sources {} where
  once := List.nodup_nil
  seen := by simp
  given := by simp

theorem Sound.add (sound : Sound sources state) (member : item ∈ sources) :
    Sound sources (state.add item) := by
  unfold Expansion.add
  split
  · exact sound
  · rename_i unseen
    refine ⟨?_, ?_, ?_⟩
    · rw [List.map_append, List.map_singleton, List.nodup_append]
      refine ⟨sound.once, List.nodup_singleton _, ?_⟩
      intro hash inside other single same
      rw [List.mem_singleton] at single
      exact unseen ((sound.seen _).mpr (single ▸ same ▸ inside))
    · intro hash
      simp [sound.seen, or_comm]
    · intro other inside
      rcases List.mem_append.mp inside with before | last
      · exact sound.given other before
      · rw [List.mem_singleton.mp last]
        exact member

theorem Sound.foldl_add (sound : Sound sources state) {items : List Item}
    (members : ∀ item ∈ items, item ∈ sources) :
    Sound sources (items.foldl Expansion.add state) := by
  induction items generalizing state with
  | nil => exact sound
  | cons item items ih =>
      exact ih (sound.add (members item List.mem_cons_self))
        fun other inside => members other (List.mem_cons_of_mem item inside)

theorem mem_of_mem_neighbours {place : Nat} (member : item ∈ neighbours nearbyCount group place) :
    item ∈ group := by
  obtain ⟨index, _, found⟩ := List.mem_filterMap.mp member
  exact List.mem_of_getElem? found

theorem Sound.visit (nearbyCount : Nat) (sound : Sound sources state)
    (members : ∀ item ∈ group, item ∈ sources) (member : item ∈ sources) :
    Sound sources (state.visit nearbyCount group item) := by
  unfold Expansion.visit
  split
  · exact sound
  · apply (sound.add member).foldl_add
    exact fun other inside => members other (mem_of_mem_neighbours inside)

theorem seen_add {hash : String} (seen : hash ∈ state.seenHashes) :
    hash ∈ (state.add item).seenHashes := by
  unfold add
  split
  · exact seen
  · exact List.mem_cons_of_mem _ seen

theorem seen_foldl_add {hash : String} (items : List Item) (seen : hash ∈ state.seenHashes) :
    hash ∈ (items.foldl add state).seenHashes := by
  induction items generalizing state with
  | nil => exact seen
  | cons item items ih => exact ih (seen_add seen)

theorem seen_visit {hash : String} (seen : hash ∈ state.seenHashes) :
    hash ∈ (state.visit nearbyCount group item).seenHashes := by
  unfold visit
  split
  · exact seen
  · exact seen_foldl_add _ (seen_add seen)

theorem visited (nearbyCount : Nat) (group : List Item) (state : Expansion) (item : Item) :
    chunkHash item ∈ (state.visit nearbyCount group item).seenHashes := by
  unfold visit
  split
  · assumption
  · rename_i unseen
    apply seen_foldl_add
    rw [add, if_neg unseen]
    exact List.mem_cons_self

theorem visit_all (nearbyCount : Nat) (sound : Sound sources state)
    (members : ∀ item ∈ group, item ∈ sources) {items : List Item}
    (listed : ∀ item ∈ items, item ∈ group) :
    Sound sources (items.foldl (visit nearbyCount group) state) ∧
      (∀ hash ∈ state.seenHashes,
        hash ∈ (items.foldl (visit nearbyCount group) state).seenHashes) ∧
      ∀ item ∈ items,
        chunkHash item ∈ (items.foldl (visit nearbyCount group) state).seenHashes := by
  induction items generalizing state with
  | nil => exact ⟨sound, fun _ seen => seen, by simp⟩
  | cons item items ih =>
      have inside := listed item List.mem_cons_self
      obtain ⟨rest, kept, all⟩ := ih (sound.visit nearbyCount members (members item inside))
        fun other later => listed other (List.mem_cons_of_mem item later)
      refine ⟨rest, fun hash seen => kept hash (seen_visit seen), ?_⟩
      intro other member
      rcases List.mem_cons.mp member with rfl | later
      · exact kept _ (visited nearbyCount group state other)
      · exact all other later

theorem visitGroup_spec (nearbyCount : Nat) (sound : Sound sources state)
    (members : ∀ item ∈ group, item ∈ sources) :
    Sound sources (state.visitGroup nearbyCount group) ∧
      (∀ hash ∈ state.seenHashes, hash ∈ (state.visitGroup nearbyCount group).seenHashes) ∧
      ∀ item ∈ group, chunkHash item ∈ (state.visitGroup nearbyCount group).seenHashes := by
  have sorted {item : Item} : item ∈ sortGroup group ↔ item ∈ group := List.mem_insertionSort _
  have sortedMembers : ∀ item ∈ sortGroup group, item ∈ sources :=
    fun item inside => members item (sorted.mp inside)
  obtain ⟨rest, kept, all⟩ := visit_all nearbyCount sound sortedMembers
    (fun item (inside : item ∈ sortGroup group) => inside)
  exact ⟨rest, kept, fun item inside => all item (sorted.mpr inside)⟩

theorem visitGroups_spec (nearbyCount : Nat) {groups : List (String × List Item)}
    (sound : Sound sources state)
    (members : ∀ entry ∈ groups, ∀ item ∈ entry.2, item ∈ sources) :
    let final := groups.foldl (fun state entry => visitGroup nearbyCount state entry.2) state
    Sound sources final ∧ (∀ hash ∈ state.seenHashes, hash ∈ final.seenHashes) ∧
      ∀ entry ∈ groups, ∀ item ∈ entry.2, chunkHash item ∈ final.seenHashes := by
  induction groups generalizing state with
  | nil => exact ⟨sound, fun _ seen => seen, by simp⟩
  | cons entry groups ih =>
      obtain ⟨next, nextKept, nextAll⟩ := visitGroup_spec nearbyCount sound
        (members entry List.mem_cons_self)
      obtain ⟨rest, kept, all⟩ := ih next
        fun other later => members other (List.mem_cons_of_mem entry later)
      refine ⟨rest, fun hash seen => kept hash (nextKept hash seen), ?_⟩
      intro other member item inside
      rcases List.mem_cons.mp member with rfl | later
      · exact kept _ (nextAll item inside)
      · exact all other later item inside

end Expansion

variable {chunks : List Item} {nearbyCount : Nat}

theorem surroundChunks_hashes (some : chunks ≠ []) (near : nearbyCount ≠ 0) :
    ((surroundChunks chunks nearbyCount).map chunkHash).Nodup ∧
      (∀ item ∈ chunks, chunkHash item ∈ (surroundChunks chunks nearbyCount).map chunkHash) ∧
      ∀ item ∈ surroundChunks chunks nearbyCount, item ∈ chunks := by
  have own : ∀ entry ∈ (groupBy sourceOf chunks).entries, ∀ item ∈ entry.2, item ∈ chunks := by
    intro entry member item inside
    rw [entries_groupBy] at member
    obtain ⟨source, _, rfl⟩ := List.mem_map.mp member
    exact (mem_groupOf.mp inside).1
  obtain ⟨sound, -, all⟩ := Expansion.visitGroups_spec nearbyCount Expansion.sound_empty own
  rw [surroundChunks, if_neg (by simp [some, near])]
  refine ⟨sound.once, ?_, sound.given⟩
  intro item member
  apply (sound.seen _).mp
  apply all (sourceOf item, groupOf sourceOf chunks (sourceOf item)) ?_ item
    (mem_groupOf.mpr ⟨member, rfl⟩)
  rw [entries_groupBy]
  exact List.mem_map_of_mem (mem_keys_groupBy.mpr (List.mem_map_of_mem member))

/-- Every text of the input once, and nothing but chunks of the input. -/
structure EachTextOnce (chunks result : List Item) : Prop where
  present : ∀ item ∈ chunks, item.text ∈ result.map (fun item => item.text)
  once : (result.map (fun item => item.text)).Nodup
  given : ∀ item ∈ result, item ∈ chunks

/-- With neighbours the beginnings of the texts tell them apart, without them no text is
repeated. -/
def Distinguished (chunks : List Item) (nearbyCount : Nat) : Prop :=
  if nearbyCount = 0 then (chunks.map (fun item => item.text)).Nodup
  else ∀ first ∈ chunks, ∀ second ∈ chunks, clip 80 first.text = clip 80 second.text →
    first.text = second.text

theorem EachTextOnce.alike (complete : EachTextOnce chunks (surroundChunks chunks nearbyCount))
    (near : nearbyCount ≠ 0) {first second : Item} (member : first ∈ chunks)
    (inside : second ∈ chunks) (same : clip 80 first.text = clip 80 second.text) :
    first.text = second.text := by
  obtain ⟨once, -, -⟩ := surroundChunks_hashes (List.ne_nil_of_mem member) near
  obtain ⟨firstKept, firstIn, firstText⟩ := List.mem_map.mp (complete.present first member)
  obtain ⟨secondKept, secondIn, secondText⟩ := List.mem_map.mp (complete.present second inside)
  have alike : chunkHash firstKept = chunkHash secondKept := by
    rw [chunkHash, chunkHash, firstText, secondText, same]
  have one := List.inj_on_of_nodup_map once firstIn secondIn alike
  rw [← firstText, ← secondText, one]

theorem surroundChunks_complete_iff (chunks : List Item) (nearbyCount : Nat) :
    EachTextOnce chunks (surroundChunks chunks nearbyCount) ↔ Distinguished chunks nearbyCount := by
  by_cases none : chunks = []
  · subst none
    simp only [surroundChunks, true_or, if_true, Distinguished, List.map_nil, List.nodup_nil,
      List.not_mem_nil, false_implies, implies_true, ite_self, iff_true]
    exact ⟨by simp, List.nodup_nil, by simp⟩
  by_cases alone : nearbyCount = 0
  · rw [surroundChunks, if_pos (Or.inr alone), Distinguished, if_pos alone]
    constructor
    · exact EachTextOnce.once
    · intro distinct
      exact ⟨fun item member => List.mem_map_of_mem member, distinct, fun item member => member⟩
  · obtain ⟨once, all, given⟩ := surroundChunks_hashes none alone
    rw [Distinguished, if_neg alone]
    constructor
    · exact fun complete first member second inside => complete.alike alone member inside
    · intro apart
      refine ⟨?_, ?_, given⟩
      · intro item member
        obtain ⟨kept, inside, same⟩ := List.mem_map.mp (all item member)
        exact List.mem_map.mpr ⟨kept, inside, apart kept (given kept inside) item member same⟩
      · have hashes : (surroundChunks chunks nearbyCount).map chunkHash =
            ((surroundChunks chunks nearbyCount).map (fun item => item.text)).map (clip 80) := by
          rw [List.map_map]
          rfl
        rw [hashes] at once
        exact once.of_map _

/-! The context prefix of the chunker. -/

theorem clip_header {title : String} (long : 70 ≤ title.length) (rest : String) :
    clip 80 ("[Context: " ++ title ++ rest) = "[Context: " ++ clip 70 title := by
  apply String.toList_injective
  have header : "[Context: ".toList.length = 10 := rfl
  have enough : 70 ≤ title.toList.length := by rwa [String.length_toList]
  simp only [clip, String.toList_append, String.toList_ofList, List.append_assoc]
  rw [List.take_append, header, List.take_of_length_le (by omega),
    List.take_append_of_le_length enough]

theorem clip_propagateFrom {libraries : Etl.Libraries} {previous : Etl.ParentMetadata}
    {chunks : List Etl.Chunk} :
    ∀ chunk ∈ Etl.propagateFrom libraries previous chunks, 70 ≤ chunk.docTitle.length →
      clip 80 chunk.text = "[Context: " ++ clip 70 chunk.docTitle := by
  induction chunks generalizing previous with
  | nil => simp [Etl.propagateFrom]
  | cons first rest ih =>
      intro chunk member long
      rcases List.mem_cons.mp member with rfl | later
      · have header : ∀ parent text : String,
            "[" ++ ("Context: " ++ first.docTitle ++ parent) ++ "]\n" ++ text =
              "[Context: " ++ first.docTitle ++ (parent ++ "]\n" ++ text) := by
          intro parent text
          apply String.toList_injective
          simp
        exact (congrArg (clip 80) (header _ _)).trans (clip_header long _)
      · exact ih chunk later long

theorem surroundChunks_loses {libraries : Etl.Libraries} {previous : Etl.ParentMetadata}
    {sources : List Etl.Chunk} {chunks : List Item} {nearbyCount : Nat} (near : nearbyCount ≠ 0)
    {title : String} (long : 70 ≤ title.length)
    (chunked : ∀ item ∈ chunks, ∃ chunk ∈ Etl.propagateFrom libraries previous sources,
      chunk.docTitle = title ∧ item.text = chunk.text)
    {first second : Item} (member : first ∈ chunks) (inside : second ∈ chunks)
    (differ : first.text ≠ second.text) :
    ¬ EachTextOnce chunks (surroundChunks chunks nearbyCount) := by
  have beginning : ∀ item ∈ chunks, clip 80 item.text = "[Context: " ++ clip 70 title := by
    intro item listed
    obtain ⟨chunk, made, rfl, same⟩ := chunked item listed
    rw [same, clip_propagateFrom chunk made long]
  intro complete
  exact differ (complete.alike near member inside
    ((beginning first member).trans (beginning second inside).symm))

def guideTitle : String :=
  "Administrator guide to the installation and operation of the retrieval platform"

def guide : List Item :=
  [{ ref := 0, chunkIndex := some 0
     own :=
       { sourceId := some "guide"
         text := some ("[Context: " ++ guideTitle ++ "]\nInstall the proxy.") } },
    { ref := 1, chunkIndex := some 1
      own :=
        { sourceId := some "guide"
          text := some ("[Context: " ++ guideTitle ++ "]\nConfigure the index.") } }]

theorem surroundChunks_loses_guide : ¬ EachTextOnce guide (surroundChunks guide 1) := by
  let source (text : String) : Etl.Chunk := { text := text, hash := "", docTitle := guideTitle }
  let sources := [source "Install the proxy.", source "Configure the index."]
  let made := Etl.propagateFrom ⟨id, none, none, none⟩ .empty sources
  have texts : guide.map (fun item => item.text) = made.map Etl.Chunk.text := by decide +kernel
  have titles : made.all (fun chunk => chunk.docTitle = guideTitle) = true := by decide +kernel
  refine @surroundChunks_loses ⟨id, none, none, none⟩ .empty sources guide 1 (by decide) guideTitle
    (by decide) ?_ _ _ (List.getElem_mem (by decide : 0 < guide.length))
    (List.getElem_mem (by decide : 1 < guide.length)) (by decide +kernel)
  intro item member
  have listed : item.text ∈ guide.map (fun item => item.text) := List.mem_map_of_mem member
  rw [texts] at listed
  rcases List.mem_map.mp listed with ⟨chunk, inside, same⟩
  exact ⟨chunk, inside, by simpa using List.all_eq_true.mp titles chunk inside, same.symm⟩

/-- The two texts begin alike, so one is lost. -/
theorem guide_loses_a_text : ¬ EachTextOnce guide (surroundChunks guide 2) := by
  have long : 70 ≤ guideTitle.length := by decide
  intro complete
  have same : "[Context: " ++ guideTitle ++ "]\nInstall the proxy." =
      "[Context: " ++ guideTitle ++ "]\nConfigure the index." :=
    complete.alike (by omega) (List.getElem_mem (by decide : 0 < guide.length))
      (List.getElem_mem (by decide : 1 < guide.length))
      ((clip_header long _).trans (clip_header long _).symm)
  have lengths := congrArg String.length same
  rw [String.length_append, String.length_append _ "]\nConfigure the index."] at lengths
  exact absurd (Nat.add_left_cancel lengths) (by decide)

end RagSystem.Core.NeighbourExpansion
