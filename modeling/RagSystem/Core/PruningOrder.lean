import RagSystem.Core.KneePruning
import RagSystem.Core.RankFusion

/-! The order of the hits that hybrid search prunes. -/

namespace RagSystem.Core

def candidates (dense sparse : List Hit) : List Hit :=
  dense.filter (fun hit => hit.point.id ∉ idsOf sparse) ++ sparse

instance (dense sparse : List Hit) : DecidableRel (EarlierId dense sparse) :=
  fun _ _ => inferInstanceAs (Decidable (_ ∨ _ ∨ _))

/-- The order of the fusion: by rank sums, and for equal ones by the first insertion. -/
def StandsBefore (dense sparse : List Hit) (first second : Hit) : Prop :=
  Outranks (fusedScore 60 dense sparse) (EarlierId dense sparse) first.point.id second.point.id

instance (dense sparse : List Hit) : DecidableRel (StandsBefore dense sparse) :=
  fun _ _ => inferInstanceAs (Decidable (_ ∨ _ ∧ _))

/-- Fewer than `topK` hits stand before the hit; without sparse results nothing is cut. -/
def InCut (topK : Nat) (dense sparse : List Hit) (hit : Hit) : Prop :=
  sparse = [] ∨
    ((candidates dense sparse).filter (fun other => StandsBefore dense sparse other hit)).length <
      topK

instance (topK : Nat) (dense sparse : List Hit) (hit : Hit) :
    Decidable (InCut topK dense sparse hit) :=
  inferInstanceAs (Decidable (_ ∨ _))

def combinedHits (topK : Nat) (dense sparse : List Hit) : List Hit :=
  if sparse = [] then dense else (reciprocalRankFusion dense sparse).take topK

def handedHits (config : Config) (topK : Nat) (dense sparse : List Hit) : List Hit :=
  filterResultsByScore config (combinedHits topK dense sparse)

variable {config : Config} {topK : Nat} {dense sparse : List Hit} {hit : Hit}

theorem fuse_eq : fuse config topK dense sparse =
    if 5 < (handedHits config topK dense sparse).length then
      kneePointPruning (handedHits config topK dense sparse)
    else handedHits config topK dense sparse := by
  rfl

theorem StandsBefore.asymm {first second : Hit} (before : StandsBefore dense sparse first second) :
    ¬ StandsBefore dense sparse second first :=
  Outranks.asymm (fun _ _ => EarlierId.asymm) before

/-! Which hits are combined, and in which order. -/

section Combined

variable (denseDistinct : (idsOf dense).Nodup) (sparseDistinct : (idsOf sparse).Nodup)

include denseDistinct sparseDistinct

theorem allResults_get? (member : hit ∈ candidates dense sparse) :
    (allResults dense sparse).get? hit.point.id = some hit := by
  have agree {hits : List Hit} (distinct : (idsOf hits).Nodup) (inside : hit ∈ hits)
      (other : Hit) (bound : (hit.point.id, other) ∈ hits.map (fun hit => (hit.point.id, hit))) :
      other = hit := by
    obtain ⟨stored, listed, equal⟩ := List.mem_map.mp bound
    obtain ⟨same, rfl⟩ := Prod.mk.inj equal
    exact List.inj_on_of_nodup_map distinct listed inside same
  have pair {hits : List Hit} (inside : hit ∈ hits) :
      (hit.point.id, hit) ∈ hits.map (fun hit => (hit.point.id, hit)) :=
    List.mem_map.mpr ⟨hit, inside, rfl⟩
  rw [allResults, Dict.ofList, List.map_append, Dict.setAll_append]
  rcases List.mem_append.mp member with inDense | inSparse
  · obtain ⟨inside, outside⟩ := List.mem_filter.mp inDense
    rw [Dict.get?_setAll_of_not_mem]
    · exact Dict.get?_setAll_of_agree (pair inside) (agree denseDistinct inside) _
    · intro binding bound same
      obtain ⟨other, listed, rfl⟩ := List.mem_map.mp bound
      have shared : hit.point.id ∈ idsOf sparse := List.mem_map.mpr ⟨other, listed, same⟩
      simp [shared] at outside
  · exact Dict.get?_setAll_of_agree (pair inSparse) (agree sparseDistinct inSparse) _

omit denseDistinct sparseDistinct in
theorem exists_candidate {id : String} (member : id ∈ unionIds dense sparse) :
    ∃ hit ∈ candidates dense sparse, hit.point.id = id := by
  by_cases inSparse : id ∈ idsOf sparse
  · obtain ⟨hit, inside, same⟩ := List.mem_map.mp inSparse
    exact ⟨hit, List.mem_append_right _ inside, same⟩
  · have inDense := (mem_unionIds.mp member).resolve_right inSparse
    obtain ⟨hit, inside, rfl⟩ := List.mem_map.mp inDense
    have kept : hit ∈ dense.filter (fun hit => hit.point.id ∉ idsOf sparse) :=
      List.mem_filter.mpr ⟨inside, by simpa using inSparse⟩
    exact ⟨hit, List.mem_append_left _ kept, rfl⟩

omit denseDistinct sparseDistinct in
theorem mem_unionIds_of_candidate (member : hit ∈ candidates dense sparse) :
    hit.point.id ∈ unionIds dense sparse := by
  apply mem_unionIds.mpr
  rcases List.mem_append.mp member with inDense | inSparse
  · exact Or.inl (List.mem_map_of_mem (List.mem_of_mem_filter inDense))
  · exact Or.inr (List.mem_map_of_mem inSparse)

theorem mem_reciprocalRankFusion :
    hit ∈ reciprocalRankFusion dense sparse ↔ hit ∈ candidates dense sparse := by
  rw [reciprocalRankFusion_eq, reciprocalRankFusionWith_eq denseDistinct sparseDistinct,
    List.mem_filterMap]
  constructor
  · intro given
    rcases given with ⟨id, listed, found⟩
    obtain ⟨stored, inside, rfl⟩ := exists_candidate (mem_sortDescending.mp listed)
    rw [allResults_get? denseDistinct sparseDistinct inside] at found
    obtain rfl := Option.some.inj found
    exact inside
  · intro member
    exact ⟨hit.point.id, mem_sortDescending.mpr (mem_unionIds_of_candidate member),
      allResults_get? denseDistinct sparseDistinct member⟩

theorem pairwise_reciprocalRankFusion :
    (reciprocalRankFusion dense sparse).Pairwise (StandsBefore dense sparse) := by
  have sorted := pairwise_idsOf_reciprocalRankFusionWith (k := 60) denseDistinct sparseDistinct
  rw [idsOf, List.pairwise_map] at sorted
  exact sorted

omit sparseDistinct in
theorem pairwise_dense : dense.Pairwise (StandsBefore dense []) := by
  have ranks := pairwise_rankIn denseDistinct
  have sorted : (idsOf dense).Pairwise
      (Outranks (fusedScore 60 dense []) (EarlierId dense [])) := by
    apply ranks.imp_of_mem
    intro first second firstIn secondIn order
    left
    have less := reciprocalRank_lt (k := 60) firstIn secondIn order
    have none (id : String) : reciprocalRank 60 [] id = 0 := if_neg List.not_mem_nil
    rw [fusedScore_dense firstIn List.not_mem_nil, fusedScore_dense secondIn List.not_mem_nil,
      canonicalScore, canonicalScore, none, none]
    linarith
  rw [idsOf, List.pairwise_map] at sorted
  exact sorted

theorem pairwise_combinedHits :
    (combinedHits topK dense sparse).Pairwise (StandsBefore dense sparse) := by
  unfold combinedHits
  split
  · next none =>
      rw [none]
      exact pairwise_dense denseDistinct
  · exact (pairwise_reciprocalRankFusion denseDistinct sparseDistinct).take

theorem nodup_candidates : (candidates dense sparse).Nodup := by
  have denseHits : dense.Nodup := List.Nodup.of_map _ denseDistinct
  have sparseHits : sparse.Nodup := List.Nodup.of_map _ sparseDistinct
  apply (denseHits.filter _).append sparseHits
  intro hit inDense inSparse
  have outside := (List.mem_filter.mp inDense).2
  have shared : hit.point.id ∈ idsOf sparse := List.mem_map_of_mem inSparse
  simp [shared] at outside

theorem mem_combinedHits :
    hit ∈ combinedHits topK dense sparse ↔
      hit ∈ candidates dense sparse ∧ InCut topK dense sparse hit := by
  unfold combinedHits InCut
  by_cases none : sparse = []
  · subst none
    simp [candidates, idsOf]
  · have sorted := pairwise_reciprocalRankFusion denseDistinct sparseDistinct
    have asymmetric (first second : Hit) (before : StandsBefore dense sparse first second) :
        ¬ StandsBefore dense sparse second first := before.asymm
    have permuted : (reciprocalRankFusion dense sparse).Perm (candidates dense sparse) := by
      apply (List.perm_ext_iff_of_nodup (nodup_of_ordered asymmetric sorted)
        (nodup_candidates denseDistinct sparseDistinct)).mpr
      intro hit
      exact mem_reciprocalRankFusion denseDistinct sparseDistinct
    have counted := (permuted.filter (fun other => StandsBefore dense sparse other hit)).length_eq
    rw [if_neg none, ← counted, ← mem_reciprocalRankFusion denseDistinct sparseDistinct]
    simp only [none, false_or]
    constructor
    · intro taken
      have member := List.mem_of_mem_take taken
      exact ⟨member, (mem_take_iff_of_ordered topK asymmetric sorted member).mp taken⟩
    · intro given
      rcases given with ⟨member, few⟩
      exact (mem_take_iff_of_ordered topK asymmetric sorted member).mpr few

end Combined

/-! What is handed to the pruning. -/

def strongHits (config : Config) (topK : Nat) (dense sparse : List Hit) : List Hit :=
  (candidates dense sparse).filter (fun hit =>
    InCut topK dense sparse hit ∧ config.strongScoreThreshold ≤ hit.score)

def borderlineHits (config : Config) (topK : Nat) (dense sparse : List Hit) : List Hit :=
  (candidates dense sparse).filter (fun hit =>
    InCut topK dense sparse hit ∧
      config.borderlineScoreThreshold ≤ hit.score ∧ hit.score < config.strongScoreThreshold)

def firstBorderline (config : Config) (topK : Nat) (dense sparse : List Hit) : List Hit :=
  (borderlineHits config topK dense sparse).filter (fun hit =>
    ((borderlineHits config topK dense sparse).filter
      (fun other => StandsBefore dense sparse other hit)).length < 2)

def Falling (dense sparse hits : List Hit) : Prop :=
  ∀ first ∈ hits, ∀ second ∈ hits, StandsBefore dense sparse first second →
    second.score ≤ first.score

/-- What is handed to the pruning does not rise, and nothing that is pruned scores more than a hit
that is returned. -/
structure PruningKeepsBest (config : Config) (topK : Nat) (dense sparse : List Hit) : Prop where
  falling : 5 < (handedHits config topK dense sparse).length →
    (handedHits config topK dense sparse).Pairwise (fun first second => second.score ≤ first.score)
  best : ∃ pruned, handedHits config topK dense sparse = fuse config topK dense sparse ++ pruned ∧
    ∀ hit ∈ fuse config topK dense sparse, ∀ other ∈ pruned, other.score ≤ hit.score

theorem pruningKeepsBest_iff_falling :
    PruningKeepsBest config topK dense sparse ↔
      (5 < (handedHits config topK dense sparse).length →
        (handedHits config topK dense sparse).Pairwise
          (fun first second => second.score ≤ first.score)) := by
  constructor
  · exact PruningKeepsBest.falling
  · intro falling
    refine ⟨falling, ?_⟩
    rw [fuse_eq]
    split
    · next many =>
        obtain ⟨count, -, taken⟩ := kneePointPruningWith_take (1 / 2)
          (handedHits config topK dense sparse)
        rw [kneePointPruning_eq, taken]
        refine ⟨(handedHits config topK dense sparse).drop count,
          (List.take_append_drop count _).symm, ?_⟩
        have sorted := falling many
        rw [← List.take_append_drop count (handedHits config topK dense sparse)] at sorted
        exact (List.pairwise_append.mp sorted).2.2
    · exact ⟨[], (List.append_nil _).symm, by simp⟩

section Levels

variable (config topK dense sparse)

def strongOf : List Hit :=
  (combinedHits topK dense sparse).filter (fun hit => config.strongScoreThreshold ≤ hit.score)

def borderlineOf : List Hit :=
  (combinedHits topK dense sparse).filter (fun hit =>
    config.borderlineScoreThreshold ≤ hit.score ∧ hit.score < config.strongScoreThreshold)

theorem handedHits_many :
    (5 < (handedHits config topK dense sparse).length ↔
      5 < (strongOf config topK dense sparse).length +
        min 2 (borderlineOf config topK dense sparse).length) ∧
    (5 < (handedHits config topK dense sparse).length →
      handedHits config topK dense sparse =
        strongOf config topK dense sparse ++ (borderlineOf config topK dense sparse).take 2) := by
  have unfolded : handedHits config topK dense sparse =
      if 2 ≤ (strongOf config topK dense sparse).length then
        strongOf config topK dense sparse ++ (borderlineOf config topK dense sparse).take 2
      else if strongOf config topK dense sparse ≠ [] then
        strongOf config topK dense sparse ++ (borderlineOf config topK dense sparse).take 1
      else (borderlineOf config topK dense sparse).take 3 := rfl
  rw [unfolded]
  split
  · refine ⟨?_, fun _ => rfl⟩
    rw [List.length_append, List.length_take]
  · split
    · rw [List.length_append, List.length_take]
      constructor
      · omega
      · intro many
        omega
    · rw [List.length_take]
      constructor
      · omega
      · intro many
        omega

theorem pairwise_levels :
    (strongOf config topK dense sparse ++ (borderlineOf config topK dense sparse).take 2).Pairwise
        (fun first second => second.score ≤ first.score) ↔
      (strongOf config topK dense sparse).Pairwise
          (fun first second => second.score ≤ first.score) ∧
        ((borderlineOf config topK dense sparse).take 2).Pairwise
          (fun first second => second.score ≤ first.score) := by
  rw [List.pairwise_append]
  constructor
  · intro given
    rcases given with ⟨strong, borderline, -⟩
    exact ⟨strong, borderline⟩
  · intro given
    rcases given with ⟨strong, borderline⟩
    refine ⟨strong, borderline, ?_⟩
    intro first firstIn second secondIn
    have above := (List.mem_filter.mp firstIn).2
    have below := (List.mem_filter.mp (List.mem_of_mem_take secondIn)).2
    simp only [decide_eq_true_eq] at above below
    linarith [below.2]

end Levels

theorem filter_combinedHits_perm (denseDistinct : (idsOf dense).Nodup)
    (sparseDistinct : (idsOf sparse).Nodup) (level : Hit → Prop) [DecidablePred level] :
    ((combinedHits topK dense sparse).filter (fun hit => level hit)).Perm
      ((candidates dense sparse).filter (fun hit => InCut topK dense sparse hit ∧ level hit)) := by
  have sorted : (combinedHits topK dense sparse).Pairwise (StandsBefore dense sparse) :=
    pairwise_combinedHits denseDistinct sparseDistinct
  apply (List.perm_ext_iff_of_nodup
    ((nodup_of_ordered (fun _ _ => StandsBefore.asymm) sorted).filter _)
    ((nodup_candidates denseDistinct sparseDistinct).filter _)).mpr
  intro hit
  simp only [List.mem_filter, mem_combinedHits denseDistinct sparseDistinct, decide_eq_true_eq,
    and_assoc]

theorem pairwise_iff_falling {hits other : List Hit}
    (sorted : hits.Pairwise (StandsBefore dense sparse))
    (members : ∀ hit, hit ∈ hits ↔ hit ∈ other) :
    hits.Pairwise (fun first second => second.score ≤ first.score) ↔
      Falling dense sparse other := by
  rw [pairwise_iff_of_ordered (fun _ _ => StandsBefore.asymm) sorted]
  simp only [members, Falling]

theorem mem_firstBorderline (denseDistinct : (idsOf dense).Nodup)
    (sparseDistinct : (idsOf sparse).Nodup) :
    hit ∈ (borderlineOf config topK dense sparse).take 2 ↔
      hit ∈ firstBorderline config topK dense sparse := by
  have sorted : (borderlineOf config topK dense sparse).Pairwise (StandsBefore dense sparse) :=
    (pairwise_combinedHits denseDistinct sparseDistinct).filter _
  have permuted : (borderlineOf config topK dense sparse).Perm
      (borderlineHits config topK dense sparse) :=
    filter_combinedHits_perm denseDistinct sparseDistinct _
  have counted := (permuted.filter (fun other => StandsBefore dense sparse other hit)).length_eq
  rw [firstBorderline, List.mem_filter, ← permuted.mem_iff, ← counted, decide_eq_true_eq]
  constructor
  · intro taken
    have member := List.mem_of_mem_take taken
    exact ⟨member, (mem_take_iff_of_ordered 2 (fun _ _ => StandsBefore.asymm) sorted member).mp
      taken⟩
  · intro given
    rcases given with ⟨member, few⟩
    exact (mem_take_iff_of_ordered 2 (fun _ _ => StandsBefore.asymm) sorted member).mpr few

def mixedDense : List Hit :=
  [⟨⟨"a", {}⟩, 9 / 10⟩, ⟨⟨"b", {}⟩, 8 / 10⟩, ⟨⟨"c", {}⟩, 7 / 10⟩]

def mixedSparse : List Hit := [⟨⟨"x", {}⟩, 12⟩, ⟨⟨"y", {}⟩, 11⟩, ⟨⟨"z", {}⟩, 10⟩]

end RagSystem.Core
