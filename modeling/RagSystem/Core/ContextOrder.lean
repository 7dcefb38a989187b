import RagSystem.Core.ContextBudget
import RagSystem.Data.StableSort

/-! The order against the loss in the middle, and what `build_context` makes of it. -/

namespace RagSystem.Core

section Alternate

variable {α : Type} {items : List α}

theorem alternate_perm : ((alternate items).1 ++ (alternate items).2).Perm items := by
  induction items using alternate.induct with
  | case1 => exact List.Perm.refl _
  | case2 single => exact List.Perm.refl _
  | case3 first second rest even odd split ih =>
      simp only [alternate, List.cons_append]
      refine List.Perm.cons first ?_
      exact List.perm_middle.trans (ih.cons second)

theorem alternate_sublist :
    (alternate items).1.Sublist items ∧ (alternate items).2.Sublist items := by
  induction items using alternate.induct with
  | case1 => exact ⟨List.Sublist.refl _, List.Sublist.refl _⟩
  | case2 single => exact ⟨List.Sublist.refl _, List.nil_sublist _⟩
  | case3 first second rest even odd split ih =>
      simp only [alternate]
      exact ⟨(ih.1.cons second).cons_cons first, (ih.2.cons_cons second).cons first⟩

end Alternate

variable {helpers : Helpers} {config : Config} {chunks : List Ranked} {maxTokens : Nat}
  {best second : Ranked}

theorem reorderChunks_perm : (reorderChunks chunks).Perm chunks := by
  by_cases few : chunks.length ≤ 2
  · rw [reorderChunks, if_pos few]
  · rw [reorderChunks, if_neg few]
    calc
      ((alternate (sortDescending Prod.snd chunks)).1 ++
          (alternate (sortDescending Prod.snd chunks)).2.reverse).Perm
          ((alternate (sortDescending Prod.snd chunks)).1 ++
            (alternate (sortDescending Prod.snd chunks)).2) :=
        List.Perm.append_left _ (List.reverse_perm _)
      _ |>.Perm (sortDescending Prod.snd chunks) := alternate_perm
      _ |>.Perm chunks := sortDescending_perm

def Valley (chunks : List Ranked) : Prop :=
  ∃ down up, chunks = down ++ up ∧
    down.Pairwise (fun first second => second.2 < first.2) ∧
    up.Pairwise (fun first second => first.2 < second.2)

theorem reorderChunks_valley (distinct : (chunks.map Prod.snd).Nodup) :
    Valley (reorderChunks chunks) := by
  by_cases few : chunks.length ≤ 2
  · rw [reorderChunks, if_pos few]
    rcases chunks with _ | ⟨first, _ | ⟨last, _ | ⟨third, rest⟩⟩⟩
    · exact ⟨[], [], rfl, List.Pairwise.nil, List.Pairwise.nil⟩
    · exact ⟨[first], [], rfl, List.pairwise_singleton _ _, List.Pairwise.nil⟩
    · exact ⟨[first], [last], rfl, List.pairwise_singleton _ _, List.pairwise_singleton _ _⟩
    · simp only [List.length_cons] at few
      omega
  · rw [reorderChunks, if_neg few]
    have sorted := sortDescending_strict distinct
    refine ⟨_, _, rfl, sorted.sublist alternate_sublist.1, ?_⟩
    exact List.pairwise_reverse.mpr (sorted.sublist alternate_sublist.2)

structure TopTwo (chunks : List Ranked) (best second : Ranked) : Prop where
  best_mem : best ∈ chunks
  second_mem : second ∈ chunks
  second_lt : second.2 < best.2
  others : ∀ other ∈ chunks, other ≠ best → other ≠ second → other.2 < second.2

theorem topTwo_iff (distinct : (chunks.map Prod.snd).Nodup) :
    TopTwo chunks best second ↔
      ∃ rest, sortDescending Prod.snd chunks = best :: second :: rest := by
  have sorted := sortDescending_strict distinct
  have member (ranked : Ranked) :
      ranked ∈ sortDescending Prod.snd chunks ↔ ranked ∈ chunks := mem_sortDescending
  generalize sortDescending Prod.snd chunks = ordered at sorted member ⊢
  constructor
  · intro top
    rcases ordered with _ | ⟨first, _ | ⟨next, rest⟩⟩
    · exact absurd ((member best).mpr top.best_mem) List.not_mem_nil
    · have bestFirst := List.mem_singleton.mp ((member best).mpr top.best_mem)
      have secondFirst := List.mem_singleton.mp ((member second).mpr top.second_mem)
      exact absurd top.second_lt (by rw [bestFirst, secondFirst]; exact lt_irrefl _)
    · obtain ⟨below, later⟩ := List.pairwise_cons.mp sorted
      have firstBest : first = best := by
        by_contra different
        have inside := (member best).mpr top.best_mem
        have above := below best (List.mem_of_ne_of_mem (Ne.symm different) inside)
        have order := top.second_lt
        by_cases other : first = second
        · rw [other] at above
          exact absurd above order.not_gt
        · have less := top.others first ((member first).mp List.mem_cons_self) different other
          exact absurd (less.trans order) above.not_gt
      have nextSecond : next = second := by
        by_contra different
        have inside := (member second).mpr top.second_mem
        have apart : second ≠ first := by
          rw [firstBest]
          intro given
          rcases given with rfl
          exact absurd top.second_lt (lt_irrefl _)
        have behind := List.mem_of_ne_of_mem (Ne.symm different)
          (List.mem_of_ne_of_mem apart inside)
        have above := (List.pairwise_cons.mp later).1 second behind
        have notBest : next ≠ best := by
          rw [← firstBest]
          intro given
          rcases given with rfl
          exact absurd (below next List.mem_cons_self) (lt_irrefl _)
        have listed : next ∈ first :: next :: rest := List.mem_cons_of_mem _ List.mem_cons_self
        have less := top.others next ((member next).mp listed) notBest different
        exact absurd less above.not_gt
      exact ⟨rest, by rw [firstBest, nextSecond]⟩
  · intro given
    rcases given with ⟨rest, rfl⟩
    obtain ⟨below, later⟩ := List.pairwise_cons.mp sorted
    refine ⟨(member best).mp List.mem_cons_self,
      (member second).mp (List.mem_cons_of_mem _ List.mem_cons_self),
      below second List.mem_cons_self, ?_⟩
    intro other inside notBest notSecond
    have listed := (member other).mpr inside
    have behind := List.mem_of_ne_of_mem notSecond (List.mem_of_ne_of_mem notBest listed)
    exact (List.pairwise_cons.mp later).1 other behind

def HasText (ranked : Ranked) : Prop := stripText ranked.1.text ≠ ""

instance (ranked : Ranked) : Decidable (HasText ranked) := inferInstanceAs (Decidable (_ ≠ _))

theorem filter_ends_iff {α : Type} {kept : α → Bool} {first second : α} {rest : List α}
    (distinct : (first :: second :: rest).Nodup) :
    ((first :: second :: rest).filter kept).head? = some first ∧
        ((first :: second :: rest).filter kept).getLast? = some second ↔
      (first :: second :: rest).filter kept = [first, second] := by
  constructor
  · intro given
    rcases given with ⟨head, last⟩
    obtain ⟨notFirst, later⟩ := List.nodup_cons.mp distinct
    have firstKept := (List.mem_filter.mp (List.mem_of_head? head)).2
    have secondKept := (List.mem_filter.mp (List.mem_of_getLast? last)).2
    rw [List.filter_cons_of_pos firstKept, List.filter_cons_of_pos secondKept] at last ⊢
    cases behind : rest.filter kept with
    | nil => rfl
    | cons third others =>
        rw [behind, List.getLast?_cons_cons, List.getLast?_cons_cons] at last
        have inside : second ∈ rest.filter kept := by
          rw [behind]
          exact List.mem_of_getLast? last
        exact absurd (List.mem_of_mem_filter inside) (List.nodup_cons.mp later).1
  · intro both
    rw [both]
    exact ⟨rfl, rfl⟩

theorem contextParts_of_fits {includeMetadata : Bool} {total : Nat} {ordered : List Ranked}
    (fits : total + ((wholeParts helpers includeMetadata ordered).map estimateTokens).sum ≤
      maxTokens) :
    (contextParts helpers includeMetadata maxTokens total ordered).1 =
      (ordered.filter (fun ranked => HasText ranked)).map
        (fun ranked => (ranked, partOf helpers includeMetadata ranked)) := by
  induction ordered generalizing total with
  | nil => rfl
  | cons ranked rest ih =>
      simp only [contextParts]
      by_cases blank : stripText ranked.1.text = ""
      · rw [wholeParts_blank blank] at fits
        have dropped : ¬ HasText ranked := not_not.mpr blank
        rw [if_pos blank, ih fits, List.filter_cons_of_neg (by simpa using dropped)]
      · rw [wholeParts_text blank, List.map_cons, List.sum_cons] at fits
        have kept : HasText ranked := blank
        rw [if_neg blank, if_neg (by omega), List.filter_cons_of_pos (by simpa using kept)]
        simp only [List.map_cons]
        rw [ih (by omega)]

/-- The chunks whose texts `build_context` joins, with its default arguments. -/
def joinedChunks (helpers : Helpers) (config : Config) (chunks : List Ranked) (maxTokens : Nat) :
    List Ranked :=
  (contextParts helpers true maxTokens 0 (usedOrder config true chunks)).1.map Prod.fst

theorem usedOrder_eq (distinct : (chunks.map Prod.snd).Nodup) :
    usedOrder config true chunks = sortDescending Prod.snd chunks := by
  simp only [usedOrder, if_true]
  split
  · exact sortDescending_congr distinct reorderChunks_perm
  · rfl

theorem contextParts_default (distinct : (chunks.map Prod.snd).Nodup)
    (fits : ((wholeParts helpers true chunks).map estimateTokens).sum ≤ maxTokens) :
    (contextParts helpers true maxTokens 0 (usedOrder config true chunks)).1 =
      ((sortDescending Prod.snd chunks).filter (fun ranked => HasText ranked)).map
        (fun ranked => (ranked, partOf helpers true ranked)) := by
  have same : ((wholeParts helpers true (sortDescending Prod.snd chunks)).map estimateTokens).sum =
      ((wholeParts helpers true chunks).map estimateTokens).sum := by
    apply List.Perm.sum_nat
    exact ((sortDescending_perm.filter _).map _).map _
  rw [usedOrder_eq distinct, contextParts_of_fits (by omega)]

theorem joinedChunks_eq (config : Config) (distinct : (chunks.map Prod.snd).Nodup)
    (fits : ((wholeParts helpers true chunks).map estimateTokens).sum ≤ maxTokens) :
    joinedChunks helpers config chunks maxTokens =
      (sortDescending Prod.snd chunks).filter (fun ranked => HasText ranked) := by
  rw [joinedChunks, contextParts_default distinct fits, List.map_map]
  exact List.map_id _

/-- The reordered chunks fall from the front and rise to the back, and the context begins with the
best chunk and ends with the second best. -/
structure MiddleOrder (helpers : Helpers) (config : Config) (chunks : List Ranked)
    (maxTokens : Nat) : Prop where
  permuted : (reorderChunks chunks).Perm chunks
  valley : Valley (reorderChunks chunks)
  ends : ∃ best second, TopTwo chunks best second ∧
    (joinedChunks helpers config chunks maxTokens).head? = some best ∧
    (joinedChunks helpers config chunks maxTokens).getLast? = some second ∧
    (partOf helpers true best).toList <+:
      (buildContextWith helpers config true true chunks maxTokens).toList ∧
    (partOf helpers true second).toList <:+
      (buildContextWith helpers config true true chunks maxTokens).toList

def OnlyTopTwo (chunks : List Ranked) : Prop :=
  ∃ best second, TopTwo chunks best second ∧ HasText best ∧ HasText second ∧
    ∀ other ∈ chunks, other ≠ best → other ≠ second → ¬ HasText other

theorem middleOrder_iff (distinct : (chunks.map Prod.snd).Nodup)
    (fits : ((wholeParts helpers true chunks).map estimateTokens).sum ≤ maxTokens) :
    MiddleOrder helpers config chunks maxTokens ↔ OnlyTopTwo chunks := by
  have joined := joinedChunks_eq config distinct fits
  have nodup : (sortDescending Prod.snd chunks).Nodup := by
    apply (sortDescending_strict distinct).imp
    intro first _ below given
    rcases given with rfl
    exact absurd below (lt_irrefl _)
  constructor
  · intro kept
    obtain ⟨best, second, top, first, last, -⟩ := kept.ends
    obtain ⟨rest, ordered⟩ := (topTwo_iff distinct).mp top
    rw [joined, ordered] at first last
    rw [ordered] at nodup
    have both := (filter_ends_iff nodup).mp ⟨first, last⟩
    have text (ranked : Ranked) :
        ranked ∈ chunks ∧ HasText ranked ↔ ranked = best ∨ ranked = second := by
      have listed : ranked ∈ (best :: second :: rest).filter (fun ranked => HasText ranked) ↔
          ranked ∈ [best, second] := by rw [both]
      rw [← ordered, List.mem_filter, mem_sortDescending] at listed
      simpa using listed
    refine ⟨best, second, top, ((text best).mpr (Or.inl rfl)).2,
      ((text second).mpr (Or.inr rfl)).2, ?_⟩
    intro other inside notBest notSecond hasText
    rcases (text other).mp ⟨inside, hasText⟩ with same | same
    · exact notBest same
    · exact notSecond same
  · intro given
    rcases given with ⟨best, second, top, bestText, secondText, blank⟩
    obtain ⟨rest, ordered⟩ := (topTwo_iff distinct).mp top
    have both : (sortDescending Prod.snd chunks).filter (fun ranked => HasText ranked) =
        [best, second] := by
      rw [ordered] at nodup ⊢
      have none : rest.filter (fun ranked => HasText ranked) = [] := by
        apply List.filter_eq_nil_iff.mpr
        intro other inside
        have listed : other ∈ sortDescending Prod.snd chunks := by
          rw [ordered]
          exact List.mem_cons_of_mem _ (List.mem_cons_of_mem _ inside)
        have apart := List.nodup_cons.mp nodup
        have blankText := blank other (mem_sortDescending.mp listed)
          (fun same => apart.1 (List.mem_cons_of_mem _ (same ▸ inside)))
          (fun same => (List.nodup_cons.mp apart.2).1 (same ▸ inside))
        simpa using blankText
      rw [List.filter_cons_of_pos (by simpa using bestText),
        List.filter_cons_of_pos (by simpa using secondText), none]
    have text : buildContextWith helpers config true true chunks maxTokens =
        partOf helpers true best ++ partOf helpers true second := by
      rw [buildContextWith_eq, contextParts_default distinct fits, both]
      simp
    refine ⟨reorderChunks_perm, reorderChunks_valley distinct, best, second, top, ?_⟩
    rw [joined, both, text, String.toList_append]
    exact ⟨rfl, rfl, List.prefix_append _ _, List.suffix_append _ _⟩

theorem middleOrder_iff_short :
    MiddleOrder shortHelpers {} shortChunks 120000 ↔ OnlyTopTwo shortChunks :=
  middleOrder_iff (by decide +kernel) (by decide +kernel)

def thirdChunk : Ranked := (⟨{ text := some "c" }, none⟩, 7 / 10)

theorem middleOrder_fails :
    joinedChunks shortHelpers {} (shortChunks ++ [thirdChunk]) 120000 =
        shortChunks ++ [thirdChunk] ∧
      ¬ MiddleOrder shortHelpers {} (shortChunks ++ [thirdChunk]) 120000 := by
  have joined : joinedChunks shortHelpers {} (shortChunks ++ [thirdChunk]) 120000 =
      shortChunks ++ [thirdChunk] := by
    decide +kernel
  refine ⟨joined, ?_⟩
  intro kept
  obtain ⟨best, second, top, first, last, -⟩ := kept.ends
  rw [joined] at first last
  obtain rfl : (⟨{ text := some "a" }, none⟩, 9 / 10) = best := Option.some.inj first
  obtain rfl : thirdChunk = second := Option.some.inj last
  have below := top.others (⟨{ text := some "b" }, none⟩, 8 / 10) (by decide +kernel)
    (by decide +kernel) (by decide +kernel)
  exact absurd below (by decide +kernel)

end RagSystem.Core
