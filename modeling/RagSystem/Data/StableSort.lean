import RagSystem.Data.Builtins

/-! The stable descending sort: what stands before what. -/

namespace RagSystem

variable {α : Type} {score : α → ℚ} {earlier : α → α → Prop} {items other : List α} {item : α}

/-- An item of a greater score, or of the same score and earlier in the list. -/
def Outranks (score : α → ℚ) (earlier : α → α → Prop) (first second : α) : Prop :=
  score second < score first ∨ score first = score second ∧ earlier first second

theorem Outranks.asymm (ordered : ∀ first second, earlier first second → ¬ earlier second first)
    {first second : α} (before : Outranks score earlier first second) :
    ¬ Outranks score earlier second first := by
  intro behind
  rcases before with greater | tied
  · rcases behind with less | equal
    · exact absurd greater less.not_gt
    · exact absurd equal.1 greater.ne
  · rcases behind with less | equal
    · exact absurd tied.1 less.ne
    · exact ordered first second tied.2 equal.2

theorem Outranks.of_le {first second : α} (below : score second ≤ score first)
    (before : earlier first second) : Outranks score earlier first second := by
  rcases below.lt_or_eq with less | equal
  · exact Or.inl less
  · exact Or.inr ⟨equal.symm, before⟩

theorem Outranks.le {first second : α} (before : Outranks score earlier first second) :
    score second ≤ score first := by
  rcases before with less | tied
  · exact less.le
  · exact tied.1.ge

theorem sortDescending_perm : (sortDescending score items).Perm items :=
  List.perm_insertionSort _ items

theorem length_sortDescending : (sortDescending score items).length = items.length :=
  sortDescending_perm.length_eq

theorem orderedInsert_outranks (first : ∀ later ∈ items, earlier item later)
    (sorted : items.Pairwise (Outranks score earlier)) :
    (items.orderedInsert (fun first second => score second ≤ score first) item).Pairwise
      (Outranks score earlier) := by
  induction items with
  | nil => exact List.pairwise_singleton _ _
  | cons head rest ih =>
      obtain ⟨heads, tail⟩ := List.pairwise_cons.mp sorted
      by_cases above : score head ≤ score item
      · rw [List.orderedInsert_cons, if_pos above]
        refine List.pairwise_cons.mpr ⟨?_, sorted⟩
        intro later member
        have below : score later ≤ score item := by
          rcases List.mem_cons.mp member with rfl | inside
          · exact above
          · exact (heads later inside).le.trans above
        exact Outranks.of_le below (first later member)
      · rw [List.orderedInsert_cons, if_neg above]
        refine List.pairwise_cons.mpr ⟨?_, ?_⟩
        · intro later member
          rcases (List.mem_orderedInsert _).mp member with rfl | inside
          · exact Or.inl (not_le.mp above)
          · exact heads later inside
        · exact ih (fun later member => first later (List.mem_cons_of_mem head member)) tail

theorem sortDescending_outranks (inOrder : items.Pairwise earlier) :
    (sortDescending score items).Pairwise (Outranks score earlier) := by
  induction items with
  | nil => exact List.Pairwise.nil
  | cons item rest ih =>
      obtain ⟨first, later⟩ := List.pairwise_cons.mp inOrder
      apply orderedInsert_outranks
      · intro other member
        exact first other (mem_sortDescending.mp member)
      · exact ih later

theorem pairwise_sortDescending (score : α → ℚ) (items : List α) :
    (sortDescending score items).Pairwise (fun first second => score second ≤ score first) := by
  have all : items.Pairwise (fun _ _ => True) := List.pairwise_of_forall (fun _ _ => trivial)
  exact (sortDescending_outranks all).imp Outranks.le

theorem sortDescending_strict (distinct : (items.map score).Nodup) :
    (sortDescending score items).Pairwise (fun first second => score second < score first) := by
  have apart : items.Pairwise (fun first second => score first ≠ score second) :=
    List.pairwise_map.mp distinct
  apply (sortDescending_outranks apart).imp
  intro first second before
  rcases before with greater | tied
  · exact greater
  · exact absurd tied.1 tied.2

theorem sortDescending_congr (distinct : (items.map score).Nodup) (permuted : other.Perm items) :
    sortDescending score other = sortDescending score items := by
  have unequal : ∀ first second, first ∈ sortDescending score other →
      second ∈ sortDescending score items → score second < score first →
      score first < score second → first = second := by
    intro first second _ _ before behind
    exact absurd behind before.not_gt
  apply List.Perm.eq_of_pairwise unequal
  · exact sortDescending_strict ((permuted.map score).nodup_iff.mpr distinct)
  · exact sortDescending_strict distinct
  · calc
      (sortDescending score other).Perm other := sortDescending_perm
      _ |>.Perm items := permuted
      _ |>.Perm (sortDescending score items) := sortDescending_perm.symm

theorem pairwise_iff_of_ordered {before good : α → α → Prop}
    (asymmetric : ∀ first second, before first second → ¬ before second first)
    (sorted : items.Pairwise before) :
    items.Pairwise good ↔
      ∀ first ∈ items, ∀ second ∈ items, before first second → good first second := by
  constructor
  · intro pairs first firstIn second secondIn ordered
    obtain ⟨place, inside, rfl⟩ := List.mem_iff_getElem.mp firstIn
    obtain ⟨other, otherInside, rfl⟩ := List.mem_iff_getElem.mp secondIn
    rcases Nat.lt_trichotomy place other with earlier | same | later
    · exact List.pairwise_iff_getElem.mp pairs place other inside otherInside earlier
    · subst same
      exact absurd ordered (asymmetric _ _ ordered)
    · have reverse := List.pairwise_iff_getElem.mp sorted other place otherInside inside later
      exact absurd reverse (asymmetric _ _ ordered)
  · intro pairs
    apply sorted.imp_of_mem
    intro first second firstIn secondIn ordered
    exact pairs first firstIn second secondIn ordered

theorem nodup_of_ordered {before : α → α → Prop}
    (asymmetric : ∀ first second, before first second → ¬ before second first)
    (sorted : items.Pairwise before) : items.Nodup := by
  apply sorted.imp
  intro first _ ordered given
  rcases given with rfl
  exact asymmetric first first ordered ordered

theorem filter_before {before : α → α → Prop} [DecidableRel before] {front back : List α}
    (asymmetric : ∀ first second, before first second → ¬ before second first)
    (sorted : (front ++ item :: back).Pairwise before) :
    (front ++ item :: back).filter (fun other => before other item) = front := by
  obtain ⟨-, rest, cross⟩ := List.pairwise_append.mp sorted
  obtain ⟨behind, -⟩ := List.pairwise_cons.mp rest
  have self : ¬ before item item := fun own => asymmetric item item own own
  have inFront : front.filter (fun other => before other item) = front := by
    apply List.filter_eq_self.mpr
    intro other inside
    simpa using cross other inside item List.mem_cons_self
  have inBack : back.filter (fun other => before other item) = [] := by
    apply List.filter_eq_nil_iff.mpr
    intro other inside
    simpa using asymmetric item other (behind other inside)
  rw [List.filter_append, List.filter_cons_of_neg (by simpa using self), inFront, inBack,
    List.append_nil]

theorem getElem?_iff_of_ordered {before : α → α → Prop} [DecidableRel before] {place : Nat}
    (asymmetric : ∀ first second, before first second → ¬ before second first)
    (sorted : items.Pairwise before) :
    items[place]? = some item ↔
      item ∈ items ∧ (items.filter (fun other => before other item)).length = place := by
  constructor
  · intro found
    obtain ⟨inside, rfl⟩ := List.getElem?_eq_some_iff.mp found
    have split : items = items.take place ++ items[place] :: items.drop (place + 1) := by
      rw [← List.drop_eq_getElem_cons inside, List.take_append_drop]
    have ordered := sorted
    rw [split] at ordered
    have front := filter_before asymmetric ordered
    rw [← split] at front
    rw [front, List.length_take]
    exact ⟨List.getElem_mem inside, by omega⟩
  · intro given
    rcases given with ⟨member, rfl⟩
    obtain ⟨front, back, rfl⟩ := List.append_of_mem member
    rw [filter_before asymmetric sorted]
    simp

theorem mem_take_iff_of_ordered {before : α → α → Prop} [DecidableRel before] (count : Nat)
    (asymmetric : ∀ first second, before first second → ¬ before second first)
    (sorted : items.Pairwise before) (member : item ∈ items) :
    item ∈ items.take count ↔
      (items.filter (fun other => before other item)).length < count := by
  have found := (getElem?_iff_of_ordered asymmetric sorted).mpr ⟨member, rfl⟩
  constructor
  · intro taken
    obtain ⟨place, inside, same⟩ := List.mem_iff_getElem.mp taken
    rw [List.length_take] at inside
    rw [List.getElem_take] at same
    have placed := (getElem?_iff_of_ordered asymmetric sorted).mp
      (List.getElem?_eq_some_iff.mpr ⟨_, same⟩)
    omega
  · intro few
    apply List.mem_of_getElem?
    rw [List.getElem?_take_of_lt few]
    exact found

theorem mem_drop_iff_of_ordered {before : α → α → Prop} [DecidableRel before] (count : Nat)
    (asymmetric : ∀ first second, before first second → ¬ before second first)
    (sorted : items.Pairwise before) (member : item ∈ items) :
    item ∈ items.drop count ↔
      ¬ (items.filter (fun other => before other item)).length < count := by
  rw [← mem_take_iff_of_ordered count asymmetric sorted member]
  have split := List.take_append_drop count items
  have nodup := nodup_of_ordered asymmetric sorted
  rw [← split] at member nodup
  constructor
  · intro dropped taken
    exact List.disjoint_of_nodup_append nodup taken dropped
  · intro outside
    exact (List.mem_append.mp member).resolve_left outside

theorem map_sortDescending_pairs (items : List α) (score : α → ℚ) :
    (sortDescending Prod.snd (items.map (fun item => (item, score item)))).map Prod.fst =
      sortDescending score items := by
  have mapped : (sortDescending score items).map (fun item => (item, score item)) =
      sortDescending Prod.snd (items.map (fun item => (item, score item))) := by
    apply List.map_insertionSort
    intro first _ second _
    exact Iff.rfl
  rw [← mapped, List.map_map]
  exact List.map_id _

end RagSystem
