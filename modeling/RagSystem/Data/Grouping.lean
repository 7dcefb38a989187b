import Mathlib.Data.List.Induction
import Mathlib.Data.List.Perm.Basic
import RagSystem.Data.Dict

/-! Items under their keys: grouped in a dictionary of lists that is filled item by item, or reduced
to the first item of each key. -/

namespace RagSystem

variable {α κ : Type} [DecidableEq κ] (key : α → κ)

/-- `groups[key(item)].append(item)` for each item, with an empty list under a new key. -/
def groupBy (items : List α) : Dict κ (List α) :=
  items.foldl (fun groups item =>
    groups.set (key item) ((groups.get? (key item)).getD [] ++ [item])) ∅

/-- The items with one key, in order. -/
def groupOf (items : List α) (group : κ) : List α := items.filter (fun item => key item = group)

variable {key} {items : List α} {group : κ} {item : α}

theorem mem_groupOf : item ∈ groupOf key items group ↔ item ∈ items ∧ key item = group := by
  simp [groupOf]

theorem groupOf_eq_nil (absent : group ∉ items.map key) : groupOf key items group = [] := by
  rw [groupOf, List.filter_eq_nil_iff]
  intro item member same
  exact absent (List.mem_map.mpr ⟨item, member, by simpa using same⟩)

theorem groupBy_concat (items : List α) (item : α) :
    groupBy key (items ++ [item]) = (groupBy key items).set (key item)
      (((groupBy key items).get? (key item)).getD [] ++ [item]) := by
  rw [groupBy, List.foldl_append]
  rfl

theorem get?_groupBy (items : List α) (group : κ) :
    (groupBy key items).get? group =
      if group ∈ items.map key then some (groupOf key items group) else none := by
  induction items using List.reverseRecOn with
  | nil => rfl
  | append_singleton items item ih =>
      rw [groupBy_concat, Dict.get?_set]
      by_cases same : group = key item
      · subst same
        rw [if_pos rfl, ih]
        by_cases present : key item ∈ items.map key
        · simp [present, groupOf]
        · have none : groupOf key items (key item) = [] := groupOf_eq_nil present
          rw [groupOf] at none
          simp [present, groupOf, none]
      · have other : key item ≠ group := fun equal => same equal.symm
        rw [if_neg same, ih]
        simp [same, other, groupOf]

theorem entries_groupBy (items : List α) :
    (groupBy key items).entries =
      (groupBy key items).keys.map (fun group => (group, groupOf key items group)) := by
  rw [Dict.keys, List.map_map]
  conv_lhs => rw [← List.map_id (groupBy key items).entries]
  apply List.map_congr_left
  intro entry member
  have found := (Dict.mem_entries_iff (groupBy key items) entry.1 entry.2).mp member
  rw [get?_groupBy] at found
  split at found
  · exact Prod.ext rfl (Option.some.inj found).symm
  · simp at found

theorem mem_keys_groupBy : group ∈ (groupBy key items).keys ↔ group ∈ items.map key := by
  rw [Dict.mem_keys_iff, get?_groupBy]
  split <;> simp [*]

theorem pairwise_groupOf_iff {related : α → α → Prop} :
    items.Pairwise (fun first second => key first = key second → related first second) ↔
      ∀ group ∈ items.map key, (groupOf key items group).Pairwise related := by
  constructor
  · intro pairs group _
    have within : (groupOf key items group).Pairwise
        (fun first second => key first = key second → related first second) :=
      pairs.sublist List.filter_sublist
    refine within.imp_of_mem fun first second alike => alike ?_
    rw [(mem_groupOf.mp first).2, (mem_groupOf.mp second).2]
  · intro groups
    induction items with
    | nil => exact List.Pairwise.nil
    | cons item rest ih =>
        have own := groups (key item) (List.mem_map_of_mem List.mem_cons_self)
        rw [groupOf, List.filter_cons_of_pos (by simp), List.pairwise_cons] at own
        refine List.pairwise_cons.mpr ⟨?_, ih ?_⟩
        · intro other member same
          exact own.1 other (List.mem_filter.mpr ⟨member, by simpa using same.symm⟩)
        · intro group member
          have whole := groups group (by simp [List.map_cons, member])
          exact whole.sublist (List.Sublist.filter _ (List.sublist_cons_self item rest))

theorem flatMap_groupOf_perm (items : List α) {groups : List κ} (distinct : groups.Nodup)
    (covered : ∀ item ∈ items, key item ∈ groups) :
    (groups.flatMap (groupOf key items)).Perm items := by
  induction groups generalizing items with
  | nil =>
      have none : items = [] := List.eq_nil_iff_forall_not_mem.mpr fun item member => by
        simpa using covered item member
      simp [none]
  | cons group groups ih =>
      rw [List.nodup_cons] at distinct
      have others : groups.flatMap (groupOf key items) =
          groups.flatMap (groupOf key (items.filter (fun item => key item ≠ group))) := by
        apply List.flatMap_congr
        intro other member
        have differs : other ≠ group := fun same => distinct.1 (same ▸ member)
        rw [groupOf, groupOf, List.filter_filter]
        apply List.filter_congr
        intro item _
        by_cases same : key item = other
        · simp [same, differs]
        · simp [same]
      have rest := ih (items.filter (fun item => key item ≠ group)) distinct.2 (by
        intro item member
        obtain ⟨inside, differs⟩ := List.mem_filter.mp member
        have inGroups := covered item inside
        simp only [List.mem_cons] at inGroups
        exact inGroups.resolve_left (by simpa using differs))
      rw [List.flatMap_cons, others]
      have split := List.filter_append_perm (fun item => decide (key item = group)) items
      have negated : (items.filter (fun item => !decide (key item = group))) =
          items.filter (fun item => key item ≠ group) := by
        apply List.filter_congr
        intro item _
        by_cases same : key item = group <;> simp [same]
      rw [negated] at split
      calc
        (groupOf key items group ++
            groups.flatMap (groupOf key (items.filter (fun item => key item ≠ group)))).Perm
            (groupOf key items group ++ items.filter (fun item => key item ≠ group)) :=
          rest.append_left _
        _ |>.Perm items := split

theorem flatMap_single {β : Type} {groups : List κ} (distinct : groups.Nodup)
    (member : group ∈ groups) (values : κ → List β) :
    groups.flatMap (fun other => if other = group then values other else []) = values group := by
  induction groups with
  | nil => simp at member
  | cons first groups ih =>
      rw [List.nodup_cons] at distinct
      rw [List.flatMap_cons]
      by_cases same : first = group
      · subst same
        have none : groups.flatMap (fun other => if other = first then values other else []) =
            [] := by
          rw [List.flatMap_eq_nil_iff]
          intro other inside
          rw [if_neg]
          intro given
          rcases given with rfl
          exact distinct.1 inside
        rw [if_pos rfl, none, List.append_nil]
      · have later : group ∈ groups := List.mem_of_ne_of_mem (Ne.symm same) member
        rw [if_neg same, List.nil_append, ih distinct.2 later]

section Pick

variable {pick : List α → List α}

theorem groupOf_flatMap_groupBy (within : ∀ group, ∀ item ∈ pick group, item ∈ group)
    (member : group ∈ items.map key) :
    groupOf key ((groupBy key items).entries.flatMap (fun entry => pick entry.2)) group =
      pick (groupOf key items group) := by
  rw [entries_groupBy, List.flatMap_map, groupOf, List.filter_flatMap]
  have single : ∀ other, (pick (groupOf key items other)).filter
      (fun item => decide (key item = group)) =
        if other = group then pick (groupOf key items other) else [] := by
    intro other
    have own : ∀ item ∈ pick (groupOf key items other), key item = other := fun item inside =>
      (mem_groupOf.mp (within _ item inside)).2
    split
    · rename_i same
      rw [List.filter_eq_self]
      intro item inside
      simpa [← same] using own item inside
    · rename_i differs
      rw [List.filter_eq_nil_iff]
      intro item inside
      simpa [own item inside] using differs
  have rewritten := List.flatMap_congr (l := (groupBy key items).keys) (fun other _ => single other)
  refine Eq.trans rewritten ?_
  exact flatMap_single (groupBy key items).nodup_keys (mem_keys_groupBy.mpr member)
    (fun other => pick (groupOf key items other))

theorem flatMap_groupBy_perm_iff (within : ∀ group, ∀ item ∈ pick group, item ∈ group)
    (selected : α → Bool) :
    ((groupBy key items).entries.flatMap (fun entry => pick entry.2)).Perm
        (items.filter selected) ↔
      ∀ group ∈ items.map key,
        (pick (groupOf key items group)).Perm ((groupOf key items group).filter selected) := by
  have apart (group : κ) : groupOf key (items.filter selected) group =
      (groupOf key items group).filter selected := by
    rw [groupOf, groupOf, List.filter_comm]
  constructor
  · intro same group member
    rw [← groupOf_flatMap_groupBy within member, ← apart]
    exact same.filter _
  · intro each
    have parts := flatMap_groupOf_perm (items.filter selected) (groupBy key items).nodup_keys (by
        intro item member
        exact mem_keys_groupBy.mpr (List.mem_map_of_mem (List.mem_of_mem_filter member)))
    rw [entries_groupBy, List.flatMap_map]
    apply List.Perm.trans _ parts
    apply List.Perm.flatMap_left
    intro group member
    rw [apart]
    exact each group (mem_keys_groupBy.mp member)

end Pick

/-! The first item of each key. -/

section First

variable {κ' : Type} [DecidableEq κ']

def firstOfEach (key : α → κ) : List α → List α
  | [] => []
  | item :: rest => item :: (firstOfEach key rest).filter (fun other => key other ≠ key item)

theorem firstOfEach_sublist (key : α → κ) (items : List α) :
    (firstOfEach key items).Sublist items := by
  induction items with
  | nil => exact List.Sublist.refl []
  | cons item rest ih => exact (List.filter_sublist.trans ih).cons_cons item

theorem exists_firstOfEach (key : α → κ) (member : item ∈ items) :
    ∃ first ∈ firstOfEach key items, key first = key item := by
  induction items with
  | nil => simp at member
  | cons head rest ih =>
      by_cases same : key item = key head
      · exact ⟨head, List.mem_cons_self, same.symm⟩
      · have other : item ≠ head := fun equal => same (congrArg key equal)
        have later : item ∈ rest := List.mem_of_ne_of_mem other member
        obtain ⟨first, inside, equal⟩ := ih later
        refine ⟨first, List.mem_cons_of_mem head ?_, equal⟩
        simpa [inside, equal] using same

theorem nodup_firstOfEach (key : α → κ) (items : List α) :
    ((firstOfEach key items).map key).Nodup := by
  induction items with
  | nil => exact List.nodup_nil
  | cons item rest ih =>
      rw [firstOfEach, List.map_cons, List.nodup_cons]
      refine ⟨by simp, ih.sublist (List.filter_sublist.map key)⟩

theorem firstOfEach_of_nodup (distinct : (items.map key).Nodup) :
    firstOfEach key items = items := by
  induction items with
  | nil => rfl
  | cons item rest ih =>
      rw [List.map_cons, List.nodup_cons] at distinct
      rw [firstOfEach, ih distinct.2, List.filter_eq_self.mpr]
      intro other member
      have differs : key other ≠ key item := fun same =>
        distinct.1 (same ▸ List.mem_map_of_mem member)
      simpa using differs

theorem firstOfEach_append (key : α → κ) (earlier later : List α) :
    firstOfEach key (earlier ++ later) =
      firstOfEach key earlier ++
        (firstOfEach key later).filter (fun item => key item ∉ earlier.map key) := by
  induction earlier with
  | nil => simp [firstOfEach]
  | cons item rest ih =>
      rw [List.cons_append, firstOfEach, ih, firstOfEach, List.filter_append, List.filter_filter,
        List.cons_append]
      congr 2
      apply List.filter_congr
      intro other _
      simp [not_or]

theorem mem_map_firstOfEach (key : α → κ) (items : List α) (group : κ) :
    group ∈ (firstOfEach key items).map key ↔ group ∈ items.map key := by
  constructor
  · intro kept
    exact ((firstOfEach_sublist key items).map key).subset kept
  · intro present
    obtain ⟨item, member, same⟩ := List.mem_map.mp present
    obtain ⟨first, inside, equal⟩ := exists_firstOfEach key member
    exact List.mem_map.mpr ⟨first, inside, equal.trans same⟩

theorem firstOfEach_congr {key : α → κ} {other : α → κ'}
    (same : ∀ first ∈ items, ∀ second ∈ items,
      key first = key second ↔ other first = other second) :
    firstOfEach key items = firstOfEach other items := by
  induction items with
  | nil => rfl
  | cons item rest ih =>
      have inner := ih fun first member second inside =>
        same first (List.mem_cons_of_mem item member) second (List.mem_cons_of_mem item inside)
      rw [firstOfEach, firstOfEach, inner]
      congr 1
      apply List.filter_congr
      intro candidate member
      have inside := (firstOfEach_sublist other rest).subset member
      have equal := same candidate (List.mem_cons_of_mem item inside) item List.mem_cons_self
      by_cases hit : key candidate = key item <;> simp_all

theorem firstOfEach_eq_iff {key : α → κ} {other : α → κ'}
    (refines : ∀ first second, other first = other second → key first = key second) :
    firstOfEach key items = firstOfEach other items ↔
      ∀ first ∈ items, ∀ second ∈ items, key first = key second → other first = other second := by
  constructor
  · intro same first member second inside equal
    obtain ⟨firstKept, firstIn, firstSame⟩ := exists_firstOfEach other member
    obtain ⟨secondKept, secondIn, secondSame⟩ := exists_firstOfEach other inside
    have alike : key firstKept = key secondKept := by
      rw [refines _ _ firstSame, refines _ _ secondSame, equal]
    have one : firstKept = secondKept := by
      rw [← same] at firstIn secondIn
      exact List.inj_on_of_nodup_map (nodup_firstOfEach key items) firstIn secondIn alike
    rw [← firstSame, ← secondSame, one]
  · intro separate
    exact firstOfEach_congr fun first member second inside =>
      ⟨separate first member second inside, refines first second⟩

end First

end RagSystem
