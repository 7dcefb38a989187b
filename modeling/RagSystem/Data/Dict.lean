import Mathlib.Data.List.Lookmap
import Mathlib.Data.List.Nodup

/-! Insertion-ordered dictionaries: a key keeps the place of its first insertion and the value of
its last one. -/

universe u v

/-- The bindings in order, each key once. -/
structure Dict (κ : Type u) (β : Type v) where
  entries : List (κ × β)
  nodup : (entries.map Prod.fst).Nodup
  deriving DecidableEq, Repr

namespace Dict

variable {κ : Type u} {β : Type v} [DecidableEq κ]

def empty : Dict κ β := ⟨[], List.nodup_nil⟩

instance : Inhabited (Dict κ β) := ⟨empty⟩

instance : EmptyCollection (Dict κ β) := ⟨empty⟩

def keys (dict : Dict κ β) : List κ := dict.entries.map Prod.fst

def get? (dict : Dict κ β) (key : κ) : Option β :=
  (dict.entries.find? (fun entry => entry.1 = key)).map Prod.snd

/-- The bindings with the value at `key` replaced, in the same order. -/
def replaced (key : κ) (value : β) (entries : List (κ × β)) : List (κ × β) :=
  entries.map (fun entry => if entry.1 = key then (key, value) else entry)

theorem replaced_keys (key : κ) (value : β) (entries : List (κ × β)) :
    (replaced key value entries).map Prod.fst = entries.map Prod.fst := by
  induction entries with
  | nil => rfl
  | cons entry rest ih =>
      by_cases same : entry.1 = key
      · simp_all [replaced]
      · simp_all [replaced]

def set (dict : Dict κ β) (key : κ) (value : β) : Dict κ β :=
  if present : key ∈ dict.entries.map Prod.fst then
    ⟨replaced key value dict.entries, by rw [replaced_keys]; exact dict.nodup⟩
  else
    ⟨dict.entries ++ [(key, value)], by
      rw [List.map_append, List.nodup_append']
      refine ⟨dict.nodup, by simp, ?_⟩
      intro other member single
      obtain rfl : other = key := by simpa using single
      exact present member⟩

def erase (dict : Dict κ β) (key : κ) : Dict κ β :=
  ⟨dict.entries.filter (fun entry => entry.1 ≠ key),
    dict.nodup.sublist (List.Sublist.map Prod.fst List.filter_sublist)⟩

def setAll (dict : Dict κ β) (bindings : List (κ × β)) : Dict κ β :=
  bindings.foldl (fun dict binding => dict.set binding.1 binding.2) dict

def eraseAll (dict : Dict κ β) (keys : List κ) : Dict κ β :=
  keys.foldl erase dict

/-- A dictionary comprehension. -/
def ofList (bindings : List (κ × β)) : Dict κ β := setAll empty bindings

theorem keys_set (dict : Dict κ β) (key : κ) (value : β) :
    (dict.set key value).keys = if key ∈ dict.keys then dict.keys else dict.keys ++ [key] := by
  by_cases present : key ∈ dict.keys
  · have listed : key ∈ dict.entries.map Prod.fst := present
    rw [if_pos present, set, dif_pos listed]
    exact replaced_keys key value dict.entries
  · have missing : key ∉ dict.entries.map Prod.fst := present
    rw [if_neg present, set, dif_neg missing]
    exact List.map_append

theorem find?_replaced (key other : κ) (value : β) (entries : List (κ × β)) :
    (replaced key value entries).find? (fun entry => entry.1 = other) =
      if other = key then (entries.find? (fun entry => entry.1 = key)).map (fun _ => (key, value))
      else entries.find? (fun entry => entry.1 = other) := by
  induction entries with
  | nil => simp [replaced]
  | cons entry rest ih =>
      simp only [replaced, List.map_cons, List.find?_cons] at ih ⊢
      by_cases equal : entry.1 = key
      · by_cases same : other = key
        · simp [equal, same]
        · have differs : key ≠ other := fun reverse => same reverse.symm
          simp_all
      · by_cases same : other = key
        · simp_all
        · by_cases hit : entry.1 = other <;> simp_all

@[simp] theorem get?_empty (key : κ) : (∅ : Dict κ β).get? key = none := rfl

theorem get?_set (dict : Dict κ β) (key other : κ) (value : β) :
    (dict.set key value).get? other = if other = key then some value else dict.get? other := by
  by_cases present : key ∈ dict.entries.map Prod.fst
  · simp only [get?, set, present, dif_pos, find?_replaced]
    by_cases same : other = key
    · obtain ⟨entry, member, rfl⟩ := List.mem_map.mp present
      have found : (dict.entries.find? (fun item => item.1 = entry.1)).isSome := by
        rw [List.find?_isSome]
        exact ⟨entry, member, by simp⟩
      obtain ⟨hit, isHit⟩ := Option.isSome_iff_exists.mp found
      simp [same, isHit]
    · simp [same]
  · simp only [get?, set, present, dif_neg, not_false_eq_true, List.find?_append]
    by_cases same : other = key
    · subst same
      have missing : dict.entries.find? (fun entry => entry.1 = other) = none := by
        rw [List.find?_eq_none]
        intro entry member hit
        exact present (List.mem_map.mpr ⟨entry, member, by simpa using hit⟩)
      simp [missing]
    · have differs : key ≠ other := fun reverse => same reverse.symm
      simp [same, differs]

@[simp] theorem get?_set_self (dict : Dict κ β) (key : κ) (value : β) :
    (dict.set key value).get? key = some value := by
  simp [get?_set]

theorem get?_set_of_ne {key other : κ} (differs : other ≠ key) (dict : Dict κ β) (value : β) :
    (dict.set key value).get? other = dict.get? other := by
  simp [get?_set, differs]

theorem get?_erase (dict : Dict κ β) (key other : κ) :
    (dict.erase key).get? other = if other = key then none else dict.get? other := by
  simp only [get?, erase, List.find?_filter]
  by_cases same : other = key
  · simp [same]
  · have narrowed : (fun entry : κ × β => decide (decide (entry.1 ≠ key) = true ∧
        decide (entry.1 = other) = true)) = fun entry => decide (entry.1 = other) := by
      funext entry
      by_cases hit : entry.1 = other <;> simp [hit, same]
    rw [narrowed, if_neg same]

theorem get?_setAll (dict : Dict κ β) (bindings : List (κ × β)) (key : κ) :
    (dict.setAll bindings).get? key =
      ((bindings.reverse.find? (fun binding => binding.1 = key)).map Prod.snd).or
        (dict.get? key) := by
  induction bindings generalizing dict with
  | nil => simp [setAll]
  | cons binding rest ih =>
      have unfolded : dict.setAll (binding :: rest) = (dict.set binding.1 binding.2).setAll rest :=
        rfl
      rw [unfolded, ih, get?_set, List.reverse_cons, List.find?_append]
      by_cases same : key = binding.1
      · cases later : rest.reverse.find? (fun binding => binding.1 = key) <;> simp_all
      · have differs : binding.1 ≠ key := fun reverse => same reverse.symm
        simp [same, differs]

theorem setAll_append (dict : Dict κ β) (first second : List (κ × β)) :
    dict.setAll (first ++ second) = (dict.setAll first).setAll second := by
  simp [setAll]

theorem eraseAll_append (dict : Dict κ β) (first second : List κ) :
    dict.eraseAll (first ++ second) = (dict.eraseAll first).eraseAll second := by
  simp [eraseAll]

theorem get?_eraseAll (dict : Dict κ β) (keys : List κ) (key : κ) :
    (dict.eraseAll keys).get? key = if key ∈ keys then none else dict.get? key := by
  induction keys generalizing dict with
  | nil => simp [eraseAll]
  | cons head rest ih =>
      have unfolded : dict.eraseAll (head :: rest) = (dict.erase head).eraseAll rest := rfl
      rw [unfolded, ih, get?_erase]
      by_cases same : key = head <;> by_cases later : key ∈ rest <;> simp [same, later]

theorem mem_entries_iff (dict : Dict κ β) (key : κ) (value : β) :
    (key, value) ∈ dict.entries ↔ dict.get? key = some value := by
  simp only [get?, Option.map_eq_some_iff]
  constructor
  · intro member
    have found : (dict.entries.find? (fun entry => entry.1 = key)).isSome := by
      rw [List.find?_isSome]
      exact ⟨_, member, by simp⟩
    obtain ⟨hit, isHit⟩ := Option.isSome_iff_exists.mp found
    have same : hit.1 = key := by simpa using List.find?_some isHit
    have equal : hit = (key, value) :=
      List.inj_on_of_nodup_map dict.nodup (List.mem_of_find?_eq_some isHit) member same
    exact ⟨hit, isHit, by rw [equal]⟩
  · intro given
    rcases given with ⟨entry, found, rfl⟩
    have same : entry.1 = key := by simpa using List.find?_some found
    rw [← same]
    exact List.mem_of_find?_eq_some found

theorem mem_keys_iff (dict : Dict κ β) (key : κ) :
    key ∈ dict.keys ↔ ∃ value, dict.get? key = some value := by
  simp only [keys, List.mem_map, Prod.exists, ← mem_entries_iff]
  constructor
  · intro given
    rcases given with ⟨other, value, member, rfl⟩
    exact ⟨value, member⟩
  · intro given
    rcases given with ⟨value, member⟩
    exact ⟨key, value, member, rfl⟩

theorem get?_eq_none_of_not_mem {dict : Dict κ β} {key : κ} (missing : key ∉ dict.keys) :
    dict.get? key = none := by
  rw [Option.eq_none_iff_forall_ne_some]
  intro value found
  exact missing ((mem_keys_iff dict key).mpr ⟨value, found⟩)

theorem get?_setAll_of_not_mem {bindings : List (κ × β)} {key : κ}
    (absent : ∀ binding ∈ bindings, binding.1 ≠ key) (dict : Dict κ β) :
    (dict.setAll bindings).get? key = dict.get? key := by
  have missing : bindings.reverse.find? (fun binding => binding.1 = key) = none := by
    rw [List.find?_eq_none]
    intro binding member
    simpa using absent binding (List.mem_reverse.mp member)
  simp [get?_setAll, missing]

theorem exists_last_binding {bindings : List (κ × β)} {key : κ}
    (written : ∃ binding ∈ bindings, binding.1 = key) :
    ∃ last, bindings.reverse.find? (fun binding => binding.1 = key) = some last := by
  rcases written with ⟨binding, member, same⟩
  apply Option.isSome_iff_exists.mp
  rw [List.find?_isSome]
  exact ⟨binding, List.mem_reverse.mpr member, by simpa using same⟩

theorem get?_setAll_of_mem {bindings : List (κ × β)} {key : κ}
    (present : ∃ binding ∈ bindings, binding.1 = key) (dict : Dict κ β) :
    ∃ value, (key, value) ∈ bindings ∧ (dict.setAll bindings).get? key = some value := by
  rcases exists_last_binding present with ⟨hit, isHit⟩
  have key_eq : hit.1 = key := by simpa using List.find?_some isHit
  refine ⟨hit.2, ?_, by simp [get?_setAll, isHit]⟩
  rw [← key_eq]
  exact List.mem_reverse.mp (List.mem_of_find?_eq_some isHit)

theorem get?_setAll_of_written {bindings : List (κ × β)} {key : κ}
    (written : ∃ binding ∈ bindings, binding.1 = key) (first second : Dict κ β) :
    (first.setAll bindings).get? key = (second.setAll bindings).get? key := by
  rcases exists_last_binding written with ⟨last, found⟩
  calc
    (first.setAll bindings).get? key = some last.2 := by simp [get?_setAll, found]
    _ = (second.setAll bindings).get? key := by simp [get?_setAll, found]

theorem get?_setAll_of_agree {bindings : List (κ × β)} {key : κ} {value : β}
    (member : (key, value) ∈ bindings)
    (agree : ∀ other, (key, other) ∈ bindings → other = value) (dict : Dict κ β) :
    (dict.setAll bindings).get? key = some value := by
  obtain ⟨stored, inside, found⟩ := get?_setAll_of_mem ⟨_, member, rfl⟩ dict
  rw [found, agree stored inside]

theorem mem_of_get?_ofList {bindings : List (κ × β)} {key : κ} {value : β}
    (found : (ofList bindings).get? key = some value) : (key, value) ∈ bindings := by
  by_cases present : ∃ binding ∈ bindings, binding.1 = key
  · obtain ⟨stored, inside, same⟩ := get?_setAll_of_mem present (∅ : Dict κ β)
    have equal : value = stored := Option.some.inj (found.symm.trans same)
    exact equal ▸ inside
  · push Not at present
    have missing := get?_setAll_of_not_mem present (∅ : Dict κ β)
    have absurdity : some value = none := found.symm.trans missing
    contradiction

theorem exists_get?_ofList {bindings : List (κ × β)} {key : κ} :
    (∃ value, (ofList bindings).get? key = some value) ↔ ∃ binding ∈ bindings, binding.1 = key := by
  constructor
  · intro given
    rcases given with ⟨value, found⟩
    exact ⟨_, mem_of_get?_ofList found, rfl⟩
  · intro present
    obtain ⟨value, -, found⟩ := get?_setAll_of_mem present (∅ : Dict κ β)
    exact ⟨value, found⟩

theorem get?_setAll_ofList (dict : Dict κ β) (bindings : List (κ × β)) (key : κ) :
    (dict.setAll bindings).get? key = ((ofList bindings).get? key).or (dict.get? key) := by
  have alone : (ofList bindings).get? key =
      ((bindings.reverse.find? (fun binding => binding.1 = key)).map Prod.snd).or none :=
    get?_setAll ∅ bindings key
  rw [get?_setAll, alone, Option.or_none]

theorem get?_setAll_entries (dict other : Dict κ β) (key : κ) :
    (dict.setAll other.entries).get? key = (other.get? key).or (dict.get? key) := by
  cases found : other.get? key with
  | none =>
      refine get?_setAll_of_not_mem ?_ dict
      intro given member also
      rcases given with ⟨bound, value⟩
      rcases also with rfl
      rw [(mem_entries_iff other bound value).mp member] at found
      cases found
  | some value =>
      refine get?_setAll_of_agree ((mem_entries_iff other key value).mpr found) ?_ dict
      intro stored member
      rw [mem_entries_iff, found] at member
      exact (Option.some.inj member).symm

theorem entries_setAll (dict : Dict κ β) {bindings : List (κ × β)}
    (nodup : ((dict.entries ++ bindings).map Prod.fst).Nodup) :
    (dict.setAll bindings).entries = dict.entries ++ bindings := by
  induction bindings generalizing dict with
  | nil => exact (List.append_nil _).symm
  | cons binding rest ih =>
      have absent : binding.1 ∉ dict.entries.map Prod.fst := by
        rw [List.map_append, List.nodup_append'] at nodup
        exact fun member => nodup.2.2 member (List.mem_map_of_mem List.mem_cons_self)
      have appended : (dict.set binding.1 binding.2).entries = dict.entries ++ [binding] := by
        simp [set, absent]
      have unfolded : dict.setAll (binding :: rest) = (dict.set binding.1 binding.2).setAll rest :=
        rfl
      rw [unfolded, ih _ (by simpa [appended] using nodup), appended]
      simp

theorem ofList_entries (dict : Dict κ β) : ofList dict.entries = dict := by
  have entries : (ofList dict.entries).entries = dict.entries :=
    entries_setAll empty dict.nodup
  generalize ofList dict.entries = made at entries ⊢
  cases made
  cases dict
  cases entries
  rfl

@[simp] theorem get?_ofList_entries (dict : Dict κ β) (key : κ) :
    (ofList dict.entries).get? key = dict.get? key := by
  unfold ofList
  rw [get?_setAll_entries]
  exact Option.or_none

theorem get?_ofList_singleton (key other : κ) (value : β) :
    (ofList [(key, value)]).get? other = if other = key then some value else none :=
  get?_set ∅ key other value

def mapValues (change : β → β) (dict : Dict κ β) : Dict κ β :=
  ⟨dict.entries.map (fun entry => (entry.1, change entry.2)), by
    rw [List.map_map]
    exact dict.nodup⟩

@[simp] theorem get?_mapValues (change : β → β) (dict : Dict κ β) (key : κ) :
    (dict.mapValues change).get? key = (dict.get? key).map change := by
  simp [get?, mapValues, List.find?_map, Function.comp_def]

omit [DecidableEq κ] in
theorem nodup_keys (dict : Dict κ β) : dict.keys.Nodup := dict.nodup

theorem perm_keys {first second : Dict κ β} (same : ∀ key, first.get? key = second.get? key) :
    first.keys.Perm second.keys := by
  rw [List.perm_ext_iff_of_nodup first.nodup_keys second.nodup_keys]
  intro key
  rw [mem_keys_iff, mem_keys_iff, same]

/-! ### Sizes -/

def size (dict : Dict κ β) : Nat := dict.keys.length

theorem keys_erase (dict : Dict κ β) (key : κ) :
    (dict.erase key).keys = dict.keys.filter (· ≠ key) := by
  rw [keys, keys, erase, List.filter_map]
  rfl

theorem keys_eraseAll (dict : Dict κ β) (gone : List κ) :
    (dict.eraseAll gone).keys = dict.keys.filter (· ∉ gone) := by
  induction gone generalizing dict with
  | nil => simp [eraseAll]
  | cons key gone ih =>
      have first : dict.eraseAll (key :: gone) = (dict.erase key).eraseAll gone := rfl
      rw [first, ih, keys_erase, List.filter_filter]
      apply List.filter_congr
      intro other _
      simp [Bool.and_comm]

theorem size_eraseAll (dict : Dict κ β) (gone : List κ) (distinct : gone.Nodup)
    (inside : ∀ key ∈ gone, key ∈ dict.keys) :
    (dict.eraseAll gone).size + gone.length = dict.size := by
  have split := (List.filter_append_perm (fun key => decide (key ∉ gone)) dict.keys).length_eq
  have taken : (dict.keys.filter (fun key => !decide (key ∉ gone))).Perm gone := by
    rw [List.perm_ext_iff_of_nodup (dict.nodup_keys.filter _) distinct]
    intro key
    simp only [List.mem_filter, decide_not, Bool.not_not, decide_eq_true_eq]
    exact ⟨fun both => both.2, fun member => ⟨inside key member, member⟩⟩
  rw [List.length_append, taken.length_eq] at split
  rw [size, keys_eraseAll]
  exact split

theorem size_eraseAll_le (dict : Dict κ β) (gone : List κ) :
    (dict.eraseAll gone).size ≤ dict.size := by
  rw [size, keys_eraseAll]
  exact List.length_filter_le _ _

end Dict
