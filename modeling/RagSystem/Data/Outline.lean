import Mathlib.Data.List.Induction
import Mathlib.Order.Lattice

/-! Forests of labelled nodes in document order, and the outline that a level for each label
determines: a node goes under the nearest one before it with a smaller level. -/

universe u v

/-- A list of nodes: the label of the first one, the nodes under it, and the nodes after it. -/
inductive Outline (α : Type u)
  | nil
  | cons (label : α) (children next : Outline α)
  deriving DecidableEq, Repr

namespace Outline

variable {α : Type u}

def size : Outline α → Nat
  | nil => 0
  | cons _ children next => children.size + next.size + 1

def preorder : Outline α → List α
  | nil => []
  | cons label children next => label :: (children.preorder ++ next.preorder)

/-- The place in the traversal of each node's parent, where the traversal starts at place `start`
and the outermost nodes hang under `above`. -/
def parentsFrom (above : Option Nat) (start : Nat) : Outline α → List (Option Nat)
  | nil => []
  | cons _ children next =>
      above :: (children.parentsFrom (some start) (start + 1) ++
        next.parentsFrom above (start + 1 + children.size))

/-- For each node in the order of the traversal the place of its parent, if it has one. -/
def parents (outline : Outline α) : List (Option Nat) := outline.parentsFrom none 0

theorem length_preorder (outline : Outline α) : outline.preorder.length = outline.size := by
  induction outline with
  | nil => rfl
  | cons label children next under after => simp [preorder, size, under, after]

theorem length_parentsFrom (above : Option Nat) (start : Nat) (outline : Outline α) :
    (outline.parentsFrom above start).length = outline.size := by
  induction outline generalizing above start with
  | nil => rfl
  | cons label children next under after => simp [parentsFrom, size, under, after]

/-! ### Children -/

/-- The outermost labels. -/
def roots : Outline α → List α
  | nil => []
  | cons label _ next => label :: next.roots

/-- The labels directly under the first node, in the order of the traversal, that is wanted. -/
def childrenOf (wanted : α → Bool) : Outline α → Option (List α)
  | nil => none
  | cons label children next =>
      if wanted label then some children.roots
      else (children.childrenOf wanted).or (next.childrenOf wanted)

/-- The labels whose parent is at the place. -/
def hanging (place : Option Nat) (labels : List α) (parents : List (Option Nat)) : List α :=
  ((labels.zip parents).filter (fun item => item.2 = place)).map Prod.fst

theorem hanging_cons (place : Option Nat) (label : α) (labels : List α) (parent : Option Nat)
    (parents : List (Option Nat)) :
    hanging place (label :: labels) (parent :: parents) =
      (if parent = place then [label] else []) ++ hanging place labels parents := by
  by_cases same : parent = place <;> simp [hanging, same]

theorem hanging_append {place : Option Nat} {first second : List α}
    {parents others : List (Option Nat)} (length : first.length = parents.length) :
    hanging place (first ++ second) (parents ++ others) =
      hanging place first parents ++ hanging place second others := by
  simp [hanging, List.zip_append length]

theorem length_preorder_eq (above : Option Nat) (start : Nat) (outline : Outline α) :
    outline.preorder.length = (outline.parentsFrom above start).length := by
  rw [length_preorder, length_parentsFrom]

theorem hanging_parentsFrom_cons (place above : Option Nat) (start : Nat) (label : α)
    (children next : Outline α) :
    hanging place (cons label children next).preorder
        ((cons label children next).parentsFrom above start) =
      (if above = place then [label] else []) ++
        (hanging place children.preorder (children.parentsFrom (some start) (start + 1)) ++
          hanging place next.preorder
            (next.parentsFrom above (start + 1 + children.size))) := by
  rw [preorder, parentsFrom, hanging_cons, hanging_append (length_preorder_eq _ _ _)]

theorem hanging_outside (place above : Option Nat) (start : Nat) (outline : Outline α)
    (elsewhere : above ≠ place)
    (outside : ∀ inside, place = some inside → inside < start ∨ start + outline.size ≤ inside) :
    hanging place outline.preorder (outline.parentsFrom above start) = [] := by
  induction outline generalizing above start with
  | nil => rfl
  | cons label children next under after =>
      rw [size] at outside
      have below : some start ≠ place := by
        intro given
        rcases given with rfl
        have wrong := outside start rfl
        omega
      rw [hanging_parentsFrom_cons, if_neg elsewhere, under _ _ below, after _ _ elsewhere]
      · rfl
      · intro inside same
        have bounds := outside inside same
        omega
      · intro inside same
        have bounds := outside inside same
        omega

theorem hanging_beside {place start : Nat} {above : Option Nat} (outline : Outline α)
    (elsewhere : above ≠ some place) (outside : place < start ∨ start + outline.size ≤ place) :
    hanging (some place) outline.preorder (outline.parentsFrom above start) = [] := by
  apply hanging_outside _ _ _ _ elsewhere
  intro inside same
  rw [← Option.some.inj same]
  exact outside

theorem hanging_above (above : Option Nat) (start : Nat) (outline : Outline α)
    (earlier : ∀ place, above = some place → place < start) :
    hanging above outline.preorder (outline.parentsFrom above start) = outline.roots := by
  induction outline generalizing start with
  | nil => rfl
  | cons label children next _ after =>
      have apart : some start ≠ above := by
        intro given
        rcases given with rfl
        exact absurd (earlier start rfl) (Nat.lt_irrefl start)
      have inner : hanging above children.preorder
          (children.parentsFrom (some start) (start + 1)) = [] := by
        apply hanging_outside _ _ _ _ apart
        intro inside same
        have before := earlier inside same
        omega
      rw [hanging_parentsFrom_cons, if_pos rfl, inner, after, roots]
      · rfl
      · intro place same
        have before := earlier place same
        omega

theorem childrenOf_eq (wanted : α → Bool) (above : Option Nat) (start : Nat) (outline : Outline α)
    (earlier : ∀ place, above = some place → place < start) :
    outline.childrenOf wanted = (outline.preorder.findIdx? wanted).map (fun place =>
      hanging (some (start + place)) outline.preorder (outline.parentsFrom above start)) := by
  induction outline generalizing above start with
  | nil => rfl
  | cons label children next under after =>
      have elsewhere (place : Nat) (behind : start ≤ place) : above ≠ some place := by
        intro same
        have before := earlier place same
        omega
      have own (place : Nat) (same : some start = some place) : place < start + 1 := by
        have equal := Option.some.inj same
        omega
      have later (place : Nat) (same : above = some place) :
          place < start + 1 + children.size := by
        have before := earlier place same
        omega
      rw [childrenOf, preorder, List.findIdx?_cons]
      by_cases found : wanted label
      · have behind : hanging (some start) next.preorder
            (next.parentsFrom above (start + 1 + children.size)) = [] :=
          hanging_beside next (elsewhere start le_rfl) (by omega)
        rw [if_pos found, if_pos found, Option.map_some, Nat.add_zero, ← preorder,
          hanging_parentsFrom_cons, if_neg (elsewhere start le_rfl), hanging_above _ _ _ own,
          behind]
        simp
      · rw [if_neg found, if_neg found, under _ _ own, after _ _ later, List.findIdx?_append,
          ← preorder]
        simp only [hanging_parentsFrom_cons]
        cases inside : children.preorder.findIdx? wanted with
        | some place =>
            have bound := (List.findIdx?_eq_some_iff_findIdx_eq.mp inside).1
            rw [length_preorder] at bound
            have behind : hanging (some (start + (place + 1))) next.preorder
                (next.parentsFrom above (start + 1 + children.size)) = [] :=
              hanging_beside next (elsewhere _ (by omega)) (by omega)
            simp only [Option.map_some, Option.some_or, if_neg (elsewhere _ (by omega : start ≤
              start + (place + 1))), behind, List.nil_append, List.append_nil]
            rw [Nat.add_assoc, Nat.add_comm 1 place]
        | none =>
            cases behind : next.preorder.findIdx? wanted with
            | none => rfl
            | some place =>
                have under : hanging (some (start + (place + children.preorder.length + 1)))
                    children.preorder (children.parentsFrom (some start) (start + 1)) = [] := by
                  rw [length_preorder]
                  apply hanging_beside children
                  · intro same
                    have equal := Option.some.inj same
                    omega
                  · omega
                simp only [Option.map_some, Option.map_none, Option.none_or,
                  if_neg (elsewhere _ (by omega : start ≤
                    start + (place + children.preorder.length + 1))), under, List.nil_append]
                rw [length_preorder]
                congr 3
                omega

section Levels

variable {ι : Type v} [LinearOrder ι] (level : α → ι)

/-- The place of the last label below the given level, counted from `start`. -/
def nearestFrom (start : Nat) (bound : ι) : List α → Option Nat
  | [] => none
  | label :: rest =>
      (nearestFrom (start + 1) bound rest).or (if level label < bound then some start else none)

/-- The place of the nearest of the earlier labels that has a smaller level. -/
def nearest (earlier : List α) (label : α) : Option Nat := nearestFrom level 0 (level label) earlier

/-- The label added at the end, as deep as the levels of the last nodes let it. -/
def insert (label : α) : Outline α → Outline α
  | nil => cons label nil nil
  | cons last children nil =>
      if level last < level label then cons last (insert label children) nil
      else cons last children (cons label nil nil)
  | cons first children (cons second below next) =>
      cons first children (insert label (cons second below next))

/-- Below a node the levels are greater than its own, and after it no sibling's level is. -/
def Layered : Outline α → Prop
  | nil => True
  | cons label children next =>
      (∀ other ∈ children.preorder, level label < level other) ∧
        (∀ other ∈ next.preorder.head?, level other ≤ level label) ∧
        Layered children ∧ Layered next

def ofLabels (labels : List α) : Outline α :=
  labels.foldl (fun outline label => insert level label outline) nil

theorem ofLabels_snoc (labels : List α) (label : α) :
    ofLabels level (labels ++ [label]) = insert level label (ofLabels level labels) := by
  rw [ofLabels, List.foldl_append]
  rfl

theorem insert_ne_nil (label : α) (outline : Outline α) : insert level label outline ≠ nil := by
  fun_cases insert level label outline <;> simp [*]

theorem preorder_insert (label : α) (outline : Outline α) :
    (insert level label outline).preorder = outline.preorder ++ [label] := by
  fun_induction insert level label outline with
  | case1 => rfl
  | case2 last children deeper under => simp [preorder, under]
  | case3 last children flat => simp [preorder]
  | case4 first children second below next after =>
      rw [preorder, after]
      simp [preorder]

theorem nearestFrom_eq_none_iff {start : Nat} {bound : ι} {labels : List α} :
    nearestFrom level start bound labels = none ↔ ∀ label ∈ labels, bound ≤ level label := by
  induction labels generalizing start with
  | nil => simp [nearestFrom]
  | cons label rest ih =>
      rw [nearestFrom, Option.or_eq_none_iff, ih, List.forall_mem_cons, and_comm]
      by_cases lower : level label < bound
      · simp [lower, not_le.mpr lower]
      · simp [lower, not_lt.mp lower]

theorem nearestFrom_append (start : Nat) (bound : ι) (first second : List α) :
    nearestFrom level start bound (first ++ second) =
      (nearestFrom level (start + first.length) bound second).or
        (nearestFrom level start bound first) := by
  induction first generalizing start with
  | nil => simp [nearestFrom]
  | cons label rest ih =>
      have moved : start + 1 + rest.length = start + (rest.length + 1) := by omega
      rw [List.cons_append, nearestFrom, nearestFrom, ih, Option.or_assoc, List.length_cons, moved]

/-- The place of the parent among the earlier labels: its level is smaller, and everything between
it and the new label is as high as that. Without a parent, everything is. -/
def NearestSmaller (earlier : List α) (label : α) : Option Nat → Prop
  | none => ∀ other ∈ earlier, level label ≤ level other
  | some place => ∃ before parent between, earlier = before ++ parent :: between ∧
      before.length = place ∧ level parent < level label ∧
      ∀ other ∈ between, level label ≤ level other

theorem NearestSmaller.snoc {earlier : List α} {label last : α} {parent : Option Nat}
    (known : NearestSmaller level earlier label parent) (high : level label ≤ level last) :
    NearestSmaller level (earlier ++ [last]) label parent := by
  cases parent with
  | none => exact List.forall_mem_append.mpr ⟨known, by simpa using high⟩
  | some place =>
      obtain ⟨before, parent, between, rfl, placed, smaller, higher⟩ := known
      refine ⟨before, parent, between ++ [last], by simp, placed, smaller, ?_⟩
      exact List.forall_mem_append.mpr ⟨higher, by simpa using high⟩

theorem nearest_spec (earlier : List α) (label : α) :
    NearestSmaller level earlier label (nearest level earlier label) := by
  induction earlier using List.reverseRecOn with
  | nil => simp [nearest, nearestFrom, NearestSmaller]
  | append_singleton earlier last ih =>
      rw [nearest, nearestFrom_append]
      by_cases lower : level last < level label
      · have found : nearestFrom level (0 + earlier.length) (level label) [last] =
            some earlier.length := by simp [nearestFrom, lower]
        rw [found]
        exact ⟨earlier, last, [], rfl, rfl, lower, by simp⟩
      · have missing : nearestFrom level (0 + earlier.length) (level label) [last] = none := by
          simp [nearestFrom, lower]
        rw [missing, Option.none_or]
        exact ih.snoc level (not_lt.mp lower)

theorem layered_insert {label : α} {outline : Outline α} (layered : Layered level outline) :
    Layered level (insert level label outline) := by
  fun_induction insert level label outline with
  | case1 => simp [Layered, preorder]
  | case2 last children deeper under =>
      obtain ⟨below, follows, inner, rest⟩ := layered
      refine ⟨?_, follows, under inner, rest⟩
      intro other member
      rw [preorder_insert, List.mem_append, List.mem_singleton] at member
      rcases member with inside | rfl
      · exact below other inside
      · exact deeper
  | case3 last children flat =>
      obtain ⟨below, -, inner, -⟩ := layered
      refine ⟨below, ?_, inner, by simp [Layered, preorder]⟩
      intro other isHead
      obtain rfl : label = other := by simpa [preorder] using isHead
      exact not_lt.mp flat
  | case4 first children second under next after =>
      obtain ⟨below, follows, inner, rest⟩ := layered
      refine ⟨below, ?_, inner, after rest⟩
      intro other isHead
      apply follows other
      rw [preorder_insert] at isHead
      simpa [preorder] using isHead

theorem parentsFrom_insert (label : α) {outline : Outline α} (layered : Layered level outline)
    (above : Option Nat) (start : Nat) :
    (insert level label outline).parentsFrom above start = outline.parentsFrom above start ++
      [(nearestFrom level start (level label) outline.preorder).or above] := by
  fun_induction insert level label outline generalizing above start with
  | case1 => simp [parentsFrom, nearestFrom, preorder]
  | case2 last children deeper under =>
      rw [parentsFrom, under layered.2.2.1]
      simp [parentsFrom, preorder, nearestFrom, deeper]
  | case3 last children flat =>
      have high : ∀ other ∈ last :: children.preorder, level label ≤ level other := by
        intro other member
        rcases List.mem_cons.mp member with rfl | inside
        · exact not_lt.mp flat
        · exact (not_lt.mp flat).trans (layered.1 other inside).le
      have missing : nearestFrom level start (level label) (last :: children.preorder) = none :=
        (nearestFrom_eq_none_iff level).mpr high
      simp only [preorder, List.append_nil, missing, Option.none_or]
      simp [parentsFrom]
  | case4 first children second under next after =>
      obtain ⟨below, follows, inner, rest⟩ := layered
      have lower : level second ≤ level first := follows second (by simp [preorder])
      -- a label above the second sibling is above the first one and all that hangs under it
      have same : (nearestFrom level start (level label)
          (cons first children (cons second under next)).preorder).or above =
          (nearestFrom level (start + 1 + children.size) (level label)
            (cons second under next).preorder).or above := by
        rw [preorder, ← List.cons_append, nearestFrom_append, List.length_cons, length_preorder,
          Nat.add_comm children.size 1, ← Nat.add_assoc]
        cases found : nearestFrom level (start + 1 + children.size) (level label)
            (cons second under next).preorder with
        | some place => rfl
        | none =>
            have least : level label ≤ level second :=
              (nearestFrom_eq_none_iff level).mp found second (by simp [preorder])
            have high : ∀ other ∈ first :: children.preorder, level label ≤ level other := by
              intro other member
              rcases List.mem_cons.mp member with rfl | inside
              · exact least.trans lower
              · calc
                  level label ≤ level second := least
                  _ ≤ level first := lower
                  _ ≤ level other := (below other inside).le
            rw [(nearestFrom_eq_none_iff level).mpr high, Option.none_or]
      rw [parentsFrom, after rest, same]
      simp [parentsFrom]

theorem preorder_ofLabels (labels : List α) : (ofLabels level labels).preorder = labels := by
  induction labels using List.reverseRecOn with
  | nil => rfl
  | append_singleton labels label ih => rw [ofLabels_snoc, preorder_insert, ih]

theorem layered_ofLabels (labels : List α) : Layered level (ofLabels level labels) := by
  induction labels using List.reverseRecOn with
  | nil => trivial
  | append_singleton labels label ih =>
      rw [ofLabels_snoc]
      exact layered_insert level ih

theorem parents_ofLabels_snoc (labels : List α) (label : α) :
    (ofLabels level (labels ++ [label])).parents =
      (ofLabels level labels).parents ++ [nearest level labels label] := by
  have grown := parentsFrom_insert level label (layered_ofLabels level labels) none 0
  rw [preorder_ofLabels, Option.or_none] at grown
  rw [ofLabels_snoc]
  exact grown

theorem parents_ofLabels_append (first second : List α) :
    ∃ later, (ofLabels level (first ++ second)).parents =
      (ofLabels level first).parents ++ later := by
  induction second using List.reverseRecOn with
  | nil => exact ⟨[], by simp⟩
  | append_singleton second label ih =>
      obtain ⟨later, known⟩ := ih
      refine ⟨later ++ [nearest level (first ++ second) label], ?_⟩
      rw [← List.append_assoc, parents_ofLabels_snoc, known, List.append_assoc]

theorem parents_ofLabels (before : List α) (label : α) (after : List α) :
    (ofLabels level (before ++ label :: after)).parents[before.length]? =
      some (nearest level before label) := by
  have counted : (ofLabels level before).parents.length = before.length := by
    rw [parents, length_parentsFrom, ← length_preorder, preorder_ofLabels]
  obtain ⟨later, extended⟩ := parents_ofLabels_append level (before ++ [label]) after
  have regrouped : before ++ label :: after = (before ++ [label]) ++ after := by simp
  rw [regrouped, extended, parents_ofLabels_snoc, ← counted]
  simp

theorem parents_ofLabels_eq (labels : List α) :
    (ofLabels level labels).parents =
      labels.zipIdx.map (fun item => nearest level (labels.take item.2) item.1) := by
  apply List.ext_getElem?
  intro place
  rw [List.getElem?_map, List.getElem?_zipIdx]
  cases found : labels[place]? with
  | none =>
      have outside := List.getElem?_eq_none_iff.mp found
      rw [Option.map_none, Option.map_none, List.getElem?_eq_none_iff, parents, length_parentsFrom,
        ← length_preorder, preorder_ofLabels]
      exact outside
  | some label =>
      obtain ⟨inside, same⟩ := List.getElem?_eq_some_iff.mp found
      have counted : (labels.take place).length = place := by
        rw [List.length_take]
        omega
      have split : labels = labels.take place ++ label :: labels.drop (place + 1) := by
        rw [← same, ← List.drop_eq_getElem_cons inside, List.take_append_drop]
      have parent := parents_ofLabels level (labels.take place) label (labels.drop (place + 1))
      rw [← split, counted] at parent
      simp [parent]

/-- The labels whose nearest smaller one before them is at the place. -/
def belowPlace (labels : List α) (place : Nat) : List α :=
  (labels.zipIdx.filter (fun item => nearest level (labels.take item.2) item.1 = some place)).map
    Prod.fst

theorem hanging_ofLabels (labels : List α) (place : Nat) :
    hanging (some place) labels (ofLabels level labels).parents =
      belowPlace level labels place := by
  rw [parents_ofLabels_eq, hanging, belowPlace]
  have paired : labels.zip (labels.zipIdx.map (fun item =>
        nearest level (labels.take item.2) item.1)) =
      labels.zipIdx.map (fun item =>
        (item.1, nearest level (labels.take item.2) item.1)) := by
    have labelled : labels = labels.zipIdx.map Prod.fst := (List.zipIdx_map_fst 0 labels).symm
    nth_rewrite 1 [labelled]
    exact List.zip_map'
  rw [paired, List.filter_map, List.map_map]
  rfl

theorem childrenOf_ofLabels (wanted : α → Bool) (labels : List α) :
    (ofLabels level labels).childrenOf wanted =
      (labels.findIdx? wanted).map (belowPlace level labels) := by
  have children := childrenOf_eq wanted none 0 (ofLabels level labels) (by simp)
  simp only [Nat.zero_add, preorder_ofLabels] at children
  rw [children]
  apply congrArg (fun record => (labels.findIdx? wanted).map record)
  funext place
  exact hanging_ofLabels level labels place

end Levels

end Outline
