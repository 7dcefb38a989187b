import Mathlib.Data.Multiset.Sort
import RagSystem.Data.StableSort
import RagSystem.Etl.CommunityDetector

/-! The communities are the components of the graph, and the order of what is given decides only
on the order of what is found. -/

namespace RagSystem.Etl.GraphCommunities

open Components

universe u

variable {ρ : Type u}

def known (entities : List Entity) : List String := entities.map Entity.eid

def Relationship.Joins (rel : Relationship ρ) (first second : String) : Prop :=
  rel.source.getD "" = first ∧ rel.target.getD "" = second ∨
    rel.source.getD "" = second ∧ rel.target.getD "" = first

instance (rel : Relationship ρ) (first second : String) : Decidable (rel.Joins first second) :=
  inferInstanceAs (Decidable (_ ∨ _))

def Connects (entities : List Entity) (relationships : List (Relationship ρ))
    (first second : String) : Prop :=
  first ∈ known entities ∧ second ∈ known entities ∧
    ∃ rel ∈ relationships, rel.Joins first second

instance (entities : List Entity) (relationships : List (Relationship ρ))
    (first second : String) : Decidable (Connects entities relationships first second) :=
  inferInstanceAs (Decidable (_ ∧ _ ∧ _))

/-- A path of relations between known entities. -/
def Reaches (entities : List Entity) (relationships : List (Relationship ρ)) :
    String → String → Prop :=
  Relation.ReflTransGen (Connects entities relationships)

def degree (entities : List Entity) (relationships : List (Relationship ρ))
    (members : Multiset String) (eid : String) : Nat :=
  (members.filter (Connects entities relationships eid)).card

def Relationship.Between (members : Multiset String) (rel : Relationship ρ) : Prop :=
  (∃ source ∈ rel.source, source ∈ members) ∧ ∃ target ∈ rel.target, target ∈ members

instance (members : Multiset String) (rel : Relationship ρ) : Decidable (rel.Between members) :=
  inferInstanceAs (Decidable ((∃ _ ∈ _, _) ∧ ∃ _ ∈ _, _))

/-- What a community says whatever the order of its members and relations and its own place among
the communities: of its key entities there remains how many members each is joined to. -/
structure Content (ρ : Type u) where
  level : Nat
  members : Multiset String
  summary : String
  keyDegrees : List Nat
  relationships : Multiset (Relationship ρ)
  size : Nat

def content (entities : List Entity) (relationships : List (Relationship ρ))
    (community : Community ρ) : Content ρ where
  level := community.level
  members := community.members
  summary := community.summary
  keyDegrees := community.keyEntities.map (degree entities relationships community.members)
  relationships := community.relationships
  size := community.size

/-- The communities are the components that are large enough, with the relations between their
members and the five members that are joined to the most. -/
structure Detected (detector : CommunityDetector) (entities : List Entity)
    (relationships : List (Relationship ρ)) (found : List (Community ρ)) : Prop where
  classes : ∀ members : Multiset String,
    members ∈ found.map (fun community => Multiset.ofList community.members) ↔
      members.Nodup ∧ detector.minCommunitySize ≤ members.card ∧
        ∃ eid ∈ known entities, ∀ other, other ∈ members ↔ Reaches entities relationships eid other
  once : (found.flatMap Community.members).Nodup
  numbered : found.map Community.id =
    (List.range found.length).map (fun index => s!"community_{index}")
  listed : ∀ community ∈ found, community.relationships =
    relationships.filter (fun rel => rel.Between community.members)
  apart : found.Pairwise (fun first second => first.relationships.Disjoint second.relationships)
  keys : ∀ community ∈ found, community.keyEntities.Nodup ∧
    community.keyEntities.length = min 5 community.members.length ∧
    ∀ eid ∈ community.keyEntities, eid ∈ community.members ∧
      ∀ other ∈ community.members, other ∉ community.keyEntities →
        degree entities relationships community.members other ≤
          degree entities relationships community.members eid

section Adjacencies

variable {adj : Adjacency} {entities : List Entity} {relationships : List (Relationship ρ)}
  {rel : Relationship ρ} {key other first second : String}

theorem mem_keys_addEntity {entity : Entity} :
    key ∈ (addEntity adj entity).keys ↔ key ∈ adj.keys ∨ key = entity.eid := by
  rw [addEntity]
  by_cases present : entity.eid ∈ adj.keys
  · rw [if_pos present]
    constructor
    · exact Or.inl
    · intro given
      rcases given with old | rfl
      · exact old
      · exact present
  · rw [if_neg present, Dict.keys_set, if_neg present, List.mem_append, List.mem_singleton]

theorem neighbourSet_addEntity {entity : Entity} :
    neighbourSet (addEntity adj entity) key = neighbourSet adj key := by
  rw [addEntity]
  by_cases present : entity.eid ∈ adj.keys
  · rw [if_pos present]
  · rw [if_neg present, neighbourSet, neighbourSet, Dict.get?_set]
    by_cases same : key = entity.eid
    · rw [if_pos same, same, Dict.get?_eq_none_of_not_mem present]
      rfl
    · rw [if_neg same]

theorem mem_keys_foldl_addEntity :
    key ∈ (entities.foldl addEntity adj).keys ↔ key ∈ adj.keys ∨ key ∈ known entities := by
  induction entities generalizing adj with
  | nil => simp [known]
  | cons entity rest ih =>
      rw [List.foldl_cons, ih, mem_keys_addEntity, known, known, List.map_cons, List.mem_cons,
        or_assoc]

theorem neighbourSet_foldl_addEntity :
    neighbourSet (entities.foldl addEntity adj) key = neighbourSet adj key := by
  induction entities generalizing adj with
  | nil => rfl
  | cons entity rest ih => rw [List.foldl_cons, ih, neighbourSet_addEntity]

theorem neighbourSet_addNeighbour :
    neighbourSet (addNeighbour adj key other) first =
      if first = key ∧ other ∉ neighbourSet adj key then neighbourSet adj key ++ [other]
      else neighbourSet adj first := by
  rw [addNeighbour]
  by_cases present : other ∈ neighbourSet adj key
  · simp [present]
  · rw [if_neg present]
    by_cases same : first = key
    · rw [if_pos ⟨same, present⟩, same]
      exact congrArg (Option.getD · []) (Dict.get?_set_self adj key _)
    · rw [if_neg (fun both => same both.1)]
      exact congrArg (Option.getD · []) (Dict.get?_set_of_ne same adj _)

theorem mem_addNeighbour :
    second ∈ neighbourSet (addNeighbour adj key other) first ↔
      second ∈ neighbourSet adj first ∨ first = key ∧ second = other := by
  rw [neighbourSet_addNeighbour]
  by_cases same : first = key
  · subst same
    by_cases present : other ∈ neighbourSet adj first
    · simp only [present, not_true_eq_false, and_false, if_false, true_and]
      constructor
      · exact Or.inl
      · intro given
        rcases given with old | rfl
        · exact old
        · exact present
    · simp [present]
  · simp [same]

theorem nodup_addNeighbour (simple : ∀ first, (neighbourSet adj first).Nodup) (first : String) :
    (neighbourSet (addNeighbour adj key other) first).Nodup := by
  rw [neighbourSet_addNeighbour]
  by_cases new : first = key ∧ other ∉ neighbourSet adj key
  · rw [if_pos new]
    apply List.nodup_append'.mpr
    exact ⟨simple key, List.nodup_singleton other, by simpa using new.2⟩
  · rw [if_neg new]
    exact simple first

theorem keys_addNeighbour (present : key ∈ adj.keys) :
    (addNeighbour adj key other).keys = adj.keys := by
  rw [addNeighbour]
  by_cases known : other ∈ neighbourSet adj key
  · rw [if_pos known]
  · rw [if_neg known, Dict.keys_set, if_pos present]

theorem keys_addRelationship : (addRelationship adj rel).keys = adj.keys := by
  rw [addRelationship]
  by_cases both : rel.source.getD "" ∈ adj.keys ∧ rel.target.getD "" ∈ adj.keys
  · have source : (addNeighbour adj (rel.source.getD "") (rel.target.getD "")).keys = adj.keys :=
      keys_addNeighbour both.1
    rw [if_pos both, keys_addNeighbour (by rw [source]; exact both.2), source]
  · rw [if_neg both]

theorem mem_addRelationship :
    second ∈ neighbourSet (addRelationship adj rel) first ↔
      second ∈ neighbourSet adj first ∨
        first ∈ adj.keys ∧ second ∈ adj.keys ∧ rel.Joins first second := by
  rw [addRelationship, Relationship.Joins]
  by_cases both : rel.source.getD "" ∈ adj.keys ∧ rel.target.getD "" ∈ adj.keys
  · rw [if_pos both, mem_addNeighbour, mem_addNeighbour, or_assoc]
    apply or_congr_right
    constructor
    · intro given
      rcases given with ⟨rfl, rfl⟩ | ⟨rfl, rfl⟩
      · exact ⟨both.1, both.2, Or.inl ⟨rfl, rfl⟩⟩
      · exact ⟨both.2, both.1, Or.inr ⟨rfl, rfl⟩⟩
    · intro given
      rcases given with ⟨-, -, ⟨rfl, rfl⟩ | ⟨rfl, rfl⟩⟩
      · exact Or.inl ⟨rfl, rfl⟩
      · exact Or.inr ⟨rfl, rfl⟩
  · rw [if_neg both]
    constructor
    · exact Or.inl
    · intro given
      rcases given with old | ⟨here, there, ⟨rfl, rfl⟩ | ⟨rfl, rfl⟩⟩
      · exact old
      · exact absurd ⟨here, there⟩ both
      · exact absurd ⟨there, here⟩ both

theorem nodup_addRelationship (simple : ∀ first, (neighbourSet adj first).Nodup)
    (first : String) : (neighbourSet (addRelationship adj rel) first).Nodup := by
  rw [addRelationship]
  split
  · exact nodup_addNeighbour (nodup_addNeighbour simple) first
  · exact simple first

theorem keys_foldl_addRelationship :
    (relationships.foldl addRelationship adj).keys = adj.keys := by
  induction relationships generalizing adj with
  | nil => rfl
  | cons rel rest ih => rw [List.foldl_cons, ih, keys_addRelationship]

theorem mem_foldl_addRelationship :
    second ∈ neighbourSet (relationships.foldl addRelationship adj) first ↔
      second ∈ neighbourSet adj first ∨
        first ∈ adj.keys ∧ second ∈ adj.keys ∧ ∃ rel ∈ relationships, rel.Joins first second := by
  induction relationships generalizing adj with
  | nil => simp
  | cons rel rest ih =>
      rw [List.foldl_cons, ih, mem_addRelationship, keys_addRelationship, List.exists_mem_cons_iff]
      tauto

theorem nodup_foldl_addRelationship (simple : ∀ first, (neighbourSet adj first).Nodup)
    (first : String) :
    (neighbourSet (relationships.foldl addRelationship adj) first).Nodup := by
  induction relationships generalizing adj with
  | nil => exact simple first
  | cons rel rest ih =>
      rw [List.foldl_cons]
      exact ih (nodup_addRelationship simple)

theorem mem_keys_adjacency :
    key ∈ (adjacency entities relationships).keys ↔ key ∈ known entities := by
  rw [adjacency, keys_foldl_addRelationship, mem_keys_foldl_addEntity]
  exact or_iff_right List.not_mem_nil

theorem mem_neighbourSet : second ∈ neighbourSet (adjacency entities relationships) first ↔
    Connects entities relationships first second := by
  have none : second ∉ neighbourSet (entities.foldl addEntity ∅) first := by
    rw [neighbourSet_foldl_addEntity]
    exact List.not_mem_nil
  have keys (key : String) : key ∈ (entities.foldl addEntity ∅).keys ↔ key ∈ known entities := by
    rw [mem_keys_foldl_addEntity]
    exact or_iff_right List.not_mem_nil
  rw [adjacency, mem_foldl_addRelationship, or_iff_right none, keys, keys]
  rfl

theorem nodup_neighbourSet : (neighbourSet (adjacency entities relationships) first).Nodup := by
  apply nodup_foldl_addRelationship
  intro key
  rw [neighbourSet_foldl_addEntity]
  exact List.nodup_nil

theorem Connects.symm (connects : Connects entities relationships first second) :
    Connects entities relationships second first := by
  obtain ⟨here, there, rel, listed, joins⟩ := connects
  exact ⟨there, here, rel, listed, joins.symm⟩

end Adjacencies

section Components

variable {detector : CommunityDetector} {order : SetOrder} {entities : List Entity}
  {relationships : List (Relationship ρ)} {component : List String} {eid first second : String}

def graphOf (order : SetOrder) (entities : List Entity) (relationships : List (Relationship ρ)) :
    Graph String where
  places := (adjacency entities relationships).keys
  next := neighbours order (adjacency entities relationships)
  symmetric := by
    intro place neighbour adjacent
    rw [neighbours, (order.perm _).mem_iff, mem_neighbourSet] at adjacent ⊢
    exact adjacent.symm
  outside := by
    intro place missing
    rw [neighbours, neighbourSet, Dict.get?_eq_none_of_not_mem missing]
    exact (order.perm []).eq_nil

theorem linked_iff :
    Linked (graphOf order entities relationships) first second ↔
      Reaches entities relationships first second := by
  have same : (fun place neighbour => neighbour ∈ (graphOf order entities relationships).next place)
      = Connects entities relationships := by
    funext place neighbour
    apply propext
    change neighbour ∈ neighbours order (adjacency entities relationships) place ↔ _
    rw [neighbours, (order.perm _).mem_iff, mem_neighbourSet]
  rw [Linked, same, Reaches]

def largeComponents (detector : CommunityDetector) (order : SetOrder) (entities : List Entity)
    (relationships : List (Relationship ρ)) : List (List String) :=
  let graph := graphOf order entities relationships
  (components graph.next graph.places).filter
    (fun component => detector.minCommunitySize ≤ component.length)

variable (detector order entities relationships) in
theorem detectCommunities_eq :
    detectCommunities detector order entities relationships =
      (largeComponents detector order entities relationships).zipIdx.map (fun entry =>
        community (adjacency entities relationships) relationships entry.2 entry.1) := by
  let adj := adjacency entities relationships
  let view (sweep : Sweep String) : Finset String × List (Community ρ) :=
    (sweep.visited, (sweep.components.filter
      (fun component => detector.minCommunitySize ≤ component.length)).zipIdx.map
        (fun entry => community adj relationships entry.2 entry.1))
  have step (sweep : Sweep String) (eid : String) :
      addComponent detector order adj relationships (view sweep) eid =
        view (explore (neighbours order adj) adj.keys sweep eid) := by
    by_cases seen : eid ∈ sweep.visited
    · simp only [addComponent, explore, view, if_pos seen]
    · by_cases large : detector.minCommunitySize ≤
          (search (neighbours order adj) adj.keys eid sweep.visited).component.length
      · simp [addComponent, explore, view, seen, large, List.filter_append, List.zipIdx_append]
      · simp [addComponent, explore, view, seen, large, List.filter_append]
  have whole : adj.keys.foldl (addComponent detector order adj relationships) (view ⟨∅, []⟩) =
      view (adj.keys.foldl (explore (neighbours order adj) adj.keys) ⟨∅, []⟩) :=
    List.foldl_hom view step
  exact congrArg Prod.snd whole

theorem mem_largeComponents :
    component ∈ largeComponents detector order entities relationships ↔
      component ∈ components (graphOf order entities relationships).next
          (graphOf order entities relationships).places ∧
        detector.minCommunitySize ≤ component.length := by
  rw [largeComponents, List.mem_filter, decide_eq_true_eq]

variable (entities relationships eid) in
theorem degree_eq (simple : component.Nodup) :
    connections (adjacency entities relationships) component eid =
      degree entities relationships component eid := by
  have same : ((neighbourSet (adjacency entities relationships) eid).filter (· ∈ component)).Perm
      (component.filter (Connects entities relationships eid)) := by
    rw [List.perm_ext_iff_of_nodup (nodup_neighbourSet.filter _) (simple.filter _)]
    intro other
    simp only [List.mem_filter, mem_neighbourSet, decide_eq_true_eq, and_comm]
  rw [connections, degree, Multiset.filter_coe, Multiset.coe_card]
  exact same.length_eq

theorem keyEntities_eq (simple : component.Nodup) :
    keyEntities (adjacency entities relationships) component =
      (sortDescending (fun eid => (degree entities relationships component eid : ℚ))
        component).take 5 := by
  simp only [keyEntities, degree_eq _ _ _ simple]

variable (entities relationships) in
theorem keyDegrees_eq (component : List String) :
    ((sortDescending (fun eid => (degree entities relationships component eid : ℚ))
      component).take 5).map (degree entities relationships component) =
      (((component : Multiset String).map (degree entities relationships component)).sort
        (· ≥ ·)).take 5 := by
  rw [List.map_take]
  congr 1
  have unequal : ∀ first second : Nat, first ∈ (sortDescending (fun eid =>
      (degree entities relationships component eid : ℚ)) component).map
        (degree entities relationships component) →
      second ∈ ((component : Multiset String).map (degree entities relationships component)).sort
        (· ≥ ·) → first ≥ second → second ≥ first → first = second := by
    intro first second _ _ above below
    exact Nat.le_antisymm below above
  apply List.Perm.eq_of_pairwise unequal
  · apply List.pairwise_map.mpr
    apply (pairwise_sortDescending _ component).imp
    intro first second below
    exact Nat.cast_le.mp below
  · exact Multiset.pairwise_sort _ _
  · apply Multiset.coe_eq_coe.mp
    rw [Multiset.sort_eq]
    exact Multiset.coe_eq_coe.mpr (sortDescending_perm.map _)

theorem communityRels_eq (component : List String) :
    communityRels relationships component =
      relationships.filter (fun rel => rel.Between component) := by
  apply List.filter_congr
  intro rel _
  rw [decide_eq_decide, Relationship.Between]
  cases source : rel.source with
  | none => simp
  | some source =>
      cases target : rel.target with
      | none => simp
      | some target => simp

def contentOf (entities : List Entity) (relationships : List (Relationship ρ))
    (members : Multiset String) : Content ρ where
  level := 0
  members := members
  summary := ""
  keyDegrees := ((members.map (degree entities relationships members)).sort (· ≥ ·)).take 5
  relationships := (Multiset.ofList relationships).filter (fun rel => rel.Between members)
  size := members.card

theorem content_community (simple : component.Nodup) (index : Nat) :
    content entities relationships
      (community (adjacency entities relationships) relationships index component) =
      contentOf entities relationships component := by
  have degrees := keyDegrees_eq entities relationships component
  rw [← keyEntities_eq simple] at degrees
  rw [contentOf, ← degrees, Multiset.filter_coe, ← communityRels_eq]
  rfl

variable (detector order entities relationships) in
theorem map_content :
    (detectCommunities detector order entities relationships).map
        (content entities relationships) =
      ((classes (graphOf order entities relationships).next
        (graphOf order entities relationships).places).filter
          (fun members => detector.minCommunitySize ≤ members.card)).map
        (contentOf entities relationships) := by
  let view : List String → Content ρ := contentOf entities relationships ∘ Multiset.ofList
  have contents : (detectCommunities detector order entities relationships).map
      (content entities relationships) =
      (largeComponents detector order entities relationships).zipIdx.map (view ∘ Prod.fst) := by
    rw [detectCommunities_eq, List.map_map]
    apply List.map_congr_left
    intro entry member
    have large := List.fst_mem_of_mem_zipIdx member
    exact content_community (nodup_component (mem_largeComponents.mp large).1) entry.2
  rw [contents, ← List.map_map, List.zipIdx_map_fst, classes, List.filter_map, List.map_map]
  rfl

variable (detector order entities relationships) in
theorem map_members :
    (detectCommunities detector order entities relationships).map Community.members =
      largeComponents detector order entities relationships := by
  rw [detectCommunities_eq, List.map_map]
  exact List.zipIdx_map_fst 0 _

theorem exists_component {found : Community ρ}
    (member : found ∈ detectCommunities detector order entities relationships) :
    ∃ index, ∃ component ∈ largeComponents detector order entities relationships,
      found = community (adjacency entities relationships) relationships index component := by
  rw [detectCommunities_eq] at member
  obtain ⟨entry, placed, rfl⟩ := List.mem_map.mp member
  exact ⟨entry.2, entry.1, List.fst_mem_of_mem_zipIdx placed, rfl⟩

variable (detector order entities relationships) in
theorem flatten_largeComponents :
    (largeComponents detector order entities relationships).flatten.Nodup := by
  have all := nodup_flatten_components (graphOf order entities relationships)
  exact all.sublist List.filter_sublist.flatten

theorem keyEntities_top (simple : component.Nodup) (key : eid ∈ keyEntities
    (adjacency entities relationships) component) :
    eid ∈ component ∧ ∀ other ∈ component,
      other ∉ keyEntities (adjacency entities relationships) component →
        degree entities relationships component other ≤
          degree entities relationships component eid := by
  let score (eid : String) : ℚ := degree entities relationships component eid
  rw [keyEntities_eq simple] at key ⊢
  constructor
  · exact mem_sortDescending.mp (List.mem_of_mem_take key)
  · intro other member rest
    have sorted := pairwise_sortDescending score component
    rw [← List.take_append_drop 5 (sortDescending score component)] at sorted
    have behind : other ∈ (sortDescending score component).drop 5 := by
      have inside : other ∈ sortDescending score component := mem_sortDescending.mpr member
      rw [← List.take_append_drop 5 (sortDescending score component)] at inside
      exact (List.mem_append.mp inside).resolve_left rest
    exact Nat.cast_le.mp ((List.pairwise_append.mp sorted).2.2 eid key other behind)

variable (detector order entities relationships) in
theorem detected_detectCommunities : Detected detector entities relationships
    (detectCommunities detector order entities relationships) := by
  have simple := flatten_largeComponents detector order entities relationships
  have listed : ∀ community ∈ detectCommunities detector order entities relationships,
      community.relationships =
        relationships.filter (fun rel => rel.Between community.members) := by
    intro found member
    obtain ⟨index, component, _, rfl⟩ := exists_component member
    exact communityRels_eq component
  constructor
  case classes =>
    intro members
    have mapped : (detectCommunities detector order entities relationships).map
        (fun community => Multiset.ofList community.members) =
        (classes (graphOf order entities relationships).next
          (graphOf order entities relationships).places).filter
            (fun members => detector.minCommunitySize ≤ members.card) := by
      rw [classes, List.filter_map]
      exact (List.map_map (f := Community.members) (g := Multiset.ofList)).symm.trans
        (congrArg (List.map Multiset.ofList) (map_members detector order entities relationships))
    have places (eid : String) : eid ∈ (graphOf order entities relationships).places ↔
        eid ∈ known entities := mem_keys_adjacency
    rw [mapped, List.mem_filter, mem_classes_iff, decide_eq_true_eq]
    simp only [places, linked_iff]
    tauto
  case once =>
    rw [List.flatMap_def, map_members]
    exact simple
  case numbered =>
    rw [detectCommunities_eq, List.map_map, List.length_map, List.length_zipIdx,
      List.range_eq_range', ← List.zipIdx_map_snd 0, List.map_map]
    rfl
  case listed => exact listed
  case apart =>
    have disjoint := (List.nodup_flatten.mp simple).2
    rw [← map_members, List.pairwise_map] at disjoint
    apply disjoint.imp_of_mem
    intro first second here there apart rel inFirst inSecond
    rw [listed first here, List.mem_filter, decide_eq_true_eq] at inFirst
    rw [listed second there, List.mem_filter, decide_eq_true_eq] at inSecond
    obtain ⟨source, named, inside⟩ := inFirst.2.1
    obtain ⟨other, again, also⟩ := inSecond.2.1
    obtain rfl := Option.mem_unique named again
    exact apart inside also
  case keys =>
    intro found member
    obtain ⟨index, component, large, rfl⟩ := exists_component member
    have distinct := nodup_component (mem_largeComponents.mp large).1
    refine ⟨?_, ?_, fun eid => keyEntities_top distinct⟩
    · exact (sortDescending_perm.nodup_iff.mpr distinct).sublist (List.take_sublist _ _)
    · exact List.length_take.trans (congrArg (min 5) length_sortDescending)

theorem detectCommunities_perm {otherOrder : SetOrder} {otherEntities : List Entity}
    {otherRelationships : List (Relationship ρ)} (entitiesPerm : otherEntities.Perm entities)
    (relationshipsPerm : otherRelationships.Perm relationships) :
    ((detectCommunities detector otherOrder otherEntities otherRelationships).map
        (content otherEntities otherRelationships)).Perm
      ((detectCommunities detector order entities relationships).map
        (content entities relationships)) := by
  have knownIff (eid : String) : eid ∈ known otherEntities ↔ eid ∈ known entities :=
    (entitiesPerm.map Entity.eid).mem_iff
  have connects : Connects otherEntities otherRelationships =
      Connects entities relationships := by
    funext first second
    simp only [Connects, knownIff, relationshipsPerm.mem_iff]
  have degrees : degree otherEntities otherRelationships = degree entities relationships := by
    funext members eid
    simp only [degree, connects]
  have contents : contentOf otherEntities otherRelationships =
      contentOf entities relationships := by
    funext members
    simp only [contentOf, degrees, Multiset.coe_eq_coe.mpr relationshipsPerm]
  rw [map_content, map_content, contents]
  apply List.Perm.map
  apply List.Perm.filter
  apply classes_perm
  · intro place
    exact mem_keys_adjacency.trans ((knownIff place).trans mem_keys_adjacency.symm)
  · intro first second
    rw [linked_iff, linked_iff, Reaches, Reaches, connects]

end Components

/-- The communities are the components that are large enough, and whatever order the entities and
relations come in and the sets are iterated in, they have the same content. -/
theorem detectCommunities_components (detector : CommunityDetector) (order : SetOrder)
    (entities : List Entity) (relationships : List (Relationship ρ)) :
    Detected detector entities relationships
        (detectCommunities detector order entities relationships) ∧
      ∀ (otherOrder : SetOrder) (otherEntities : List Entity)
        (otherRelationships : List (Relationship ρ)),
        otherEntities.Perm entities → otherRelationships.Perm relationships →
        ((detectCommunities detector otherOrder otherEntities otherRelationships).map
            (content otherEntities otherRelationships)).Perm
          ((detectCommunities detector order entities relationships).map
            (content entities relationships)) := by
  constructor
  · exact detected_detectCommunities detector order entities relationships
  · intro otherOrder otherEntities otherRelationships entitiesPerm relationshipsPerm
    exact detectCommunities_perm entitiesPerm relationshipsPerm

def addedOrder : SetOrder := ⟨id, fun _ => List.Perm.refl _⟩

def ring : List Entity := ["a", "b", "c", "d", "e", "f"].map (fun id => ⟨some id, none⟩)

def ringRelationships : List (Relationship Unit) :=
  [("a", "b"), ("b", "c"), ("c", "d"), ("d", "e"), ("e", "f"), ("f", "a")].map
    (fun ends => ⟨some ends.1, some ends.2, ()⟩)

theorem detectCommunities_components_ring :
    Detected {} ring ringRelationships (detectCommunities {} addedOrder ring ringRelationships) ∧
      ((detectCommunities {} addedOrder ring.reverse ringRelationships).map
          (content ring.reverse ringRelationships)).Perm
        ((detectCommunities {} addedOrder ring ringRelationships).map
          (content ring ringRelationships)) := by
  have whole := detectCommunities_components {} addedOrder ring ringRelationships
  exact ⟨whole.1, whole.2 addedOrder ring.reverse ringRelationships ring.reverse_perm
    (List.Perm.refl _)⟩

/-- The ring is one community, and the order of its entities decides which of them are key. -/
theorem detectCommunities_key_order :
    ring.reverse.Perm ring ∧
      ∃ first second : Community Unit,
        detectCommunities {} addedOrder ring ringRelationships = [first] ∧
          detectCommunities {} addedOrder ring.reverse ringRelationships = [second] ∧
          ¬ first.keyEntities.Perm second.keyEntities := by
  refine ⟨ring.reverse_perm, ?_⟩
  refine ⟨community (adjacency ring ringRelationships) ringRelationships 0
    ["a", "b", "f", "c", "e", "d"], community (adjacency ring.reverse ringRelationships)
    ringRelationships 0 ["f", "e", "a", "d", "b", "c"], ?_, ?_, ?_⟩
  · decide +kernel
  · decide +kernel
  · decide +kernel

end RagSystem.Etl.GraphCommunities
