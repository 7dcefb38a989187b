import Mathlib.Algebra.Order.BigOperators.Group.Finset
import Mathlib.Data.Multiset.ZeroCons
import RagSystem.Transition.Loop

/-! The components of an undirected graph, searched one after the other with a queue that may hold
a place several times. -/

namespace Components

open Transition

universe u

/-- A finite undirected graph by the neighbours of its places. -/
structure Graph (α : Type u) where
  places : List α
  next : α → List α
  symmetric : ∀ place neighbour, neighbour ∈ next place → place ∈ next neighbour
  outside : ∀ place, place ∉ places → next place = []

structure Search (α : Type u) where
  queue : List α
  visited : Finset α
  component : List α

/-- What the searches have visited and found so far. -/
structure Sweep (α : Type u) where
  visited : Finset α
  components : List (List α)

variable {α : Type u}

/-- A path of the graph joins the places. -/
def Linked (graph : Graph α) : α → α → Prop :=
  Relation.ReflTransGen (fun place neighbour => neighbour ∈ graph.next place)

section Paths

variable {graph : Graph α} {start place other : α}

theorem Graph.mem_places (graph : Graph α) (neighbour : other ∈ graph.next place) :
    other ∈ graph.places := by
  by_contra missing
  have back := graph.symmetric place other neighbour
  rw [graph.outside other missing] at back
  cases back

theorem Linked.symm (linked : Linked graph place other) : Linked graph other place := by
  induction linked with
  | refl => exact Relation.ReflTransGen.refl
  | tail _ neighbour ih => exact (Relation.ReflTransGen.single
      (graph.symmetric _ _ neighbour)).trans ih

theorem Linked.mem_places (linked : Linked graph start place) (inside : start ∈ graph.places) :
    place ∈ graph.places := by
  induction linked with
  | refl => exact inside
  | tail _ neighbour _ => exact graph.mem_places neighbour

end Paths

variable [DecidableEq α]

/-- The first place of the queue: it is skipped where it is visited already. -/
def step (next : α → List α) (search : Search α) : Option (Search α) :=
  match search.queue with
  | [] => none
  | current :: queue =>
      if current ∈ search.visited then some { search with queue := queue }
      else
        let visited := insert current search.visited
        some ⟨queue ++ (next current).filter (fun neighbour => neighbour ∉ visited), visited,
          search.component ++ [current]⟩

/-- The search before its first step. -/
def initial (start : α) (visited : Finset α) : Search α := ⟨[start], visited, []⟩

/-- Fuel for every search of the graph. -/
def enough (next : α → List α) (places : List α) : Nat :=
  (∑ place ∈ places.toFinset, (next place).length) + 2

/-- The search at its end. -/
def search (next : α → List α) (places : List α) (start : α) (visited : Finset α) : Search α :=
  (loop (step next) (enough next places) (initial start visited)).getD (initial start visited)

/-- A place that no search has visited starts one. -/
def explore (next : α → List α) (places : List α) (sweep : Sweep α) (place : α) : Sweep α :=
  if place ∈ sweep.visited then sweep
  else
    let found := search next places place sweep.visited
    ⟨found.visited, sweep.components ++ [found.component]⟩

def components (next : α → List α) (places : List α) : List (List α) :=
  (places.foldl (explore next places) ⟨∅, []⟩).components

/-- The components, whatever the order of their places. -/
def classes (next : α → List α) (places : List α) : List (Multiset α) :=
  (components next places).map Multiset.ofList

section Steps

variable {graph : Graph α} {start place : α} {seen : Finset α} {current after : Search α}

/-- What is still to be queued, and what is queued. -/
def potential (graph : Graph α) (search : Search α) : Nat :=
  (∑ place ∈ graph.places.toFinset \ search.visited, (graph.next place).length) +
    search.queue.length

theorem sum_insert_add_le (graph : Graph α) {visited : Finset α} (fresh : place ∉ visited) :
    (∑ other ∈ graph.places.toFinset \ insert place visited, (graph.next other).length) +
        (graph.next place).length ≤
      ∑ other ∈ graph.places.toFinset \ visited, (graph.next other).length := by
  by_cases inside : place ∈ graph.places
  · have present : place ∈ graph.places.toFinset \ visited :=
      Finset.mem_sdiff.mpr ⟨List.mem_toFinset.mpr inside, fresh⟩
    rw [Finset.sdiff_insert, Nat.add_comm]
    exact (Finset.add_sum_erase _ (fun other => (graph.next other).length) present).le
  · have absent : place ∉ graph.places.toFinset \ visited := by
      intro member
      exact inside (List.mem_toFinset.mp (Finset.mem_sdiff.mp member).1)
    rw [Finset.sdiff_insert, Finset.erase_eq_of_notMem absent, graph.outside place inside]
    exact le_refl _

theorem potential_lt (stepped : step graph.next current = some after) :
    potential graph after < potential graph current := by
  cases queued : current.queue with
  | nil => simp [step, queued] at stepped
  | cons place queue =>
      by_cases known : place ∈ current.visited
      · have skipped : { current with queue := queue } = after := by
          simpa [step, queued, known] using stepped
        rw [← skipped, potential, potential, queued, List.length_cons]
        exact Nat.lt_succ_self _
      · have taken : Search.mk (queue ++ (graph.next place).filter
            (fun neighbour => neighbour ∉ insert place current.visited))
            (insert place current.visited) (current.component ++ [place]) = after := by
          simpa [step, queued, known] using stepped
        have fewer := sum_insert_add_le graph known
        have short : ((graph.next place).filter
            (fun neighbour => neighbour ∉ insert place current.visited)).length ≤
            (graph.next place).length := List.length_filter_le _ _
        rw [← taken, potential, potential, queued, List.length_append, List.length_cons]
        dsimp only
        omega

theorem step_eq_none_iff : step graph.next current = none ↔ current.queue = [] := by
  cases queued : current.queue with
  | nil => simp [step, queued]
  | cons place queue =>
      by_cases known : place ∈ current.visited
      · simp [step, queued, known]
      · simp [step, queued, known]

variable (graph start seen) in
theorem loop_search : loop (step graph.next) (enough graph.next graph.places)
    (initial start seen) = some (search graph.next graph.places start seen) := by
  have all : (∑ place ∈ graph.places.toFinset \ seen, (graph.next place).length) ≤
      ∑ place ∈ graph.places.toFinset, (graph.next place).length :=
    Finset.sum_le_sum_of_subset Finset.sdiff_subset
  have lower : potential graph (initial start seen) < enough graph.next graph.places := by
    simp only [potential, initial, enough, List.length_singleton]
    omega
  obtain ⟨last, ended⟩ := loop_ends (potential graph) (fun _ _ => potential_lt) lower
  rw [search, ended]
  rfl

/-- A search in progress: what it has found hangs together with its start and is new, and what it
has not visited of the neighbours is queued. -/
structure Exploring (graph : Graph α) (start : α) (seen : Finset α) (search : Search α) : Prop where
  visited : ∀ place, place ∈ search.visited ↔ place ∈ seen ∨ place ∈ search.component
  simple : search.component.Nodup
  apart : ∀ place ∈ search.component, place ∉ seen
  found : ∀ place ∈ search.component, Linked graph start place
  queued : ∀ place ∈ search.queue, Linked graph start place
  first : start ∈ search.component ∨ start ∈ search.queue
  closed : ∀ place ∈ search.component, ∀ neighbour ∈ graph.next place,
    neighbour ∈ search.visited ∨ neighbour ∈ search.queue

omit [DecidableEq α] in
theorem exploring_initial : Exploring graph start seen (initial start seen) where
  visited := by simp [initial]
  simple := List.nodup_nil
  apart := by simp [initial]
  found := by simp [initial]
  queued := by
    intro place member
    obtain rfl := List.mem_singleton.mp member
    exact Relation.ReflTransGen.refl
  first := Or.inr (List.mem_singleton_self start)
  closed := by simp [initial]

omit [DecidableEq α] in
theorem Exploring.skip {queue : List α} (fresh : start ∉ seen)
    (exploring : Exploring graph start seen current) (queued : current.queue = place :: queue)
    (known : place ∈ current.visited) :
    Exploring graph start seen { current with queue := queue } where
  visited := exploring.visited
  simple := exploring.simple
  apart := exploring.apart
  found := exploring.found
  queued := by
    intro other member
    exact exploring.queued other (by rw [queued]; exact List.mem_cons_of_mem place member)
  first := by
    rcases exploring.first with found | waiting
    · exact Or.inl found
    · rw [queued] at waiting
      rcases List.mem_cons.mp waiting with rfl | later
      · exact Or.inl (((exploring.visited start).mp known).resolve_left fresh)
      · exact Or.inr later
  closed := by
    intro other member neighbour adjacent
    rcases exploring.closed other member neighbour adjacent with visited | waiting
    · exact Or.inl visited
    · rw [queued] at waiting
      rcases List.mem_cons.mp waiting with rfl | later
      · exact Or.inl known
      · exact Or.inr later

theorem Exploring.take {queue : List α} (exploring : Exploring graph start seen current)
    (queued : current.queue = place :: queue) (fresh : place ∉ current.visited) :
    Exploring graph start seen ⟨queue ++ (graph.next place).filter
      (fun neighbour => neighbour ∉ insert place current.visited),
      insert place current.visited, current.component ++ [place]⟩ := by
  have here : Linked graph start place :=
    exploring.queued place (by rw [queued]; exact List.mem_cons_self)
  have new : place ∉ seen ∧ place ∉ current.component := by
    rw [exploring.visited] at fresh
    exact not_or.mp fresh
  constructor
  case visited =>
    intro other
    rw [Finset.mem_insert, exploring.visited, List.mem_append, List.mem_singleton]
    tauto
  case simple =>
    apply List.nodup_append'.mpr
    exact ⟨exploring.simple, List.nodup_singleton place, by simpa using new.2⟩
  case apart =>
    exact List.forall_mem_append.mpr ⟨exploring.apart, by simpa using new.1⟩
  case found =>
    exact List.forall_mem_append.mpr ⟨exploring.found, by simpa using here⟩
  case queued =>
    refine List.forall_mem_append.mpr ⟨?_, ?_⟩
    · intro other member
      exact exploring.queued other (by rw [queued]; exact List.mem_cons_of_mem place member)
    · intro other member
      exact here.tail (List.mem_filter.mp member).1
  case first =>
    rcases exploring.first with found | waiting
    · exact Or.inl (List.mem_append_left _ found)
    · rw [queued] at waiting
      rcases List.mem_cons.mp waiting with rfl | later
      · exact Or.inl (List.mem_append_right _ (List.mem_singleton_self _))
      · exact Or.inr (List.mem_append_left _ later)
  case closed =>
    intro other member neighbour adjacent
    by_cases visited : neighbour ∈ insert place current.visited
    · exact Or.inl visited
    · right
      rcases List.mem_append.mp member with earlier | now
      · have waiting := (exploring.closed other earlier neighbour adjacent).resolve_left
          (fun known => visited (Finset.mem_insert_of_mem known))
        rw [queued] at waiting
        rcases List.mem_cons.mp waiting with rfl | later
        · exact absurd (Finset.mem_insert_self _ _) visited
        · exact List.mem_append_left _ later
      · obtain rfl := List.mem_singleton.mp now
        apply List.mem_append_right
        exact List.mem_filter.mpr ⟨adjacent, decide_eq_true visited⟩

theorem Exploring.step (fresh : start ∉ seen) (exploring : Exploring graph start seen current)
    (stepped : step graph.next current = some after) : Exploring graph start seen after := by
  cases queued : current.queue with
  | nil => simp [Components.step, queued] at stepped
  | cons place queue =>
      by_cases known : place ∈ current.visited
      · have skipped : { current with queue := queue } = after := by
          simpa [Components.step, queued, known] using stepped
        rw [← skipped]
        exact exploring.skip fresh queued known
      · have taken : Search.mk (queue ++ (graph.next place).filter
            (fun neighbour => neighbour ∉ insert place current.visited))
            (insert place current.visited) (current.component ++ [place]) = after := by
          simpa [Components.step, queued, known] using stepped
        rw [← taken]
        exact exploring.take queued known

variable (graph) in
theorem exploring_search (fresh : start ∉ seen) :
    Exploring graph start seen (search graph.next graph.places start seen) ∧
      (search graph.next graph.places start seen).queue = [] := by
  have whole := loop_invariant (Exploring graph start seen) exploring_initial
    (fun _ _ exploring stepped => exploring.step fresh stepped) (loop_search graph start seen)
  exact ⟨whole.1, step_eq_none_iff.mp whole.2⟩

theorem mem_search_iff (fresh : start ∉ seen)
    (closed : ∀ place ∈ seen, ∀ neighbour ∈ graph.next place, neighbour ∈ seen) :
    place ∈ (search graph.next graph.places start seen).component ↔ Linked graph start place := by
  obtain ⟨exploring, done⟩ := exploring_search graph fresh
  have first := exploring.first
  have inside := exploring.closed
  rw [done] at first inside
  constructor
  · exact exploring.found place
  · intro linked
    induction linked with
    | refl => exact first.resolve_right List.not_mem_nil
    | @tail before after _ adjacent found =>
        have visited := (inside before found after adjacent).resolve_right List.not_mem_nil
        rcases (exploring.visited after).mp visited with old | new
        · have back := closed after old before (graph.symmetric before after adjacent)
          exact absurd back (exploring.apart before found)
        · exact new

end Steps

section Sweeps

variable {graph : Graph α} {sweep : Sweep α} {place other : α} {component : List α}

/-- What the searches have found are whole components, none of them twice. -/
structure Swept (graph : Graph α) (sweep : Sweep α) : Prop where
  inside : ∀ place ∈ sweep.visited, place ∈ graph.places
  visited : ∀ place, place ∈ sweep.visited ↔ place ∈ sweep.components.flatten
  simple : sweep.components.flatten.Nodup
  nonempty : ∀ component ∈ sweep.components, component ≠ []
  whole : ∀ component ∈ sweep.components, ∀ place ∈ component, ∀ other,
    other ∈ component ↔ Linked graph place other

omit [DecidableEq α] in
theorem Swept.closed (swept : Swept graph sweep) (inside : place ∈ sweep.visited)
    (adjacent : other ∈ graph.next place) : other ∈ sweep.visited := by
  obtain ⟨component, found, member⟩ := List.mem_flatten.mp ((swept.visited place).mp inside)
  apply (swept.visited other).mpr
  apply List.mem_flatten_of_mem found
  exact (swept.whole component found place member other).mpr (Relation.ReflTransGen.single adjacent)

theorem Swept.explore (swept : Swept graph sweep) (listed : place ∈ graph.places) :
    Swept graph (explore graph.next graph.places sweep place) := by
  by_cases known : place ∈ sweep.visited
  · rwa [Components.explore, if_pos known]
  · have exploring := (exploring_search graph known).1
    have reaches (other : α) :
        other ∈ (search graph.next graph.places place sweep.visited).component ↔
          Linked graph place other :=
      mem_search_iff known (fun _ inside _ => swept.closed inside)
    rw [Components.explore, if_neg known]
    constructor
    case inside =>
      intro other member
      rcases (exploring.visited other).mp member with old | new
      · exact swept.inside other old
      · exact ((reaches other).mp new).mem_places listed
    case visited =>
      intro other
      rw [exploring.visited, swept.visited, List.flatten_concat, List.mem_append]
    case simple =>
      rw [List.flatten_concat, List.nodup_append']
      refine ⟨swept.simple, exploring.simple, ?_⟩
      intro other old new
      exact exploring.apart other new ((swept.visited other).mpr old)
    case nonempty =>
      refine List.forall_mem_append.mpr ⟨swept.nonempty, List.forall_mem_singleton.mpr ?_⟩
      exact List.ne_nil_of_mem ((reaches place).mpr Relation.ReflTransGen.refl)
    case whole =>
      refine List.forall_mem_append.mpr ⟨swept.whole, List.forall_mem_singleton.mpr ?_⟩
      intro first member second
      have here := (reaches first).mp member
      rw [reaches]
      exact ⟨here.symm.trans, here.trans⟩

theorem explore_visited (swept : Swept graph sweep) (place : α) :
    place ∈ (explore graph.next graph.places sweep place).visited ∧
      sweep.visited ⊆ (explore graph.next graph.places sweep place).visited := by
  by_cases known : place ∈ sweep.visited
  · rw [explore, if_pos known]
    exact ⟨known, Finset.Subset.refl _⟩
  · have exploring := (exploring_search graph known).1
    have here := (mem_search_iff known (fun _ inside _ => swept.closed inside)).mpr
      Relation.ReflTransGen.refl
    rw [explore, if_neg known]
    exact ⟨(exploring.visited place).mpr (Or.inr here),
      fun other old => (exploring.visited other).mpr (Or.inl old)⟩

theorem Swept.foldl (swept : Swept graph sweep) {places : List α}
    (listed : ∀ place ∈ places, place ∈ graph.places) :
    Swept graph (places.foldl (Components.explore graph.next graph.places) sweep) ∧
      ∀ place, place ∈ places ∨ place ∈ sweep.visited →
        place ∈ (places.foldl (Components.explore graph.next graph.places) sweep).visited := by
  induction places generalizing sweep with
  | nil => exact ⟨swept, fun place inside => inside.resolve_left List.not_mem_nil⟩
  | cons first rest ih =>
      obtain ⟨here, behind⟩ := List.forall_mem_cons.mp listed
      obtain ⟨later, covers⟩ := ih (swept.explore here) behind
      have grown := explore_visited swept first
      refine ⟨later, ?_⟩
      intro place inside
      apply covers
      rcases inside with listed | old
      · rcases List.mem_cons.mp listed with rfl | behind
        · exact Or.inr grown.1
        · exact Or.inl behind
      · exact Or.inr (grown.2 old)

variable (graph) in
theorem swept_components :
    Swept graph (graph.places.foldl (explore graph.next graph.places) ⟨∅, []⟩) ∧
      ∀ place ∈ graph.places,
        place ∈ (graph.places.foldl (explore graph.next graph.places) ⟨∅, []⟩).visited := by
  have start : Swept graph (⟨∅, []⟩ : Sweep α) := by
    constructor <;> simp
  have whole := start.foldl (fun _ inside => inside)
  exact ⟨whole.1, fun place inside => whole.2 place (Or.inl inside)⟩

theorem mem_component_iff (found : component ∈ components graph.next graph.places)
    (member : place ∈ component) : other ∈ component ↔ Linked graph place other :=
  (swept_components graph).1.whole component found place member other

theorem component_ne_nil (found : component ∈ components graph.next graph.places) :
    component ≠ [] :=
  (swept_components graph).1.nonempty component found

variable (graph) in
theorem nodup_flatten_components : (components graph.next graph.places).flatten.Nodup :=
  (swept_components graph).1.simple

theorem mem_flatten_components :
    place ∈ (components graph.next graph.places).flatten ↔ place ∈ graph.places := by
  obtain ⟨swept, covers⟩ := swept_components graph
  constructor
  · exact fun found => swept.inside place ((swept.visited place).mpr found)
  · exact fun inside => (swept.visited place).mp (covers place inside)

theorem nodup_component (found : component ∈ components graph.next graph.places) :
    component.Nodup :=
  (List.nodup_flatten.mp (nodup_flatten_components graph)).1 component found

theorem mem_classes_iff {members : Multiset α} :
    members ∈ classes graph.next graph.places ↔
      members.Nodup ∧
        ∃ place ∈ graph.places, ∀ other, other ∈ members ↔ Linked graph place other := by
  rw [classes, List.mem_map]
  constructor
  · intro given
    rcases given with ⟨component, found, rfl⟩
    obtain ⟨place, member⟩ := List.exists_mem_of_ne_nil component (component_ne_nil found)
    refine ⟨Multiset.coe_nodup.mpr (nodup_component found), place, ?_, ?_⟩
    · exact mem_flatten_components.mp (List.mem_flatten_of_mem found member)
    · intro other
      exact mem_component_iff found member
  · intro given
    rcases given with ⟨simple, place, inside, linked⟩
    obtain ⟨component, found, member⟩ :=
      List.mem_flatten.mp (mem_flatten_components.mpr inside)
    refine ⟨component, found, ?_⟩
    rw [Multiset.Nodup.ext (Multiset.coe_nodup.mpr (nodup_component found)) simple]
    intro other
    rw [Multiset.mem_coe, mem_component_iff found member, linked]

variable (graph) in
theorem nodup_classes : (classes graph.next graph.places).Nodup := by
  have apart := (List.nodup_flatten.mp (nodup_flatten_components graph)).2
  apply List.pairwise_map.mpr
  apply apart.imp_of_mem
  intro first second found _ disjoint same
  obtain ⟨place, member⟩ := List.exists_mem_of_ne_nil first (component_ne_nil found)
  exact disjoint member ((Multiset.coe_eq_coe.mp same).mem_iff.mp member)

theorem classes_perm {graph other : Graph α}
    (places : ∀ place, place ∈ graph.places ↔ place ∈ other.places)
    (linked : ∀ first second, Linked graph first second ↔ Linked other first second) :
    (classes graph.next graph.places).Perm (classes other.next other.places) := by
  rw [List.perm_ext_iff_of_nodup (nodup_classes graph) (nodup_classes other)]
  intro members
  simp only [mem_classes_iff, places, linked]

end Sweeps

end Components
