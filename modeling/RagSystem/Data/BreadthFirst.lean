import Mathlib.Algebra.Order.Ring.Nat
import Mathlib.Data.Finset.Basic
import Mathlib.Data.List.Chain
import RagSystem.Transition.Loop

/-! Breadth-first search with a limit on the hops, which notes where its paths end. -/

namespace BreadthFirst

open Transition

universe u

/-- A graph by the successors of its places; a leaf has none. -/
structure Graph (α : Type u) where
  next : α → List α
  leaf : α → Bool
  width : Nat
  bounded : ∀ place, (next place).length ≤ width
  leaf_next : ∀ place, leaf place = true → next place = []

/-- A place in the queue with the path that led there. -/
structure Visit (α : Type u) where
  current : α
  path : List α
  hops : Nat
  deriving DecidableEq, Repr

structure Search (α : Type u) where
  queue : List (Visit α)
  visited : Finset α
  found : List (Visit α)

section Ball

variable {α : Type u}

/-- The places within so many steps. -/
def ball (graph : Graph α) (start : α) : Nat → List α
  | 0 => [start]
  | steps + 1 => ball graph start steps ++ (ball graph start steps).flatMap graph.next

variable {graph : Graph α} {start place : α} {steps : Nat}

theorem mem_ball_succ : place ∈ ball graph start (steps + 1) ↔
    place ∈ ball graph start steps ∨
      ∃ before ∈ ball graph start steps, place ∈ graph.next before := by
  rw [ball, List.mem_append, List.mem_flatMap]

theorem ball_mono {fewer : Nat} (inside : place ∈ ball graph start fewer)
    (below : fewer ≤ steps) : place ∈ ball graph start steps := by
  induction below with
  | refl => exact inside
  | step _ ih => exact mem_ball_succ.mpr (Or.inl ih)

end Ball

variable {α : Type u} [DecidableEq α] (graph : Graph α) (limit : Nat)

/-- The visits behind this one; a place of the path is not visited again. -/
def push (visit : Visit α) : List (Visit α) :=
  ((graph.next visit.current).filter (fun place => place ∉ visit.path)).map
    (fun place => ⟨place, visit.path ++ [place], visit.hops + 1⟩)

/-- The first visit of the queue: what is visited already is skipped, and a leaf or a place at the
limit is noted. -/
def step (search : Search α) : Option (Search α) :=
  match search.queue with
  | [] => none
  | visit :: queue =>
      if visit.current ∈ search.visited then some { search with queue := queue }
      else if graph.leaf visit.current ∨ limit ≤ visit.hops then
        some ⟨queue, insert visit.current search.visited, search.found ++ [visit]⟩
      else
        some ⟨queue ++ push graph visit, insert visit.current search.visited, search.found⟩

inductive Moves : Search α → Search α → Prop
  | skip {visit : Visit α} {queue : List (Visit α)} {visited : Finset α} {found : List (Visit α)}
      (seen : visit.current ∈ visited) :
      Moves ⟨visit :: queue, visited, found⟩ ⟨queue, visited, found⟩
  | note {visit : Visit α} {queue : List (Visit α)} {visited : Finset α} {found : List (Visit α)}
      (fresh : visit.current ∉ visited)
      (final : graph.leaf visit.current = true ∨ limit ≤ visit.hops) :
      Moves ⟨visit :: queue, visited, found⟩
        ⟨queue, insert visit.current visited, found ++ [visit]⟩
  | expand {visit : Visit α} {queue : List (Visit α)} {visited : Finset α} {found : List (Visit α)}
      (fresh : visit.current ∉ visited) (inner : graph.leaf visit.current = false)
      (low : visit.hops < limit) :
      Moves ⟨visit :: queue, visited, found⟩
        ⟨queue ++ push graph visit, insert visit.current visited, found⟩

/-- The search before its first step. -/
def initial (start : α) (visited : Finset α) : Search α := ⟨[⟨start, [start], 0⟩], visited, []⟩

/-- How many steps a visit with so many hops left can cause. -/
def weight (width : Nat) : Nat → Nat
  | 0 => 1
  | hops + 1 => 1 + width * weight width hops

def potential (search : Search α) : Nat :=
  (search.queue.map (fun visit => weight graph.width (limit - visit.hops))).sum

/-- Fuel for every search of the graph. -/
def enough : Nat := weight graph.width limit + 1

/-- The search at its end. -/
def search (start : α) (visited : Finset α) : Search α :=
  (loop (step graph limit) (enough graph limit) (initial start visited)).getD
    (initial start visited)

/-- A path of the search from its start ends here, at a leaf or at the limit. -/
def EndsAt (start place : α) : Prop :=
  place ∈ ball graph start limit ∧
    (graph.leaf place = true ∨ ∀ fewer < limit, place ∉ ball graph start fewer)

instance (start place : α) : Decidable (EndsAt graph limit start place) :=
  inferInstanceAs (Decidable (_ ∧ (_ ∨ _)))

variable {graph limit} {start place : α} {steps : Nat} {visited : Finset α}
  {current after : Search α} {visit : Visit α}

section Steps

theorem step_iff : step graph limit current = some after ↔ Moves graph limit current after := by
  constructor
  · intro stepped
    obtain ⟨queue, visited, found⟩ := current
    cases queue with
    | nil => cases stepped
    | cons visit queue =>
        simp only [step] at stepped
        split at stepped
        · next seen =>
            obtain rfl := Option.some.inj stepped
            exact Moves.skip seen
        · next fresh =>
            split at stepped
            · next final =>
                obtain rfl := Option.some.inj stepped
                exact Moves.note fresh final
            · next inner =>
                obtain rfl := Option.some.inj stepped
                apply Moves.expand fresh
                · simpa using (not_or.mp inner).1
                · exact Nat.lt_of_not_le (not_or.mp inner).2
  · intro moves
    cases moves with
    | skip seen => simp [step, seen]
    | note fresh final => simp [step, fresh, final]
    | expand fresh inner low => simp [step, fresh, inner, Nat.not_le.mpr low]

theorem step_eq_none_iff : step graph limit current = none ↔ current.queue = [] := by
  cases queued : current.queue with
  | nil => simp [step, queued]
  | cons visit queue =>
      simp only [step, queued]
      split
      · simp
      · split <;> simp

theorem weight_pos (width hops : Nat) : 0 < weight width hops := by
  cases hops with
  | zero => exact Nat.one_pos
  | succ hops => exact Nat.lt_of_lt_of_le Nat.one_pos (Nat.le_add_right _ _)

variable (graph) in
theorem length_push_le (visit : Visit α) : (push graph visit).length ≤ graph.width := by
  rw [push, List.length_map]
  exact (List.length_filter_le _ _).trans (graph.bounded visit.current)

variable (graph) in
theorem sum_push_lt (low : visit.hops < limit) :
    ((push graph visit).map (fun visit => weight graph.width (limit - visit.hops))).sum <
      weight graph.width (limit - visit.hops) := by
  obtain ⟨left, split⟩ : ∃ left, limit - visit.hops = left + 1 :=
    ⟨limit - visit.hops - 1, by omega⟩
  have same : (push graph visit).map (fun visit => weight graph.width (limit - visit.hops)) =
      (push graph visit).map (fun _ => weight graph.width left) := by
    apply List.map_congr_left
    intro pushed member
    obtain ⟨place, _, rfl⟩ := List.mem_map.mp member
    have fewer : limit - (visit.hops + 1) = left := by omega
    simp only [fewer]
  rw [same, List.map_const', List.sum_replicate_nat, split, weight]
  have few := Nat.mul_le_mul_right (weight graph.width left) (length_push_le graph visit)
  omega

theorem potential_lt (moves : Moves graph limit current after) :
    potential graph limit after < potential graph limit current := by
  cases moves with
  | @skip visit queue visited found _ =>
      have positive := weight_pos graph.width (limit - visit.hops)
      simp only [potential, List.map_cons, List.sum_cons]
      omega
  | @note visit queue visited found _ _ =>
      have positive := weight_pos graph.width (limit - visit.hops)
      simp only [potential, List.map_cons, List.sum_cons]
      omega
  | expand _ _ low =>
      have lighter := sum_push_lt graph low
      simp only [potential, List.map_append, List.sum_append, List.map_cons, List.sum_cons]
      omega

variable (graph limit start visited) in
theorem loop_search {fuel : Nat} (fuelled : enough graph limit ≤ fuel) :
    loop (step graph limit) fuel (initial start visited) =
      some (search graph limit start visited) := by
  have lower : potential graph limit (initial start visited) < enough graph limit := by
    simp [potential, initial, enough]
  obtain ⟨last, ended⟩ := loop_ends (potential graph limit)
    (fun _ _ stepped => potential_lt (step_iff.mp stepped)) lower
  rw [loop_mono ended fuelled, search, ended]
  rfl

variable (start visited) in
theorem search_invariant (holds : Search α → Prop) (initially : holds (initial start visited))
    (kept : ∀ current after, holds current → Moves graph limit current after → holds after) :
    holds (search graph limit start visited) ∧ (search graph limit start visited).queue = [] := by
  have whole := loop_invariant holds initially
    (fun current after before stepped => kept current after before (step_iff.mp stepped))
    (loop_search graph limit start visited (le_refl _))
  exact ⟨whole.1, step_eq_none_iff.mp whole.2⟩

end Steps

/-! The paths of a search. -/

/-- A simple path from the start along the graph, within the limit. -/
structure Trail (graph : Graph α) (limit : Nat) (start : α) (visit : Visit α) : Prop where
  walk : visit.path.IsChain (fun before place => place ∈ graph.next before)
  first : visit.path.head? = some start
  last : visit.path.getLast? = some visit.current
  simple : visit.path.Nodup
  length : visit.path.length = visit.hops + 1
  within : visit.hops ≤ limit

section Trails

omit [DecidableEq α] in
theorem trail_initial : Trail graph limit start ⟨start, [start], 0⟩ where
  walk := List.isChain_singleton start
  first := rfl
  last := rfl
  simple := List.nodup_singleton start
  length := rfl
  within := Nat.zero_le limit

theorem Trail.push (trail : Trail graph limit start visit) (low : visit.hops < limit)
    {pushed : Visit α} (member : pushed ∈ push graph visit) : Trail graph limit start pushed := by
  obtain ⟨place, kept, rfl⟩ := List.mem_map.mp member
  obtain ⟨successor, new⟩ := List.mem_filter.mp kept
  constructor
  · refine trail.walk.append (List.isChain_singleton place) ?_
    intro before ends place begins
    rw [trail.last] at ends
    obtain rfl := Option.some.inj ends
    obtain rfl := Option.some.inj begins
    exact successor
  · rw [List.head?_append, trail.first]
    rfl
  · exact List.getLast?_concat
  · apply List.nodup_append'.mpr
    exact ⟨trail.simple, List.nodup_singleton place, by simpa using new⟩
  · rw [List.length_append, trail.length]
    rfl
  · exact low

/-- The visits that are queued or noted have simple paths, and those noted end at new places. -/
structure Trailing (graph : Graph α) (limit : Nat) (start : α) (visited : Finset α)
    (search : Search α) : Prop where
  grows : visited ⊆ search.visited
  queue : ∀ visit ∈ search.queue, Trail graph limit start visit
  found : ∀ visit ∈ search.found, Trail graph limit start visit ∧ visit.current ∉ visited

theorem Trailing.moves (trailing : Trailing graph limit start visited current)
    (moves : Moves graph limit current after) : Trailing graph limit start visited after := by
  cases moves with
  | skip _ =>
      have behind := (List.forall_mem_cons.mp trailing.queue).2
      exact ⟨trailing.grows, behind, trailing.found⟩
  | @note visit queue seen found fresh _ =>
      obtain ⟨here, behind⟩ := List.forall_mem_cons.mp trailing.queue
      have new : visit.current ∉ visited := fun member => fresh (trailing.grows member)
      refine ⟨trailing.grows.trans (Finset.subset_insert _ _), behind, ?_⟩
      exact List.forall_mem_append.mpr
        ⟨trailing.found, List.forall_mem_singleton.mpr ⟨here, new⟩⟩
  | expand _ _ low =>
      obtain ⟨here, behind⟩ := List.forall_mem_cons.mp trailing.queue
      refine ⟨trailing.grows.trans (Finset.subset_insert _ _), ?_, trailing.found⟩
      exact List.forall_mem_append.mpr ⟨behind, fun pushed member => here.push low member⟩

variable (graph limit start visited) in
theorem trailing_search :
    Trailing graph limit start visited (search graph limit start visited) := by
  apply (search_invariant start visited (Trailing graph limit start visited) ?_ ?_).1
  · refine ⟨Finset.Subset.refl visited, ?_, by simp [initial]⟩
    intro visit member
    obtain rfl := List.mem_singleton.mp member
    exact trail_initial
  · intro current after trailing moves
    exact trailing.moves moves

end Trails

/-! The levels of a search that begins with nothing visited. -/

/-- The search works through the places that are `steps` away, and those behind them follow. -/
structure Level (graph : Graph α) (limit : Nat) (start : α) (steps : Nat)
    (now later : List (Visit α)) (visited : Finset α) (found : List (Visit α)) : Prop where
  low : steps ≤ limit
  nowAt : ∀ visit ∈ now, visit.hops = steps ∧ visit.current ∈ ball graph start steps
  laterAt : ∀ visit ∈ later, steps < limit ∧ visit.hops = steps + 1 ∧
    visit.current ∈ ball graph start (steps + 1)
  pathSeen : ∀ visit ∈ now ++ later, ∀ place ∈ visit.path,
    place ∈ visited ∨ place = visit.current
  known : ∀ place ∈ visited, place ∈ ball graph start steps
  reached : ∀ place ∈ ball graph start steps,
    place ∈ visited ∨ ∃ visit ∈ now, visit.current = place
  closed : steps < limit → ∀ before ∈ visited, ∀ place ∈ graph.next before,
    place ∈ ball graph start steps ∨ ∃ visit ∈ later, visit.current = place
  earlier : ∀ fewer < steps, ∀ place ∈ ball graph start fewer, place ∈ visited
  noted : ∀ place, (∃ visit ∈ found, visit.current = place) ↔ place ∈ visited ∧
    (graph.leaf place = true ∨ ∀ fewer < limit, place ∉ ball graph start fewer)

section Levels

variable {now later queue found : List (Visit α)}

omit [DecidableEq α] in
theorem level_initial : Level graph limit start 0 [⟨start, [start], 0⟩] [] ∅ [] where
  low := Nat.zero_le limit
  nowAt := by simp [ball]
  laterAt := by simp
  pathSeen := by simp
  known := by simp
  reached := by simp [ball]
  closed := by simp
  earlier := by simp
  noted := by simp

omit [DecidableEq α] in
theorem Level.turn (level : Level graph limit start steps [] later visited found)
    (more : later ≠ []) : Level graph limit start (steps + 1) later [] visited found := by
  obtain ⟨first, member⟩ := List.exists_mem_of_ne_nil later more
  have low : steps < limit := (level.laterAt first member).1
  have done : ∀ place ∈ ball graph start steps, place ∈ visited := by
    intro place inside
    simpa using level.reached place inside
  constructor
  case low => exact low
  case nowAt => exact fun visit inside => (level.laterAt visit inside).2
  case laterAt => simp
  case pathSeen => simpa using level.pathSeen
  case known => exact fun place seen => mem_ball_succ.mpr (Or.inl (level.known place seen))
  case reached =>
    intro place inside
    rcases mem_ball_succ.mp inside with near | ⟨before, near, successor⟩
    · exact Or.inl (done place near)
    · rcases level.closed low before (done before near) place successor with old | new
      · exact Or.inl (done place old)
      · exact Or.inr new
  case closed =>
    intro _ before seen place successor
    exact Or.inl (mem_ball_succ.mpr (Or.inr ⟨before, level.known before seen, successor⟩))
  case earlier =>
    intro fewer below place inside
    exact done place (ball_mono inside (by omega))
  case noted => exact level.noted

omit [DecidableEq α] in
theorem Level.skip (level : Level graph limit start steps (visit :: now) later visited found)
    (seen : visit.current ∈ visited) :
    Level graph limit start steps now later visited found := by
  constructor
  case low => exact level.low
  case nowAt => exact (List.forall_mem_cons.mp level.nowAt).2
  case laterAt => exact level.laterAt
  case pathSeen => exact (List.forall_mem_cons.mp level.pathSeen).2
  case known => exact level.known
  case reached =>
    intro place inside
    rcases level.reached place inside with old | ⟨other, listed, rfl⟩
    · exact Or.inl old
    · rcases List.mem_cons.mp listed with rfl | behind
      · exact Or.inl seen
      · exact Or.inr ⟨other, behind, rfl⟩
  case closed => exact level.closed
  case earlier => exact level.earlier
  case noted => exact level.noted

theorem Level.visit_reached
    (level : Level graph limit start steps (visit :: now) later visited found) :
    ∀ place ∈ ball graph start steps,
      place ∈ insert visit.current visited ∨ ∃ other ∈ now, other.current = place := by
  intro place inside
  rcases level.reached place inside with old | ⟨other, listed, rfl⟩
  · exact Or.inl (Finset.mem_insert_of_mem old)
  · rcases List.mem_cons.mp listed with rfl | behind
    · exact Or.inl (Finset.mem_insert_self _ _)
    · exact Or.inr ⟨other, behind, rfl⟩

theorem Level.visit_known
    (level : Level graph limit start steps (visit :: now) later visited found) :
    ∀ place ∈ insert visit.current visited, place ∈ ball graph start steps := by
  intro place member
  rcases Finset.mem_insert.mp member with rfl | old
  · exact (level.nowAt visit List.mem_cons_self).2
  · exact level.known place old

theorem Level.visit_pathSeen
    (level : Level graph limit start steps (visit :: now) later visited found) :
    ∀ other ∈ now ++ later, ∀ place ∈ other.path,
      place ∈ insert visit.current visited ∨ place = other.current := by
  intro other listed place inside
  rcases level.pathSeen other (List.mem_cons_of_mem visit listed) place inside with old | same
  · exact Or.inl (Finset.mem_insert_of_mem old)
  · exact Or.inr same

omit [DecidableEq α] in
theorem Level.new (level : Level graph limit start steps (visit :: now) later visited found)
    (fresh : visit.current ∉ visited) {fewer : Nat} (below : fewer < steps) :
    visit.current ∉ ball graph start fewer :=
  fun inside => fresh (level.earlier fewer below visit.current inside)

theorem Level.note (level : Level graph limit start steps (visit :: now) later visited found)
    (fresh : visit.current ∉ visited)
    (final : graph.leaf visit.current = true ∨ limit ≤ visit.hops) :
    Level graph limit start steps now later (insert visit.current visited)
      (found ++ [visit]) := by
  have here := level.nowAt visit List.mem_cons_self
  constructor
  case low => exact level.low
  case nowAt => exact (List.forall_mem_cons.mp level.nowAt).2
  case laterAt => exact level.laterAt
  case pathSeen => exact level.visit_pathSeen
  case known => exact level.visit_known
  case reached => exact level.visit_reached
  case closed =>
    intro below before member place successor
    rcases Finset.mem_insert.mp member with rfl | old
    · have leaf : graph.leaf visit.current = true := by
        rcases final with leaf | full
        · exact leaf
        · omega
      rw [graph.leaf_next _ leaf] at successor
      cases successor
    · exact level.closed below before old place successor
  case earlier =>
    intro fewer below place inside
    exact Finset.mem_insert_of_mem (level.earlier fewer below place inside)
  case noted =>
    intro place
    have old := level.noted place
    by_cases same : place = visit.current
    · subst same
      have ending : graph.leaf visit.current = true ∨
          ∀ fewer < limit, visit.current ∉ ball graph start fewer := by
        rcases final with leaf | full
        · exact Or.inl leaf
        · exact Or.inr (fun fewer below => level.new fresh (by omega))
      simp [ending]
    · have other : (∃ noted ∈ found ++ [visit], noted.current = place) ↔
          ∃ noted ∈ found, noted.current = place := by
        simp [or_and_right, exists_or, Ne.symm same]
      rw [other, old, Finset.mem_insert]
      simp [same]

theorem Level.expand (level : Level graph limit start steps (visit :: now) later visited found)
    (inner : graph.leaf visit.current = false) (below : visit.hops < limit) :
    Level graph limit start steps now (later ++ push graph visit) (insert visit.current visited)
      found := by
  have here := level.nowAt visit List.mem_cons_self
  constructor
  case low => exact level.low
  case nowAt => exact (List.forall_mem_cons.mp level.nowAt).2
  case laterAt =>
    refine List.forall_mem_append.mpr ⟨level.laterAt, ?_⟩
    intro pushed member
    obtain ⟨place, kept, rfl⟩ := List.mem_map.mp member
    have successor := (List.mem_filter.mp kept).1
    exact ⟨by omega, by simp [here.1], mem_ball_succ.mpr (Or.inr ⟨_, here.2, successor⟩)⟩
  case pathSeen =>
    rw [← List.append_assoc]
    refine List.forall_mem_append.mpr ⟨level.visit_pathSeen, ?_⟩
    intro pushed member place inside
    obtain ⟨target, kept, rfl⟩ := List.mem_map.mp member
    rcases List.mem_append.mp inside with old | new
    · rcases level.pathSeen visit List.mem_cons_self place old with seen | rfl
      · exact Or.inl (Finset.mem_insert_of_mem seen)
      · exact Or.inl (Finset.mem_insert_self _ _)
    · exact Or.inr (List.mem_singleton.mp new)
  case known => exact level.visit_known
  case reached => exact level.visit_reached
  case closed =>
    intro under before member place successor
    rcases Finset.mem_insert.mp member with rfl | old
    · by_cases onPath : place ∈ visit.path
      · left
        rcases level.pathSeen visit List.mem_cons_self place onPath with seen | rfl
        · exact level.known place seen
        · exact here.2
      · right
        refine ⟨⟨place, visit.path ++ [place], visit.hops + 1⟩, ?_, rfl⟩
        apply List.mem_append_right
        exact List.mem_map.mpr ⟨place, List.mem_filter.mpr ⟨successor, by simpa using onPath⟩, rfl⟩
    · rcases level.closed under before old place successor with near | ⟨other, listed, same⟩
      · exact Or.inl near
      · exact Or.inr ⟨other, List.mem_append_left _ listed, same⟩
  case earlier =>
    intro fewer under place inside
    exact Finset.mem_insert_of_mem (level.earlier fewer under place inside)
  case noted =>
    intro place
    rw [level.noted place, Finset.mem_insert]
    by_cases same : place = visit.current
    · subst same
      have near : ¬ ∀ fewer < limit, visit.current ∉ ball graph start fewer :=
        fun far => far steps (by omega) here.2
      simp [inner, near]
    · simp [same]

/-- The search is at some level. -/
def Leveled (graph : Graph α) (limit : Nat) (start : α) (search : Search α) : Prop :=
  ∃ steps now later, search.queue = now ++ later ∧
    Level graph limit start steps now later search.visited search.found

omit [DecidableEq α] in
theorem Leveled.head (leveled : Leveled graph limit start ⟨visit :: queue, visited, found⟩) :
    ∃ steps now later, queue = now ++ later ∧
      Level graph limit start steps (visit :: now) later visited found := by
  obtain ⟨steps, now, later, split, level⟩ := leveled
  cases now with
  | cons first now =>
      obtain ⟨rfl, rfl⟩ := List.cons.inj split
      exact ⟨steps, now, later, rfl, level⟩
  | nil =>
      obtain rfl : visit :: queue = later := split
      exact ⟨steps + 1, queue, [], (List.append_nil queue).symm,
        level.turn (List.cons_ne_nil visit queue)⟩

omit [DecidableEq α] in
theorem Leveled.ends (leveled : Leveled graph limit start current) {visit : Visit α}
    (noted : visit ∈ current.found) : EndsAt graph limit start visit.current := by
  obtain ⟨steps, now, later, _, level⟩ := leveled
  obtain ⟨seen, ending⟩ := (level.noted visit.current).mp ⟨visit, noted, rfl⟩
  exact ⟨ball_mono (level.known _ seen) level.low, ending⟩

omit [DecidableEq α] in
theorem Leveled.visited_ball (leveled : Leveled graph limit start current)
    (seen : place ∈ current.visited) : place ∈ ball graph start limit := by
  obtain ⟨steps, now, later, _, level⟩ := leveled
  exact ball_mono (level.known place seen) level.low

theorem Leveled.moves (leveled : Leveled graph limit start current)
    (moves : Moves graph limit current after) : Leveled graph limit start after := by
  cases moves with
  | skip seen =>
      obtain ⟨steps, now, later, rfl, level⟩ := leveled.head
      exact ⟨steps, now, later, rfl, level.skip seen⟩
  | note fresh final =>
      obtain ⟨steps, now, later, rfl, level⟩ := leveled.head
      exact ⟨steps, now, later, rfl, level.note fresh final⟩
  | expand _ inner low =>
      obtain ⟨steps, now, later, rfl, level⟩ := leveled.head
      exact ⟨steps, now, _, List.append_assoc _ _ _, level.expand inner low⟩

omit [DecidableEq α] in
theorem leveled_initial : Leveled graph limit start (initial start ∅) :=
  ⟨0, _, [], rfl, level_initial⟩

omit [DecidableEq α] in
theorem Level.covers (level : Level graph limit start steps [] [] visited found) :
    place ∈ visited ↔ place ∈ ball graph start limit := by
  have done : ∀ place ∈ ball graph start steps, place ∈ visited := by
    intro place inside
    simpa using level.reached place inside
  constructor
  · intro seen
    exact ball_mono (level.known place seen) level.low
  · have all (more : Nat) (bound : steps + more ≤ limit) :
        ∀ place ∈ ball graph start (steps + more), place ∈ visited := by
      induction more with
      | zero => exact done
      | succ more ih =>
          intro place inside
          rcases mem_ball_succ.mp inside with near | ⟨before, near, successor⟩
          · exact ih (by omega) place near
          · have seen := ih (by omega) before near
            rcases level.closed (by omega) before seen place successor with old | ⟨_, none, _⟩
            · exact done place old
            · cases none
    intro inside
    have whole : steps + (limit - steps) = limit := by
      have low := level.low
      omega
    rw [← whole] at inside
    exact all (limit - steps) (by omega) place inside

end Levels

section Alone

variable (graph limit start) in
theorem level_search : ∃ steps, Level graph limit start steps [] []
    (search graph limit start ∅).visited (search graph limit start ∅).found := by
  obtain ⟨⟨steps, now, later, split, level⟩, ended⟩ :=
    search_invariant start ∅ (Leveled graph limit start) leveled_initial
      (fun _ _ leveled moves => leveled.moves moves)
  rw [ended] at split
  obtain ⟨rfl, rfl⟩ := List.append_eq_nil_iff.mp split.symm
  exact ⟨steps, level⟩

theorem mem_visited_search :
    place ∈ (search graph limit start ∅).visited ↔ place ∈ ball graph start limit := by
  obtain ⟨_, level⟩ := level_search graph limit start
  exact level.covers

theorem mem_found_search :
    (∃ visit ∈ (search graph limit start ∅).found, visit.current = place) ↔
      EndsAt graph limit start place := by
  obtain ⟨_, level⟩ := level_search graph limit start
  rw [level.noted place, level.covers]
  exact Iff.rfl

end Alone

end BreadthFirst
