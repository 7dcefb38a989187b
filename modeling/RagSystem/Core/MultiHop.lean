import Mathlib.Data.List.Sort
import Mathlib.Data.Rat.Defs
import RagSystem.Data.Dict
import RagSystem.Data.SharedSearch

/-! Multi-hop exploration (`MultiHopGraphExplorer` of `proxy/app/core/retrieval.py`). -/

namespace RagSystem.Core

open BreadthFirst Transition

structure MultiHopGraphExplorer where
  maxHops : Nat := 2
  maxResultsPerHop : Nat := 10
  cycleDetection : Bool := true
  deriving DecidableEq, Repr

abbrev EntityMap := Dict String (List String)

/-- `entity_map.get(entity, [])`. -/
def neighborsOf (entityMap : EntityMap) (entity : String) : List String :=
  (entityMap.get? entity).getD []

structure PathInfo where
  path : List String
  score : ℚ
  hops : Nat
  deriving DecidableEq, Repr

/-- `_score_path`. -/
def scorePath (path : List String) (entityMap : EntityMap) : ℚ :=
  if path = [] then 0
  else
    let totalConnectivity : Nat :=
      (path.map (fun entity => min (neighborsOf entityMap entity).length 10)).sum
    let maxPossible := path.length * 10
    let connectivityScore : ℚ := if 0 < maxPossible then totalConnectivity / maxPossible else 0
    let lengthPenalty : ℚ := 1 / (1 + path.length * (1 / 10))
    connectivityScore * lengthPenalty

/-- The variables of the loop of `_bfs_explore`. -/
structure Bfs where
  queue : List (Visit String)
  visited : Finset String
  paths : List PathInfo
  deriving DecidableEq

namespace MultiHopGraphExplorer

variable (explorer : MultiHopGraphExplorer) (entityMap : EntityMap)

def pathInfo (visit : Visit String) : PathInfo :=
  ⟨visit.path, scorePath visit.path entityMap, visit.hops⟩

/-- A turn of the loop of `_bfs_explore`. -/
def bfsStep (bfs : Bfs) : Option Bfs :=
  match bfs.queue with
  | [] => none
  | visit :: queue =>
      if explorer.cycleDetection = true ∧ visit.current ∈ bfs.visited then
        some { bfs with queue := queue }
      else
        let visited :=
          if explorer.cycleDetection then insert visit.current bfs.visited else bfs.visited
        let neighbors := neighborsOf entityMap visit.current
        if neighbors = [] then
          some ⟨queue, visited, bfs.paths ++ [pathInfo entityMap visit]⟩
        else if explorer.maxHops ≤ visit.hops then
          some ⟨queue, visited, bfs.paths ++ [pathInfo entityMap visit]⟩
        else
          let kept := (neighbors.take explorer.maxResultsPerHop).filter
            (fun neighbor => ¬ (explorer.cycleDetection = true ∧ neighbor ∈ visit.path))
          let behind := kept.map
            (fun neighbor => ⟨neighbor, visit.path ++ [neighbor], visit.hops + 1⟩)
          some ⟨queue ++ behind, visited, bfs.paths⟩

/-- `_bfs_explore`; `none` is a loop that has not ended within the fuel. -/
def bfsExplore (fuel : Nat) (start : String) (visited : Finset String) : Option Bfs :=
  loop (explorer.bfsStep entityMap) fuel ⟨[⟨start, [start], 0⟩], visited, []⟩

/-- The loop of `explore`; the starts share `visited`. -/
def collectPaths (fuel : Nat) : List String → Finset String → Option (List PathInfo)
  | [], _ => some []
  | entity :: rest, visited => do
      let ended ← explorer.bfsExplore entityMap fuel entity visited
      let later ← collectPaths fuel rest ended.visited
      some (ended.paths ++ later)

/-- `all_paths` before the sort. -/
def allPaths (fuel : Nat) (startEntities : List String) : Option (List PathInfo) :=
  if startEntities = [] ∨ entityMap.entries = [] then some []
  else explorer.collectPaths entityMap fuel startEntities ∅

/-- The order of the sort: by `(-score, hops)`. -/
def precedes (first second : PathInfo) : Prop :=
  second.score < first.score ∨ second.score = first.score ∧ first.hops ≤ second.hops

instance : DecidableRel precedes := fun _ _ => inferInstanceAs (Decidable (_ ∨ _ ∧ _))

/-- `explore`. -/
def explore (fuel : Nat) (startEntities : List String) : Option (List PathInfo) :=
  (explorer.allPaths entityMap fuel startEntities).map
    (fun paths => (paths.insertionSort precedes).take (explorer.maxResultsPerHop * 2))

/-! The code's search is a breadth-first search of the first neighbours. -/

def graphOf : Graph String where
  next entity := (neighborsOf entityMap entity).take explorer.maxResultsPerHop
  leaf entity := neighborsOf entityMap entity = []
  width := explorer.maxResultsPerHop
  bounded entity := List.length_take_le _ _
  leaf_next entity leaf := by
    have none : neighborsOf entityMap entity = [] := by simpa using leaf
    rw [none, List.take_nil]

def view (search : Search String) : Bfs :=
  ⟨search.queue, search.visited, search.found.map (pathInfo entityMap)⟩

variable {explorer entityMap} {starts order : List String} {fuel : Nat}

theorem bfsStep_view (detects : explorer.cycleDetection = true) (search : Search String) :
    explorer.bfsStep entityMap (view entityMap search) =
      (step (explorer.graphOf entityMap) explorer.maxHops search).map (view entityMap) := by
  obtain ⟨queue, visited, found⟩ := search
  cases queue with
  | nil => rfl
  | cons visit queue =>
      by_cases seen : visit.current ∈ visited
      · simp [bfsStep, view, step, detects, seen]
      · by_cases leaf : neighborsOf entityMap visit.current = []
        · simp [bfsStep, view, step, graphOf, detects, seen, leaf]
        · by_cases full : explorer.maxHops ≤ visit.hops
          · simp [bfsStep, view, step, graphOf, detects, seen, leaf, full]
          · simp [bfsStep, view, step, push, graphOf, detects, seen, leaf, full]

theorem bfsExplore_eq (detects : explorer.cycleDetection = true)
    (fuelled : enough (explorer.graphOf entityMap) explorer.maxHops ≤ fuel) (start : String)
    (visited : Finset String) :
    explorer.bfsExplore entityMap fuel start visited = some (view entityMap
      (search (explorer.graphOf entityMap) explorer.maxHops start visited)) := by
  have whole : loop (explorer.bfsStep entityMap) fuel (view entityMap (initial start visited)) =
      (loop (step (explorer.graphOf entityMap) explorer.maxHops) fuel
        (initial start visited)).map (view entityMap) :=
    loop_map (view entityMap) (bfsStep_view detects)
  rw [loop_search _ _ _ _ fuelled] at whole
  exact whole

theorem collectPaths_eq (detects : explorer.cycleDetection = true)
    (fuelled : enough (explorer.graphOf entityMap) explorer.maxHops ≤ fuel)
    (visited : Finset String) :
    explorer.collectPaths entityMap fuel starts visited =
      some ((searchAll (explorer.graphOf entityMap) explorer.maxHops starts visited).map
        (pathInfo entityMap)) := by
  induction starts generalizing visited with
  | nil => rfl
  | cons start rest ih =>
      rw [collectPaths, bfsExplore_eq detects fuelled, searchAll, List.map_append]
      simp only [Option.bind_eq_bind, Option.bind_some, view, ih]

/-! What the exploration should do. -/

/-- A simple walk along neighbour edges from one of the starts, of at most `maxHops` edges. -/
structure SimpleWalk (explorer : MultiHopGraphExplorer) (entityMap : EntityMap)
    (starts : List String) (found : PathInfo) : Prop where
  first : ∃ start ∈ starts, found.path.head? = some start
  walk : found.path.IsChain (fun entity neighbor => neighbor ∈ neighborsOf entityMap entity)
  simple : found.path.Nodup
  length : found.path.length = found.hops + 1
  within : found.hops ≤ explorer.maxHops

def Collects (explorer : MultiHopGraphExplorer) (entityMap : EntityMap) (starts : List String)
    (paths : List PathInfo) : Prop :=
  ∃ fuel, ∀ more, fuel ≤ more → explorer.allPaths entityMap more starts = some paths

def HasNeighbor (entityMap : EntityMap) (entity : String) : Prop :=
  ∃ neighbor ∈ neighborsOf entityMap entity, neighbor ≠ entity

instance (entity : String) : Decidable (HasNeighbor entityMap entity) :=
  inferInstanceAs (Decidable (∃ _ ∈ _, _))

/-- The exploration ends with simple walks, one at least from every start that has a neighbour, and
with the same ones in every order of the starts. -/
def ExploresAll (explorer : MultiHopGraphExplorer) (entityMap : EntityMap)
    (starts : List String) : Prop :=
  ∃ paths, Collects explorer entityMap starts paths ∧
    (∀ found ∈ paths, SimpleWalk explorer entityMap starts found) ∧
    (∀ start ∈ starts, HasNeighbor entityMap start →
      ∃ found ∈ paths, found.path.head? = some start) ∧
    ∀ order, order.Perm starts → ∃ others, Collects explorer entityMap order others ∧
      ∀ found, found ∈ others ↔ found ∈ paths

/-- A path from every start that has a neighbour ends somewhere, and none ends where another start
reaches. -/
structure EndsApart (explorer : MultiHopGraphExplorer) (entityMap : EntityMap)
    (starts : List String) : Prop where
  ends : ∀ start ∈ starts, HasNeighbor entityMap start →
    ∃ place ∈ ball (explorer.graphOf entityMap) start explorer.maxHops,
      EndsAt (explorer.graphOf entityMap) explorer.maxHops start place
  apart : Apart (explorer.graphOf entityMap) explorer.maxHops starts

instance : Decidable (EndsApart explorer entityMap starts) :=
  decidable_of_iff (_ ∧ _) ⟨fun parts => ⟨parts.1, parts.2⟩, fun both => ⟨both.1, both.2⟩⟩

theorem allPaths_eq (detects : explorer.cycleDetection = true)
    (someEntries : entityMap.entries ≠ [])
    (fuelled : enough (explorer.graphOf entityMap) explorer.maxHops ≤ fuel) :
    explorer.allPaths entityMap fuel starts =
      some ((searchAll (explorer.graphOf entityMap) explorer.maxHops starts ∅).map
        (pathInfo entityMap)) := by
  by_cases none : starts = []
  · subst none
    rfl
  · rw [allPaths, if_neg (by simp [none, someEntries]), collectPaths_eq detects fuelled]

theorem collects_iff (detects : explorer.cycleDetection = true)
    (someEntries : entityMap.entries ≠ []) {paths : List PathInfo} :
    Collects explorer entityMap starts paths ↔
      paths = (searchAll (explorer.graphOf entityMap) explorer.maxHops starts ∅).map
        (pathInfo entityMap) := by
  constructor
  · intro given
    rcases given with ⟨fuel, ended⟩
    have whole := ended _ (Nat.le_max_left fuel
      (enough (explorer.graphOf entityMap) explorer.maxHops))
    rw [allPaths_eq detects someEntries (Nat.le_max_right _ _)] at whole
    exact (Option.some.inj whole).symm
  · intro given
    rcases given with rfl
    exact ⟨_, fun more fuelled => allPaths_eq detects someEntries fuelled⟩

theorem simpleWalk_of_trail {start : String} (member : start ∈ starts) {visit : Visit String}
    (trail : Trail (explorer.graphOf entityMap) explorer.maxHops start visit) :
    SimpleWalk explorer entityMap starts (pathInfo entityMap visit) where
  first := ⟨start, member, trail.first⟩
  walk := trail.walk.imp (fun _ _ kept => List.mem_of_mem_take kept)
  simple := trail.simple
  length := trail.length
  within := trail.within

theorem simpleWalk_of_noted {visit : Visit String}
    (noted : visit ∈ searchAll (explorer.graphOf entityMap) explorer.maxHops starts ∅) :
    SimpleWalk explorer entityMap starts (pathInfo entityMap visit) := by
  obtain ⟨start, member, trail, _⟩ := trail_of_mem_searchAll noted
  exact simpleWalk_of_trail member trail

variable (entityMap) in
theorem exists_path_iff {visits : List (Visit String)} {path : List String} :
    (∃ visit ∈ visits, visit.path = path) ↔
      ∃ found ∈ visits.map (pathInfo entityMap), found.path = path := by
  simp [pathInfo]

section NonEmpty

variable (detects : explorer.cycleDetection = true) (someEntries : entityMap.entries ≠ [])
include detects someEntries

theorem endsApart_of_exploresAll (distinct : starts.Nodup)
    (explores : ExploresAll explorer entityMap starts) :
    EndsApart explorer entityMap starts := by
  obtain ⟨paths, collected, _, contributes, ordered⟩ := explores
  obtain rfl := (collects_iff detects someEntries).mp collected
  have free : OrderFree (explorer.graphOf entityMap) explorer.maxHops starts := by
    intro order reordered path
    obtain ⟨others, collectedToo, same⟩ := ordered order reordered
    obtain rfl := (collects_iff detects someEntries).mp collectedToo
    rw [exists_path_iff entityMap, exists_path_iff entityMap]
    simp only [same]
  refine ⟨?_, free.apart distinct⟩
  intro start member neighbor
  obtain ⟨found, listed, begins⟩ := contributes start member neighbor
  obtain ⟨visit, noted, rfl⟩ := List.mem_map.mp listed
  obtain ⟨first, _, trail, _⟩ := trail_of_mem_searchAll noted
  obtain rfl : first = start := Option.some.inj (trail.first.symm.trans begins)
  have order := (List.perm_cons_erase member).symm
  obtain ⟨other, notedToo, same⟩ := (free _ order visit.path).mpr ⟨visit, noted, rfl⟩
  have own := found_of_trail (order.nodup_iff.mpr distinct) notedToo trail same
  have ending := mem_found_search.mp ⟨other, own, rfl⟩
  exact ⟨other.current, ending.1, ending⟩

theorem exploresAll_of_endsApart (distinct : starts.Nodup)
    (ends : EndsApart explorer entityMap starts) : ExploresAll explorer entityMap starts := by
  refine ⟨_, (collects_iff detects someEntries).mpr rfl, ?_, ?_, ?_⟩
  · intro found listed
    obtain ⟨visit, noted, rfl⟩ := List.mem_map.mp listed
    exact simpleWalk_of_noted noted
  · intro start member neighbor
    obtain ⟨place, _, ending⟩ := ends.ends start member neighbor
    obtain ⟨visit, noted, _⟩ := mem_found_search.mpr ending
    have whole := (mem_searchAll_of_apart ends.apart distinct).mpr ⟨start, member, noted⟩
    exact ⟨_, List.mem_map_of_mem whole,
      ((trailing_search _ _ start ∅).found visit noted).1.first⟩
  · intro order reordered
    refine ⟨_, (collects_iff detects someEntries).mpr rfl, ?_⟩
    intro found
    simp only [List.mem_map, mem_searchAll_perm ends.apart distinct reordered]

end NonEmpty

section Empty

variable (none : entityMap.entries = [])
include none

theorem neighborsOf_empty (entity : String) : neighborsOf entityMap entity = [] := by
  simp [neighborsOf, Dict.get?, none]

theorem exploresAll_empty : ExploresAll explorer entityMap starts := by
  have collected (order : List String) : Collects explorer entityMap order [] := by
    refine ⟨0, ?_⟩
    intro more _
    rw [allPaths, if_pos (Or.inr none)]
  refine ⟨[], collected starts, by simp, ?_, fun order _ => ⟨[], collected order, by simp⟩⟩
  intro start _ neighbor
  obtain ⟨other, member, _⟩ := neighbor
  rw [neighborsOf_empty none] at member
  cases member

theorem ball_empty (start : String) (steps : Nat) {place : String}
    (inside : place ∈ ball (explorer.graphOf entityMap) start steps) : place = start := by
  induction steps with
  | zero => exact List.mem_singleton.mp inside
  | succ steps ih =>
      rcases mem_ball_succ.mp inside with near | ⟨before, _, successor⟩
      · exact ih near
      · have kept := List.mem_of_mem_take successor
        rw [neighborsOf_empty none] at kept
        cases kept

theorem endsApart_empty : EndsApart explorer entityMap starts := by
  constructor
  · intro start _ neighbor
    obtain ⟨other, member, _⟩ := neighbor
    rw [neighborsOf_empty none] at member
    cases member
  · intro first _ second _ different place near ending
    exact different ((ball_empty none first _ near).symm.trans (ball_empty none second _ ending.1))

end Empty

/-- The exploration does what it should exactly where the ends of the starts are apart. -/
theorem exploresAll_iff (explorer : MultiHopGraphExplorer) (entityMap : EntityMap)
    (starts : List String) (detects : explorer.cycleDetection = true) (distinct : starts.Nodup) :
    ExploresAll explorer entityMap starts ↔ EndsApart explorer entityMap starts := by
  by_cases none : entityMap.entries = []
  · exact ⟨fun _ => endsApart_empty none, fun _ => exploresAll_empty none⟩
  · exact ⟨endsApart_of_exploresAll detects none distinct,
      exploresAll_of_endsApart detects none distinct⟩

def forked : EntityMap :=
  ⟨[("A", ["B", "C"]), ("B", ["A", "D"]), ("C", []), ("X", ["Y", "X"])], by decide⟩

theorem exploresAll_iff_forked : ExploresAll {} forked ["A", "X"] :=
  (exploresAll_iff {} forked ["A", "X"] rfl (by decide)).mpr (by decide +kernel)

def paired : EntityMap := ⟨[("A", ["B"]), ("B", ["A"])], by decide⟩

def chained : EntityMap := ⟨[("A", ["B"]), ("B", ["C"]), ("C", [])], by decide⟩

theorem exploresAll_fails :
    (explore {} paired 10 ["A"] = some [] ∧ ¬ ExploresAll {} paired ["A"]) ∧
      (allPaths {} chained 10 ["A", "B"]).map (List.map PathInfo.path) =
        some [["A", "B", "C"]] ∧
      (allPaths {} chained 10 ["B", "A"]).map (List.map PathInfo.path) = some [["B", "C"]] ∧
      ¬ ExploresAll {} chained ["A", "B"] := by
  refine ⟨⟨by decide +kernel, ?_⟩, by decide +kernel, by decide +kernel, ?_⟩
  · intro given
    rcases given with ⟨paths, collected, _, contributes, _⟩
    obtain rfl := (collects_iff rfl (by decide)).mp collected
    exact absurd (contributes "A" (by decide) (by decide)) (by decide +kernel)
  · intro given
    rcases given with ⟨paths, collected, _, contributes, _⟩
    obtain rfl := (collects_iff rfl (by decide)).mp collected
    exact absurd (contributes "B" (by decide) (by decide)) (by decide +kernel)

end MultiHopGraphExplorer

end RagSystem.Core
