import RagSystem.Data.Builtins
import RagSystem.Data.Components
import RagSystem.Data.Dict

/-! The communities of a knowledge graph: `detect_communities` of
`etl/graph_builder/community.py`. -/

namespace RagSystem.Etl.GraphCommunities

open Components

universe u

structure Entity where
  id : Option String
  name : Option String
  deriving DecidableEq, Repr

/-- A relation; `rest` is what its dictionary holds besides its ends. -/
structure Relationship (ρ : Type u) where
  source : Option String
  target : Option String
  rest : ρ
  deriving DecidableEq, Repr

structure Community (ρ : Type u) where
  id : String
  level : Nat
  members : List String
  summary : String
  keyEntities : List String
  relationships : List (Relationship ρ)
  size : Nat
  deriving DecidableEq, Repr

structure CommunityDetector where
  minCommunitySize : Int := 3

/-- How a set is iterated, by the order in which its elements were added. -/
structure SetOrder where
  iterate : List String → List String
  perm : ∀ added, (iterate added).Perm added

abbrev Adjacency := Dict String (List String)

variable {ρ : Type u}

def Entity.eid (entity : Entity) : String := entity.id.getD (entity.name.getD "")

/-- `adj.get(key, set())`. -/
def neighbourSet (adj : Adjacency) (key : String) : List String := (adj.get? key).getD []

/-- `adj[key].add(other)`. -/
def addNeighbour (adj : Adjacency) (key other : String) : Adjacency :=
  if other ∈ neighbourSet adj key then adj
  else adj.set key (neighbourSet adj key ++ [other])

def addEntity (adj : Adjacency) (entity : Entity) : Adjacency :=
  if entity.eid ∈ adj.keys then adj else adj.set entity.eid []

def addRelationship (adj : Adjacency) (rel : Relationship ρ) : Adjacency :=
  let source := rel.source.getD ""
  let target := rel.target.getD ""
  if source ∈ adj.keys ∧ target ∈ adj.keys then
    addNeighbour (addNeighbour adj source target) target source
  else adj

def adjacency (entities : List Entity) (relationships : List (Relationship ρ)) : Adjacency :=
  relationships.foldl addRelationship (entities.foldl addEntity ∅)

def neighbours (order : SetOrder) (adj : Adjacency) (key : String) : List String :=
  order.iterate (neighbourSet adj key)

def communityRels (relationships : List (Relationship ρ)) (component : List String) :
    List (Relationship ρ) :=
  relationships.filter (fun rel =>
    rel.source.any (· ∈ component) ∧ rel.target.any (· ∈ component))

/-- `len(adj.get(eid, set()) & set(component))`. -/
def connections (adj : Adjacency) (component : List String) (eid : String) : Nat :=
  ((neighbourSet adj eid).filter (· ∈ component)).length

def keyEntities (adj : Adjacency) (component : List String) : List String :=
  (sortDescending (fun eid => (connections adj component eid : ℚ)) component).take 5

def community (adj : Adjacency) (relationships : List (Relationship ρ)) (index : Nat)
    (component : List String) : Community ρ where
  id := s!"community_{index}"
  level := 0
  members := component
  summary := ""
  keyEntities := keyEntities adj component
  relationships := communityRels relationships component
  size := component.length

def addComponent (detector : CommunityDetector) (order : SetOrder) (adj : Adjacency)
    (relationships : List (Relationship ρ)) (state : Finset String × List (Community ρ))
    (entityId : String) : Finset String × List (Community ρ) :=
  if entityId ∈ state.1 then state
  else
    let found := search (neighbours order adj) adj.keys entityId state.1
    if detector.minCommunitySize ≤ found.component.length then
      (found.visited,
        state.2 ++ [community adj relationships state.2.length found.component])
    else (found.visited, state.2)

def detectCommunities (detector : CommunityDetector) (order : SetOrder) (entities : List Entity)
    (relationships : List (Relationship ρ)) : List (Community ρ) :=
  let adj := adjacency entities relationships
  (adj.keys.foldl (addComponent detector order adj relationships) (∅, [])).2

end RagSystem.Etl.GraphCommunities
