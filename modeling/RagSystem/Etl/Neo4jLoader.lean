import Mathlib.Data.Rat.Init
import RagSystem.Data.Batches
import RagSystem.Data.Dict

/-! The loader of the knowledge graph (`etl/graph_builder/neo4j_loader.py`): what its Cypher
statements make of the graph. -/

namespace RagSystem.Etl.Neo4j

open Batches

inductive Property where
  | text (value : String)
  | number (value : ℚ)
  | flag (value : Bool)
  | texts (values : List String)
  deriving DecidableEq, Repr

structure Entity where
  id : String
  name : String
  type : String
  sourceId : Option String
  properties : Dict String Property
  deriving DecidableEq, Repr

structure Relation where
  source : String
  target : String
  type : String
  properties : Dict String Property
  deriving DecidableEq, Repr

/-- A node labelled `Entity`; `labels` are its other ones. -/
structure Node where
  name : String
  type : String
  sourceId : Option String
  properties : Dict String Property
  labels : List String
  deriving DecidableEq, Repr

structure Edge where
  source : String
  target : String
  label : String
  properties : Dict String Property
  deriving DecidableEq, Repr

/-- The nodes by their ids, of which `MERGE` makes one each. -/
structure Graph where
  nodes : Dict String Node
  edges : List Edge
  deriving DecidableEq, Repr

structure Neo4jLoader where
  batchSize : Nat := 500
  positive : 0 < batchSize := by decide

def Graph.empty : Graph := ⟨∅, []⟩

/-- The label that a node of the type gets besides `Entity`. -/
def typeLabel (type : String) : Option String :=
  if type = "PERSON" then some "Person"
  else if type = "ORGANIZATION" then some "Organization"
  else if type = "TECHNOLOGY" then some "Technology"
  else if type = "PRODUCT" then some "Product"
  else if type = "LOCATION" then some "Location"
  else none

/-- `MERGE (n:Entity {id: entity.id})` with the `SET` clauses behind it. -/
def mergeEntity (graph : Graph) (entity : Entity) : Graph :=
  let labels := ((graph.nodes.get? entity.id).map Node.labels).getD []
  let added := (typeLabel entity.type).toList.filter (· ∉ labels)
  { graph with
    nodes := graph.nodes.set entity.id
      ⟨entity.name, entity.type, entity.sourceId, entity.properties, labels ++ added⟩ }

/-- `apoc.merge.relationship(a, rel.type, {}, rel.properties, b)`: the properties are those of a
relationship that is new. -/
def apocMerge (edges : List Edge) (rel : Relation) : List Edge :=
  if ∃ edge ∈ edges, edge.source = rel.source ∧ edge.target = rel.target ∧ edge.label = rel.type
  then edges
  else edges ++ [⟨rel.source, rel.target, rel.type, rel.properties⟩]

/-- `(a)-[r:RELATES_TO {type: rel.type}]->(b)`. -/
def Edge.Relates (edge : Edge) (rel : Relation) : Prop :=
  edge.source = rel.source ∧ edge.target = rel.target ∧ edge.label = "RELATES_TO" ∧
    edge.properties.get? "type" = some (.text rel.type)

instance (edge : Edge) (rel : Relation) : Decidable (edge.Relates rel) :=
  inferInstanceAs (Decidable (_ ∧ _))

/-- `SET r += rel.properties`. -/
def Edge.addProperties (rel : Relation) (edge : Edge) : Edge :=
  { edge with properties := edge.properties.setAll rel.properties.entries }

/-- `MERGE (a)-[r:RELATES_TO {type: rel.type}]->(b) SET r += rel.properties`. -/
def plainMerge (edges : List Edge) (rel : Relation) : List Edge :=
  if ∃ edge ∈ edges, edge.Relates rel then
    edges.map (fun edge => if edge.Relates rel then edge.addProperties rel else edge)
  else
    let created : Edge :=
      ⟨rel.source, rel.target, "RELATES_TO", (∅ : Dict _ _).set "type" (.text rel.type)⟩
    edges ++ [created.addProperties rel]

def mergeRelation (apoc : Bool) (graph : Graph) (rel : Relation) : Graph :=
  if rel.source ∈ graph.nodes.keys ∧ rel.target ∈ graph.nodes.keys then
    { graph with
      edges := if apoc then apocMerge graph.edges rel else plainMerge graph.edges rel }
  else graph

def loadEntities (loader : Neo4jLoader) (entities : List Entity) (graph : Graph) : Graph × Nat :=
  if entities = [] then (graph, 0)
  else
    (batches loader.batchSize entities).foldl
      (fun state batch => (batch.foldl mergeEntity state.1, state.2 + batch.length)) (graph, 0)

/-- `apoc` tells for which batches, by their start, the statement with APOC goes through. -/
def loadRelations (loader : Neo4jLoader) (relations : List Relation) (apoc : Nat → Bool)
    (graph : Graph) : Graph × Nat :=
  if relations = [] then (graph, 0)
  else
    (starts loader.batchSize relations.length).foldl
      (fun state start =>
        let batch := batchAt loader.batchSize relations start
        (batch.foldl (mergeRelation (apoc start)) state.1, state.2 + batch.length)) (graph, 0)

/-- `n.source_id IS NOT NULL AND NOT n.source_id IN $valid_ids`. -/
def Node.isOutdated (validSourceIds : List String) (node : Node) : Bool :=
  node.sourceId.any (· ∉ validSourceIds)

/-- `DETACH DELETE` of the nodes that are outdated; how many they are. -/
def deleteOutdatedEntities (validSourceIds : List String) (graph : Graph) : Graph × Nat :=
  if validSourceIds = [] then (graph, 0)
  else
    let outdated := graph.nodes.entries.filter (fun entry => entry.2.isOutdated validSourceIds)
    let gone := outdated.map Prod.fst
    (⟨graph.nodes.eraseAll gone,
      graph.edges.filter (fun edge => edge.source ∉ gone ∧ edge.target ∉ gone)⟩, outdated.length)

end RagSystem.Etl.Neo4j
