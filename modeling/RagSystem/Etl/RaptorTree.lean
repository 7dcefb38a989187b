import RagSystem.Data.Batches
import RagSystem.Data.JsonLayout

/-! The summary tree of a document (`etl/indexer/tree_builder.py`): its chunks are the leaves, and
neighbours of one level get a parent in the next one. -/

namespace RagSystem.Etl.Raptor

open Batches JsonText

variable {φ : Type}

structure Metadata (φ : Type) where
  entries : List (Text × Value φ)
  distinct : Distinct (.obj entries)

/-- An entry of the list of chunks, with `none` for what it does not name. -/
structure Chunk (φ : Type) where
  text : Option Text
  metadata : Option (Metadata φ)

structure TreeNode (φ : Type) where
  id : Text
  level : Nat
  text : Text
  summary : Text := []
  children : List Text := []
  parent : Option Text := none
  embedding : List (PyFloat φ) := []
  metadata : Value φ := .obj []

abbrev Tree (φ : Type) := Dict Text (TreeNode φ)

structure RaptorTreeBuilder where
  maxClusterSize : Nat := 5
  maxLevels : Nat := 3
  /-- The summary of some texts in the call for a cluster of a level. -/
  summaryFn : (level cluster : Nat) → List Text → Text

/-- `f"L{level}_{index}"`. -/
def nodeId (level index : Nat) : Text := codes "L" ++ decimal level ++ codes "_" ++ decimal index

variable (builder : RaptorTreeBuilder)

def clusterTexts (texts : List Text) (maxSize : Nat) : List (List Nat) :=
  (starts maxSize texts.length).map (fun first =>
    List.range' first (min (first + maxSize) texts.length - first))

def leafNode (index : Nat) (chunk : Chunk φ) : TreeNode φ where
  id := nodeId 0 index
  level := 0
  text := chunk.text.getD []
  summary := (chunk.text.getD []).take 500
  metadata := .obj ((chunk.metadata.map Metadata.entries).getD [])

def leafTree (chunks : List (Chunk φ)) : Tree φ :=
  chunks.zipIdx.foldl (fun tree indexed =>
    tree.set (nodeId 0 indexed.2) (leafNode indexed.2 indexed.1)) ∅

/-- `child.parent = node_id`, for a child that the tree refers to. -/
def setParent (parent : Text) (tree : Tree φ) (child : Text) : Tree φ :=
  match tree.get? child with
  | some node => tree.set child { node with parent := some parent }
  | none => tree

def parentNode (level cluster : Nat) (children : List (TreeNode φ)) : TreeNode φ :=
  let summary := builder.summaryFn level cluster (children.map TreeNode.summary)
  { id := nodeId level cluster
    level := level
    text := summary
    summary := summary
    children := children.map TreeNode.id
    metadata := .obj [(codes "num_children", .int children.length)] }

def adopt (tree : Tree φ) (parent : TreeNode φ) : Tree φ :=
  (parent.children.foldl (setParent parent.id) tree).set parent.id parent

def addCluster (level : Nat) (current : List (TreeNode φ)) (state : Tree φ × List (TreeNode φ))
    (cluster : List Nat × Nat) : Tree φ × List (TreeNode φ) :=
  let parent := parentNode builder level cluster.2 (cluster.1.filterMap (current[·]?))
  (adopt state.1 parent, state.2 ++ [parent])

def addLevel (level : Nat) (tree : Tree φ) (current : List (TreeNode φ)) :
    Tree φ × List (TreeNode φ) :=
  let clusters := clusterTexts (current.map TreeNode.summary) builder.maxClusterSize
  clusters.zipIdx.foldl (addCluster builder level current) (tree, [])

/-- `while len(current_level_nodes) > 1 and level <= max_levels`, by the levels that are left. -/
def addLevels : (left level : Nat) → Tree φ → List (TreeNode φ) → Tree φ
  | 0, _, tree, _ => tree
  | left + 1, level, tree, current =>
      if current.length ≤ 1 then tree
      else
        let next := addLevel builder level tree current
        addLevels left (level + 1) next.1 next.2

def buildTree (chunks : List (Chunk φ)) : Tree φ :=
  let leaves := leafTree chunks
  addLevels builder builder.maxLevels 1 leaves (leaves.entries.map Prod.snd)

/-! The file of a tree. -/

section File

def parentValue : Option Text → Value φ
  | some parent => .str parent
  | none => .null

def nodeValue (node : TreeNode φ) : Value φ :=
  .obj [(codes "id", .str node.id), (codes "level", .int node.level),
    (codes "text", .str node.text), (codes "summary", .str node.summary),
    (codes "children", .arr (node.children.map .str)), (codes "parent", parentValue node.parent),
    (codes "metadata", node.metadata)]

def treeValue (tree : Tree φ) : Value φ :=
  .obj (tree.entries.map (fun entry => (entry.1, nodeValue entry.2)))

def encodable (point : Nat) : Bool := decide (Nat.isValidChar point)

variable (floats : Floats φ)

/-- The text of the file; `none` is the exception for a number that is not shown or a code point
that is not encoded. -/
def saveTree (tree : Tree φ) : Option Text :=
  (dumpsWith floats (indented 2) 0 (treeValue tree)).filter (fun text => text.all encodable)

def field (name : String) (entries : List (Text × Value φ)) : Option (Value φ) :=
  (entries.find? (fun entry => entry.1 = codes name)).map Prod.snd

def asText : Value φ → Option Text
  | .str text => some text
  | _ => none

def asLevel : Value φ → Option Nat
  | .int level => level.toNat?
  | _ => none

def asTexts : Value φ → Option (List Text)
  | .arr items => items.mapM asText
  | _ => none

def asParent : Value φ → Option (Option Text)
  | .null => some none
  | .str parent => some (some parent)
  | _ => none

/-- A node from its fields; `none` is the `KeyError` for one that is missing, or a value that is
not of the type of its field. -/
def nodeOf : Value φ → Option (TreeNode φ)
  | .obj entries => do
      let id ← (field "id" entries).bind asText
      let level ← (field "level" entries).bind asLevel
      let text ← (field "text" entries).bind asText
      let summary ← (field "summary" entries).bind asText
      let children ← asTexts ((field "children" entries).getD (.arr []))
      let parent ← asParent ((field "parent" entries).getD .null)
      let metadata := (field "metadata" entries).getD (.obj [])
      pure { id, level, text, summary, children, parent, metadata }
  | _ => none

def loadTree (text : Text) : Option (Tree φ) :=
  match loads floats text with
  | .ok (.obj entries) =>
      (entries.mapM (fun entry => (nodeOf entry.2).map (fun node => (entry.1, node)))).map
        Dict.ofList
  | _ => none

end File

end RagSystem.Etl.Raptor
