import RagSystem.Data.JsonRoundTrip
import RagSystem.Etl.RaptorTree

/-! The tree of the summaries is a forest over the chunks, and its file holds the same tree. -/

namespace RagSystem.Etl.Raptor

open Batches JsonText

variable {φ : Type}

def isRoot (tree : Tree φ) (key : Text) : Bool :=
  (tree.get? key).any (fun node => node.parent.isNone)

def roots (tree : Tree φ) : List Text := tree.keys.filter (isRoot tree)

def levelOf (tree : Tree φ) (key : Text) : Nat := ((tree.get? key).map TreeNode.level).getD 0

def leavesBelow (tree : Tree φ) : Nat → Text → List Text
  | 0, key => [key]
  | depth + 1, key =>
      match tree.get? key with
      | some node => node.children.flatMap (leavesBelow tree depth)
      | none => []

def leafKeys (tree : Tree φ) : List Text :=
  (roots tree).flatMap (fun key => leavesBelow tree (levelOf tree key) key)

/-- The links of the nodes: parents and children refer to each other, and children are of the level
below. -/
structure Linked (maxSize : Nat) (tree : Tree φ) : Prop where
  keyed : ∀ key node, tree.get? key = some node → node.id = key
  inverse : ∀ parent child,
    (∃ node, tree.get? parent = some node ∧ child ∈ node.children) ↔
      ∃ node, tree.get? child = some node ∧ node.parent = some parent
  once : ∀ key node, tree.get? key = some node → node.children.Nodup
  sized : ∀ key node, tree.get? key = some node → 0 < node.level →
    1 ≤ node.children.length ∧ node.children.length ≤ maxSize
  descends : ∀ key node, tree.get? key = some node → ∀ child ∈ node.children,
    ∃ below, tree.get? child = some below ∧ below.level + 1 = node.level

def HoldsChunk (tree : Tree φ) (index : Nat) (chunk : Chunk φ) : Prop :=
  ∃ node, tree.get? (nodeId 0 index) = some node ∧ node.level = 0 ∧
    node.text = chunk.text.getD [] ∧
    node.metadata = .obj ((chunk.metadata.map Metadata.entries).getD [])

/-- A forest whose leaves are the chunks, each of them once and in their order. -/
structure Forest (maxSize : Nat) (chunks : List (Chunk φ)) (tree : Tree φ) : Prop
    extends Linked maxSize tree where
  unique : (tree.entries.map (fun entry => entry.2.id)).Nodup
  leaves : leafKeys tree = (List.range chunks.length).map (nodeId 0)
  held : ∀ index chunk, chunks[index]? = some chunk → HoldsChunk tree index chunk

/-! The names of the nodes. -/

theorem nodeId_injective {level index otherLevel otherIndex : Nat}
    (same : nodeId level index = nodeId otherLevel otherIndex) :
    level = otherLevel ∧ index = otherIndex := by
  have digits (number : Nat) : 95 ∉ decimal number := by
    intro member
    exact absurd (isDigit_decimal number 95 member) (by decide)
  have split : decimal level ++ 95 :: decimal index =
      decimal otherLevel ++ 95 :: decimal otherIndex := by
    simpa [nodeId, codes] using same
  obtain ⟨levels, -, indexes⟩ :=
    (List.append_cons_inj_of_notMem (digits level) (digits index)).mp split
  constructor
  · rw [← decimalValue_decimal level, levels, decimalValue_decimal]
  · rw [← decimalValue_decimal index, indexes, decimalValue_decimal]

section Adoption

variable {tree : Tree φ} {parent node : TreeNode φ} {key child name : Text}
  {children : List Text} {maxSize : Nat}

theorem get?_setParent :
    (setParent name tree child).get? key =
      if key = child then (tree.get? key).map (fun node => { node with parent := some name })
      else tree.get? key := by
  rw [setParent]
  cases found : tree.get? child with
  | none =>
      by_cases same : key = child
      · subst same
        simp [found]
      · simp [same]
  | some node =>
      rw [Dict.get?_set]
      by_cases same : key = child
      · subst same
        simp [found]
      · simp [same]

theorem get?_setParents :
    (children.foldl (setParent name) tree).get? key =
      if key ∈ children then (tree.get? key).map (fun node => { node with parent := some name })
      else tree.get? key := by
  induction children generalizing tree with
  | nil => rfl
  | cons child rest ih =>
      rw [List.foldl_cons, ih, get?_setParent]
      by_cases same : key = child
      · subst same
        by_cases later : key ∈ rest
        · simp [later, Function.comp_def]
        · simp [later]
      · simp [same]

theorem keys_setParents : (children.foldl (setParent name) tree).keys = tree.keys := by
  induction children generalizing tree with
  | nil => rfl
  | cons child rest ih =>
      rw [List.foldl_cons, ih, setParent]
      cases found : tree.get? child with
      | none => rfl
      | some node =>
          have present : child ∈ tree.keys := (Dict.mem_keys_iff tree child).mpr ⟨node, found⟩
          simp only [Dict.keys_set, if_pos present]

theorem get?_adopt :
    (adopt tree parent).get? key =
      if key = parent.id then some parent
      else if key ∈ parent.children then
        (tree.get? key).map (fun node => { node with parent := some parent.id })
      else tree.get? key := by
  rw [adopt, Dict.get?_set, get?_setParents]

theorem keys_adopt (fresh : tree.get? parent.id = none) :
    (adopt tree parent).keys = tree.keys ++ [parent.id] := by
  have absent : parent.id ∉ tree.keys := by
    rw [Dict.mem_keys_iff, fresh]
    simp
  rw [adopt, Dict.keys_set, keys_setParents, if_neg absent]

/-- A node that the tree does not hold yet, over some of its roots. -/
structure Adopts (maxSize : Nat) (tree : Tree φ) (parent : TreeNode φ) : Prop where
  fresh : tree.get? parent.id = none
  root : parent.parent = none
  once : parent.children.Nodup
  sized : 1 ≤ parent.children.length ∧ parent.children.length ≤ maxSize
  waiting : ∀ child ∈ parent.children,
    ∃ node, tree.get? child = some node ∧ node.parent = none ∧ node.level + 1 = parent.level

theorem Adopts.ne (adopts : Adopts maxSize tree parent) (member : child ∈ parent.children) :
    child ≠ parent.id := by
  intro given
  rcases given with rfl
  obtain ⟨node, found, -⟩ := adopts.waiting _ member
  rw [adopts.fresh] at found
  cases found

theorem Adopts.kept (adopts : Adopts maxSize tree parent) (found : tree.get? key = some node) :
    ∃ after, (adopt tree parent).get? key = some after ∧
      after = { node with
        parent := if key ∈ parent.children then some parent.id else node.parent } := by
  have other : key ≠ parent.id := by
    intro given
    rcases given with rfl
    rw [adopts.fresh] at found
    cases found
  rw [get?_adopt, if_neg other, found]
  split
  · exact ⟨_, rfl, rfl⟩
  · exact ⟨_, rfl, rfl⟩

theorem Adopts.get?_adopt_iff (adopts : Adopts maxSize tree parent) :
    (adopt tree parent).get? key = some node ↔
      key = parent.id ∧ node = parent ∨
        ∃ before, tree.get? key = some before ∧
          node = { before with
            parent := if key ∈ parent.children then some parent.id else before.parent } := by
  constructor
  · intro found
    by_cases same : key = parent.id
    · subst same
      rw [get?_adopt, if_pos rfl] at found
      exact Or.inl ⟨rfl, (Option.some.inj found).symm⟩
    · right
      cases held : tree.get? key with
      | none =>
          rw [get?_adopt, if_neg same, held] at found
          simp at found
      | some before =>
          obtain ⟨after, stored, shape⟩ := adopts.kept held
          rw [found] at stored
          exact ⟨before, rfl, (Option.some.inj stored).trans shape⟩
  · intro given
    rcases given with ⟨rfl, rfl⟩ | ⟨before, held, rfl⟩
    · rw [get?_adopt, if_pos rfl]
    · obtain ⟨after, stored, rfl⟩ := adopts.kept held
      exact stored

theorem Linked.adopt (linked : Linked maxSize tree) (adopts : Adopts maxSize tree parent) :
    Linked maxSize (adopt tree parent) where
  keyed := by
    intro key node found
    rcases adopts.get?_adopt_iff.mp found with ⟨rfl, rfl⟩ | ⟨before, held, rfl⟩
    · rfl
    · exact linked.keyed key before held
  inverse := by
    intro above child
    simp only [adopts.get?_adopt_iff]
    constructor
    · intro given
      rcases given with ⟨node, ⟨rfl, rfl⟩ | ⟨before, held, rfl⟩, member⟩
      · obtain ⟨below, found, -⟩ := adopts.waiting child member
        exact ⟨_, Or.inr ⟨below, found, rfl⟩, if_pos member⟩
      · obtain ⟨below, found, points⟩ := (linked.inverse above child).mp ⟨before, held, member⟩
        have other : child ∉ parent.children := by
          intro adopted
          obtain ⟨waiting, again, unowned, -⟩ := adopts.waiting child adopted
          obtain rfl := Option.some.inj (found.symm.trans again)
          rw [unowned] at points
          cases points
        exact ⟨_, Or.inr ⟨below, found, rfl⟩, (if_neg other).trans points⟩
    · intro given
      rcases given with ⟨node, ⟨rfl, rfl⟩ | ⟨below, found, rfl⟩, points⟩
      · rw [adopts.root] at points
        cases points
      · dsimp only at points
        by_cases adopted : child ∈ parent.children
        · rw [if_pos adopted] at points
          obtain rfl := Option.some.inj points
          exact ⟨parent, Or.inl ⟨rfl, rfl⟩, adopted⟩
        · rw [if_neg adopted] at points
          obtain ⟨before, held, member⟩ := (linked.inverse above child).mpr ⟨below, found, points⟩
          exact ⟨_, Or.inr ⟨before, held, rfl⟩, member⟩
  once := by
    intro key node found
    rcases adopts.get?_adopt_iff.mp found with ⟨rfl, rfl⟩ | ⟨before, held, rfl⟩
    · exact adopts.once
    · exact linked.once key before held
  sized := by
    intro key node found high
    rcases adopts.get?_adopt_iff.mp found with ⟨rfl, rfl⟩ | ⟨before, held, rfl⟩
    · exact adopts.sized
    · exact linked.sized key before held high
  descends := by
    intro key node found child member
    rcases adopts.get?_adopt_iff.mp found with ⟨rfl, rfl⟩ | ⟨before, held, rfl⟩
    · obtain ⟨below, waiting, -, lower⟩ := adopts.waiting child member
      exact ⟨_, adopts.get?_adopt_iff.mpr (Or.inr ⟨below, waiting, rfl⟩), lower⟩
    · obtain ⟨below, found, lower⟩ := linked.descends key before held child member
      exact ⟨_, adopts.get?_adopt_iff.mpr (Or.inr ⟨below, found, rfl⟩), lower⟩

theorem Adopts.roots_adopt (adopts : Adopts maxSize tree parent) :
    roots (adopt tree parent) =
      (roots tree).filter (· ∉ parent.children) ++ [parent.id] := by
  have stays : ∀ key ∈ tree.keys, isRoot (adopt tree parent) key =
      (decide (key ∉ parent.children) && isRoot tree key) := by
    intro key present
    obtain ⟨node, found⟩ := (Dict.mem_keys_iff tree key).mp present
    obtain ⟨after, stored, rfl⟩ := adopts.kept found
    rw [isRoot, isRoot, stored, found]
    by_cases adopted : key ∈ parent.children
    · simp [adopted]
    · simp [adopted]
  have joins : isRoot (adopt tree parent) parent.id = true := by
    rw [isRoot, get?_adopt, if_pos rfl]
    simp [adopts.root]
  rw [roots, keys_adopt adopts.fresh, List.filter_append, List.filter_cons_of_pos joins,
    List.filter_nil, List.filter_congr stays, roots, List.filter_filter]

theorem Adopts.levelOf_adopt (adopts : Adopts maxSize tree parent)
    (found : tree.get? key = some node) : levelOf (adopt tree parent) key = levelOf tree key := by
  obtain ⟨after, stored, rfl⟩ := adopts.kept found
  rw [levelOf, levelOf, stored, found]
  rfl

theorem Adopts.leavesBelow_adopt (adopts : Adopts maxSize tree parent)
    (linked : Linked maxSize tree) (depth : Nat) (found : tree.get? key = some node) :
    leavesBelow (adopt tree parent) depth key = leavesBelow tree depth key := by
  induction depth generalizing key node with
  | zero => rfl
  | succ depth ih =>
      obtain ⟨after, stored, rfl⟩ := adopts.kept found
      simp only [leavesBelow, stored, found]
      apply List.flatMap_congr
      intro child member
      obtain ⟨below, held, -⟩ := linked.descends key node found child member
      exact ih held

theorem HoldsChunk.adopt {index : Nat} {chunk : Chunk φ} (holds : HoldsChunk tree index chunk)
    (adopts : Adopts maxSize tree parent) : HoldsChunk (adopt tree parent) index chunk := by
  obtain ⟨node, found, level, text, metadata⟩ := holds
  obtain ⟨after, stored, rfl⟩ := adopts.kept found
  exact ⟨_, stored, level, text, metadata⟩

end Adoption

/-! The loops. -/

/-- A tree in the middle of a level: nodes of the level below wait for their parents, and those of
the level that are there cover what stands before them. -/
structure Building (maxSize : Nat) (chunks : List (Chunk φ)) (level : Nat) (tree : Tree φ)
    (waiting done : List Text) : Prop where
  linked : Linked maxSize tree
  roots : roots tree = waiting ++ done
  below : ∀ key ∈ waiting, ∃ node, tree.get? key = some node ∧ node.level + 1 = level
  reached : ∀ key ∈ done, ∃ node, tree.get? key = some node ∧ node.level = level
  named : ∀ key node, tree.get? key = some node →
    ∃ index, key = nodeId node.level index ∧
      (node.level < level ∨ node.level = level ∧ index < done.length)
  leaves : (done ++ waiting).flatMap (fun key => leavesBelow tree (levelOf tree key) key) =
    (List.range chunks.length).map (nodeId 0)
  held : ∀ index chunk, chunks[index]? = some chunk → HoldsChunk tree index chunk
  plain : ∀ key node, tree.get? key = some node → Distinct node.metadata

section Loops

variable {tree : Tree φ} {parent node : TreeNode φ} {key : Text} {chunks : List (Chunk φ)}
  {maxSize level : Nat} {batch waiting done : List Text}

theorem Building.nodup (building : Building maxSize chunks level tree waiting done) :
    (waiting ++ done).Nodup := by
  rw [← building.roots]
  exact tree.nodup_keys.filter _

theorem Building.unowned (building : Building maxSize chunks level tree waiting done)
    (member : key ∈ waiting) (found : tree.get? key = some node) : node.parent = none := by
  have root : key ∈ Raptor.roots tree := by
    rw [building.roots]
    exact List.mem_append_left done member
  have unowned := (List.mem_filter.mp root).2
  rw [isRoot, found] at unowned
  exact Option.isNone_iff_eq_none.mp unowned

theorem Building.adopts
    (building : Building maxSize chunks level tree (batch ++ waiting) done)
    (named : parent.id = nodeId level done.length) (leveled : parent.level = level)
    (root : parent.parent = none) (adopted : parent.children = batch)
    (sized : 1 ≤ batch.length ∧ batch.length ≤ maxSize) : Adopts maxSize tree parent where
  fresh := by
    cases found : tree.get? parent.id with
    | none => rfl
    | some node =>
        obtain ⟨index, same, low⟩ := building.named _ node found
        obtain ⟨rfl, rfl⟩ := nodeId_injective (named.symm.trans same)
        omega
  root := root
  once := by
    rw [adopted]
    exact (building.nodup.sublist (List.sublist_append_left _ done)).sublist
      (List.sublist_append_left batch waiting)
  sized := by rwa [adopted]
  waiting := by
    intro child member
    rw [adopted] at member
    have waits : child ∈ batch ++ waiting := List.mem_append_left waiting member
    obtain ⟨node, found, lower⟩ := building.below child waits
    exact ⟨node, found, building.unowned waits found, lower.trans leveled.symm⟩

theorem Building.roots_adopt
    (building : Building maxSize chunks level tree (batch ++ waiting) done)
    (adopts : Adopts maxSize tree parent) (adopted : parent.children = batch) :
    Raptor.roots (adopt tree parent) = waiting ++ (done ++ [parent.id]) := by
  have nodup := building.nodup
  rw [List.append_assoc] at nodup
  have apart : ∀ key ∈ waiting ++ done, key ∉ batch := by
    intro key later member
    exact List.disjoint_of_nodup_append nodup member later
  have rest : (batch ++ (waiting ++ done)).filter (· ∉ batch) = waiting ++ done := by
    rw [List.filter_append, List.filter_eq_nil_iff.mpr (by simp), List.nil_append]
    apply List.filter_eq_self.mpr
    intro key member
    simpa using apart key member
  rw [adopts.roots_adopt, building.roots, adopted, List.append_assoc, rest, List.append_assoc]

theorem Building.leavesBelow_parent
    (building : Building maxSize chunks level tree (batch ++ waiting) done)
    (adopts : Adopts maxSize tree parent) (leveled : parent.level = level)
    (adopted : parent.children = batch) (some : 1 ≤ batch.length) :
    leavesBelow (adopt tree parent) (levelOf (adopt tree parent) parent.id) parent.id =
      batch.flatMap (fun key => leavesBelow tree (levelOf tree key) key) := by
  have joined : (adopt tree parent).get? parent.id = Option.some parent := by
    rw [get?_adopt, if_pos rfl]
  have high : levelOf (adopt tree parent) parent.id = level := by
    rw [levelOf, joined]
    exact leveled
  obtain ⟨first, inFront⟩ := List.exists_mem_of_length_pos some
  obtain ⟨node, _, lower⟩ := building.below first (List.mem_append_left waiting inFront)
  rw [high, ← lower, leavesBelow, joined]
  simp only [adopted]
  apply List.flatMap_congr
  intro child member
  obtain ⟨below, found, under⟩ := building.below child (List.mem_append_left waiting member)
  have depth : levelOf tree child = node.level := by
    rw [levelOf, found, Option.map_some, Option.getD_some]
    omega
  rw [adopts.leavesBelow_adopt building.linked _ found, depth]

theorem Building.leavesBelow_kept (building : Building maxSize chunks level tree waiting done)
    (adopts : Adopts maxSize tree parent) (member : key ∈ waiting ++ done) :
    leavesBelow (adopt tree parent) (levelOf (adopt tree parent) key) key =
      leavesBelow tree (levelOf tree key) key := by
  have present : ∃ node, tree.get? key = some node := by
    rcases List.mem_append.mp member with waits | ready
    · obtain ⟨node, found, _⟩ := building.below key waits
      exact ⟨node, found⟩
    · obtain ⟨node, found, _⟩ := building.reached key ready
      exact ⟨node, found⟩
  obtain ⟨node, found⟩ := present
  rw [adopts.levelOf_adopt found]
  exact adopts.leavesBelow_adopt building.linked _ found

theorem Building.step (building : Building maxSize chunks level tree (batch ++ waiting) done)
    (named : parent.id = nodeId level done.length) (leveled : parent.level = level)
    (root : parent.parent = none) (adopted : parent.children = batch)
    (sized : 1 ≤ batch.length ∧ batch.length ≤ maxSize) (plain : Distinct parent.metadata) :
    Building maxSize chunks level (adopt tree parent) waiting (done ++ [parent.id]) := by
  have adopts := building.adopts named leveled root adopted sized
  have joined : (adopt tree parent).get? parent.id = some parent := by
    rw [get?_adopt, if_pos rfl]
  constructor
  case linked => exact building.linked.adopt adopts
  case roots => exact building.roots_adopt adopts adopted
  case below =>
    intro key member
    obtain ⟨node, found, lower⟩ := building.below key (List.mem_append_right batch member)
    obtain ⟨after, stored, rfl⟩ := adopts.kept found
    exact ⟨_, stored, lower⟩
  case reached =>
    intro key member
    rcases List.mem_append.mp member with earlier | new
    · obtain ⟨node, found, here⟩ := building.reached key earlier
      obtain ⟨after, stored, rfl⟩ := adopts.kept found
      exact ⟨_, stored, here⟩
    · obtain rfl := List.mem_singleton.mp new
      exact ⟨parent, joined, leveled⟩
  case named =>
    intro key node found
    rw [List.length_append, List.length_singleton]
    rcases adopts.get?_adopt_iff.mp found with ⟨rfl, rfl⟩ | ⟨before, held, rfl⟩
    · exact ⟨done.length, by rw [named, leveled], Or.inr ⟨leveled, by omega⟩⟩
    · obtain ⟨index, shown, low⟩ := building.named key before held
      refine ⟨index, shown, ?_⟩
      dsimp only
      omega
  case leaves =>
    have earlier := List.flatMap_congr (l := done) fun key member =>
      building.leavesBelow_kept adopts (List.mem_append_right (batch ++ waiting) member)
    have later := List.flatMap_congr (l := waiting) fun key member =>
      building.leavesBelow_kept adopts
        (List.mem_append_left done (List.mem_append_right batch member))
    rw [← building.leaves]
    simp only [List.flatMap_append, List.flatMap_cons, List.flatMap_nil, List.append_nil,
      building.leavesBelow_parent adopts leveled adopted sized.1, earlier, later,
      List.append_assoc]
  case held =>
    intro index chunk found
    exact (building.held index chunk found).adopt adopts
  case plain =>
    intro key node found
    rcases adopts.get?_adopt_iff.mp found with ⟨rfl, rfl⟩ | ⟨before, held, rfl⟩
    · exact plain
    · exact building.plain key before held

theorem Building.next (building : Building maxSize chunks level tree [] done) :
    Building maxSize chunks (level + 1) tree done [] where
  linked := building.linked
  roots := by rw [building.roots, List.nil_append, List.append_nil]
  below := by
    intro key member
    obtain ⟨node, found, here⟩ := building.reached key member
    exact ⟨node, found, congrArg Nat.succ here⟩
  reached := by simp
  named := by
    intro key node found
    obtain ⟨index, shown, low⟩ := building.named key node found
    exact ⟨index, shown, Or.inl (by omega)⟩
  leaves := by
    rw [← building.leaves, List.nil_append, List.append_nil]
  held := building.held
  plain := building.plain

variable {builder : RaptorTreeBuilder} {current : List (TreeNode φ)}

theorem filterMap_range' (current : List (TreeNode φ)) (first count : Nat)
    (inside : first + count ≤ current.length) :
    (List.range' first count).filterMap (current[·]?) = (current.drop first).take count := by
  induction count generalizing first with
  | zero => rfl
  | succ count ih =>
      have bound : first < current.length := by omega
      rw [List.range'_succ, List.filterMap_cons, List.getElem?_eq_getElem bound,
        List.drop_eq_getElem_cons bound, List.take_succ_cons]
      exact congrArg (List.cons _) (ih (first + 1) (by omega))

theorem clusterTexts_batches (positive : 0 < maxSize) (current : List (TreeNode φ)) :
    (clusterTexts (current.map TreeNode.summary) maxSize).map
        (fun cluster => cluster.filterMap (current[·]?)) = batches maxSize current := by
  rw [clusterTexts, List.map_map, List.length_map, batches]
  apply List.map_congr_left
  intro first member
  have below := ((mem_starts positive).mp member).2
  rw [Function.comp_apply, filterMap_range' _ _ _ (by omega), batchAt]
  rcases Nat.le_total (first + maxSize) current.length with whole | cut
  · rw [Nat.min_eq_left whole, Nat.add_sub_cancel_left]
  · have length := List.length_drop (i := first) (l := current)
    rw [Nat.min_eq_right cut, List.take_of_length_le (by omega), List.take_of_length_le (by omega)]

theorem distinct_numChildren (count : Nat) :
    Distinct (.obj [(codes "num_children", (.int count : Value φ))]) := by
  apply Distinct.obj
  · exact List.nodup_singleton _
  · intro entry member
    obtain rfl := List.mem_singleton.mp member
    exact Distinct.int count

def addBatch (builder : RaptorTreeBuilder) (level : Nat) (state : Tree φ × List (TreeNode φ))
    (batch : List (TreeNode φ) × Nat) : Tree φ × List (TreeNode φ) :=
  (adopt state.1 (parentNode builder level batch.2 batch.1),
    state.2 ++ [parentNode builder level batch.2 batch.1])

theorem addLevel_eq (positive : 0 < builder.maxClusterSize) (level : Nat) (tree : Tree φ)
    (current : List (TreeNode φ)) :
    addLevel builder level tree current =
      ((batches builder.maxClusterSize current).zipIdx).foldl (addBatch builder level)
        (tree, []) := by
  rw [addLevel, ← clusterTexts_batches positive, List.zipIdx_map, List.foldl_map]
  rfl

theorem Building.addBatches (positive : 0 < builder.maxClusterSize)
    {made : List (TreeNode φ)}
    (building : Building builder.maxClusterSize chunks level tree (current.map TreeNode.id)
      (made.map TreeNode.id)) :
    let next := ((batches builder.maxClusterSize current).zipIdx made.length).foldl
      (addBatch builder level) (tree, made)
    Building builder.maxClusterSize chunks level next.1 [] (next.2.map TreeNode.id) := by
  induction counted : current.length using slices_induction positive
    generalizing current tree made with
  | zero =>
      obtain rfl := List.eq_nil_of_length_eq_zero counted
      rw [batches_nil positive]
      exact building
  | step count some ih =>
      have nonempty : current ≠ [] := List.ne_nil_of_length_pos (by omega)
      have split : current.map TreeNode.id =
          (current.take builder.maxClusterSize).map TreeNode.id ++
            (current.drop builder.maxClusterSize).map TreeNode.id := by
        rw [← List.map_append, List.take_append_drop]
      rw [split] at building
      have sized : 1 ≤ ((current.take builder.maxClusterSize).map TreeNode.id).length ∧
          ((current.take builder.maxClusterSize).map TreeNode.id).length ≤
            builder.maxClusterSize := by
        rw [List.length_map, List.length_take]
        omega
      have named : (parentNode builder level made.length
          (current.take builder.maxClusterSize)).id =
          nodeId level (made.map TreeNode.id).length := by
        rw [List.length_map]
        rfl
      have stepped : Building builder.maxClusterSize chunks level
          (adopt tree (parentNode builder level made.length
            (current.take builder.maxClusterSize)))
          ((current.drop builder.maxClusterSize).map TreeNode.id)
          ((made ++ [parentNode builder level made.length
            (current.take builder.maxClusterSize)]).map TreeNode.id) := by
        rw [List.map_append]
        exact building.step named rfl rfl rfl sized (distinct_numChildren _)
      have rest := ih stepped (by rw [List.length_drop, counted])
      rw [batches_cons positive nonempty, List.zipIdx_cons, List.foldl_cons]
      rw [List.length_append, List.length_singleton] at rest
      exact rest

theorem Building.addLevel (positive : 0 < builder.maxClusterSize)
    (building : Building builder.maxClusterSize chunks level tree (current.map TreeNode.id) []) :
    Building builder.maxClusterSize chunks (level + 1) (addLevel builder level tree current).1
      ((addLevel builder level tree current).2.map TreeNode.id) [] := by
  have started : Building builder.maxClusterSize chunks level tree (current.map TreeNode.id)
      (([] : List (TreeNode φ)).map TreeNode.id) := building
  rw [addLevel_eq positive]
  exact (started.addBatches positive).next

theorem Building.addLevels (positive : 0 < builder.maxClusterSize) (left : Nat)
    (building : Building builder.maxClusterSize chunks level tree (current.map TreeNode.id) []) :
    ∃ last waiting, Building builder.maxClusterSize chunks last
      (addLevels builder left level tree current) waiting [] := by
  induction left generalizing level tree current with
  | zero => exact ⟨level, _, building⟩
  | succ left ih =>
      rw [Raptor.addLevels]
      split
      · exact ⟨level, _, building⟩
      · exact ih (building.addLevel positive)

theorem Building.forest (building : Building maxSize chunks level tree waiting []) :
    Forest maxSize chunks tree where
  toLinked := building.linked
  unique := by
    have same : tree.entries.map (fun entry => entry.2.id) = tree.entries.map Prod.fst := by
      apply List.map_congr_left
      intro entry member
      exact building.linked.keyed entry.1 entry.2
        ((Dict.mem_entries_iff tree entry.1 entry.2).mp member)
    rw [same]
    exact tree.nodup
  leaves := by
    rw [← building.leaves, leafKeys, building.roots, List.append_nil, List.nil_append]
  held := building.held

end Loops

/-! The leaves. -/

section Leaves

variable (chunks : List (Chunk φ))

def leafEntry (indexed : Chunk φ × Nat) : Text × TreeNode φ :=
  (nodeId 0 indexed.2, leafNode indexed.2 indexed.1)

theorem keys_leafEntries :
    (chunks.zipIdx.map leafEntry).map Prod.fst = (List.range chunks.length).map (nodeId 0) := by
  rw [List.map_map, List.range_eq_range', ← List.zipIdx_map_snd 0 chunks, List.map_map]
  rfl

theorem entries_leafTree : (leafTree chunks).entries = chunks.zipIdx.map leafEntry := by
  have set : leafTree chunks = Dict.ofList (chunks.zipIdx.map leafEntry) := by
    rw [Dict.ofList, Dict.setAll, List.foldl_map]
    rfl
  have distinct : ((List.range chunks.length).map (nodeId 0)).Nodup :=
    List.nodup_range.map (fun _ _ same => (nodeId_injective same).2)
  rw [set]
  apply Dict.entries_setAll Dict.empty
  change ((chunks.zipIdx.map leafEntry).map Prod.fst).Nodup
  rwa [keys_leafEntries]

variable {chunks} in
theorem get?_leafTree {key : Text} {node : TreeNode φ} :
    (leafTree chunks).get? key = some node ↔
      ∃ index chunk, chunks[index]? = some chunk ∧ key = nodeId 0 index ∧
        node = leafNode index chunk := by
  rw [← Dict.mem_entries_iff, entries_leafTree, List.mem_map]
  constructor
  · intro given
    rcases given with ⟨⟨chunk, index⟩, member, same⟩
    obtain ⟨rfl, rfl⟩ := Prod.mk.inj same
    exact ⟨index, chunk, List.mem_zipIdx_iff_getElem?.mp member, rfl, rfl⟩
  · intro given
    rcases given with ⟨index, chunk, found, rfl, rfl⟩
    exact ⟨(chunk, index), List.mem_zipIdx_iff_getElem?.mpr found, rfl⟩

theorem keys_leafTree : (leafTree chunks).keys = (List.range chunks.length).map (nodeId 0) := by
  rw [Dict.keys, entries_leafTree, keys_leafEntries]

theorem ids_leafTree :
    ((leafTree chunks).entries.map Prod.snd).map TreeNode.id = (leafTree chunks).keys := by
  rw [Dict.keys, entries_leafTree, List.map_map, List.map_map, List.map_map]
  rfl

theorem leaf_of_get? {key : Text} {node : TreeNode φ}
    (found : (leafTree chunks).get? key = some node) :
    node.id = key ∧ node.level = 0 ∧ node.children = [] ∧ node.parent = none := by
  obtain ⟨index, chunk, _, rfl, rfl⟩ := get?_leafTree.mp found
  exact ⟨rfl, rfl, rfl, rfl⟩

theorem linked_leafTree (maxSize : Nat) : Linked maxSize (leafTree chunks) := by
  constructor
  case keyed => exact fun key node found => (leaf_of_get? chunks found).1
  case inverse =>
    intro parent child
    constructor
    · intro given
      rcases given with ⟨node, found, member⟩
      rw [(leaf_of_get? chunks found).2.2.1] at member
      cases member
    · intro given
      rcases given with ⟨node, found, points⟩
      rw [(leaf_of_get? chunks found).2.2.2] at points
      cases points
  case once =>
    intro key node found
    rw [(leaf_of_get? chunks found).2.2.1]
    exact List.nodup_nil
  case sized =>
    intro key node found high
    rw [(leaf_of_get? chunks found).2.1] at high
    exact absurd high (Nat.lt_irrefl 0)
  case descends =>
    intro key node found child member
    rw [(leaf_of_get? chunks found).2.2.1] at member
    cases member

theorem leavesBelow_leafTree :
    ((List.range chunks.length).map (nodeId 0)).flatMap
        (fun key => leavesBelow (leafTree chunks) (levelOf (leafTree chunks) key) key) =
      (List.range chunks.length).map (nodeId 0) := by
  have single : ∀ key ∈ (List.range chunks.length).map (nodeId 0),
      leavesBelow (leafTree chunks) (levelOf (leafTree chunks) key) key = [key] := by
    intro key member
    rw [← keys_leafTree] at member
    obtain ⟨node, found⟩ := (Dict.mem_keys_iff _ key).mp member
    rw [levelOf, found, Option.map_some, Option.getD_some, (leaf_of_get? chunks found).2.1]
    rfl
  rw [List.flatMap_congr single]
  exact List.flatMap_singleton' _

theorem building_leafTree (maxSize : Nat) :
    Building maxSize chunks 1 (leafTree chunks)
      (((leafTree chunks).entries.map Prod.snd).map TreeNode.id) [] := by
  rw [ids_leafTree]
  constructor
  case linked => exact linked_leafTree chunks maxSize
  case roots =>
    rw [List.append_nil, roots]
    apply List.filter_eq_self.mpr
    intro key present
    obtain ⟨node, found⟩ := (Dict.mem_keys_iff _ key).mp present
    rw [isRoot, found]
    simp [(leaf_of_get? chunks found).2.2.2]
  case below =>
    intro key present
    obtain ⟨node, found⟩ := (Dict.mem_keys_iff _ key).mp present
    exact ⟨node, found, congrArg Nat.succ (leaf_of_get? chunks found).2.1⟩
  case reached => simp
  case named =>
    intro key node found
    obtain ⟨index, chunk, _, rfl, rfl⟩ := get?_leafTree.mp found
    exact ⟨index, rfl, Or.inl Nat.one_pos⟩
  case leaves =>
    rw [List.nil_append, keys_leafTree]
    exact leavesBelow_leafTree chunks
  case held =>
    intro index chunk found
    exact ⟨_, get?_leafTree.mpr ⟨index, chunk, found, rfl, rfl⟩, rfl, rfl, rfl⟩
  case plain =>
    intro key node found
    obtain ⟨index, chunk, _, rfl, rfl⟩ := get?_leafTree.mp found
    cases metadata : chunk.metadata with
    | none =>
        rw [leafNode, metadata]
        exact Distinct.obj [] List.nodup_nil (by simp)
    | some metadata' =>
        rw [leafNode, metadata]
        exact metadata'.distinct

theorem building_buildTree {builder : RaptorTreeBuilder} (positive : 0 < builder.maxClusterSize) :
    ∃ last waiting, Building builder.maxClusterSize chunks last (buildTree builder chunks)
      waiting [] :=
  (building_leafTree chunks builder.maxClusterSize).addLevels positive builder.maxLevels

end Leaves

/-! The file. -/

section File

variable {floats : Floats φ} {tree : Tree φ} {text : Text}

def withoutEmbedding (node : TreeNode φ) : TreeNode φ := { node with embedding := [] }

theorem asTexts_map (texts : List Text) :
    asTexts (.arr (texts.map (Value.str (φ := φ)))) = some texts := by
  rw [asTexts]
  induction texts with
  | nil => rfl
  | cons text rest ih =>
      rw [List.map_cons, List.mapM_cons, ih]
      rfl

theorem asParent_parentValue (parent : Option Text) :
    asParent (parentValue (φ := φ) parent) = some parent := by
  cases parent with
  | none => rfl
  | some parent => rfl

theorem nodeOf_nodeValue (node : TreeNode φ) :
    nodeOf (nodeValue node) = some (withoutEmbedding node) := by
  have level : (node.level : Int).toNat? = some node.level := rfl
  simp [nodeOf, nodeValue, field, codes, asText, asLevel, asTexts_map, asParent_parentValue,
    withoutEmbedding, level]

theorem distinct_nodeValue {node : TreeNode φ} (plain : Distinct node.metadata) :
    Distinct (nodeValue node) := by
  have texts : ∀ value ∈ node.children.map Value.str, Distinct (value : Value φ) := by
    intro value member
    obtain ⟨text, _, rfl⟩ := List.mem_map.mp member
    exact Distinct.str text
  have parent : Distinct (parentValue (φ := φ) node.parent) := by
    cases node.parent with
    | none => exact Distinct.null
    | some parent => exact Distinct.str parent
  have names : (["id", "level", "text", "summary", "children", "parent", "metadata"].map
      codes).Nodup := by decide +kernel
  apply Distinct.obj
  · exact names
  · simp only [List.forall_mem_cons]
    exact ⟨.str _, .int _, .str _, .str _, .arr _ texts, parent, plain, by simp⟩

theorem distinct_treeValue
    (plain : ∀ key node, tree.get? key = some node → Distinct node.metadata) :
    Distinct (treeValue tree) := by
  apply Distinct.obj
  · rw [List.map_map]
    exact tree.nodup
  · intro entry member
    obtain ⟨stored, inside, rfl⟩ := List.mem_map.mp member
    exact distinct_nodeValue (plain stored.1 stored.2
      ((Dict.mem_entries_iff tree stored.1 stored.2).mp inside))

theorem loadTree_saveTree
    (plain : ∀ key node, tree.get? key = some node → Distinct node.metadata)
    (saved : saveTree floats tree = some text) :
    loadTree floats text = some (tree.mapValues withoutEmbedding) := by
  have written : dumpsWith floats (indented 2) 0 (treeValue tree) = some text := by
    rw [saveTree, Option.filter_eq_some_iff] at saved
    exact saved.1
  have nodes : (tree.entries.map (fun entry => (entry.1, nodeValue entry.2))).mapM
      (fun entry => (nodeOf entry.2).map (fun node => (entry.1, node))) =
      some (tree.mapValues withoutEmbedding).entries := by
    change _ = some (tree.entries.map (fun entry => (entry.1, withoutEmbedding entry.2)))
    induction tree.entries with
    | nil => rfl
    | cons entry rest ih =>
        rw [List.map_cons, List.mapM_cons, ih, nodeOf_nodeValue]
        rfl
  have value : treeValue tree =
      .obj (tree.entries.map (fun entry => (entry.1, nodeValue entry.2))) := rfl
  rw [loadTree, loads_dumpsWith (distinct_treeValue plain) written, value]
  simp only [nodes, Option.map_some, Dict.ofList_entries]

/-- The summary tree of any chunks is a forest over them, and its file holds the same tree. -/
theorem buildTree_forest (floats : Floats φ) (builder : RaptorTreeBuilder)
    (positive : 0 < builder.maxClusterSize) (chunks : List (Chunk φ)) :
    Forest builder.maxClusterSize chunks (buildTree builder chunks) ∧
      ∀ text, saveTree floats (buildTree builder chunks) = some text →
        loadTree floats text = some ((buildTree builder chunks).mapValues withoutEmbedding) := by
  obtain ⟨last, waiting, building⟩ := building_buildTree chunks positive
  exact ⟨building.forest, fun text saved => loadTree_saveTree building.plain saved⟩

def noFloats : Floats Empty where
  repr number := number.elim
  parse _ := .nan
  parse_repr number := number.elim
  isFloat_repr number := number.elim

theorem buildTree_forest_pairs :
    Forest 2 [(⟨some (codes "a"), none⟩ : Chunk Empty), ⟨some (codes "b"), none⟩, ⟨none, none⟩]
        (buildTree ⟨2, 3, fun _ _ texts => texts.flatten⟩
          [⟨some (codes "a"), none⟩, ⟨some (codes "b"), none⟩, ⟨none, none⟩]) ∧
      ∀ text, saveTree noFloats (buildTree ⟨2, 3, fun _ _ texts => texts.flatten⟩
          [⟨some (codes "a"), none⟩, ⟨some (codes "b"), none⟩, ⟨none, none⟩]) = some text →
        loadTree noFloats text = some ((buildTree ⟨2, 3, fun _ _ texts => texts.flatten⟩
          [⟨some (codes "a"), none⟩, ⟨some (codes "b"), none⟩, ⟨none, none⟩]).mapValues
            withoutEmbedding) :=
  buildTree_forest noFloats ⟨2, 3, fun _ _ texts => texts.flatten⟩ (by decide) _

end File

end RagSystem.Etl.Raptor
