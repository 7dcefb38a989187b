import RagSystem.Etl.Neo4jLoader

/-! Which entities a cleanup leaves: the last load that mentions one decides, whatever the others
said of it. -/

namespace RagSystem.Etl.Neo4j

open Batches

/-- A call of the loader. Each relation comes with the document it was found in, which the call
does not pass on. -/
inductive Load where
  | entities (batch : List Entity)
  | relations (batch : List (String × Relation)) (apoc : Nat → Bool)

def Load.perform (loader : Neo4jLoader) (graph : Graph) : Load → Graph
  | .entities batch => (loadEntities loader batch graph).1
  | .relations batch apoc => (loadRelations loader (batch.map Prod.snd) apoc graph).1

def graphAfter (loader : Neo4jLoader) (loads : List Load) : Graph :=
  loads.foldl (Load.perform loader) Graph.empty

def cleaned (loader : Neo4jLoader) (loads : List Load) (valid : List String) : Graph :=
  (deleteOutdatedEntities valid (graphAfter loader loads)).1

def Load.mentions : Load → List Entity
  | .entities batch => batch
  | .relations _ _ => []

def mentions (loads : List Load) : List Entity := loads.flatMap Load.mentions

def lastMention (entities : List Entity) (id : String) : Option Entity :=
  entities.reverse.find? (fun entity => entity.id = id)

def Entity.IsValid (valid : List String) (entity : Entity) : Prop :=
  ∃ source ∈ valid, entity.sourceId = some source

def FromValid (loads : List Load) (valid : List String) (id : String) : Prop :=
  ∃ entity ∈ mentions loads, entity.id = id ∧ entity.IsValid valid

/-- An edge between the ends of the relation, of its type or of the general one. -/
def Edge.Carries (edge : Edge) (rel : Relation) : Prop :=
  edge.source = rel.source ∧ edge.target = rel.target ∧
    (edge.label = rel.type ∨ edge.label = "RELATES_TO")

structure RemovesGone (loader : Neo4jLoader) (loads : List Load) (valid : List String) : Prop where
  entities : ∀ id, id ∈ (cleaned loader loads valid).nodes.keys ↔ FromValid loads valid id
  edges : ∀ edge ∈ (graphAfter loader loads).edges,
    edge.source ∈ (cleaned loader loads valid).nodes.keys →
      edge.target ∈ (cleaned loader loads valid).nodes.keys →
        edge ∈ (cleaned loader loads valid).edges
  relations : ∀ earlier batch apoc later, loads = earlier ++ .relations batch apoc :: later →
    ∀ found ∈ batch, found.1 ∈ valid →
      found.2.source ∈ (graphAfter loader earlier).nodes.keys →
        found.2.target ∈ (graphAfter loader earlier).nodes.keys →
          found.2.source ∈ (cleaned loader loads valid).nodes.keys →
            found.2.target ∈ (cleaned loader loads valid).nodes.keys →
              ∃ edge ∈ (cleaned loader loads valid).edges, edge.Carries found.2

/-- The last load that mentions an entity names a valid source, or none, where any load names one,
and some other source where none does. -/
def LastDecides (loads : List Load) (valid : List String) : Prop :=
  ∀ id entity, lastMention (mentions loads) id = some entity →
    (FromValid loads valid id → entity.sourceId = none ∨ entity.IsValid valid) ∧
      (¬ FromValid loads valid id → valid ≠ [] ∧ entity.sourceId ≠ none)

section Nodes

variable {loader : Neo4jLoader} {graph : Graph} {entities : List Entity} {entity : Entity}
  {relations : List Relation} {rel : Relation} {apoc : Bool} {id : String}

def sourceAt (graph : Graph) (id : String) : Option (Option String) :=
  (graph.nodes.get? id).map Node.sourceId

theorem mem_keys_iff_sourceAt : id ∈ graph.nodes.keys ↔ (sourceAt graph id).isSome := by
  rw [sourceAt, Option.isSome_map, Option.isSome_iff_exists, Dict.mem_keys_iff]

theorem sourceAt_mergeEntity :
    sourceAt (mergeEntity graph entity) id =
      if id = entity.id then some entity.sourceId else sourceAt graph id := by
  simp only [sourceAt, mergeEntity, Dict.get?_set]
  by_cases same : id = entity.id
  · rw [if_pos same, if_pos same]
    rfl
  · rw [if_neg same, if_neg same]

theorem sourceAt_foldl_mergeEntity (entities : List Entity) (graph : Graph) :
    sourceAt (entities.foldl mergeEntity graph) id =
      ((lastMention entities id).map Entity.sourceId).or (sourceAt graph id) := by
  induction entities generalizing graph with
  | nil => rfl
  | cons entity rest ih =>
      rw [List.foldl_cons, ih, sourceAt_mergeEntity, lastMention, lastMention, List.reverse_cons,
        List.find?_append]
      cases later : rest.reverse.find? (fun entity => entity.id = id) with
      | some last => rfl
      | none =>
          by_cases same : id = entity.id
          · simp [same]
          · simp [same, Ne.symm same]

theorem edges_foldl_mergeEntity (entities : List Entity) (graph : Graph) :
    (entities.foldl mergeEntity graph).edges = graph.edges := by
  induction entities generalizing graph with
  | nil => rfl
  | cons entity rest ih => exact ih (mergeEntity graph entity)

theorem loadEntities_fst (loader : Neo4jLoader) (entities : List Entity) (graph : Graph) :
    (loadEntities loader entities graph).1 = entities.foldl mergeEntity graph := by
  by_cases none : entities = []
  · rw [loadEntities, if_pos none, none]
    rfl
  · have first (batched : List (List Entity)) (state : Graph × Nat) :
        (batched.foldl (fun state batch =>
          (batch.foldl mergeEntity state.1, state.2 + batch.length)) state).1 =
          batched.flatten.foldl mergeEntity state.1 := by
      induction batched generalizing state with
      | nil => rfl
      | cons batch rest ih => rw [List.foldl_cons, ih, List.flatten_cons, List.foldl_append]
    rw [loadEntities, if_neg none, first, flatten_batches loader.positive]

theorem nodes_mergeRelation : (mergeRelation apoc graph rel).nodes = graph.nodes := by
  rw [mergeRelation]
  split
  · rfl
  · rfl

end Nodes

section Edges

variable {loader : Neo4jLoader} {graph : Graph} {edges : List Edge} {relations : List Relation}
  {rel other : Relation} {apoc : Nat → Bool} {rows : List (Bool × Relation)}

def Carried (edges : List Edge) (rel : Relation) : Prop := ∃ edge ∈ edges, edge.Carries rel

theorem Carried.apocMerge (carried : Carried edges rel) (other : Relation) :
    Carried (apocMerge edges other) rel := by
  obtain ⟨edge, member, carries⟩ := carried
  rw [Neo4j.apocMerge]
  split
  · exact ⟨edge, member, carries⟩
  · exact ⟨edge, List.mem_append_left _ member, carries⟩

theorem carried_apocMerge (edges : List Edge) (rel : Relation) :
    Carried (apocMerge edges rel) rel := by
  rw [apocMerge]
  split
  · rename_i found
    obtain ⟨edge, member, source, target, label⟩ := found
    exact ⟨edge, member, source, target, Or.inl label⟩
  · exact ⟨_, List.mem_append_right _ (List.mem_singleton_self _), rfl, rfl, Or.inl rfl⟩

theorem Carried.plainMerge (carried : Carried edges rel) (other : Relation) :
    Carried (plainMerge edges other) rel := by
  obtain ⟨edge, member, carries⟩ := carried
  rw [Neo4j.plainMerge]
  split
  · refine ⟨_, List.mem_map_of_mem member, ?_⟩
    split
    · exact carries
    · exact carries
  · exact ⟨edge, List.mem_append_left _ member, carries⟩

theorem carried_plainMerge (edges : List Edge) (rel : Relation) :
    Carried (plainMerge edges rel) rel := by
  rw [plainMerge]
  split
  · rename_i found
    obtain ⟨edge, member, relates⟩ := found
    refine ⟨_, List.mem_map_of_mem member, ?_⟩
    rw [if_pos relates]
    exact ⟨relates.1, relates.2.1, Or.inr relates.2.2.1⟩
  · exact ⟨_, List.mem_append_right _ (List.mem_singleton_self _), rfl, rfl, Or.inr rfl⟩

theorem Carried.mergeRelation (carried : Carried graph.edges rel) (apoc : Bool)
    (other : Relation) : Carried (mergeRelation apoc graph other).edges rel := by
  rw [Neo4j.mergeRelation]
  split
  · cases apoc with
    | true => exact carried.apocMerge other
    | false => exact carried.plainMerge other
  · exact carried

theorem carried_mergeRelation (source : rel.source ∈ graph.nodes.keys)
    (target : rel.target ∈ graph.nodes.keys) (apoc : Bool) :
    Carried (mergeRelation apoc graph rel).edges rel := by
  rw [mergeRelation, if_pos ⟨source, target⟩]
  cases apoc with
  | true => exact carried_apocMerge graph.edges rel
  | false => exact carried_plainMerge graph.edges rel

def rowsOf (loader : Neo4jLoader) (relations : List Relation) (apoc : Nat → Bool) :
    List (Bool × Relation) :=
  (starts loader.batchSize relations.length).flatMap (fun start =>
    (batchAt loader.batchSize relations start).map (fun rel => (apoc start, rel)))

def mergeRow (graph : Graph) (row : Bool × Relation) : Graph := mergeRelation row.1 graph row.2

theorem exists_row (loader : Neo4jLoader) (apoc : Nat → Bool) (member : rel ∈ relations) :
    ∃ flag, (flag, rel) ∈ rowsOf loader relations apoc := by
  rw [← flatten_batches loader.positive relations] at member
  obtain ⟨batch, made, inside⟩ := List.mem_flatten.mp member
  obtain ⟨start, placed, rfl⟩ := List.mem_map.mp made
  exact ⟨apoc start, List.mem_flatMap.mpr ⟨start, placed, List.mem_map_of_mem inside⟩⟩

theorem loadRelations_fst (loader : Neo4jLoader) (relations : List Relation) (apoc : Nat → Bool)
    (graph : Graph) : (loadRelations loader relations apoc graph).1 =
      (rowsOf loader relations apoc).foldl mergeRow graph := by
  by_cases none : relations = []
  · rw [loadRelations, if_pos none, rowsOf, none, List.length_nil, starts_zero loader.positive]
    rfl
  · have first (places : List Nat) (state : Graph × Nat) :
        (places.foldl (fun state start =>
          let batch := batchAt loader.batchSize relations start
          (batch.foldl (mergeRelation (apoc start)) state.1, state.2 + batch.length)) state).1 =
          (places.flatMap (fun start => (batchAt loader.batchSize relations start).map
            (fun rel => (apoc start, rel)))).foldl mergeRow state.1 := by
      induction places generalizing state with
      | nil => rfl
      | cons start rest ih =>
          rw [List.foldl_cons, ih, List.flatMap_cons, List.foldl_append, List.foldl_map]
          rfl
    rw [loadRelations, if_neg none, first]
    rfl

theorem nodes_foldl_mergeRow (rows : List (Bool × Relation)) (graph : Graph) :
    (rows.foldl mergeRow graph).nodes = graph.nodes := by
  induction rows generalizing graph with
  | nil => rfl
  | cons row rest ih => rw [List.foldl_cons, ih, mergeRow, nodes_mergeRelation]

theorem Carried.foldl_mergeRow (carried : Carried graph.edges rel)
    (rows : List (Bool × Relation)) : Carried (rows.foldl mergeRow graph).edges rel := by
  induction rows generalizing graph with
  | nil => exact carried
  | cons row rest ih => exact ih (carried.mergeRelation row.1 row.2)

theorem carried_foldl_mergeRow {flag : Bool} (member : (flag, rel) ∈ rows)
    (source : rel.source ∈ graph.nodes.keys) (target : rel.target ∈ graph.nodes.keys) :
    Carried (rows.foldl mergeRow graph).edges rel := by
  induction rows generalizing graph with
  | nil => cases member
  | cons row rest ih =>
      rw [List.foldl_cons]
      rcases List.mem_cons.mp member with rfl | later
      · exact (carried_mergeRelation source target flag).foldl_mergeRow rest
      · have nodes : (mergeRow graph row).nodes = graph.nodes := nodes_mergeRelation
        exact ih later (by rwa [nodes]) (by rwa [nodes])

end Edges

section Runs

variable {loader : Neo4jLoader} {graph : Graph} {loads earlier later : List Load} {load : Load}
  {valid : List String} {rel : Relation} {entity : Entity} {edge : Edge} {id : String}

theorem sourceAt_perform (loader : Neo4jLoader) (graph : Graph) (load : Load) :
    sourceAt (load.perform loader graph) id =
      ((lastMention load.mentions id).map Entity.sourceId).or (sourceAt graph id) := by
  cases load with
  | entities batch =>
      rw [Load.perform, loadEntities_fst, sourceAt_foldl_mergeEntity]
      rfl
  | relations batch apoc =>
      rw [Load.perform, loadRelations_fst, sourceAt, nodes_foldl_mergeRow]
      rfl

theorem lastMention_append (first second : List Entity) :
    lastMention (first ++ second) id = (lastMention second id).or (lastMention first id) := by
  rw [lastMention, List.reverse_append, List.find?_append]
  rfl

theorem sourceAt_foldl_perform (loads : List Load) (graph : Graph) :
    sourceAt (loads.foldl (Load.perform loader) graph) id =
      ((lastMention (mentions loads) id).map Entity.sourceId).or (sourceAt graph id) := by
  induction loads generalizing graph with
  | nil => rfl
  | cons load rest ih =>
      have listed : mentions (load :: rest) = load.mentions ++ mentions rest := List.flatMap_cons
      rw [List.foldl_cons, ih, sourceAt_perform, listed, lastMention_append, Option.map_or,
        Option.or_assoc]

theorem sourceAt_graphAfter (loader : Neo4jLoader) (loads : List Load) (id : String) :
    sourceAt (graphAfter loader loads) id =
      (lastMention (mentions loads) id).map Entity.sourceId := by
  rw [graphAfter, sourceAt_foldl_perform]
  exact Option.or_none

theorem Carried.perform (carried : Carried graph.edges rel) (loader : Neo4jLoader) (load : Load) :
    Carried (load.perform loader graph).edges rel := by
  cases load with
  | entities batch =>
      rw [Load.perform, loadEntities_fst, edges_foldl_mergeEntity]
      exact carried
  | relations batch apoc =>
      rw [Load.perform, loadRelations_fst]
      exact carried.foldl_mergeRow _

theorem Carried.foldl_perform (carried : Carried graph.edges rel) (loader : Neo4jLoader)
    (loads : List Load) : Carried (loads.foldl (Load.perform loader) graph).edges rel := by
  induction loads generalizing graph with
  | nil => exact carried
  | cons load rest ih => exact ih (carried.perform loader load)

theorem carried_graphAfter {batch : List (String × Relation)} {apoc : Nat → Bool}
    {found : String × Relation} (member : found ∈ batch)
    (source : found.2.source ∈ (graphAfter loader earlier).nodes.keys)
    (target : found.2.target ∈ (graphAfter loader earlier).nodes.keys) :
    Carried (graphAfter loader (earlier ++ .relations batch apoc :: later)).edges found.2 := by
  have listed : found.2 ∈ batch.map Prod.snd := List.mem_map_of_mem member
  obtain ⟨flag, row⟩ := exists_row loader apoc listed
  have made := carried_foldl_mergeRow row source target
  rw [← loadRelations_fst] at made
  rw [graphAfter, List.foldl_append, List.foldl_cons]
  exact made.foldl_perform loader later

theorem mem_keys_eraseAll (dict : Dict String Node) (gone : List String) :
    id ∈ (dict.eraseAll gone).keys ↔ id ∈ dict.keys ∧ id ∉ gone := by
  simp only [Dict.mem_keys_iff, Dict.get?_eraseAll]
  by_cases outdated : id ∈ gone
  · simp [outdated]
  · simp [outdated]

theorem isOutdated_eq_false_iff {node : Node} : node.isOutdated valid = false ↔
    node.sourceId = none ∨ ∃ source ∈ valid, node.sourceId = some source := by
  rw [Node.isOutdated]
  cases node.sourceId with
  | none => simp
  | some source => simp

theorem mem_outdated_iff (graph : Graph) : id ∈ (graph.nodes.entries.filter
    (fun entry => entry.2.isOutdated valid)).map Prod.fst ↔
      ∃ node, graph.nodes.get? id = some node ∧ node.isOutdated valid = true := by
  simp only [List.mem_map, List.mem_filter, Prod.exists, Dict.mem_entries_iff]
  constructor
  · intro given
    rcases given with ⟨key, node, ⟨found, outdated⟩, rfl⟩
    exact ⟨node, found, outdated⟩
  · intro given
    rcases given with ⟨node, found, outdated⟩
    exact ⟨id, node, ⟨found, outdated⟩, rfl⟩

theorem mem_keys_deleteOutdatedEntities :
    id ∈ (deleteOutdatedEntities valid graph).1.nodes.keys ↔
      ∃ source, sourceAt graph id = some source ∧
        (valid = [] ∨ source = none ∨ ∃ known ∈ valid, source = some known) := by
  by_cases none : valid = []
  · rw [deleteOutdatedEntities, if_pos none, mem_keys_iff_sourceAt, Option.isSome_iff_exists]
    simp [none]
  · rw [deleteOutdatedEntities, if_neg none, mem_keys_eraseAll, mem_outdated_iff]
    simp only [none, false_or, sourceAt, Dict.mem_keys_iff]
    cases graph.nodes.get? id with
    | none => simp
    | some node => simp [← isOutdated_eq_false_iff]

theorem edge_kept (present : edge ∈ graph.edges)
    (source : edge.source ∈ (deleteOutdatedEntities valid graph).1.nodes.keys)
    (target : edge.target ∈ (deleteOutdatedEntities valid graph).1.nodes.keys) :
    edge ∈ (deleteOutdatedEntities valid graph).1.edges := by
  by_cases none : valid = []
  · rwa [deleteOutdatedEntities, if_pos none]
  · rw [deleteOutdatedEntities, if_neg none] at source target ⊢
    have here := ((mem_keys_eraseAll _ _).mp source).2
    have there := ((mem_keys_eraseAll _ _).mp target).2
    exact List.mem_filter.mpr ⟨present, decide_eq_true ⟨here, there⟩⟩

theorem mem_keys_cleaned : id ∈ (cleaned loader loads valid).nodes.keys ↔
    ∃ entity, lastMention (mentions loads) id = some entity ∧
      (valid = [] ∨ entity.sourceId = none ∨ entity.IsValid valid) := by
  rw [cleaned, mem_keys_deleteOutdatedEntities, sourceAt_graphAfter]
  cases lastMention (mentions loads) id with
  | none => simp
  | some entity => simp [Entity.IsValid]

theorem mem_of_lastMention {entities : List Entity}
    (last : lastMention entities id = some entity) : entity ∈ entities ∧ entity.id = id :=
  ⟨List.mem_reverse.mp (List.mem_of_find?_eq_some last), by simpa using List.find?_some last⟩

theorem FromValid.exists_last (valued : FromValid loads valid id) :
    ∃ last, lastMention (mentions loads) id = some last := by
  obtain ⟨entity, member, named, _⟩ := valued
  apply Option.isSome_iff_exists.mp
  rw [lastMention, List.find?_isSome]
  exact ⟨entity, List.mem_reverse.mpr member, decide_eq_true named⟩

theorem FromValid.ne_nil (valued : FromValid loads valid id) : valid ≠ [] := by
  obtain ⟨_, _, _, source, member, _⟩ := valued
  exact List.ne_nil_of_mem member

end Runs

/-- The cleanup removes exactly what is gone if and only if the last mention of every entity
stands for all of them. -/
theorem removesGone_iff_lastDecides (loader : Neo4jLoader) (loads : List Load)
    (valid : List String) : RemovesGone loader loads valid ↔ LastDecides loads valid := by
  constructor
  · intro removes id entity last
    have survives := removes.entities id
    constructor
    · intro valued
      obtain ⟨found, same, kept⟩ := mem_keys_cleaned.mp (survives.mpr valued)
      obtain rfl := Option.some.inj (last.symm.trans same)
      exact kept.resolve_left valued.ne_nil
    · intro gone
      have removed := fun kept => gone (survives.mp (mem_keys_cleaned.mpr ⟨entity, last, kept⟩))
      exact ⟨fun none => removed (Or.inl none), fun none => removed (Or.inr (Or.inl none))⟩
  · intro decides
    constructor
    case entities =>
      intro id
      constructor
      · intro survives
        obtain ⟨entity, last, kept⟩ := mem_keys_cleaned.mp survives
        by_contra gone
        obtain ⟨some, sourced⟩ := (decides id entity last).2 gone
        have valued := (kept.resolve_left some).resolve_left sourced
        obtain ⟨member, named⟩ := mem_of_lastMention last
        exact gone ⟨entity, member, named, valued⟩
      · intro valued
        obtain ⟨last, found⟩ := valued.exists_last
        exact mem_keys_cleaned.mpr ⟨last, found, Or.inr ((decides id last found).1 valued)⟩
    case edges =>
      intro edge present
      exact edge_kept present
    case relations =>
      intro earlier batch apoc later given found member _ source target
      rcases given with rfl
      intro sourceKept targetKept
      obtain ⟨edge, present, carries⟩ := carried_graphAfter member source target
      refine ⟨edge, edge_kept present ?_ ?_, carries⟩
      · rwa [carries.1]
      · rwa [carries.2.1]

/-- One entity, first mentioned by `doc1` and then by `doc2`. -/
def sharedLoads : List Load :=
  ["doc1", "doc2"].map (fun source =>
    .entities [⟨"postgres", "PostgreSQL", "TECHNOLOGY", some source, ∅⟩])

theorem removesGone_shared : ¬ RemovesGone {} sharedLoads ["doc1"] := by
  intro removes
  have valued : FromValid sharedLoads ["doc1"] "postgres" :=
    ⟨⟨"postgres", "PostgreSQL", "TECHNOLOGY", some "doc1", ∅⟩, List.mem_cons_self, rfl, "doc1",
      List.mem_cons_self, rfl⟩
  have kept := (removes.entities "postgres").mpr valued
  revert kept
  decide +kernel

end RagSystem.Etl.Neo4j
