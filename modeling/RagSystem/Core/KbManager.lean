import Mathlib.Algebra.Order.Field.Rat
import Mathlib.Data.List.Nodup
import RagSystem.Data.Dict
import RagSystem.Transition.Run

/-! The knowledge base manager of `proxy/app/core/kb_manager.py`: the rows of its database, the
vector collections behind them, and what a new knowledge base finds in its collection. The type `π`
stands for the points, `lower` for `str.lower`. -/

namespace RagSystem.KbManager

open Transition

inductive Status
  | active
  | deleted
  deriving DecidableEq, Repr

structure KnowledgeBase where
  id : String
  name : String
  description : String := ""
  collectionName : String
  embeddingModel : String := "BAAI/bge-m3"
  denseVectorSize : Nat := 1024
  parserConfig : String := "\x7b\x7d"
  status : Status := .active
  createdAt : ℚ
  updatedAt : ℚ
  deriving DecidableEq, Repr

/-- The table `knowledge_bases` with its primary key and its two unique columns. -/
structure KbTable where
  rows : List KnowledgeBase := []
  ids : (rows.map KnowledgeBase.id).Nodup := by simp
  names : (rows.map KnowledgeBase.name).Nodup := by simp
  collections : (rows.map KnowledgeBase.collectionName).Nodup := by simp

namespace KbTable

/-- No row stands in the way of the insertion of `kb`. -/
def Admits (table : KbTable) (kb : KnowledgeBase) : Prop :=
  ∀ row ∈ table.rows,
    row.id ≠ kb.id ∧ row.name ≠ kb.name ∧ row.collectionName ≠ kb.collectionName

instance (table : KbTable) (kb : KnowledgeBase) : Decidable (table.Admits kb) := by
  unfold Admits
  infer_instance

theorem nodup_append_of_ne {β : Type} {column : KnowledgeBase → β} {rows : List KnowledgeBase}
    {kb : KnowledgeBase} (distinct : (rows.map column).Nodup)
    (apart : ∀ row ∈ rows, column row ≠ column kb) : ((rows ++ [kb]).map column).Nodup := by
  rw [List.map_append, List.nodup_append']
  refine ⟨distinct, by simp, ?_⟩
  intro value known single
  obtain rfl : value = column kb := by simpa using single
  obtain ⟨row, member, same⟩ := List.mem_map.mp known
  exact apart row member same

def insert (table : KbTable) (kb : KnowledgeBase) (admitted : table.Admits kb) : KbTable where
  rows := table.rows ++ [kb]
  ids := nodup_append_of_ne table.ids (fun row member => (admitted row member).1)
  names := nodup_append_of_ne table.names (fun row member => (admitted row member).2.1)
  collections := nodup_append_of_ne table.collections (fun row member => (admitted row member).2.2)

/-- `UPDATE knowledge_bases SET status = 'deleted'` -/
def markDeleted (id : String) (now : ℚ) (table : KbTable) : KbTable :=
  let mark := fun row : KnowledgeBase =>
    if row.id = id then { row with status := .deleted, updatedAt := now } else row
  have kept {β : Type} (column : KnowledgeBase → β)
      (same : ∀ row, column (mark row) = column row) :
      (table.rows.map mark).map column = table.rows.map column := by
    rw [List.map_map]
    exact List.map_congr_left (fun row _ => same row)
  { rows := table.rows.map mark
    ids := by rw [kept KnowledgeBase.id (by intro row; simp only [mark]; split <;> rfl)]; exact table.ids
    names := by
      rw [kept KnowledgeBase.name (by intro row; simp only [mark]; split <;> rfl)]
      exact table.names
    collections := by
      rw [kept KnowledgeBase.collectionName (by intro row; simp only [mark]; split <;> rfl)]
      exact table.collections }

def delete (id : String) (table : KbTable) : KbTable where
  rows := table.rows.filter (fun row => row.id ≠ id)
  ids := table.ids.sublist (List.filter_sublist.map _)
  names := table.names.sublist (List.filter_sublist.map _)
  collections := table.collections.sublist (List.filter_sublist.map _)

end KbTable

structure Store (π : Type) where
  table : KbTable := {}
  qdrant : Dict String (List π) := ∅

variable {π : Type}

def Store.points (store : Store π) (collection : String) : List π :=
  (store.qdrant.get? collection).getD []

section Operations

variable (lower : String → String)

def collectionName (name : String) : String :=
  "kb_" ++ ((lower name).map (fun char => if char = ' ' then '_' else char)).map
    (fun char => if char = '-' then '_' else char)

/-- `_ensure_qdrant_collection`: what a client that is missing or fails does not create is logged
only. -/
def ensureQdrantCollection (reachable : Bool) (collection : String)
    (qdrant : Dict String (List π)) : Dict String (List π) :=
  if reachable then
    match qdrant.get? collection with
    | some _ => qdrant
    | none => qdrant.set collection []
  else qdrant

structure KbRequest where
  name : String
  description : String := ""
  embeddingModel : String := "BAAI/bge-m3"
  denseVectorSize : Nat := 1024
  parserConfig : String := "\x7b\x7d"
  deriving DecidableEq, Repr

/-- The row that `create_kb` inserts; `id` is the new UUID. -/
def newKb (id : String) (req : KbRequest) (now : ℚ) : KnowledgeBase where
  id := id
  name := req.name
  description := req.description
  collectionName := collectionName lower req.name
  embeddingModel := req.embeddingModel
  denseVectorSize := req.denseVectorSize
  parserConfig := req.parserConfig
  createdAt := now
  updatedAt := now

/-- `create_kb`; the error is the text of its `ValueError`. -/
def createKb (id : String) (req : KbRequest) (now : ℚ) (reachable : Bool) (store : Store π) :
    Except String KnowledgeBase × Store π :=
  let kb := newKb lower id req now
  if admitted : store.table.Admits kb then
    (.ok kb, {
      table := store.table.insert kb admitted
      qdrant := ensureQdrantCollection reachable kb.collectionName store.qdrant })
  else (.error s!"Knowledge base '{req.name}' already exists", store)

def getKb (id : String) (store : Store π) : Option KnowledgeBase :=
  store.table.rows.find? (fun row => row.id = id ∧ row.status ≠ .deleted)

/-- `delete_kb` -/
def deleteKb (id : String) (hard : Bool) (now : ℚ) (reachable : Bool) (store : Store π) :
    Store π :=
  if hard then
    { table := store.table.delete id
      qdrant := match getKb id store with
        | some kb => if reachable then store.qdrant.erase kb.collectionName else store.qdrant
        | none => store.qdrant }
  else { store with table := store.table.markDeleted id now }

def upload (id : String) (added : List π) (store : Store π) : Store π :=
  match getKb id store with
  | none => store
  | some kb =>
      match store.qdrant.get? kb.collectionName with
      | none => store
      | some points =>
          { store with qdrant := store.qdrant.set kb.collectionName (points ++ added) }

end Operations

inductive Op (π : Type)
  | create (id : String) (req : KbRequest) (now : ℚ) (reachable : Bool)
  | upload (id : String) (added : List π)
  | delete (id : String) (hard : Bool) (now : ℚ) (reachable : Bool)

/-- The stores, and the collections that hard deletions left behind with points in them. -/
structure Site (π : Type) where
  store : Store π := {}
  leaked : List String := []

/-- The collection of the deleted row, unless the row was active and its collection dropped, or
there was nothing in it. -/
def abandoned (store : Store π) : Op π → List String
  | .delete id true _ reachable =>
      (store.table.rows.filter (fun row =>
        row.id = id ∧ ¬ (row.status = .active ∧ reachable = true) ∧
          (store.points row.collectionName).length ≠ 0)).map KnowledgeBase.collectionName
  | _ => []

def perform (lower : String → String) (store : Store π) : Op π → Store π
  | .create id req now reachable => (createKb lower id req now reachable store).2
  | .upload id added => upload id added store
  | .delete id hard now reachable => deleteKb id hard now reachable store

def step (lower : String → String) (site : Site π) (op : Op π) : Option (Site π) :=
  some ⟨perform lower site.store op, site.leaked ++ abandoned site.store op⟩

def Named (store : Store π) (name : String) : Prop :=
  ∃ row ∈ store.table.rows, row.name = name ∧ row.status = .active

/-- A creation succeeds exactly if no active knowledge base has the name, and the new one finds its
collection empty. -/
def Isolated (lower : String → String) (event : Event (Site π) (Op π)) : Prop :=
  ∀ id req now reachable, event.action = .create id req now reachable →
    ((∃ kb, (createKb lower id req now reachable event.before.store).1 = .ok kb) ↔
      ¬ Named event.before.store req.name) ∧
    ∀ kb, (createKb lower id req now reachable event.before.store).1 = .ok kb →
      event.after.store.points kb.collectionName = []

/-- Where no active knowledge base has the name, no row at all has the new id, the name or the name
of the collection, and the collection was not left behind by a hard deletion. -/
def Unclaimed (lower : String → String) (event : Event (Site π) (Op π)) : Prop :=
  ∀ id req now reachable, event.action = .create id req now reachable →
    Named event.before.store req.name ∨
    (event.before.store.table.Admits (newKb lower id req now) ∧
      collectionName lower req.name ∉ event.before.leaked)

/-- The collections that no row owns have points exactly if they were left behind. -/
structure Tidy (site : Site π) : Prop where
  owned : ∀ row ∈ site.store.table.rows, row.collectionName ∉ site.leaked
  others : ∀ collection, (∀ row ∈ site.store.table.rows, row.collectionName ≠ collection) →
    (site.store.points collection ≠ [] ↔ collection ∈ site.leaked)

section Steps

variable {lower : String → String} {store : Store π}

theorem points_ensure (reachable : Bool) (name collection : String) (table : KbTable) :
    Store.points { table, qdrant := ensureQdrantCollection reachable name store.qdrant }
      collection = store.points collection := by
  unfold Store.points ensureQdrantCollection
  cases reachable with
  | false => rfl
  | true =>
      cases found : store.qdrant.get? name with
      | some points => simp
      | none =>
          by_cases same : collection = name
          · subst same
            simp [found]
          · simp [Dict.get?_set_of_ne same]

theorem getKb_eq_some {id : String} {kb : KnowledgeBase} (found : getKb id store = some kb) :
    kb ∈ store.table.rows ∧ kb.id = id ∧ kb.status = .active := by
  have hit := List.find?_some found
  refine ⟨List.mem_of_find?_eq_some found, ?_⟩
  cases status : kb.status <;> simp_all

theorem getKb_eq_none {id : String} (missing : getKb id store = none) {row : KnowledgeBase}
    (known : row ∈ store.table.rows) (same : row.id = id) : row.status = .deleted := by
  have miss := List.find?_eq_none.mp missing row known
  simpa [same] using miss

theorem createKb_of_admits {id : String} {req : KbRequest} {now : ℚ} {reachable : Bool}
    (admitted : store.table.Admits (newKb lower id req now)) :
    createKb lower id req now reachable store =
      (.ok (newKb lower id req now), {
        table := store.table.insert (newKb lower id req now) admitted
        qdrant := ensureQdrantCollection reachable (collectionName lower req.name)
          store.qdrant }) := by
  simp only [createKb, dif_pos admitted]
  rfl

theorem createKb_of_not_admits {id : String} {req : KbRequest} {now : ℚ} {reachable : Bool}
    (refused : ¬ store.table.Admits (newKb lower id req now)) :
    createKb lower id req now reachable store =
      (.error s!"Knowledge base '{req.name}' already exists", store) := by
  simp only [createKb, dif_neg refused]

theorem not_admits_of_named {id : String} {req : KbRequest} {now : ℚ}
    (named : Named store req.name) : ¬ store.table.Admits (newKb lower id req now) := by
  intro admitted
  obtain ⟨row, member, same, -⟩ := named
  exact (admitted row member).2.1 same

theorem points_upload {id collection : String} {added : List π}
    (unowned : ∀ row ∈ store.table.rows, row.collectionName ≠ collection) :
    (upload id added store).points collection = store.points collection := by
  unfold upload
  cases found : getKb id store with
  | none => rfl
  | some kb =>
      have differs : collection ≠ kb.collectionName :=
        fun same => unowned kb (getKb_eq_some found).1 same.symm
      cases present : store.qdrant.get? kb.collectionName with
      | none => simp [present]
      | some points => simp [present, Store.points, Dict.get?_set_of_ne differs]

theorem table_upload (id : String) (added : List π) (store : Store π) :
    (upload id added store).table = store.table := by
  unfold upload
  split
  · rfl
  · split <;> rfl

theorem points_deleteKb (id : String) (now : ℚ) (reachable : Bool) (collection : String) :
    (deleteKb id true now reachable store).points collection =
      match getKb id store with
      | some kb => if reachable = true ∧ collection = kb.collectionName then []
          else store.points collection
      | none => store.points collection := by
  simp only [deleteKb, if_true]
  cases getKb id store with
  | none => rfl
  | some kb =>
      cases reachable with
      | false => simp [Store.points]
      | true =>
          by_cases same : collection = kb.collectionName
          · simp [Store.points, Dict.get?_erase, same]
          · simp [Store.points, Dict.get?_erase, same]

theorem mem_delete {id : String} {row : KnowledgeBase} {table : KbTable} :
    row ∈ (table.delete id).rows ↔ row ∈ table.rows ∧ row.id ≠ id := by
  simp [KbTable.delete]

theorem mem_abandoned {id collection : String} {now : ℚ} {reachable : Bool} :
    collection ∈ abandoned store (.delete id true now reachable) ↔
      ∃ row ∈ store.table.rows, row.id = id ∧ row.collectionName = collection ∧
        ¬ (row.status = .active ∧ reachable = true) ∧ store.points collection ≠ [] := by
  simp only [abandoned, List.mem_map, List.mem_filter, decide_eq_true_eq, ne_eq,
    List.length_eq_zero_iff]
  constructor
  · intro given
    rcases given with ⟨row, ⟨member, same, kept, filled⟩, rfl⟩
    exact ⟨row, member, same, rfl, kept, filled⟩
  · intro given
    rcases given with ⟨row, member, same, rfl, kept, filled⟩
    exact ⟨row, ⟨member, same, kept, filled⟩, rfl⟩

theorem collections_markDeleted (id : String) (now : ℚ) (table : KbTable) :
    (table.markDeleted id now).rows.map KnowledgeBase.collectionName =
      table.rows.map KnowledgeBase.collectionName := by
  simp only [KbTable.markDeleted, List.map_map]
  apply List.map_congr_left
  intro row _
  simp only [Function.comp_apply]
  split <;> rfl

end Steps

section Run

variable {lower : String → String} {site next : Site π} {op : Op π}

theorem Tidy.congr (tidy : Tidy site)
    (owned : next.store.table.rows.map KnowledgeBase.collectionName =
      site.store.table.rows.map KnowledgeBase.collectionName)
    (points : ∀ collection, (∀ row ∈ site.store.table.rows, row.collectionName ≠ collection) →
      next.store.points collection = site.store.points collection)
    (leaked : next.leaked = site.leaked) : Tidy next := by
  have named : ∀ collection, (∀ row ∈ next.store.table.rows, row.collectionName ≠ collection) ↔
      ∀ row ∈ site.store.table.rows, row.collectionName ≠ collection := by
    intro collection
    rw [← List.forall_mem_map (P := (· ≠ collection)), owned, List.forall_mem_map]
  constructor
  · intro row member inside
    have listed : row.collectionName ∈ site.store.table.rows.map KnowledgeBase.collectionName :=
      owned ▸ List.mem_map_of_mem member
    obtain ⟨old, known, same⟩ := List.mem_map.mp listed
    rw [leaked] at inside
    exact tidy.owned old known (same ▸ inside)
  · intro collection unowned
    have before := (named collection).mp unowned
    rw [points collection before, leaked]
    exact tidy.others collection before

theorem Tidy.create (tidy : Tidy site) {kb : KnowledgeBase} (admitted : site.store.table.Admits kb)
    (fresh : kb.collectionName ∉ site.leaked) (reachable : Bool) :
    Tidy ⟨⟨site.store.table.insert kb admitted,
      ensureQdrantCollection reachable kb.collectionName site.store.qdrant⟩, site.leaked⟩ := by
  constructor
  · intro row member
    rcases List.mem_append.mp member with old | new
    · exact tidy.owned row old
    · obtain rfl := List.mem_singleton.mp new
      exact fresh
  · intro collection unowned
    rw [points_ensure]
    exact tidy.others collection (fun row member => unowned row (List.mem_append_left _ member))

theorem Tidy.hardDelete (tidy : Tidy site) (id : String) (now : ℚ) (reachable : Bool) :
    Tidy ⟨deleteKb id true now reachable site.store,
      site.leaked ++ abandoned site.store (.delete id true now reachable)⟩ := by
  have table : (deleteKb id true now reachable site.store).table = site.store.table.delete id := by
    simp [deleteKb]
  constructor
  · intro row member inside
    simp only [table] at member
    obtain ⟨known, other⟩ := mem_delete.mp member
    rcases List.mem_append.mp inside with before | left
    · exact tidy.owned row known before
    · obtain ⟨gone, present, same, collection, -⟩ := mem_abandoned.mp left
      have one := List.inj_on_of_nodup_map site.store.table.collections present known collection
      exact other (one ▸ same)
  · intro collection unowned
    simp only [table] at unowned
    simp only [List.mem_append, points_deleteKb]
    by_cases before : ∀ row ∈ site.store.table.rows, row.collectionName ≠ collection
    · have kept : collection ∉ abandoned site.store (.delete id true now reachable) := by
        intro left
        obtain ⟨row, known, -, same, -⟩ := mem_abandoned.mp left
        exact before row known same
      cases found : getKb id site.store with
      | none => simpa [kept] using tidy.others collection before
      | some kb =>
          have differs : ¬ (reachable = true ∧ collection = kb.collectionName) :=
            fun both => before kb (getKb_eq_some found).1 both.2.symm
          simpa [kept, differs] using tidy.others collection before
    · push Not at before
      obtain ⟨row, known, rfl⟩ := before
      have same : row.id = id := by
        by_contra other
        exact unowned row (mem_delete.mpr ⟨known, other⟩) rfl
      have kept := tidy.owned row known
      have left : row.collectionName ∈ abandoned site.store (.delete id true now reachable) ↔
          ¬ (row.status = .active ∧ reachable = true) ∧
            site.store.points row.collectionName ≠ [] := by
        rw [mem_abandoned]
        constructor
        · intro given
          rcases given with ⟨other, present, -, equal, rest⟩
          have one := List.inj_on_of_nodup_map site.store.table.collections present known equal
          exact one ▸ rest
        · intro rest
          exact ⟨row, known, same, rfl, rest⟩
      rw [left]
      cases found : getKb id site.store with
      | none => simp [kept, getKb_eq_none found known same]
      | some kb =>
          obtain ⟨present, equal, active⟩ := getKb_eq_some found
          have one : kb = row :=
            List.inj_on_of_nodup_map site.store.table.ids present known (equal.trans same.symm)
          subst one
          cases reachable <;> simp [kept, active]

theorem tidy_step (tidy : Tidy site) (stepped : step lower site op = some next)
    (unclaimed : Unclaimed lower ⟨site, op, next⟩) : Tidy next := by
  obtain rfl := Option.some.inj stepped
  cases op with
  | create id req now reachable =>
      simp only [perform, abandoned, List.append_nil]
      rcases unclaimed id req now reachable rfl with named | ⟨admitted, fresh⟩
      · rw [createKb_of_not_admits (not_admits_of_named named)]
        exact tidy
      · rw [createKb_of_admits admitted]
        exact tidy.create admitted fresh reachable
  | upload id added =>
      refine tidy.congr ?_ ?_ (List.append_nil _)
      · simp only [perform, table_upload]
      · intro collection unowned
        exact points_upload unowned
  | delete id hard now reachable =>
      cases hard with
      | true => exact tidy.hardDelete id now reachable
      | false =>
          refine tidy.congr ?_ ?_ (List.append_nil _)
          · simp only [perform, deleteKb, Bool.false_eq_true, if_false, collections_markDeleted]
          · intro collection _
            rfl

theorem isolated_iff_unclaimed (tidy : Tidy site) (stepped : step lower site op = some next) :
    Isolated lower ⟨site, op, next⟩ ↔ Unclaimed lower ⟨site, op, next⟩ := by
  obtain rfl := Option.some.inj stepped
  apply forall₄_congr
  intro id req now reachable
  apply imp_congr_right
  intro given
  rcases given with rfl
  by_cases named : Named site.store req.name
  · simp [named, createKb_of_not_admits (not_admits_of_named named)]
  · by_cases admitted : site.store.table.Admits (newKb lower id req now)
    · have unowned : ∀ row ∈ site.store.table.rows,
          row.collectionName ≠ collectionName lower req.name :=
        fun row member => (admitted row member).2.2
      have left := tidy.others _ unowned
      have collection : (newKb lower id req now).collectionName = collectionName lower req.name :=
        rfl
      simp only [perform, createKb_of_admits admitted, named, admitted]
      simp [collection, points_ensure, ← left]
    · simp [named, createKb_of_not_admits admitted, admitted]

theorem tidy_empty : Tidy ({} : Site π) := by
  constructor <;> simp [Store.points]

/-- In every run creations succeed where no active knowledge base has the name and find nothing in
their collections exactly if none of them meets a row or a collection that was left behind. -/
theorem kb_isolation_iff {events : List (Event (Site π) (Op π))} {last : Site π}
    (run : Run (step lower) {} events last) :
    (∀ event ∈ events, Isolated lower event) ↔ ∀ event ∈ events, Unclaimed lower event :=
  Run.forall_event_iff Tidy (Isolated lower) (Unclaimed lower) tidy_empty
    (fun _ _ _ tidy stepped => isolated_iff_unclaimed tidy stepped)
    (fun _ _ _ tidy stepped unclaimed => tidy_step tidy stepped unclaimed) run

end Run

def recorded (ops : List (Op String)) : List (Event (Site String) (Op String)) :=
  (record (step String.toLower) {} ops).getD []

theorem recorded_run {ops : List (Op String)}
    (taken : (record (step String.toLower) {} ops).isSome = true) :
    Run (step String.toLower) {} (recorded ops) (final {} (recorded ops)) :=
  run_of_isSome taken

def recreate (deletions : List (Op String)) : List (Op String) :=
  [Op.create "1" { name := "docs" } 0 true, Op.upload "1" ["secret"]] ++ deletions ++
    [Op.create "2" { name := "docs" } 9 true]

theorem kb_isolation_hard_delete :
    let events := recorded (recreate [.delete "1" true 5 true])
    (∀ event ∈ events, Isolated String.toLower event) ↔
      ∀ event ∈ events, Unclaimed String.toLower event :=
  kb_isolation_iff (recorded_run rfl)

def afterSoftDelete : List (Event (Site String) (Op String)) :=
  recorded (recreate [.delete "1" false 5 true])

def afterBothDeletes : List (Event (Site String) (Op String)) :=
  recorded (recreate [.delete "1" false 5 true, .delete "1" true 6 true])

/-- After a soft deletion the name cannot be taken again, and after a hard one on top of it the new
knowledge base finds the old point. -/
theorem kb_isolation_fails_after_soft_delete :
    Run (step String.toLower) {} afterSoftDelete (final {} afterSoftDelete) ∧
      Run (step String.toLower) {} afterBothDeletes (final {} afterBothDeletes) ∧
      (¬ ∀ event ∈ afterSoftDelete, Isolated String.toLower event) ∧
      ¬ ∀ event ∈ afterBothDeletes, Isolated String.toLower event := by
  refine ⟨recorded_run rfl, recorded_run rfl, ?_, ?_⟩
  · intro isolated
    have shape : ∃ event ∈ afterSoftDelete,
        event.action = .create "2" { name := "docs" } 9 true ∧
          (∀ row ∈ event.before.store.table.rows, row.status = .deleted) ∧
          ¬ event.before.store.table.Admits (newKb String.toLower "2" { name := "docs" } 9) :=
      ⟨afterSoftDelete.get ⟨3, by decide +kernel⟩, List.get_mem _ _, rfl, by decide +kernel,
        by decide +kernel⟩
    obtain ⟨event, member, created, deleted, refused⟩ := shape
    have succeeds := (isolated event member _ _ _ _ created).1.mpr (by
      intro given
      rcases given with ⟨row, known, -, active⟩
      rw [deleted row known] at active
      cases active)
    rw [createKb_of_not_admits refused] at succeeds
    obtain ⟨kb, impossible⟩ := succeeds
    cases impossible
  · intro isolated
    have shape : ∃ event ∈ afterBothDeletes,
        event.action = .create "2" { name := "docs" } 9 true ∧
          event.before.store.table.Admits (newKb String.toLower "2" { name := "docs" } 9) ∧
          event.after.store.points "kb_docs" = ["secret"] :=
      ⟨afterBothDeletes.get ⟨4, by decide +kernel⟩, List.get_mem _ _, rfl, by decide +kernel,
        by decide +kernel⟩
    obtain ⟨event, member, created, admitted, filled⟩ := shape
    have empty := (isolated event member _ _ _ _ created).2 _ (by rw [createKb_of_admits admitted])
    have collection : (newKb String.toLower "2" { name := "docs" } 9).collectionName = "kb_docs" := by
      decide +kernel
    rw [collection, filled] at empty
    cases empty

end RagSystem.KbManager
