import RagSystem.Etl.WalManager

/-! What a write-ahead log holds, place by place, and the places that an update writes. -/

namespace RagSystem.Etl.Wal

/-- A place in the section of a pipeline. The hash map is taken apart: the hash of a document, and
what the map is otherwise. -/
inductive Part
  | key (key : String) (apart : key ≠ "hash_map")
  | hash (docId : String)
  | shape
  deriving DecidableEq, Repr

structure Slot where
  pipeline : String
  part : Part
  deriving DecidableEq, Repr

def hashOf (docId : String) : Json → Option Json
  | .obj entries => (Dict.ofList entries).get? docId
  | _ => none

def shapeOf : Json → Json
  | .obj _ => .obj []
  | value => value

def partValue (checkpoint : Checkpoint) : Part → Option Json
  | .key key _ => checkpoint.get? key
  | .hash docId => (checkpoint.get? "hash_map").bind (hashOf docId)
  | .shape => (checkpoint.get? "hash_map").map shapeOf

def slotValue (view : String → Option Checkpoint) (slot : Slot) : Option Json :=
  partValue ((view slot.pipeline).getD ∅) slot.part

/-- What setting these keys writes: `none` leaves the place alone. -/
def written (updates : Checkpoint) : Part → Option (Option Json)
  | .key key _ => (updates.get? key).map some
  | .hash docId => (updates.get? "hash_map").map (hashOf docId)
  | .shape => (updates.get? "hash_map").map (fun value => some (shapeOf value))

theorem partValue_setAll (checkpoint updates : Checkpoint) (part : Part) :
    partValue (checkpoint.setAll updates.entries) part =
      (written updates part).getD (partValue checkpoint part) := by
  cases part with
  | key key apart =>
      simp only [partValue, written, Dict.get?_setAll_entries]
      cases updates.get? key <;> rfl
  | hash docId =>
      simp only [partValue, written, Dict.get?_setAll_entries]
      cases updates.get? "hash_map" <;> rfl
  | shape =>
      simp only [partValue, written, Dict.get?_setAll_entries]
      cases updates.get? "hash_map" <;> rfl

theorem slotValue_merge (pipeline : String) (updates : Checkpoint) (data : Document) (slot : Slot) :
    slotValue (merge pipeline updates data).get? slot =
      if slot.pipeline = pipeline then (written updates slot.part).getD (slotValue data.get? slot)
      else slotValue data.get? slot := by
  unfold slotValue
  rw [get?_merge]
  split
  · rename_i same
    rw [same]
    exact partValue_setAll _ _ _
  · rfl

section Updates

variable (formats : Formats) (now : Rat)

/-- The keys of its own that an update writes. The hash state owns the hash of its document, not
the hashes that it reads and writes back. -/
def Update.wrote : Update → Part → Option (Option Json)
  | .hashState _ docId chunkHash, .hash other =>
      if other = docId then some (some (.str chunkHash)) else none
  | .hashState _ _ _, .shape => some (some (.obj []))
  | .hashState _ _ _, .key key _ =>
      if key = "_updated_at" then some (some (.str (formats.isoformat now))) else none
  | own, part => (own.updates formats ∅).bind (fun updates => written (stamp formats now updates) part)

def Update.owns (own : Update) (slot : Slot) : Bool :=
  decide (slot.pipeline = own.pipeline) && (own.wrote formats now slot.part).isSome

def Update.target? : Update → Option (String × String)
  | .hashState pipeline docId _ => some (pipeline, docId)
  | _ => none

/-- The updates are those of the call, with every other hash of the map as it is in the log. -/
structure Prepared (view : String → Option Checkpoint) (own : Update) (updates : Checkpoint) :
    Prop where
  wrote : ∀ part value, own.wrote formats now part = some value →
    written (stamp formats now updates) part = some value
  kept : ∀ part, own.wrote formats now part = none →
    ∀ value, written (stamp formats now updates) part = some value →
      value = slotValue view ⟨own.pipeline, part⟩
  onlyHashes : ∀ part, own.wrote formats now part = none →
    (written (stamp formats now updates) part).isSome = true →
      ∃ docId other, own.target? = some (own.pipeline, docId) ∧ part = .hash other ∧ other ≠ docId

variable {formats now} {own : Update} {view : String → Option Checkpoint}

theorem get?_stamp (updates : Checkpoint) (key : String) :
    (stamp formats now updates).get? key =
      if key = "_updated_at" then some (.str (formats.isoformat now)) else updates.get? key :=
  Dict.get?_set updates "_updated_at" key _

theorem hashOf_setHash {hashMap changed : Json} {docId chunkHash : String}
    (set : setHash hashMap docId chunkHash = some changed) :
    (∃ entries, changed = .obj entries) ∧ ∀ other, hashOf other changed =
      if other = docId then some (.str chunkHash) else hashOf other hashMap := by
  unfold setHash at set
  split at set
  · split at set
    · rename_i entries
      obtain rfl := Option.some.inj set
      refine ⟨⟨_, rfl⟩, ?_⟩
      intro other
      rw [hashOf, Dict.get?_ofList_entries, Dict.get?_set]
      rfl
    · cases set
  · rename_i falsy
    obtain rfl := Option.some.inj set
    refine ⟨⟨_, rfl⟩, ?_⟩
    intro other
    have none : hashOf other hashMap = none := by
      cases hashMap with
      | obj entries =>
          have empty : entries = [] := by simpa [Json.truthy] using falsy
          rw [empty]
          rfl
      | _ => rfl
    rw [none, hashOf, Dict.get?_ofList_singleton]

theorem hashOf_getCheckpoint (seen : Document) (pipeline docId : String) :
    hashOf docId (getCheckpoint seen pipeline (some "hash_map")) =
      slotValue seen.get? ⟨pipeline, .hash docId⟩ := by
  have key : "hash_map" ≠ "" := by decide
  simp only [getCheckpoint, slotValue, partValue, sectionOf, key, if_false]
  cases ((seen.get? pipeline).getD ∅).get? "hash_map" <;> rfl

section HashMap

variable (formats now) (entries : List (String × Json))

theorem written_key {key : String} (apart : key ≠ "hash_map") :
    written (stamp formats now (Dict.ofList [("hash_map", .obj entries)])) (.key key apart) =
      if key = "_updated_at" then some (some (.str (formats.isoformat now))) else none := by
  simp only [written, get?_stamp, Dict.get?_ofList_singleton, apart, if_false]
  split <;> rfl

theorem written_hash (docId : String) :
    written (stamp formats now (Dict.ofList [("hash_map", .obj entries)])) (.hash docId) =
      some (hashOf docId (.obj entries)) := by
  simp [written, get?_stamp, Dict.get?_ofList_singleton]

theorem written_shape :
    written (stamp formats now (Dict.ofList [("hash_map", .obj entries)])) .shape =
      some (some (.obj [])) := by
  simp [written, get?_stamp, Dict.get?_ofList_singleton, shapeOf]

end HashMap

theorem prepared_updates {seen : Document} {updates : Checkpoint}
    (prepares : own.updates formats seen = some updates)
    (shown : ∀ pipeline docId, own.target? = some (pipeline, docId) →
      ∀ other, other ≠ docId →
        slotValue seen.get? ⟨pipeline, .hash other⟩ = slotValue view ⟨pipeline, .hash other⟩) :
    Prepared formats now view own updates := by
  by_cases plain : own.target? = none
  · have wrote : ∀ part, own.wrote formats now part = written (stamp formats now updates) part := by
      intro part
      cases own with
      | hashState pipeline docId chunkHash => cases plain
      | _ =>
          obtain rfl := Option.some.inj prepares
          rfl
    constructor
    · intro part value same
      rw [← wrote, same]
    · intro part untouched value same
      rw [← wrote, untouched] at same
      cases same
    · intro part untouched same
      rw [← wrote, untouched] at same
      cases same
  · cases own with
    | hashState pipeline docId chunkHash =>
        obtain ⟨hashMap, set, rfl⟩ := Option.map_eq_some_iff.mp prepares
        obtain ⟨⟨entries, rfl⟩, hashes⟩ := hashOf_setHash set
        constructor
        · intro part value same
          cases part with
          | key key apart => exact (written_key formats now entries apart).trans same
          | hash other =>
              simp only [Update.wrote] at same
              split at same
              · rename_i own
                rw [written_hash, hashes, if_pos own]
                exact same
              · cases same
          | shape => exact (written_shape formats now entries).trans same
        · intro part untouched value same
          cases part with
          | key key apart =>
              rw [written_key] at same
              cases untouched.symm.trans same
          | hash other =>
              simp only [Update.wrote] at untouched
              split at untouched
              · cases untouched
              · rename_i differs
                rw [written_hash] at same
                obtain rfl := Option.some.inj same
                rw [hashes, if_neg differs, hashOf_getCheckpoint]
                exact shown pipeline docId rfl other differs
          | shape => cases untouched
        · intro part untouched same
          cases part with
          | key key apart =>
              rw [written_key] at same
              rw [show (if key = "_updated_at" then
                some (some (Json.str (formats.isoformat now))) else none) = none from untouched]
                at same
              cases same
          | hash other =>
              simp only [Update.wrote] at untouched
              split at untouched
              · cases untouched
              · rename_i differs
                exact ⟨docId, other, rfl, rfl, differs⟩
          | shape => cases untouched
    | _ => exact absurd rfl plain

end Updates

end RagSystem.Etl.Wal
