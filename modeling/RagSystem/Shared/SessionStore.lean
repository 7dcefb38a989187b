import Mathlib.Data.String.Basic
import Mathlib.Tactic.Linarith
import RagSystem.Data.Dict
import RagSystem.Data.StableSort
import RagSystem.Shared.ConversationMemory
import RagSystem.Transition.Run

/-! The store of conversations by session id (`get_conversation`, `_prune_store` and
`prune_expired_sessions` of `proxy/app/shared/memory_manager.py`). -/

namespace RagSystem.SessionStore

open Transition

/-- A memory, as the place where it lies, and when the session was created. -/
structure Session where
  memory : Nat
  createdAt : ℚ
  deriving DecidableEq, Repr

structure Settings where
  storeMaxEntries : Nat := 1000
  sessionTtl : Int := 1800
  summaryThresholdTokens : Int := 2000
  deriving DecidableEq, Repr

variable (settings : Settings) (characters : Characters) {μ : Type}

def expired (now : ℚ) (session : Session) : Prop :=
  0 < settings.sessionTtl ∧ (settings.sessionTtl : ℚ) < now - session.createdAt

instance (now : ℚ) (session : Session) : Decidable (expired settings now session) :=
  inferInstanceAs (Decidable (_ ∧ _))

/-- `_conversation_store`, and the memories that were created. -/
structure Conversations (μ : Type) where
  store : Dict String Session := ∅
  memories : List (ConversationMemory μ) := []
  deriving DecidableEq, Repr

/-- `sorted(keys)`. -/
def sortedIds (ids : List String) : List String := ids.insertionSort (· ≤ ·)

def pruneStore (store : Dict String Session) : Dict String Session :=
  if settings.storeMaxEntries < store.size then
    store.eraseAll ((sortedIds store.keys).take (store.size - settings.storeMaxEntries / 2))
  else store

def live (now : ℚ) (sessionId : String) (store : Dict String Session) : Option Session :=
  (store.get? sessionId).filter (fun session => ¬ expired settings now session)

def opened (now : ℚ) (sessionId : String) (conversations : Conversations μ) :
    Dict String Session :=
  (conversations.store.erase sessionId).set sessionId ⟨conversations.memories.length, now⟩

/-- The place of the memory, or the id in the `KeyError`. -/
def getConversation (now : ℚ) (sessionId : String) (conversations : Conversations μ) :
    Except String Nat × Conversations μ :=
  match live settings now sessionId conversations.store with
  | some session => (.ok session.memory, conversations)
  | none =>
      let store := pruneStore settings (opened now sessionId conversations)
      let memory : ConversationMemory μ :=
        { summaryThresholdTokens := settings.summaryThresholdTokens }
      let after := { store := store, memories := conversations.memories ++ [memory] }
      match store.get? sessionId with
      | some session => (.ok session.memory, after)
      | none => (.error sessionId, after)

def pruneExpiredSessions (now : ℚ) (store : Dict String Session) : Nat × Dict String Session :=
  if settings.sessionTtl ≤ 0 then (0, store)
  else
    let gone := (store.entries.filter (fun entry => expired settings now entry.2)).map Prod.fst
    (gone.length, store.eraseAll gone)

/-! Runs. -/

structure Service (μ : Type) where
  conversations : Conversations μ := {}
  clock : ℚ := 0
  deriving DecidableEq, Repr

inductive Action (μ : Type)
  | get (now : ℚ) (sessionId : String)
  | prune (now : ℚ)
  /-- A caller adds a turn to a memory. -/
  | addTurn (now : ℚ) (memory : Nat) (role content : String) (metadata : Option (Dict String μ))
  deriving DecidableEq, Repr

def Action.now : Action μ → ℚ
  | .get now _ => now
  | .prune now => now
  | .addTurn now _ _ _ _ => now

def act (conversations : Conversations μ) : Action μ → Conversations μ
  | .get now sessionId => (getConversation settings now sessionId conversations).2
  | .prune now =>
      { conversations with store := (pruneExpiredSessions settings now conversations.store).2 }
  | .addTurn now memory role content metadata =>
      { conversations with
        memories := conversations.memories.modify memory
          (ConversationMemory.addTurn characters now role content metadata) }

def step (service : Service μ) (action : Action μ) : Option (Service μ) :=
  if action.now < service.clock then none
  else some
    { conversations := act settings characters service.conversations action
      clock := action.now }

/-- A call for a session answers the memory stored under its id: the one that was there if the
session is live, with the turns it had, and else a new one. -/
def Answered (now : ℚ) (sessionId : String) (before after : Conversations μ) : Prop :=
  ∃ memory,
    (getConversation settings now sessionId before).1 = .ok memory ∧
      (after.store.get? sessionId).map Session.memory = some memory ∧
      match live settings now sessionId before.store with
      | some session => memory = session.memory ∧ after.memories = before.memories
      | none =>
          memory = before.memories.length ∧ after.memories[memory]? =
            some { summaryThresholdTokens := settings.summaryThresholdTokens }

/-- The sessions that are gone are no younger than those that are left. -/
def OldestGone (before after : Dict String Session) : Prop :=
  ∀ goneId gone, before.get? goneId = some gone → after.get? goneId = none →
    ∀ keptId kept, after.get? keptId = some kept → gone.createdAt ≤ kept.createdAt

def Right (event : Event (Service μ) (Action μ)) : Prop :=
  let before := event.before.conversations
  let after := event.after.conversations
  after.store.size ≤ settings.storeMaxEntries ∧ OldestGone before.store after.store ∧
    match event.action with
    | .get now sessionId => Answered settings now sessionId before after
    | _ => True

def others (sessionId : String) (store : Dict String Session) : List String :=
  store.keys.filter (· ≠ sessionId)

def rank (sessionId : String) (store : Dict String Session) (key : String) : Nat :=
  ((others sessionId store ++ [sessionId]).filter (· < key)).length

def surplus (sessionId : String) (store : Dict String Session) : Nat :=
  (others sessionId store).length + 1 - settings.storeMaxEntries / 2

/-- The ids that come first, among which the new one is not, are those of sessions no younger than
the other ones. -/
def OldestFirst (sessionId : String) (store : Dict String Session) : Prop :=
  surplus settings sessionId store ≤ rank sessionId store sessionId ∧
    ∀ gone ∈ store.entries, gone.1 ≠ sessionId →
      rank sessionId store gone.1 < surplus settings sessionId store →
      ∀ kept ∈ store.entries, kept.1 ≠ sessionId →
        surplus settings sessionId store ≤ rank sessionId store kept.1 →
        gone.2.createdAt ≤ kept.2.createdAt

instance (sessionId : String) (store : Dict String Session) :
    Decidable (OldestFirst settings sessionId store) :=
  inferInstanceAs (Decidable (_ ∧ _))

/-- The session is live, or there is room for it, or the oldest sessions have the first ids. -/
def Fair (event : Event (Service μ) (Action μ)) : Prop :=
  match event.action with
  | .get now sessionId =>
      let store := event.before.conversations.store
      (live settings now sessionId store).isSome ∨
        (others sessionId store).length < settings.storeMaxEntries ∨
        OldestFirst settings sessionId store
  | _ => True

instance (event : Event (Service μ) (Action μ)) : Decidable (Fair settings event) :=
  match event with
  | ⟨before, .get now sessionId, _⟩ =>
      inferInstanceAs (Decidable (
        (live settings now sessionId before.conversations.store).isSome ∨
          (others sessionId before.conversations.store).length < settings.storeMaxEntries ∨
          OldestFirst settings sessionId before.conversations.store))
  | ⟨_, .prune _, _⟩ => inferInstanceAs (Decidable True)
  | ⟨_, .addTurn _ _ _ _ _, _⟩ => inferInstanceAs (Decidable True)

variable {settings} {characters} {service next : Service μ} {action : Action μ}
variable {events : List (Event (Service μ) (Action μ))}

section Pruning

variable {now : ℚ} {sessionId : String} {conversations : Conversations μ}

theorem keys_opened :
    (opened now sessionId conversations).keys =
      others sessionId conversations.store ++ [sessionId] := by
  rw [opened, Dict.keys_set, Dict.keys_erase, if_neg (by simp)]
  rfl

theorem size_opened :
    (opened now sessionId conversations).size =
      (others sessionId conversations.store).length + 1 := by
  rw [Dict.size, keys_opened, List.length_append, List.length_singleton]

theorem get?_opened (key : String) :
    (opened now sessionId conversations).get? key =
      if key = sessionId then some ⟨conversations.memories.length, now⟩
      else conversations.store.get? key := by
  rw [opened, Dict.get?_set, Dict.get?_erase]
  split
  · rfl
  · rfl

theorem pairwise_sortedIds {ids : List String} (distinct : ids.Nodup) :
    (sortedIds ids).Pairwise (· < ·) := by
  have sorted : (sortedIds ids).Pairwise (· ≤ ·) := List.pairwise_insertionSort (· ≤ ·) ids
  have apart : (sortedIds ids).Nodup := (List.perm_insertionSort (· ≤ ·) ids).nodup_iff.mpr distinct
  exact (sorted.and apart).imp (fun both => lt_of_le_of_ne both.1 both.2)

theorem mem_take_sortedIds {ids : List String} (distinct : ids.Nodup) {key : String}
    (member : key ∈ ids) (count : Nat) :
    key ∈ (sortedIds ids).take count ↔ (ids.filter (· < key)).length < count := by
  have permuted : (sortedIds ids).Perm ids := List.perm_insertionSort (· ≤ ·) ids
  rw [mem_take_iff_of_ordered count (fun _ _ => lt_asymm) (pairwise_sortedIds distinct)
    (permuted.mem_iff.mpr member), (permuted.filter _).length_eq]

theorem pruneStore_of_room
    (room : (others sessionId conversations.store).length < settings.storeMaxEntries) :
    pruneStore settings (opened now sessionId conversations) =
      opened now sessionId conversations := by
  rw [pruneStore, size_opened, if_neg (by omega)]

theorem get?_pruneStore_of_full
    (full : settings.storeMaxEntries ≤ (others sessionId conversations.store).length)
    (key : String) :
    (pruneStore settings (opened now sessionId conversations)).get? key =
      if rank sessionId conversations.store key < surplus settings sessionId conversations.store
      then none else (opened now sessionId conversations).get? key := by
  have distinct := (opened now sessionId conversations).nodup_keys
  rw [pruneStore, size_opened, if_pos (by omega), Dict.get?_eraseAll]
  by_cases listed : key ∈ (opened now sessionId conversations).keys
  · rw [keys_opened] at listed distinct
    simp only [keys_opened, mem_take_sortedIds distinct listed]
    rfl
  · rw [Dict.get?_eq_none_of_not_mem listed, ite_self, ite_self]

theorem size_pruneStore_le (store : Dict String Session) :
    (pruneStore settings store).size ≤ settings.storeMaxEntries := by
  unfold pruneStore
  split
  · have permuted : (sortedIds store.keys).Perm store.keys := List.perm_insertionSort _ _
    have left := store.size_eraseAll
      ((sortedIds store.keys).take (store.size - settings.storeMaxEntries / 2))
      ((permuted.nodup_iff.mpr store.nodup_keys).sublist (List.take_sublist _ _))
      (fun key member => permuted.mem_iff.mp (List.mem_of_mem_take member))
    rw [List.length_take, permuted.length_eq, ← Dict.size] at left
    omega
  · omega

theorem get?_of_pruneStore {store : Dict String Session} {key : String} {session : Session}
    (found : (pruneStore settings store).get? key = some session) :
    store.get? key = some session := by
  unfold pruneStore at found
  split at found
  · rw [Dict.get?_eraseAll] at found
    split at found
    · contradiction
    · exact found
  · exact found

theorem getConversation_of_live {session : Session}
    (found : live settings now sessionId conversations.store = some session) :
    getConversation settings now sessionId conversations = (.ok session.memory, conversations) := by
  simp only [getConversation, found]

theorem conversations_of_new (missing : live settings now sessionId conversations.store = none) :
    (getConversation settings now sessionId conversations).2 =
      { store := pruneStore settings (opened now sessionId conversations)
        memories := conversations.memories ++
          [{ summaryThresholdTokens := settings.summaryThresholdTokens }] } := by
  simp only [getConversation, missing]
  split
  · rfl
  · rfl

theorem answered_of_new_iff (missing : live settings now sessionId conversations.store = none) :
    Answered settings now sessionId conversations
        (getConversation settings now sessionId conversations).2 ↔
      (pruneStore settings (opened now sessionId conversations)).get? sessionId ≠ none := by
  rw [Answered, conversations_of_new missing]
  simp only [getConversation, missing]
  cases stored : (pruneStore settings (opened now sessionId conversations)).get? sessionId with
  | none => simp
  | some session =>
      have new := get?_of_pruneStore stored
      rw [get?_opened, if_pos rfl] at new
      obtain rfl := Option.some.inj new
      simp

theorem get?_pruneExpired (store : Dict String Session) (key : String) :
    (pruneExpiredSessions settings now store).2.get? key =
      (store.get? key).filter (fun session => ¬ expired settings now session) := by
  unfold pruneExpiredSessions
  split
  · rename_i never
    have fresh : ∀ session, ¬ expired settings now session := by
      intro session old
      exact absurd old.1 (not_lt.mpr never)
    dsimp only
    cases store.get? key with
    | none => rfl
    | some session => simp [Option.filter, fresh session]
  · rw [Dict.get?_eraseAll]
    cases stored : store.get? key with
    | none => simp
    | some session =>
        have listed : key ∈ (store.entries.filter
            (fun entry => expired settings now entry.2)).map Prod.fst ↔
              expired settings now session := by
          simp only [List.mem_map, List.mem_filter, decide_eq_true_eq, Prod.exists,
            exists_and_right, exists_eq_right, Dict.mem_entries_iff, stored, Option.some.injEq,
            exists_eq_left']
        by_cases old : expired settings now session
        · rw [if_pos (listed.mpr old)]
          simp [Option.filter, old]
        · rw [if_neg (fun member => old (listed.mp member))]
          simp [Option.filter, old]

end Pruning

theorem act_get (now : ℚ) (sessionId : String) (conversations : Conversations μ) :
    act settings characters conversations (.get now sessionId) =
      (getConversation settings now sessionId conversations).2 := rfl

theorem act_prune (now : ℚ) (conversations : Conversations μ) :
    act settings characters conversations (.prune now) =
      { conversations with store := (pruneExpiredSessions settings now conversations.store).2 } :=
  rfl

structure Stored (settings : Settings) (service : Service μ) : Prop where
  bounded : service.conversations.store.size ≤ settings.storeMaxEntries
  past : ∀ key session, service.conversations.store.get? key = some session →
    session.createdAt ≤ service.clock

theorem get?_after_step (stepped : step settings characters service action = some next)
    {key : String} {session : Session}
    (found : next.conversations.store.get? key = some session) :
    service.conversations.store.get? key = some session ∨ session.createdAt = action.now := by
  unfold step at stepped
  split at stepped
  · contradiction
  · obtain rfl := Option.some.inj stepped
    cases action with
    | get now sessionId =>
        dsimp only at found
        rw [act_get] at found
        cases alive : live settings now sessionId service.conversations.store with
        | some _ =>
            rw [getConversation_of_live alive] at found
            exact Or.inl found
        | none =>
            rw [conversations_of_new alive] at found
            have stored := get?_of_pruneStore found
            rw [get?_opened] at stored
            split at stored
            · obtain rfl := Option.some.inj stored
              exact Or.inr rfl
            · exact Or.inl stored
    | prune now =>
        dsimp only at found
        rw [act_prune, get?_pruneExpired, Option.filter_eq_some_iff] at found
        exact Or.inl found.1
    | addTurn now memory role content metadata => exact Or.inl found

theorem size_step (bounded : service.conversations.store.size ≤ settings.storeMaxEntries)
    (action : Action μ) :
    (act settings characters service.conversations action).store.size ≤
      settings.storeMaxEntries := by
  cases action with
  | get now sessionId =>
      rw [act_get]
      cases alive : live settings now sessionId service.conversations.store with
      | some _ =>
          rw [getConversation_of_live alive]
          exact bounded
      | none =>
          rw [conversations_of_new alive]
          exact size_pruneStore_le _
  | prune now =>
      rw [act_prune, pruneExpiredSessions]
      split
      · exact bounded
      · exact (Dict.size_eraseAll_le _ _).trans bounded
  | addTurn now memory role content metadata => exact bounded

theorem stored_step (stored : Stored settings service)
    (stepped : step settings characters service action = some next) : Stored settings next := by
  have enabled := stepped
  unfold step at enabled
  split at enabled
  · contradiction
  · rename_i later
    obtain rfl := Option.some.inj enabled
    refine ⟨size_step stored.bounded action, ?_⟩
    intro key session found
    rcases get?_after_step stepped found with before | new
    · exact (stored.past key session before).trans (not_lt.mp later)
    · exact new.le

theorem prune_oldestGone (now : ℚ) (store : Dict String Session) :
    OldestGone store (pruneExpiredSessions settings now store).2 := by
  intro goneId gone stored missing keptId kept found
  rw [get?_pruneExpired] at missing found
  have old : expired settings now gone := by
    by_contra fresh
    simp [stored, Option.filter, fresh] at missing
  have fresh : ¬ expired settings now kept := by
    have passed := (Option.filter_eq_some_iff.mp found).2
    simpa using passed
  have older := old.2
  by_contra younger
  apply fresh
  refine ⟨old.1, ?_⟩
  linarith

theorem room_oldestGone {now : ℚ} {sessionId : String} {conversations : Conversations μ}
    (room : (others sessionId conversations.store).length < settings.storeMaxEntries) :
    OldestGone conversations.store
      (pruneStore settings (opened now sessionId conversations)) := by
  intro goneId gone stored missing keptId kept found
  rw [pruneStore_of_room room, get?_opened] at missing
  split at missing
  · contradiction
  · rw [stored] at missing
    contradiction

theorem full_right_iff {now : ℚ} {sessionId : String} {conversations : Conversations μ}
    (past : ∀ key session, conversations.store.get? key = some session → session.createdAt ≤ now)
    (full : settings.storeMaxEntries ≤ (others sessionId conversations.store).length) :
    let store := conversations.store
    let after := pruneStore settings (opened now sessionId conversations)
    (OldestGone store after ∧ after.get? sessionId ≠ none) ↔
      OldestFirst settings sessionId store := by
  intro store after
  have stored : ∀ key, after.get? key =
      if rank sessionId store key < surplus settings sessionId store then none
      else if key = sessionId then some ⟨conversations.memories.length, now⟩
      else store.get? key := by
    intro key
    rw [get?_pruneStore_of_full full, get?_opened]
  have answered : after.get? sessionId ≠ none ↔
      surplus settings sessionId store ≤ rank sessionId store sessionId := by
    rw [stored, if_pos rfl, ← not_lt]
    split
    · rename_i pruned
      simp [pruned]
    · rename_i kept
      simp [kept]
  rw [and_comm, answered, OldestFirst]
  apply and_congr_right
  intro safe
  constructor
  · intro oldest gone goneIn goneOther low kept keptIn keptOther high
    apply oldest gone.1 gone.2 ((Dict.mem_entries_iff _ _ _).mp goneIn) _ kept.1
    · rw [stored, if_neg (not_lt.mpr high), if_neg keptOther]
      exact (Dict.mem_entries_iff _ _ _).mp keptIn
    · rw [stored, if_pos low]
  · intro ordered goneId gone goneIn missing keptId kept found
    have goneOther : goneId ≠ sessionId := by
      intro given
      rcases given with rfl
      exact answered.mpr safe missing
    have low : rank sessionId store goneId < surplus settings sessionId store := by
      by_contra high
      rw [stored, if_neg high, if_neg goneOther, goneIn] at missing
      contradiction
    rw [stored] at found
    split at found
    · contradiction
    · rename_i high
      split at found
      · obtain rfl := Option.some.inj found
        exact past goneId gone goneIn
      · rename_i keptOther
        exact ordered (goneId, gone) ((Dict.mem_entries_iff _ _ _).mpr goneIn) goneOther low
          (keptId, kept) ((Dict.mem_entries_iff _ _ _).mpr found) keptOther (not_lt.mp high)

theorem right_get_iff {now : ℚ} {sessionId : String} {conversations : Conversations μ}
    (past : ∀ key session, conversations.store.get? key = some session →
      session.createdAt ≤ now) :
    let after := (getConversation settings now sessionId conversations).2
    (OldestGone conversations.store after.store ∧
        Answered settings now sessionId conversations after) ↔
      (live settings now sessionId conversations.store).isSome ∨
        (others sessionId conversations.store).length < settings.storeMaxEntries ∨
        OldestFirst settings sessionId conversations.store := by
  intro after
  cases alive : live settings now sessionId conversations.store with
  | some session =>
      have same : after = conversations :=
        congrArg Prod.snd (getConversation_of_live alive)
      have kept : conversations.store.get? sessionId = some session :=
        (Option.filter_eq_some_iff.mp alive).1
      rw [same]
      simp only [Option.isSome_some, true_or, iff_true]
      constructor
      · intro goneId gone stored missing
        rw [stored] at missing
        contradiction
      · refine ⟨session.memory, congrArg Prod.fst (getConversation_of_live alive), ?_, ?_⟩
        · rw [kept]
          rfl
        · rw [alive]
          exact ⟨rfl, rfl⟩
  | none =>
      have store : after.store = pruneStore settings (opened now sessionId conversations) :=
        congrArg Conversations.store (conversations_of_new alive)
      rw [answered_of_new_iff alive, store]
      simp only [Option.isSome_none, Bool.false_eq_true, false_or]
      by_cases room : (others sessionId conversations.store).length < settings.storeMaxEntries
      · have found : (pruneStore settings (opened now sessionId conversations)).get? sessionId ≠
            none := by
          rw [pruneStore_of_room room, get?_opened, if_pos rfl]
          simp
        simp only [room, true_or, iff_true]
        exact ⟨room_oldestGone room, found⟩
      · simp only [room, false_or]
        exact full_right_iff past (not_lt.mp room)

theorem right_iff_fair (stored : Stored settings service)
    (stepped : step settings characters service action = some next) :
    Right settings ⟨service, action, next⟩ ↔ Fair settings ⟨service, action, next⟩ := by
  have bounded := (stored_step stored stepped).bounded
  unfold step at stepped
  split at stepped
  · contradiction
  · rename_i later
    obtain rfl := Option.some.inj stepped
    simp only [Right, bounded, true_and]
    cases action with
    | get now sessionId =>
        apply right_get_iff
        intro key session found
        exact (stored.past key session found).trans (not_lt.mp later)
    | prune now =>
        simp only [Fair, and_true, iff_true]
        exact prune_oldestGone now service.conversations.store
    | addTurn now memory role content metadata =>
        simp only [Fair, and_true, iff_true]
        intro goneId gone found missing
        have same : service.conversations.store.get? goneId = none := missing
        rw [found] at same
        contradiction

def AllRight (settings : Settings) (events : List (Event (Service μ) (Action μ))) : Prop :=
  ∀ event ∈ events, Right settings event

/-- The calls of a run are all right exactly if none of them meets a full store whose first ids are
not those of the oldest sessions. -/
theorem sessions_right_iff (settings : Settings) (characters : Characters)
    (run : Run (step settings characters) {} events service) :
    AllRight settings events ↔ ∀ event ∈ events, Fair settings event := by
  apply Run.forall_event_iff (Stored settings) _ _ _ _ _ run
  · refine ⟨Nat.zero_le _, ?_⟩
    intro key session found
    simp at found
  · intro state action next stored stepped
    exact right_iff_fair stored stepped
  · intro state action next stored stepped _
    exact stored_step stored stepped

def inOrder : List (Event (Service Unit) (Action Unit)) :=
  (record (step { storeMaxEntries := 2 } Characters.ascii) {}
    [.get 0 "first", .addTurn 1 0 "user" "What is Qdrant?" none, .get 2 "first", .get 3 "second",
      .get 4 "third", .prune 5000]).getD []

theorem inOrder_right : AllRight { storeMaxEntries := 2 } inOrder :=
  (sessions_right_iff { storeMaxEntries := 2 } Characters.ascii
    (run_of_isSome (by decide +kernel))).mpr (by decide +kernel)

section FullStore

variable {sessionId : String} {conversations : Conversations μ}

theorem live_of_not_mem (fresh : sessionId ∉ conversations.store.keys) (now : ℚ) :
    live settings now sessionId conversations.store = none := by
  rw [live, Dict.get?_eq_none_of_not_mem fresh]
  rfl

theorem others_of_not_mem (fresh : sessionId ∉ conversations.store.keys) :
    others sessionId conversations.store = conversations.store.keys := by
  apply List.filter_eq_self.mpr
  intro key member
  have differs : key ≠ sessionId := fun same => fresh (same ▸ member)
  simp [differs]

theorem exists_run_of_fresh (settings : Settings) (characters : Characters) (ids : List String)
    (distinct : ids.Nodup) (room : ids.length ≤ settings.storeMaxEntries) :
    ∃ (events : List (Event (Service μ) (Action μ))) (service : Service μ),
      Run (step settings characters) {} events service ∧
        events.map Event.action = ids.map (Action.get 0) ∧
        service.conversations.store.keys = ids ∧ service.clock = 0 := by
  induction ids using List.reverseRecOn with
  | nil => exact ⟨[], {}, Run.nil, rfl, rfl, rfl⟩
  | append_singleton ids sessionId ih =>
      rw [List.length_append, List.length_singleton] at room
      obtain ⟨earlier, -, apart⟩ := List.nodup_append.mp distinct
      obtain ⟨events, service, run, actions, keys, clock⟩ := ih earlier (by omega)
      have fresh : sessionId ∉ service.conversations.store.keys := by
        rw [keys]
        intro member
        exact apart sessionId member sessionId (List.mem_singleton_self _) rfl
      have stepped : step settings characters service (.get 0 sessionId) = some
          { conversations := act settings characters service.conversations (.get 0 sessionId)
            clock := 0 } := by
        rw [step, if_neg (by rw [clock]; exact lt_irrefl 0)]
        rfl
      refine ⟨_, _, Run.snoc run _ stepped, ?_, ?_, rfl⟩
      · rw [List.map_append, List.map_append, actions]
        rfl
      · dsimp only
        rw [act_get, conversations_of_new (live_of_not_mem fresh 0)]
        dsimp only
        rw [pruneStore_of_room, keys_opened, others_of_not_mem fresh, keys]
        rw [others_of_not_mem fresh, keys]
        omega

theorem getConversation_of_first (fresh : sessionId ∉ conversations.store.keys)
    (full : settings.storeMaxEntries ≤ conversations.store.keys.length)
    (first : ∀ key ∈ conversations.store.keys, sessionId ≤ key) (now : ℚ) :
    (getConversation settings now sessionId conversations).1 = .error sessionId := by
  have lowest : rank sessionId conversations.store sessionId = 0 := by
    rw [rank, others_of_not_mem fresh, List.length_eq_zero_iff, List.filter_eq_nil_iff]
    intro key member
    rcases List.mem_append.mp member with stored | own
    · simpa only [decide_eq_true_eq, not_lt] using first key stored
    · simp [List.mem_singleton.mp own]
  have pruned : (pruneStore settings (opened now sessionId conversations)).get? sessionId =
      none := by
    rw [get?_pruneStore_of_full (by rw [others_of_not_mem fresh]; exact full), if_pos]
    rw [lowest, surplus, others_of_not_mem fresh]
    omega
  simp only [getConversation, live_of_not_mem fresh now, pruned]

def crowded : List String :=
  (List.range 1000).map (fun count => String.ofList (List.replicate (count + 1) 'b'))

theorem nodup_crowded : crowded.Nodup := by
  apply List.Nodup.map _ List.nodup_range
  intro first second same
  have length := congrArg String.length same
  simpa using length

theorem le_of_mem_crowded {key : String} (member : key ∈ crowded) : "a" < key := by
  obtain ⟨count, -, rfl⟩ := List.mem_map.mp member
  rw [String.lt_iff_toList_lt, List.replicate_succ, String.toList_ofList, String.toList_ofList]
  have before : 'a' < 'b' := by decide
  exact List.Lex.rel before

end FullStore

theorem early_id_raises :
    ∃ (events : List (Event (Service Unit) (Action Unit))) (service next : Service Unit),
      Run (step {} Characters.ascii) {} events service ∧
        events.map Event.action = crowded.map (Action.get 0) ∧
        step {} Characters.ascii service (.get 0 "a") = some next ∧
        (getConversation {} 0 "a" service.conversations).1 = .error "a" ∧
        ¬ AllRight {} (events ++ [⟨service, .get 0 "a", next⟩]) := by
  have length : crowded.length = 1000 := by simp [crowded]
  obtain ⟨events, service, run, actions, keys, clock⟩ :=
    exists_run_of_fresh (μ := Unit) {} Characters.ascii crowded nodup_crowded length.le
  have stepped : step {} Characters.ascii service (.get 0 "a") = some
      { conversations := act {} Characters.ascii service.conversations (.get 0 "a")
        clock := 0 } := by
    rw [step, if_neg (by rw [clock]; exact lt_irrefl 0)]
    rfl
  have raised : (getConversation {} 0 "a" service.conversations).1 = .error "a" := by
    apply getConversation_of_first
    · rw [keys]
      intro member
      exact absurd (le_of_mem_crowded member) (lt_irrefl _)
    · rw [keys, length]
    · rw [keys]
      intro key member
      exact (le_of_mem_crowded member).le
  refine ⟨events, service, _, run, actions, stepped, raised, ?_⟩
  intro all
  have last := all _ (List.mem_append_right _ (List.mem_singleton_self _))
  obtain ⟨memory, answered, -⟩ := last.2.2
  rw [raised] at answered
  cases answered

end RagSystem.SessionStore
