import Mathlib.Data.List.Sort
import Mathlib.Data.List.Dedup
import RagSystem.Auth.UserContext
import RagSystem.Payload.Condition

/-! Classification levels, the filter pushed down to the vector store and the filter on the
retrieved chunks (`proxy/app/shared/access_control.py`, `hybrid_search`). -/

namespace RagSystem.AccessControl

open Payload

def accessLevels : List String := ["public", "internal", "confidential", "restricted"]

/-- `ACCESS_LEVEL_RANK.get(level, 0)`. -/
def accessLevelRank (level : String) : Nat :=
  if level ∈ accessLevels then accessLevels.idxOf level else 0

/-- `ROLE_ACCESS.get(role, [])`. -/
def roleAccess (role : String) : List String :=
  if role = "admin" then ["public", "internal", "confidential", "restricted"]
  else if role = "expert" then ["public", "internal", "confidential"]
  else if role = "developer" then ["public", "internal", "confidential"]
  else if role = "viewer" then ["public", "internal"]
  else if role = "external" then ["public"]
  else []

def roleAllowedLevels (user : UserContext) : List String :=
  let allowed := (user.roles.flatMap roleAccess).dedup
  let allowed := if allowed = [] then ["public"] else allowed
  allowed.insertionSort (fun first second => accessLevelRank first ≤ accessLevelRank second)

inductive Key
  | accessLevel
  | allowedGroups
  | allowedUsers
  | version
  | nameSpace
  deriving DecidableEq, Repr

/-- The part of a payload dict that access control and the filters read; `none` is a missing
key. -/
structure Fields where
  accessLevel : Option String := none
  allowedGroups : Option (List String) := none
  allowedUsers : Option (List String) := none
  version : Option String := none
  nameSpace : Option String := none
  deriving DecidableEq, Repr

def Fields.values (fields : Fields) : Key → List String
  | .accessLevel => fields.accessLevel.toList
  | .allowedGroups => fields.allowedGroups.getD []
  | .allowedUsers => fields.allowedUsers.getD []
  | .version => fields.version.toList
  | .nameSpace => fields.nameSpace.toList

def buildAccessFilter (user : UserContext) : Option (List (Condition Key String)) :=
  if user.isAdmin then none else
    let allowed := roleAllowedLevels user
    some ([⟨.accessLevel, .any allowed⟩] ++
      (if "confidential" ∈ allowed ∧ user.groups ≠ [] then
        [⟨.allowedGroups, .any user.groups⟩] else []) ++
      (if "restricted" ∈ allowed ∧ user.username ≠ "" then
        [⟨.allowedUsers, .value user.username⟩] else []))

/-- The `must` list of `hybrid_search`; an empty version or namespace adds nothing. -/
def filterConditions (version nameSpace : Option String)
    (accessFilter : Option (List (Condition Key String))) : List (Condition Key String) :=
  (match version with
    | some version => if version = "" then [] else [⟨.version, .value version⟩]
    | none => []) ++
  (match nameSpace with
    | some nameSpace => if nameSpace = "" then [] else [⟨.nameSpace, .value nameSpace⟩]
    | none => []) ++
  accessFilter.getD []

/-- What `filter_chunks` reads of a chunk: its own keys, and those of its `payload` dict. -/
structure View where
  own : Fields := {}
  payload : Fields := {}
  deriving DecidableEq, Repr

def View.level (chunk : View) : String :=
  chunk.own.accessLevel.getD (chunk.payload.accessLevel.getD "public")

def View.groups (chunk : View) : List String :=
  chunk.own.allowedGroups.getD (chunk.payload.allowedGroups.getD [])

def View.users (chunk : View) : List String :=
  chunk.own.allowedUsers.getD (chunk.payload.allowedUsers.getD [])

/-- The loop body of `filter_chunks`. -/
def keepsChunk (user : UserContext) (chunk : View) : Bool :=
  if chunk.level ∉ roleAllowedLevels user then false
  else if chunk.level = "confidential" ∧ user.groups = [] then false
  else if chunk.level = "confidential" ∧ chunk.groups ≠ [] ∧
      ¬ chunk.groups.any (fun group => decide (group ∈ user.groups)) then false
  else if chunk.level = "restricted" ∧ chunk.users ≠ [] ∧ user.username ∉ chunk.users then false
  else true

variable {Chunk : Type}

def filterChunks (view : Chunk → View) (chunks : List Chunk) (user : UserContext) : List Chunk :=
  if user.isAdmin then chunks else chunks.filter (fun chunk => keepsChunk user (view chunk))

/-- A user sees a chunk when `filter_chunks` keeps it. -/
def visible (user : UserContext) (chunk : View) : Bool :=
  user.isAdmin || keepsChunk user chunk

theorem filterChunks_eq_filter (view : Chunk → View) (chunks : List Chunk) (user : UserContext) :
    filterChunks view chunks user = chunks.filter (fun chunk => visible user (view chunk)) := by
  cases admin : user.isAdmin <;> simp [filterChunks, visible, admin]

theorem mem_filterChunks {view : Chunk → View} {chunks : List Chunk} {user : UserContext}
    {chunk : Chunk} :
    chunk ∈ filterChunks view chunks user ↔ chunk ∈ chunks ∧ visible user (view chunk) = true := by
  rw [filterChunks_eq_filter, List.mem_filter]

theorem mem_roleAllowedLevels {user : UserContext} {level : String} :
    level ∈ roleAllowedLevels user ↔
      (∃ role ∈ user.roles, level ∈ roleAccess role) ∨
        ((∀ role ∈ user.roles, roleAccess role = []) ∧ level = "public") := by
  simp only [roleAllowedLevels, List.mem_insertionSort]
  split
  · rename_i nothing
    have none : ∀ role ∈ user.roles, roleAccess role = [] := by
      intro role member
      have absent : ∀ level, level ∉ user.roles.flatMap roleAccess := by
        intro level present
        rw [← List.mem_dedup, nothing] at present
        simp at present
      exact List.eq_nil_iff_forall_not_mem.mpr fun level inside =>
        absent level (List.mem_flatMap.mpr ⟨role, member, inside⟩)
    constructor
    · intro default
      exact Or.inr ⟨none, by simpa using default⟩
    · intro given
      rcases given with ⟨role, member, inside⟩ | ⟨-, rfl⟩
      · simp [none role member] at inside
      · simp
  · rename_i something
    constructor
    · intro inside
      exact Or.inl (by simpa using inside)
    · intro given
      rcases given with inside | ⟨none, -⟩
      · simpa using inside
      · refine absurd ?_ something
        have empty : user.roles.flatMap roleAccess = [] := by simpa using none
        rw [empty, List.dedup_nil]

theorem public_mem_roleAccess {role : String} (granted : roleAccess role ≠ []) :
    "public" ∈ roleAccess role := by
  unfold roleAccess at granted ⊢
  split_ifs at granted ⊢ <;> simp_all

theorem public_mem_roleAllowedLevels (user : UserContext) : "public" ∈ roleAllowedLevels user := by
  rw [mem_roleAllowedLevels]
  by_cases nothing : ∀ role ∈ user.roles, roleAccess role = []
  · exact Or.inr ⟨nothing, rfl⟩
  · push Not at nothing
    obtain ⟨role, member, granted⟩ := nothing
    exact Or.inl ⟨role, member, public_mem_roleAccess granted⟩

theorem restricted_not_mem {user : UserContext} (plain : user.isAdmin = false) :
    "restricted" ∉ roleAllowedLevels user := by
  rw [mem_roleAllowedLevels]
  intro given
  rcases given with ⟨role, member, inside⟩ | ⟨-, other⟩
  · have notAdmin : role ≠ "admin" := by
      intro given
      rcases given with rfl
      simp [UserContext.isAdmin, member] at plain
    simp only [roleAccess, if_neg notAdmin] at inside
    split_ifs at inside <;> simp at inside
  · simp at other

def flat (payload : Fields) : View := { own := payload }

/-- A stored payload as a retrieved chunk that keeps it under its `payload` key. -/
def nested (payload : Fields) : View := { payload := payload }

theorem keepsChunk_nested (user : UserContext) (payload : Fields) :
    keepsChunk user (nested payload) = keepsChunk user (flat payload) := by
  have level : (nested payload).level = (flat payload).level := by
    cases payload.accessLevel <;> simp_all [nested, flat, View.level]
  have groups : (nested payload).groups = (flat payload).groups := by
    cases payload.allowedGroups <;> simp_all [nested, flat, View.groups]
  have users : (nested payload).users = (flat payload).users := by
    cases payload.allowedUsers <;> simp_all [nested, flat, View.users]
  simp only [keepsChunk, level, groups, users]

/-- The payload passes the conditions of `build_access_filter` as `hybrid_search` conjoins them. -/
def pushedDown (user : UserContext) (payload : Fields) : Bool :=
  must (filterConditions none none (buildAccessFilter user)) payload.values

theorem pushedDown_admin {user : UserContext} (admin : user.isAdmin = true) (payload : Fields) :
    pushedDown user payload = true := by
  simp [pushedDown, buildAccessFilter, filterConditions, admin]

theorem pushedDown_iff {user : UserContext} (plain : user.isAdmin = false) (payload : Fields) :
    pushedDown user payload = true ↔
      (∃ level, payload.accessLevel = some level ∧ level ∈ roleAllowedLevels user) ∧
        ("confidential" ∈ roleAllowedLevels user → user.groups ≠ [] →
          ∃ group ∈ (flat payload).groups, group ∈ user.groups) := by
  have unrestricted := restricted_not_mem plain
  have groups : (flat payload).groups = payload.values .allowedGroups := by
    cases payload.allowedGroups <;> simp_all [flat, View.groups, Fields.values]
  have level : (Condition.mk Key.accessLevel (.any (roleAllowedLevels user))).holds
      payload.values = true ↔
        ∃ level, payload.accessLevel = some level ∧ level ∈ roleAllowedLevels user := by
    rw [holds_any_iff]
    simp [Fields.values]
  simp only [pushedDown, filterConditions, buildAccessFilter, plain, unrestricted,
    Bool.false_eq_true, if_false, false_and, Option.getD_some, List.nil_append, List.append_nil,
    must_append, must_cons, must_nil, Bool.and_true, Bool.and_eq_true, level, groups]
  by_cases checked : "confidential" ∈ roleAllowedLevels user ∧ user.groups ≠ []
  · rw [if_pos checked]
    simp only [must_cons, must_nil, Bool.and_true, holds_any_iff, checked.1, forall_const, ne_eq,
      checked.2, not_false_eq_true]
  · rw [if_neg checked]
    simp only [must_nil, and_true]
    constructor
    · intro stored
      exact ⟨stored, fun confidential member => absurd ⟨confidential, member⟩ checked⟩
    · exact And.left

theorem keepsChunk_iff {user : UserContext} (plain : user.isAdmin = false) (chunk : View) :
    keepsChunk user chunk = true ↔
      chunk.level ∈ roleAllowedLevels user ∧
        (chunk.level = "confidential" → user.groups ≠ [] ∧
          (chunk.groups = [] ∨ ∃ group ∈ chunk.groups, group ∈ user.groups)) := by
  have unrestricted := restricted_not_mem plain
  unfold keepsChunk
  by_cases allowed : chunk.level ∈ roleAllowedLevels user
  · have notRestricted : chunk.level ≠ "restricted" := by
      intro restricted
      exact unrestricted (restricted ▸ allowed)
    by_cases confidential : chunk.level = "confidential"
    · by_cases member : user.groups = []
      · simp [confidential, member]
      · simp only [confidential, member]
        grind
    · simp [allowed, confidential, notRestricted]
  · simp [allowed]

/-- Where the two filters decide alike: for admins, on levels out of the user's reach, and on
stored levels whose group condition they treat the same way. -/
def PushdownAgrees (user : UserContext) (payload : Fields) : Prop :=
  user.isAdmin = true ∨ (flat payload).level ∉ roleAllowedLevels user ∨
    ∃ level, payload.accessLevel = some level ∧
      if level = "confidential" then user.groups ≠ [] ∧ (flat payload).groups ≠ []
      else "confidential" ∉ roleAllowedLevels user ∨ user.groups = [] ∨
        ∃ group ∈ (flat payload).groups, group ∈ user.groups

theorem pushedDown_eq_visible_iff (user : UserContext) (payload : Fields) :
    pushedDown user payload = visible user (flat payload) ↔ PushdownAgrees user payload := by
  cases admin : user.isAdmin with
  | true => simp [pushedDown_admin admin, visible, PushdownAgrees, admin]
  | false =>
      have kept : visible user (flat payload) = keepsChunk user (flat payload) := by
        simp [visible, admin]
      rw [kept, Bool.eq_iff_iff, pushedDown_iff admin, keepsChunk_iff admin]
      have always := public_mem_roleAllowedLevels user
      simp only [PushdownAgrees, admin, Bool.false_eq_true, false_or]
      cases stored : payload.accessLevel with
      | none =>
          -- a payload without a level is public to the post-filter and invisible to the store
          have level : (flat payload).level = "public" := by simp [flat, View.level, stored]
          simp [level, always]
      | some own =>
          have level : (flat payload).level = own := by simp [flat, View.level, stored]
          simp only [level, Option.some.injEq, exists_eq_left']
          by_cases allowed : own ∈ roleAllowedLevels user
          · by_cases confidential : own = "confidential"
            · subst confidential
              grind
            · grind
          · simp [allowed]

/-- The filter on the retrieved chunks keeps what the pushed-down filter lets through, whichever
way the chunks carry their payloads, exactly when every payload is one on which both agree. -/
theorem filter_chunks_eq_pushdown_iff (user : UserContext) (payloads : List Fields) :
    (filterChunks flat payloads user = payloads.filter (pushedDown user) ↔
        ∀ payload ∈ payloads, PushdownAgrees user payload) ∧
      (filterChunks nested payloads user = payloads.filter (pushedDown user) ↔
        ∀ payload ∈ payloads, PushdownAgrees user payload) := by
  have same : filterChunks nested payloads user = filterChunks flat payloads user := by
    simp only [filterChunks, keepsChunk_nested]
  rw [same, and_self, filterChunks_eq_filter]
  constructor
  · intro agree payload member
    rw [← pushedDown_eq_visible_iff, Bool.eq_iff_iff]
    have kept : payload ∈ payloads.filter (pushedDown user) ↔
        payload ∈ payloads.filter (fun chunk => visible user (flat chunk)) := by rw [agree]
    simpa [List.mem_filter, member] using kept
  · intro agree
    apply List.filter_congr
    intro payload member
    exact ((pushedDown_eq_visible_iff user payload).mpr (agree payload member)).symm

/-- A public page is kept from a developer who has a group, a confidential one is handed to a
developer who has none. -/
theorem pushdown_disagrees_both_ways :
    ∃ inside outside : UserContext, ∃ page secret : Fields,
      filterChunks nested [page] inside = [page] ∧ pushedDown inside page = false ∧
        filterChunks nested [secret] outside = [] ∧ pushedDown outside secret = true :=
  ⟨{ userId := "1", username := "ann", roles := ["developer"], groups := ["eng"] },
    { userId := "2", username := "bob", roles := ["developer"] },
    { accessLevel := some "public" },
    { accessLevel := some "confidential", allowedGroups := some ["eng"] }, by decide +kernel⟩

end RagSystem.AccessControl
