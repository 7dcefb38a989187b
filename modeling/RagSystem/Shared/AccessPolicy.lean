import Mathlib.Data.Fintype.EquivFin
import RagSystem.Shared.AccessControl

/-! The four encodings of the access policy in `proxy/app/shared/access_control.py`: where they
decide alike, and whether another role or group can hide a document. -/

namespace RagSystem.AccessControl

open Payload

/-- The clauses of `build_access_filter_should`; a bare condition is a clause of its own. -/
def buildAccessFilterShould (user : UserContext) :
    Option (List (List (Condition Key String))) :=
  if user.isAdmin then none else
    let allowed := roleAllowedLevels user
    let base := allowed.filter (fun level => level = "public" ∨ level = "internal")
    some ((if base ≠ [] then [[⟨.accessLevel, .any base⟩]] else []) ++
      (if "confidential" ∈ allowed ∧ user.groups ≠ [] then
        [[⟨.accessLevel, .value "confidential"⟩, ⟨.allowedGroups, .any user.groups⟩]] else []) ++
      (if "restricted" ∈ allowed ∧ user.username ≠ "" then
        [[⟨.accessLevel, .value "restricted"⟩, ⟨.allowedUsers, .value user.username⟩]] else []))

def canAccessDocument (user : UserContext) (accessLevel : String)
    (allowedGroups allowedUsers : Option (List String)) : Bool :=
  let groups := allowedGroups.getD []
  let users := allowedUsers.getD []
  if user.isAdmin then true
  else if accessLevel ∉ roleAllowedLevels user then false
  else if accessLevel = "confidential" ∧ groups ≠ [] ∧ user.groups = [] then false
  else if accessLevel = "confidential" ∧ groups ≠ [] ∧
      ¬ groups.any (fun group => decide (group ∈ user.groups)) then false
  else if accessLevel = "restricted" ∧ users ≠ [] ∧ user.username ∉ users then false
  else true

/-- The payload passes the `should` filter. -/
def shouldAdmits (user : UserContext) (payload : Fields) : Bool :=
  match buildAccessFilterShould user with
  | none => true
  | some clauses => should clauses payload.values

/-- `can_access_document` on the fields of a payload; a missing level is public, as it is to
`filter_chunks`. -/
def documentAccess (user : UserContext) (payload : Fields) : Bool :=
  canAccessDocument user (flat payload).level payload.allowedGroups payload.allowedUsers

inductive OneMore (user : UserContext) : UserContext → Prop
  | role (role : String) : OneMore user { user with roles := user.roles ++ [role] }
  | group (group : String) : OneMore user { user with groups := user.groups ++ [group] }

/-- Nothing that the user sees is hidden by another role or group. -/
def Grows (decides : UserContext → Fields → Bool) (user : UserContext) (payload : Fields) : Prop :=
  decides user payload = true → ∀ richer, OneMore user richer → decides richer payload = true

/-- What `filter_chunks` decides of a payload. -/
def filterAdmits (user : UserContext) (payload : Fields) : Bool := visible user (flat payload)

/-- The encodings agree on a payload, and none of them hides it from a user who is given more. -/
structure OnePolicy (user : UserContext) (payload : Fields) : Prop where
  document : documentAccess user payload = filterAdmits user payload
  filter : shouldAdmits user payload = filterAdmits user payload
  filterGrows : Grows filterAdmits user payload
  documentGrows : Grows documentAccess user payload
  shouldGrows : Grows shouldAdmits user payload
  pushdownGrows : Grows pushedDown user payload

section Decisions

variable {user richer : UserContext} {payload : Fields}

theorem level_of_plain (plain : user.isAdmin = false) {level : String}
    (allowed : level ∈ roleAllowedLevels user) :
    level = "public" ∨ level = "internal" ∨ level = "confidential" := by
  have unrestricted := restricted_not_mem plain
  have known : level ∈ accessLevels := by
    rw [mem_roleAllowedLevels] at allowed
    rcases allowed with ⟨role, -, granted⟩ | ⟨-, rfl⟩
    · simp only [accessLevels, roleAccess] at granted ⊢
      split_ifs at granted <;> grind
    · simp [accessLevels]
  simp only [accessLevels, List.mem_cons, List.not_mem_nil, or_false] at known
  rcases known with isPublic | internal | confidential | restricted
  · exact Or.inl isPublic
  · exact Or.inr (Or.inl internal)
  · exact Or.inr (Or.inr confidential)
  · exact absurd (restricted ▸ allowed) unrestricted

theorem OneMore.roles (more : OneMore user richer) : ∀ role ∈ user.roles, role ∈ richer.roles := by
  intro role member
  cases more with
  | role other => exact List.mem_append_left _ member
  | group other => exact member

theorem OneMore.groups (more : OneMore user richer) :
    ∀ group ∈ user.groups, group ∈ richer.groups := by
  intro group member
  cases more with
  | role other => exact member
  | group other => exact List.mem_append_left _ member

theorem OneMore.groups_ne_nil (more : OneMore user richer) (some_group : user.groups ≠ []) :
    richer.groups ≠ [] := by
  obtain ⟨group, member⟩ := List.exists_mem_of_ne_nil _ some_group
  exact List.ne_nil_of_mem (more.groups group member)

theorem OneMore.plain (more : OneMore user richer) (plain : richer.isAdmin = false) :
    user.isAdmin = false := by
  rw [UserContext.isAdmin, decide_eq_false_iff_not] at plain ⊢
  exact fun admin => plain (more.roles _ admin)

theorem OneMore.levels (more : OneMore user richer) {level : String}
    (allowed : level ∈ roleAllowedLevels user) : level ∈ roleAllowedLevels richer := by
  rcases mem_roleAllowedLevels.mp allowed with ⟨role, member, granted⟩ | ⟨-, rfl⟩
  · exact mem_roleAllowedLevels.mpr (Or.inl ⟨role, more.roles role member, granted⟩)
  · exact public_mem_roleAllowedLevels richer

def Shares (user : UserContext) (payload : Fields) : Prop :=
  ∃ group ∈ (flat payload).groups, group ∈ user.groups

theorem OneMore.shares (more : OneMore user richer) (shares : Shares user payload) :
    Shares richer payload := by
  obtain ⟨group, listed, member⟩ := shares
  exact ⟨group, listed, more.groups group member⟩

theorem Shares.groups_ne_nil (shares : Shares user payload) :
    user.groups ≠ [] ∧ (flat payload).groups ≠ [] := by
  obtain ⟨group, listed, member⟩ := shares
  exact ⟨List.ne_nil_of_mem member, List.ne_nil_of_mem listed⟩

theorem filterAdmits_iff (plain : user.isAdmin = false) :
    filterAdmits user payload = true ↔
      (flat payload).level ∈ roleAllowedLevels user ∧
        ((flat payload).level = "confidential" →
          user.groups ≠ [] ∧ ((flat payload).groups = [] ∨ Shares user payload)) := by
  simp only [filterAdmits, visible, plain, Bool.false_or]
  exact keepsChunk_iff plain (flat payload)

theorem documentAccess_iff (plain : user.isAdmin = false) :
    documentAccess user payload = true ↔
      (flat payload).level ∈ roleAllowedLevels user ∧
        ((flat payload).level = "confidential" →
          (flat payload).groups = [] ∨ Shares user payload) := by
  have groups : payload.allowedGroups.getD [] = (flat payload).groups := by
    simp [flat, View.groups]
  unfold documentAccess canAccessDocument
  by_cases allowed : (flat payload).level ∈ roleAllowedLevels user
  · have unrestricted : (flat payload).level ≠ "restricted" :=
      fun restricted => restricted_not_mem plain (restricted ▸ allowed)
    by_cases confidential : (flat payload).level = "confidential"
    · by_cases named : (flat payload).groups = []
      · simp [plain, groups, named, allowed, unrestricted]
      · by_cases member : user.groups = []
        · have apart : ¬ Shares user payload := fun shares => shares.groups_ne_nil.1 member
          simp [plain, groups, named, member, apart, confidential]
        · have allowed' := confidential ▸ allowed
          simp [plain, groups, named, member, allowed', confidential, Shares]
    · simp [plain, allowed, confidential, unrestricted]
  · simp [plain, allowed]

theorem shouldAdmits_iff (plain : user.isAdmin = false) :
    shouldAdmits user payload = true ↔
      ∃ level, payload.accessLevel = some level ∧ level ∈ roleAllowedLevels user ∧
        (level = "confidential" → Shares user payload) := by
  have unrestricted := restricted_not_mem plain
  have everyone := public_mem_roleAllowedLevels user
  have groups : payload.values .allowedGroups = (flat payload).groups := by
    simp [flat, View.groups, Fields.values]
  have base : (roleAllowedLevels user).filter (fun level => level = "public" ∨ level = "internal") ≠
      [] := List.ne_nil_of_mem (List.mem_filter.mpr ⟨everyone, by simp⟩)
  have open_clause : must [⟨.accessLevel, .any ((roleAllowedLevels user).filter
      (fun level => level = "public" ∨ level = "internal"))⟩] payload.values = true ↔
      ∃ level, payload.accessLevel = some level ∧ level ∈ roleAllowedLevels user ∧
        (level = "public" ∨ level = "internal") := by
    simp only [must_cons, must_nil, Bool.and_true, holds_any_iff]
    simp [Fields.values]
  have group_clause : must [⟨.accessLevel, .value "confidential"⟩,
      ⟨.allowedGroups, .any user.groups⟩] payload.values = true ↔
      payload.accessLevel = some "confidential" ∧ Shares user payload := by
    simp only [must_cons, must_nil, Bool.and_true, Bool.and_eq_true, holds_any_iff,
      holds_value_iff, groups]
    simp [Fields.values, Shares]
  unfold shouldAdmits buildAccessFilterShould
  simp only [plain, Bool.false_eq_true, if_false, base, ne_eq, not_false_eq_true, if_true,
    unrestricted, false_and, List.append_nil]
  by_cases grouped : "confidential" ∈ roleAllowedLevels user ∧ user.groups ≠ []
  · simp only [grouped, not_false_eq_true, and_self, if_true, should, List.cons_append,
      List.nil_append, List.isEmpty_cons, Bool.false_or, List.any_cons, List.any_nil,
      Bool.or_false, Bool.or_eq_true, open_clause, group_clause]
    constructor
    · intro given
      rcases given with ⟨level, stored, allowed, isOpen⟩ | ⟨stored, shares⟩
      · refine ⟨level, stored, allowed, fun confidential => ?_⟩
        subst confidential
        simp at isOpen
      · exact ⟨"confidential", stored, grouped.1, fun _ => shares⟩
    · intro given
      rcases given with ⟨level, stored, allowed, shares⟩
      rcases level_of_plain plain allowed with rfl | rfl | rfl
      · exact Or.inl ⟨_, stored, allowed, Or.inl rfl⟩
      · exact Or.inl ⟨_, stored, allowed, Or.inr rfl⟩
      · exact Or.inr ⟨stored, shares rfl⟩
  · have ungrouped : ¬ ("confidential" ∈ roleAllowedLevels user ∧ ¬ user.groups = []) := grouped
    simp only [ungrouped, if_false, should, List.append_nil, List.isEmpty_cons, Bool.false_or,
      List.any_cons, List.any_nil, Bool.or_false, open_clause]
    constructor
    · intro given
      rcases given with ⟨level, stored, allowed, isOpen⟩
      refine ⟨level, stored, allowed, fun confidential => ?_⟩
      subst confidential
      simp at isOpen
    · intro given
      rcases given with ⟨level, stored, allowed, shares⟩
      rcases level_of_plain plain allowed with rfl | rfl | rfl
      · exact ⟨_, stored, allowed, Or.inl rfl⟩
      · exact ⟨_, stored, allowed, Or.inr rfl⟩
      · exact absurd ⟨allowed, (shares rfl).groups_ne_nil.1⟩ grouped

theorem filterAdmits_grows : Grows filterAdmits user payload := by
  intro sees richer more
  cases plain : richer.isAdmin with
  | true => simp [filterAdmits, visible, plain]
  | false =>
      obtain ⟨allowed, confidential⟩ := (filterAdmits_iff (more.plain plain)).mp sees
      refine (filterAdmits_iff plain).mpr ⟨more.levels allowed, fun level => ?_⟩
      obtain ⟨some_group, open_or_shared⟩ := confidential level
      exact ⟨more.groups_ne_nil some_group, open_or_shared.imp_right more.shares⟩

theorem documentAccess_grows : Grows documentAccess user payload := by
  intro sees richer more
  cases plain : richer.isAdmin with
  | true => simp [documentAccess, canAccessDocument, plain]
  | false =>
      obtain ⟨allowed, confidential⟩ := (documentAccess_iff (more.plain plain)).mp sees
      exact (documentAccess_iff plain).mpr
        ⟨more.levels allowed, fun level => (confidential level).imp_right more.shares⟩

theorem shouldAdmits_grows : Grows shouldAdmits user payload := by
  intro sees richer more
  cases plain : richer.isAdmin with
  | true => simp [shouldAdmits, buildAccessFilterShould, plain]
  | false =>
      obtain ⟨level, stored, allowed, confidential⟩ := (shouldAdmits_iff (more.plain plain)).mp sees
      exact (shouldAdmits_iff plain).mpr
        ⟨level, stored, more.levels allowed, fun secret => more.shares (confidential secret)⟩

theorem admin_sees (admin : user.isAdmin = true) :
    filterAdmits user payload = true ∧ documentAccess user payload = true ∧
      shouldAdmits user payload = true := by
  refine ⟨?_, ?_, ?_⟩
  · simp [filterAdmits, visible, admin]
  · simp [documentAccess, canAccessDocument, admin]
  · simp [shouldAdmits, buildAccessFilterShould, admin]

theorem pushedDown_grows_iff (plain : user.isAdmin = false) {level : String}
    (stored : payload.accessLevel = some level) (allowed : level ∈ roleAllowedLevels user) :
    Grows pushedDown user payload ↔
      Shares user payload ∨ ("confidential" ∈ roleAllowedLevels user ↔ user.groups ≠ []) := by
  constructor
  · intro grows
    by_contra neither
    push Not at neither
    obtain ⟨apart, uneven⟩ := neither
    have sees : pushedDown user payload = true := by
      refine (pushedDown_iff plain payload).mpr ⟨⟨level, stored, allowed⟩, ?_⟩
      intro confidential some_group
      rcases uneven with ⟨_, none⟩ | ⟨public_only, _⟩
      · exact absurd none some_group
      · exact absurd confidential public_only
    rcases uneven with ⟨confidential, none⟩ | ⟨public_only, some_group⟩
    · -- a group that the payload does not name
      obtain ⟨group, foreign⟩ := Infinite.exists_notMem_finset (flat payload).groups.toFinset
      have more : OneMore user { user with groups := user.groups ++ [group] } := .group group
      have also : UserContext.isAdmin { user with groups := user.groups ++ [group] } = false := plain
      have richer := (pushedDown_iff also payload).mp (grows sees _ more)
      obtain ⟨other, listed, member⟩ := richer.2 confidential (by simp)
      rw [none] at member
      obtain rfl : other = group := by simpa using member
      exact foreign (List.mem_toFinset.mpr listed)
    · have more : OneMore user { user with roles := user.roles ++ ["developer"] } :=
        .role "developer"
      have developer : UserContext.isAdmin { user with roles := user.roles ++ ["developer"] } =
          false := by
        rw [UserContext.isAdmin, decide_eq_false_iff_not] at plain ⊢
        simpa using plain
      have granted : "confidential" ∈
          roleAllowedLevels { user with roles := user.roles ++ ["developer"] } :=
        mem_roleAllowedLevels.mpr (Or.inl ⟨"developer", by simp, by simp [roleAccess]⟩)
      exact apart (((pushedDown_iff developer payload).mp (grows sees _ more)).2 granted some_group)
  · intro kept sees richer more
    cases admin : richer.isAdmin with
    | true => exact pushedDown_admin admin payload
    | false =>
        refine (pushedDown_iff admin payload).mpr ⟨⟨level, stored, more.levels allowed⟩, ?_⟩
        intro confidential some_group
        rcases kept with shares | even
        · exact more.shares shares
        · cases more with
          | role role =>
              have asked : "confidential" ∈ roleAllowedLevels user := even.mpr some_group
              exact ((pushedDown_iff plain payload).mp sees).2 asked some_group
          | group group =>
              have asked : "confidential" ∈ roleAllowedLevels user := confidential
              obtain ⟨other, listed, member⟩ :=
                ((pushedDown_iff plain payload).mp sees).2 asked (even.mp asked)
              exact ⟨other, listed, List.mem_append_left _ member⟩

/-- Where the four encodings are one policy: for admins, on levels out of the user's reach, and on
stored levels that name the groups of a confidential document, if a group of the user is among
those the payload names or the user has groups exactly if confidential documents are in reach. -/
def Coherent (user : UserContext) (payload : Fields) : Prop :=
  user.isAdmin = true ∨ (flat payload).level ∉ roleAllowedLevels user ∨
    ∃ level, payload.accessLevel = some level ∧
      (level = "confidential" → (flat payload).groups ≠ []) ∧
      (Shares user payload ∨ ("confidential" ∈ roleAllowedLevels user ↔ user.groups ≠ []))

theorem flat_level {level : String} (stored : payload.accessLevel = some level) :
    (flat payload).level = level := by
  simp [flat, View.level, stored]

theorem decisions_agree_iff (plain : user.isAdmin = false)
    (allowed : (flat payload).level ∈ roleAllowedLevels user) :
    (documentAccess user payload = filterAdmits user payload ∧
        shouldAdmits user payload = filterAdmits user payload) ↔
      ∃ level, payload.accessLevel = some level ∧
        (level = "confidential" → (flat payload).groups ≠ []) := by
  simp only [Bool.eq_iff_iff, filterAdmits_iff plain, documentAccess_iff plain,
    shouldAdmits_iff plain, allowed, true_and]
  cases stored : payload.accessLevel with
  | none =>
      have level : (flat payload).level = "public" := by simp [flat, View.level, stored]
      simp [level]
  | some own =>
      have level := flat_level stored
      simp only [level, Option.some.injEq, exists_eq_left'] at allowed ⊢
      by_cases confidential : own = "confidential"
      · have named : Shares user payload → user.groups ≠ [] ∧ (flat payload).groups ≠ [] :=
          Shares.groups_ne_nil
        simp only [confidential, forall_const] at allowed ⊢
        simp only [allowed, true_and]
        by_cases listed : (flat payload).groups = []
        · have apart : ¬ Shares user payload := fun shares => (named shares).2 listed
          simp [listed, apart]
        · grind
      · simp [confidential, allowed]

/-- The decisions of the four functions on a payload are one policy, and one that only grows with
the user's roles and groups, exactly where the payload and the user are coherent. -/
theorem one_access_policy_iff (user : UserContext) (payload : Fields) :
    OnePolicy user payload ↔ Coherent user payload := by
  cases plain : user.isAdmin with
  | true =>
      have sees : filterAdmits user payload = true ∧ documentAccess user payload = true ∧
          shouldAdmits user payload = true := admin_sees plain
      obtain ⟨filter, document, clause⟩ := sees
      have richer_admin : ∀ richer, OneMore user richer → richer.isAdmin = true := by
        intro richer more
        cases also : richer.isAdmin with
        | true => rfl
        | false => exact absurd (more.plain also) (by simp [plain])
      refine iff_of_true ?_ (Or.inl plain)
      exact {
        document := document.trans filter.symm
        filter := clause.trans filter.symm
        filterGrows := filterAdmits_grows
        documentGrows := documentAccess_grows
        shouldGrows := shouldAdmits_grows
        pushdownGrows := fun _ richer more => pushedDown_admin (richer_admin richer more) payload }
  | false =>
      by_cases allowed : (flat payload).level ∈ roleAllowedLevels user
      · have coherent : Coherent user payload ↔ ∃ level, payload.accessLevel = some level ∧
            (level = "confidential" → (flat payload).groups ≠ []) ∧
            (Shares user payload ∨
              ("confidential" ∈ roleAllowedLevels user ↔ user.groups ≠ [])) := by
          simp [Coherent, plain, allowed]
        rw [coherent]
        constructor
        · intro policy
          obtain ⟨level, stored, grouped⟩ :=
            (decisions_agree_iff plain allowed).mp ⟨policy.document, policy.filter⟩
          rw [flat_level stored] at allowed
          exact ⟨level, stored, grouped,
            (pushedDown_grows_iff plain stored allowed).mp policy.pushdownGrows⟩
        · intro given
          rcases given with ⟨level, stored, grouped, kept⟩
          obtain ⟨document, filter⟩ :=
            (decisions_agree_iff plain allowed).mpr ⟨level, stored, grouped⟩
          rw [flat_level stored] at allowed
          exact {
            document
            filter
            filterGrows := filterAdmits_grows
            documentGrows := documentAccess_grows
            shouldGrows := shouldAdmits_grows
            pushdownGrows := (pushedDown_grows_iff plain stored allowed).mpr kept }
      · have hidden : filterAdmits user payload = false := by
          rw [Bool.eq_false_iff]
          exact fun sees => allowed ((filterAdmits_iff plain).mp sees).1
        have refused : documentAccess user payload = false := by
          rw [Bool.eq_false_iff]
          exact fun sees => allowed ((documentAccess_iff plain).mp sees).1
        have unstored : ∀ level, payload.accessLevel = some level →
            level ∉ roleAllowedLevels user := by
          intro level stored
          rwa [← flat_level stored]
        have excluded : shouldAdmits user payload = false := by
          rw [Bool.eq_false_iff]
          intro sees
          obtain ⟨level, stored, granted, -⟩ := (shouldAdmits_iff plain).mp sees
          exact unstored level stored granted
        refine iff_of_true ?_ (Or.inr (Or.inl allowed))
        exact {
          document := refused.trans hidden.symm
          filter := excluded.trans hidden.symm
          filterGrows := filterAdmits_grows
          documentGrows := documentAccess_grows
          shouldGrows := shouldAdmits_grows
          pushdownGrows := by
            intro sees
            obtain ⟨⟨level, stored, granted⟩, -⟩ := (pushedDown_iff plain payload).mp sees
            exact absurd granted (unstored level stored) }

/-- A confidential document without groups is open to can_access_document and closed to the should
filter; and an internal one is hidden from a viewer who becomes a developer. -/
theorem access_policies_disagree :
    ∃ (developer viewer : UserContext) (secret page : Fields),
      documentAccess developer secret = true ∧ shouldAdmits developer secret = false ∧
        pushedDown viewer page = true ∧
        pushedDown { viewer with roles := viewer.roles ++ ["developer"] } page = false :=
  ⟨{ userId := "1", username := "ann", roles := ["developer"], groups := ["eng"] },
    { userId := "2", username := "bob", roles := ["viewer"], groups := ["eng"] },
    { accessLevel := some "confidential" }, { accessLevel := some "internal" }, by decide +kernel⟩

end Decisions

end RagSystem.AccessControl
