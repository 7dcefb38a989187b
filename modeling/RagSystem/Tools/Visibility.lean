import RagSystem.Tools.Registry

/-! The visibility filter of `proxy/app/tools/security.py` next to the registry's own treatment of
roles. -/

namespace RagSystem.Tools

/-- `UNAUTHENTICATED` -/
def unauthenticated : String := "anonymous"

/-- `RBAC_MATRIX` -/
def rbacMatrix : Dict String (List String) := Dict.ofList
  [("admin", ["public", "user", "expert", "admin"]), ("expert", ["public", "user", "expert"]),
    ("user", ["public", "user"]), ("read_only", ["public"]), (unauthenticated, ["public"])]

/-- `check_visibility`: no role and the empty one are those of an anonymous caller. -/
def checkVisibility (visibility : ToolVisibility) (role : Option String) : Bool :=
  let effectiveRole := match role with
    | none => unauthenticated
    | some role => if role = "" then unauthenticated else role
  visibility.value ∈ (rbacMatrix.get? effectiveRole).getD
    ((rbacMatrix.get? unauthenticated).getD [])

section

variable {η : Type}

/-- `ToolVisibilityFilter.filter` -/
def filterTools (registry : Registry η) (role : Option String) : List (ToolDefinition η) :=
  registry.getAll.filter (fun tool => checkVisibility tool.visibility role)

/-- `filter_by_name` -/
def filterByName (registry : Registry η) (name : String) (role : Option String) :
    Option (ToolDefinition η) :=
  match registry.getTool name with
  | none => none
  | some tool => if checkVisibility tool.visibility role then some tool else none

def Authorised (registry : Registry η) (role : Option String) (tool : ToolDefinition η) : Prop :=
  filterByName registry tool.name role = some tool

theorem authorised_iff {registry : Registry η} {role : Option String} {tool : ToolDefinition η} :
    Authorised registry role tool ↔
      tool ∈ registry.tools ∧ checkVisibility tool.visibility role = true := by
  unfold Authorised filterByName
  cases found : registry.getTool tool.name with
  | none =>
      have unknown : tool ∉ registry.tools := by
        intro known
        rw [Registry.getTool_eq_some_iff.mpr ⟨known, rfl⟩] at found
        cases found
      simp [unknown]
  | some other =>
      obtain ⟨known, same⟩ := Registry.getTool_eq_some_iff.mp found
      by_cases visible : checkVisibility other.visibility role
      · simp only [visible, if_true, Option.some.injEq]
        constructor
        · intro given
          rcases given with rfl
          exact ⟨known, visible⟩
        · intro given
          rcases given with ⟨registered, -⟩
          exact Registry.eq_of_name known registered same
      · simp only [visible, Bool.false_eq_true, if_false, reduceCtorEq, false_iff, not_and]
        intro registered
        rwa [Registry.eq_of_name registered known same.symm]

theorem roleHierarchy_get? (role : String) :
    roleHierarchy.get? role =
      if role = "read_only" then some ["public"]
      else if role = "user" then some ["public", "user"]
      else if role = "expert" then some ["public", "expert", "user"]
      else if role = "admin" then some ["public", "admin", "expert", "user"]
      else none := by
  have others : (Dict.empty : Dict String (List String)).get? role = none := rfl
  simp [roleHierarchy, Dict.ofList, Dict.setAll, Dict.get?_set, others]

theorem rbacMatrix_get? (role : String) :
    rbacMatrix.get? role =
      if role = unauthenticated then some ["public"]
      else if role = "read_only" then some ["public"]
      else if role = "user" then some ["public", "user"]
      else if role = "expert" then some ["public", "user", "expert"]
      else if role = "admin" then some ["public", "user", "expert", "admin"]
      else none := by
  have others : (Dict.empty : Dict String (List String)).get? role = none := rfl
  simp [rbacMatrix, Dict.ofList, Dict.setAll, Dict.get?_set, others]

theorem visibleForRole_eq (visibility : ToolVisibility) (role : Option String) :
    visibleForRole visibility role = checkVisibility visibility role := by
  cases role with
  | none =>
      simp only [visibleForRole, checkVisibility, rbacMatrix_get?, if_true]
      cases visibility <;> simp [ToolVisibility.value]
  | some role =>
      simp only [visibleForRole, checkVisibility, roleHierarchy_get?, rbacMatrix_get?,
        defaultVisibility]
      by_cases empty : role = ""
      · cases visibility <;> simp [empty, unauthenticated, ToolVisibility.value]
      by_cases anonymous : role = unauthenticated
      · cases visibility <;> simp [anonymous, unauthenticated, ToolVisibility.value]
      by_cases readOnly : role = "read_only"
      · cases visibility <;> simp [readOnly, unauthenticated, ToolVisibility.value]
      by_cases user : role = "user"
      · cases visibility <;> simp [user, unauthenticated, ToolVisibility.value]
      by_cases expert : role = "expert"
      · cases visibility <;> simp [expert, unauthenticated, ToolVisibility.value]
      by_cases admin : role = "admin"
      · cases visibility <;> simp [admin, unauthenticated, ToolVisibility.value]
      simp [empty, anonymous, readOnly, user, expert, admin]

def Runnable (tool : ToolDefinition η) : Prop := tool.handler ≠ none ∨ tool.asyncHandler ≠ none

/-- The registry lists for a role and exports for it what the security layer authorises, and runs
nothing that is not visible to it. -/
structure OnePolicy (registry : Registry η) (role : Option String) : Prop where
  listed : ∀ tool, tool ∈ listTools registry { visibilityFilter := role } ↔
    Authorised registry role tool
  exported : ∀ providerType, ∀ tool ∈ registry.getAll,
    llmFormat providerType tool ∈ getToolsForLlm registry providerType role ↔
      Authorised registry role tool
  rejected : ∀ call : η → Params → Except String String, ∀ name params tool,
    registry.getTool name = some tool → checkVisibility tool.visibility role = false →
    (execute call registry name params).ran = none ∧
      (executeAsync call registry name params).ran = none

theorem mem_listTools {registry : Registry η} {role : Option String} {tool : ToolDefinition η} :
    tool ∈ listTools registry { visibilityFilter := role } ↔
      tool ∈ registry.tools ∧ (role ≠ none → checkVisibility tool.visibility role = true) := by
  cases role with
  | none => simp [listTools]
  | some role => simp [listTools, visibleForRole_eq]

theorem mem_getToolsForLlm {registry : Registry η} {providerType : String} {role : Option String}
    {tool : ToolDefinition η} (known : tool ∈ registry.tools) :
    llmFormat providerType tool ∈ getToolsForLlm registry providerType role ↔
      tool ∈ listTools registry { visibilityFilter := role } := by
  unfold getToolsForLlm
  constructor
  · intro member
    obtain ⟨other, listed, same⟩ := List.mem_map.mp member
    have registered := (mem_listTools.mp listed).1
    rwa [Registry.eq_of_name known registered (name_eq_of_llmFormat same).symm]
  · intro listed
    exact List.mem_map_of_mem listed

theorem checkVisibility_none (visibility : ToolVisibility) :
    checkVisibility visibility none = true ↔ visibility = .public := by
  rw [← visibleForRole_eq]
  simp [visibleForRole]

theorem listed_iff (registry : Registry η) (role : Option String) :
    (∀ tool, tool ∈ listTools registry { visibilityFilter := role } ↔
        Authorised registry role tool) ↔
      (role = none → ∀ tool ∈ registry.tools, tool.visibility = .public) := by
  constructor
  · intro agree given tool known
    rcases given with rfl
    have authorised := (agree tool).mp (mem_listTools.mpr ⟨known, by simp⟩)
    exact (checkVisibility_none _).mp (authorised_iff.mp authorised).2
  · intro anonymous tool
    rw [mem_listTools, authorised_iff]
    constructor
    · intro given
      rcases given with ⟨known, visible⟩
      refine ⟨known, ?_⟩
      by_cases absent : role = none
      · subst absent
        exact (checkVisibility_none _).mpr (anonymous rfl tool known)
      · exact visible absent
    · intro given
      rcases given with ⟨known, visible⟩
      exact ⟨known, fun _ => visible⟩

theorem rejected_iff (registry : Registry η) (role : Option String) :
    (∀ call : η → Params → Except String String, ∀ name params tool,
        registry.getTool name = some tool → checkVisibility tool.visibility role = false →
        (execute call registry name params).ran = none ∧
          (executeAsync call registry name params).ran = none) ↔
      ∀ tool ∈ registry.tools, Runnable tool → checkVisibility tool.visibility role = true := by
  constructor
  · intro rejected tool known runnable
    by_contra hidden
    have registered := Registry.getTool_eq_some_iff.mpr ⟨known, rfl⟩
    obtain ⟨sync, async⟩ := rejected (fun _ _ => .ok "") tool.name (completeParams tool) tool
      registered (by simpa using hidden)
    rw [execute, executeWith_ran _ registered, if_pos (validateParams_completeParams tool)] at sync
    rw [executeAsync, executeWith_ran _ registered,
      if_pos (validateParams_completeParams tool)] at async
    rcases runnable with handled | handled
    · exact handled sync
    · exact handled (Option.or_eq_none_iff.mp async).1
  · intro visible call name params tool registered hidden
    have known := (Registry.getTool_eq_some_iff.mp registered).1
    have idle : ¬ Runnable tool := by
      intro runnable
      rw [visible tool known runnable] at hidden
      cases hidden
    unfold Runnable at idle
    push Not at idle
    simp only [execute, executeAsync, executeWith_ran _ registered, idle.1, idle.2]
    simp

/-- Listing, export and execution follow one policy for a role exactly if every tool that can run
is visible to the role and, where no role is given, every tool is public. -/
theorem one_policy_iff (registry : Registry η) (role : Option String) :
    OnePolicy registry role ↔
      (∀ tool ∈ registry.tools, Runnable tool → checkVisibility tool.visibility role = true) ∧
      (role = none → ∀ tool ∈ registry.tools, tool.visibility = .public) := by
  rw [← rejected_iff, ← listed_iff]
  constructor
  · intro policy
    exact ⟨policy.rejected, policy.listed⟩
  · intro given
    rcases given with ⟨rejected, listed⟩
    refine ⟨listed, ?_, rejected⟩
    intro providerType tool known
    rw [mem_getToolsForLlm known, listed]

end

def adminRegistry : Registry Unit :=
  ⟨[{ name := "purge", description := "d", handler := some (), visibility := .admin }], by simp⟩

/-- Without a role the administrators' tool is exported, and an ordinary user's call runs it. -/
theorem one_policy_fails :
    ¬ OnePolicy adminRegistry none ∧ ¬ OnePolicy adminRegistry (some "user") := by
  constructor
  · intro policy
    have exported := (policy.exported "openai" _ (List.mem_singleton_self _)).mp
      (by simp [getToolsForLlm, listTools, adminRegistry])
    have visible := (authorised_iff.mp exported).2
    revert visible
    decide +kernel
  · intro policy
    have ran := (policy.rejected (fun _ _ => .ok "purged") "purge" ∅ _ rfl (by decide +kernel)).1
    revert ran
    decide +kernel

end RagSystem.Tools
