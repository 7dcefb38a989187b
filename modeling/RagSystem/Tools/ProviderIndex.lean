import RagSystem.Tools.Registry
import RagSystem.Transition.Run

/-! The provider index of `EnhancedToolRegistry` (`proxy/app/tools/registry.py`): registering,
removing, discovering and reloading tools, and when the index tells whose tools are registered. -/

namespace RagSystem.Tools

open Transition

section

variable {η : Type}

/-- `_tools` and `_provider_tools`; a set is the list of its members. -/
structure ProviderRegistry (η : Type) where
  registry : Registry η := {}
  providerTools : Dict String (List String) := ∅

/-- What a provider's `discover` ends with: the tools, or the text of the exception. -/
abbrev Discovery (η : Type) := Except String (List (ToolDefinition η))

/-- `tool.provider or "unknown"` -/
def ToolDefinition.providerKey (tool : ToolDefinition η) : String :=
  if tool.provider = "" then "unknown" else tool.provider

/-- The keys of `provider_registry` in `reload_provider`. -/
def providerRegistry : List String := ["sdk", "declarative", "openapi"]

namespace ProviderRegistry

/-- `set.add` -/
def insertName (name : String) (names : List String) : List String :=
  if name ∈ names then names else names ++ [name]

def register (tool : ToolDefinition η) (state : ProviderRegistry η) : ProviderRegistry η :=
  let provider := tool.providerKey
  let names := (state.providerTools.get? provider).getD []
  { registry := state.registry.register tool
    providerTools := state.providerTools.set provider (insertName tool.name names) }

def unregister (name : String) (state : ProviderRegistry η) : Bool × ProviderRegistry η :=
  match state.registry.getTool name with
  | none => (false, state)
  | some tool =>
      let provider := tool.providerKey
      let providerTools := match state.providerTools.get? provider with
        | none => state.providerTools
        | some names => state.providerTools.set provider (names.filter (· ≠ name))
      (true, ⟨state.registry.unregister name, providerTools⟩)

def discover (outcome : Discovery η) (state : ProviderRegistry η) :
    List (ToolDefinition η) × ProviderRegistry η :=
  match outcome with
  | .error _ => ([], state)
  | .ok discovered => (discovered, discovered.foldl (fun state tool => state.register tool) state)

def removeTools (providerName : String) (state : ProviderRegistry η) : ProviderRegistry η :=
  ((state.providerTools.get? providerName).getD []).foldl (fun state name =>
    (state.unregister name).2) state

def reloadProvider (providerName : String) (outcome : Discovery η) (state : ProviderRegistry η) :
    List (ToolDefinition η) × ProviderRegistry η :=
  let removed := state.removeTools providerName
  if providerName ∈ providerRegistry then removed.discover outcome else ([], removed)

def getTool (state : ProviderRegistry η) (name : String) : Option (ToolDefinition η) :=
  state.registry.getTool name

def namesUnder (state : ProviderRegistry η) (provider : String) : List String :=
  (state.providerTools.get? provider).getD []

end ProviderRegistry

inductive RegistryCall (η : Type)
  | register (tool : ToolDefinition η)
  | unregister (name : String)
  | discover (outcome : Discovery η)
  | reloadProvider (providerName : String) (outcome : Discovery η)

def RegistryCall.step (state : ProviderRegistry η) : RegistryCall η → Option (ProviderRegistry η)
  | .register tool => some (state.register tool)
  | .unregister name => some (state.unregister name).2
  | .discover outcome => some (state.discover outcome).2
  | .reloadProvider providerName outcome => some (state.reloadProvider providerName outcome).2

end

/-! ### Lookups -/

section

variable {η : Type}

theorem Registry.mem_register {registry : Registry η} {tool other : ToolDefinition η} :
    other ∈ (registry.register tool).tools ↔
      other = tool ∨ other ∈ registry.tools ∧ other.name ≠ tool.name := by
  unfold Registry.register
  split
  · next known =>
      obtain ⟨old, registered, sameName⟩ := List.mem_map.mp known
      constructor
      · intro member
        obtain ⟨original, inside, rfl⟩ := List.mem_map.mp member
        by_cases same : original.name = tool.name
        · simp [same]
        · exact .inr (by simp [same, inside])
      · intro given
        rcases given with rfl | ⟨inside, differs⟩
        · exact List.mem_map.mpr ⟨old, registered, by simp [sameName]⟩
        · exact List.mem_map.mpr ⟨other, inside, by simp [differs]⟩
  · next unknown =>
      have apart : ∀ original ∈ registry.tools, original.name ≠ tool.name := by
        intro original inside same
        exact unknown (List.mem_map.mpr ⟨original, inside, same⟩)
      simp only [List.mem_append, List.mem_singleton]
      constructor
      · intro given
        rcases given with inside | rfl
        · exact .inr ⟨inside, apart other inside⟩
        · exact .inl rfl
      · intro given
        rcases given with rfl | ⟨inside, -⟩
        · exact .inr rfl
        · exact .inl inside

theorem Registry.getTool_register (registry : Registry η) (tool : ToolDefinition η)
    (name : String) : (registry.register tool).getTool name =
      if name = tool.name then some tool else registry.getTool name := by
  ext other
  rw [Registry.getTool_eq_some_iff, Registry.mem_register]
  by_cases same : name = tool.name
  · subst same
    rw [if_pos rfl, Option.some.injEq]
    constructor
    · intro given
      rcases given with ⟨rfl | ⟨-, differs⟩, named⟩
      · rfl
      · exact absurd named differs
    · intro given
      rcases given with rfl
      exact ⟨.inl rfl, rfl⟩
  · rw [if_neg same, Registry.getTool_eq_some_iff]
    constructor
    · intro given
      rcases given with ⟨rfl | ⟨inside, -⟩, rfl⟩
      · exact absurd rfl same
      · exact ⟨inside, rfl⟩
    · intro given
      rcases given with ⟨inside, rfl⟩
      exact ⟨.inr ⟨inside, same⟩, rfl⟩

theorem Registry.getTool_unregister (registry : Registry η) (removed name : String) :
    (registry.unregister removed).getTool name =
      if name = removed then none else registry.getTool name := by
  ext other
  rw [Registry.getTool_eq_some_iff, Registry.unregister]
  simp only [List.mem_filter, ne_eq, decide_eq_true_eq]
  by_cases same : name = removed
  · rw [if_pos same]
    constructor
    · intro given
      rcases given with ⟨⟨-, differs⟩, named⟩
      exact absurd (named.trans same) differs
    · intro impossible
      cases impossible
  · rw [if_neg same, Registry.getTool_eq_some_iff]
    constructor
    · intro given
      rcases given with ⟨⟨inside, -⟩, named⟩
      exact ⟨inside, named⟩
    · intro given
      rcases given with ⟨inside, rfl⟩
      exact ⟨⟨inside, same⟩, rfl⟩

namespace ProviderRegistry

variable {state : ProviderRegistry η}

theorem getTool_register (tool : ToolDefinition η) (name : String) :
    (state.register tool).getTool name =
      if name = tool.name then some tool else state.getTool name :=
  state.registry.getTool_register tool name

theorem mem_insertName {name other : String} {names : List String} :
    other ∈ insertName name names ↔ other = name ∨ other ∈ names := by
  unfold insertName
  split
  · next known =>
      constructor
      · exact Or.inr
      · intro given
        rcases given with rfl | inside
        · exact known
        · exact inside
  · simp [or_comm]

theorem mem_namesUnder_register {tool : ToolDefinition η} {name provider : String} :
    name ∈ (state.register tool).namesUnder provider ↔
      name = tool.name ∧ provider = tool.providerKey ∨ name ∈ state.namesUnder provider := by
  unfold namesUnder register
  rw [Dict.get?_set]
  by_cases same : provider = tool.providerKey
  · simp [same, mem_insertName]
  · simp [same]

theorem getTool_unregister (removed name : String) :
    (state.unregister removed).2.getTool name =
      if name = removed then none else state.getTool name := by
  unfold unregister
  cases found : state.registry.getTool removed with
  | none =>
      by_cases same : name = removed
      · simpa [getTool, same] using found
      · simp [same]
  | some tool => exact state.registry.getTool_unregister removed name

theorem mem_namesUnder_unregister {removed name provider : String} :
    name ∈ (state.unregister removed).2.namesUnder provider ↔
      name ∈ state.namesUnder provider ∧
        ¬ (name = removed ∧ (state.getTool removed).any (·.providerKey = provider)) := by
  unfold unregister
  cases found : state.registry.getTool removed with
  | none => simp [getTool, found]
  | some tool =>
      simp only [getTool, found, namesUnder, Option.any_some, decide_eq_true_eq]
      cases listed : state.providerTools.get? tool.providerKey with
      | none =>
          by_cases same : tool.providerKey = provider
          · simp [← same, listed]
          · simp [same]
      | some names =>
          simp only [Dict.get?_set]
          by_cases same : provider = tool.providerKey
          · simp [same, listed]
          · have differs : tool.providerKey ≠ provider := fun equal => same equal.symm
            simp [same, differs]

/-! ### The exact index -/

/-- The index has a name under a provider exactly if the registered tool of that name has that
provider. -/
def Exact (state : ProviderRegistry η) : Prop :=
  ∀ name provider, name ∈ state.namesUnder provider ↔
    ∃ tool, state.getTool name = some tool ∧ tool.providerKey = provider

def SameProvider (state : ProviderRegistry η) (tool : ToolDefinition η) : Prop :=
  ∀ old, state.getTool tool.name = some old → old.providerKey = tool.providerKey

theorem exact_unregister (exact : state.Exact) (removed : String) :
    (state.unregister removed).2.Exact := by
  intro name provider
  rw [mem_namesUnder_unregister, exact, getTool_unregister]
  by_cases same : name = removed
  · subst same
    simp only [true_and, if_pos]
    constructor
    · intro given
      rcases given with ⟨⟨tool, found, rfl⟩, kept⟩
      simp [found] at kept
    · intro given
      rcases given with ⟨tool, impossible, -⟩
      cases impossible
  · simp [same]

theorem exact_register_iff (exact : state.Exact) (tool : ToolDefinition η) :
    (state.register tool).Exact ↔ state.SameProvider tool := by
  constructor
  · intro after old found
    have listed : tool.name ∈ (state.register tool).namesUnder old.providerKey :=
      mem_namesUnder_register.mpr (.inr ((exact _ _).mpr ⟨old, found, rfl⟩))
    obtain ⟨registered, isTool, same⟩ := (after _ _).mp listed
    rw [getTool_register, if_pos rfl] at isTool
    rw [← same, Option.some.inj isTool]
  · intro same name provider
    rw [mem_namesUnder_register, exact, getTool_register]
    by_cases named : name = tool.name
    · subst named
      simp only [true_and, if_pos, Option.some.injEq, exists_eq_left']
      constructor
      · intro given
        rcases given with rfl | ⟨old, found, rfl⟩
        · rfl
        · exact (same old found).symm
      · intro given
        rcases given with rfl
        exact .inl rfl
    · simp [named]

def Doubled (state : ProviderRegistry η) : Prop :=
  ∃ name first second, first ≠ second ∧ name ∈ state.namesUnder first ∧
    name ∈ state.namesUnder second

theorem not_exact_of_doubled (doubled : state.Doubled) : ¬ state.Exact := by
  intro exact
  obtain ⟨name, first, second, differs, one, two⟩ := doubled
  obtain ⟨tool, found, rfl⟩ := (exact _ _).mp one
  obtain ⟨other, again, rfl⟩ := (exact _ _).mp two
  rw [Option.some.inj (found.symm.trans again)] at differs
  exact differs rfl

theorem doubled_register_of_not (exact : state.Exact) {tool : ToolDefinition η}
    (moved : ¬ state.SameProvider tool) : (state.register tool).Doubled := by
  simp only [SameProvider, not_forall] at moved
  obtain ⟨old, found, differs⟩ := moved
  exact ⟨tool.name, old.providerKey, tool.providerKey, differs,
    mem_namesUnder_register.mpr (.inr ((exact _ _).mpr ⟨old, found, rfl⟩)),
    mem_namesUnder_register.mpr (.inl ⟨rfl, rfl⟩)⟩

def registerAll (tools : List (ToolDefinition η)) (state : ProviderRegistry η) :
    ProviderRegistry η :=
  tools.foldl (fun state tool => state.register tool) state

theorem doubled_registerAll (doubled : state.Doubled) (tools : List (ToolDefinition η)) :
    (state.registerAll tools).Doubled := by
  induction tools generalizing state with
  | nil => exact doubled
  | cons tool rest ih =>
      obtain ⟨name, first, second, differs, one, two⟩ := doubled
      exact ih ⟨name, first, second, differs, mem_namesUnder_register.mpr (.inr one),
        mem_namesUnder_register.mpr (.inr two)⟩

/-- The tools of one name have one provider, and it is that of the registered tool they replace. -/
structure Consistent (state : ProviderRegistry η) (tools : List (ToolDefinition η)) : Prop where
  registered : ∀ tool ∈ tools, state.SameProvider tool
  discovered : ∀ tool ∈ tools, ∀ other ∈ tools, tool.name = other.name →
    tool.providerKey = other.providerKey

theorem consistent_cons_iff {tool : ToolDefinition η} {rest : List (ToolDefinition η)}
    (same : state.SameProvider tool) :
    state.Consistent (tool :: rest) ↔ (state.register tool).Consistent rest := by
  constructor
  · intro consistent
    constructor
    · intro other member old found
      rw [getTool_register] at found
      split at found
      · next named =>
          rw [← Option.some.inj found]
          exact consistent.discovered tool List.mem_cons_self other (List.mem_cons_of_mem _ member)
            named.symm
      · exact consistent.registered other (List.mem_cons_of_mem _ member) old found
    · intro first one second two
      exact consistent.discovered first (List.mem_cons_of_mem _ one) second
        (List.mem_cons_of_mem _ two)
  · intro consistent
    have head : ∀ other ∈ rest, other.name = tool.name →
        other.providerKey = tool.providerKey := by
      intro other member named
      exact (consistent.registered other member tool
        (by rw [getTool_register, if_pos named])).symm
    constructor
    · intro other member old found
      rcases List.mem_cons.mp member with rfl | inside
      · exact same old found
      · by_cases named : other.name = tool.name
        · rw [head other inside named]
          exact same old (named ▸ found)
        · exact consistent.registered other inside old
            (by rw [getTool_register, if_neg named]; exact found)
    · intro first one second two named
      rcases List.mem_cons.mp one with rfl | inFirst
      · rcases List.mem_cons.mp two with rfl | inSecond
        · rfl
        · exact (head second inSecond named.symm).symm
      · rcases List.mem_cons.mp two with rfl | inSecond
        · exact head first inFirst named
        · exact consistent.discovered first inFirst second inSecond named

theorem exact_registerAll_iff (exact : state.Exact) (tools : List (ToolDefinition η)) :
    (state.registerAll tools).Exact ↔ state.Consistent tools := by
  induction tools generalizing state with
  | nil => exact ⟨fun _ => ⟨by simp, by simp⟩, fun _ => exact⟩
  | cons tool rest ih =>
      by_cases same : state.SameProvider tool
      · rw [consistent_cons_iff same]
        exact ih ((exact_register_iff exact tool).mpr same)
      · constructor
        · intro after
          have doubled := doubled_registerAll (doubled_register_of_not exact same) rest
          exact absurd after (not_exact_of_doubled doubled)
        · intro consistent
          exact absurd (consistent.registered tool List.mem_cons_self) same

def lastNamed (tools : List (ToolDefinition η)) (name : String) : Option (ToolDefinition η) :=
  tools.reverse.find? (fun tool => tool.name = name)

theorem getTool_registerAll (tools : List (ToolDefinition η)) (name : String) :
    (state.registerAll tools).getTool name = (lastNamed tools name).or (state.getTool name) := by
  induction tools generalizing state with
  | nil => rfl
  | cons tool rest ih =>
      have unfolded : state.registerAll (tool :: rest) =
          (state.register tool).registerAll rest := rfl
      rw [unfolded, ih, getTool_register, lastNamed, lastNamed, List.reverse_cons,
        List.find?_append, Option.or_assoc]
      congr 1
      by_cases named : name = tool.name
      · simp [named]
      · have differs : tool.name ≠ name := fun equal => named equal.symm
        simp [named, differs]

/-! ### Reloading -/

theorem getTool_unregisterAll (names : List String) (name : String) :
    (names.foldl (fun state name => (state.unregister name).2) state).getTool name =
      if name ∈ names then none else state.getTool name := by
  induction names generalizing state with
  | nil => simp
  | cons removed rest ih =>
      rw [List.foldl_cons, ih, getTool_unregister]
      by_cases inside : name ∈ rest <;> by_cases same : name = removed <;> simp [inside, same]

theorem exact_removeTools (exact : state.Exact) (providerName : String) :
    (state.removeTools providerName).Exact := by
  unfold removeTools
  apply List.foldlRecOn (motive := Exact)
  · exact exact
  · exact fun _ kept removed _ => exact_unregister kept removed

theorem getTool_removeTools (exact : state.Exact) (providerName name : String) :
    (state.removeTools providerName).getTool name =
      (state.getTool name).filter (fun tool => tool.providerKey ≠ providerName) := by
  unfold removeTools
  rw [getTool_unregisterAll]
  have listed := exact name providerName
  unfold namesUnder at listed
  simp only [listed]
  cases found : state.getTool name with
  | none => simp
  | some tool => by_cases same : tool.providerKey = providerName <;> simp [Option.filter_some, same]

theorem removeTools_eq_self_iff (exact : state.Exact) (providerName : String) :
    state.removeTools providerName = state ↔
      ∀ tool ∈ state.registry.tools, tool.providerKey ≠ providerName := by
  constructor
  · intro unchanged tool registered same
    have found : state.getTool tool.name = some tool :=
      Registry.getTool_eq_some_iff.mpr ⟨registered, rfl⟩
    have gone := getTool_removeTools exact providerName tool.name
    rw [unchanged, found] at gone
    simp [Option.filter_some, same] at gone
  · intro others
    have nothing : state.namesUnder providerName = [] := by
      rw [List.eq_nil_iff_forall_not_mem]
      intro name listed
      obtain ⟨tool, found, same⟩ := (exact _ _).mp listed
      exact others tool (Registry.getTool_eq_some_iff.mp found).1 same
    unfold removeTools
    unfold namesUnder at nothing
    rw [nothing]
    rfl

end ProviderRegistry

open ProviderRegistry

/-- A call keeps the books: the index is exact after it; a reload leaves the tools of the other
providers as they were, and one whose discovery fails leaves everything so. -/
structure KeepsBooks (event : Event (ProviderRegistry η) (RegistryCall η)) : Prop where
  exact : event.after.Exact
  frame : ∀ providerName outcome, event.action = .reloadProvider providerName outcome →
    ∀ name tool, event.before.getTool name = some tool → tool.providerKey ≠ providerName →
      event.after.getTool name = some tool
  atomic : ∀ providerName error, event.action = .reloadProvider providerName (.error error) →
    providerName ∈ providerRegistry → event.after = event.before

/-- What a call may find in the registry: a tool takes no other provider's name, and a reload
whose discovery fails has nothing to remove. -/
def Orderly (state : ProviderRegistry η) : RegistryCall η → Prop
  | .register tool => state.SameProvider tool
  | .unregister _ => True
  | .discover (.error _) => True
  | .discover (.ok tools) => state.Consistent tools
  | .reloadProvider providerName (.error _) => providerName ∈ providerRegistry →
      ∀ tool ∈ state.registry.tools, tool.providerKey ≠ providerName
  | .reloadProvider providerName (.ok tools) => providerName ∈ providerRegistry →
      (∀ tool ∈ tools, ∀ other ∈ tools, tool.name = other.name →
        tool.providerKey = other.providerKey) ∧
      ∀ old ∈ state.registry.tools, old.providerKey ≠ providerName →
        ∀ tool, lastNamed tools old.name = some tool → tool = old

theorem mem_of_lastNamed {tools : List (ToolDefinition η)} {name : String}
    {tool : ToolDefinition η} (found : lastNamed tools name = some tool) :
    tool ∈ tools ∧ tool.name = name :=
  ⟨List.mem_reverse.mp (List.mem_of_find?_eq_some found), by simpa using List.find?_some found⟩

theorem exists_lastNamed {tools : List (ToolDefinition η)} {tool : ToolDefinition η}
    (member : tool ∈ tools) : ∃ last, lastNamed tools tool.name = some last := by
  rw [← Option.isSome_iff_exists, lastNamed, List.find?_isSome]
  exact ⟨tool, List.mem_reverse.mpr member, by simp⟩

variable {state : ProviderRegistry η} {providerName : String}

theorem reload_registerAll_iff (exact : state.Exact) (tools : List (ToolDefinition η))
    (providerName : String) :
    (((state.removeTools providerName).registerAll tools).Exact ∧
      ∀ name tool, state.getTool name = some tool → tool.providerKey ≠ providerName →
        ((state.removeTools providerName).registerAll tools).getTool name = some tool) ↔
    (∀ tool ∈ tools, ∀ other ∈ tools, tool.name = other.name →
        tool.providerKey = other.providerKey) ∧
      ∀ old ∈ state.registry.tools, old.providerKey ≠ providerName →
        ∀ tool, lastNamed tools old.name = some tool → tool = old := by
  have removed := exact_removeTools exact providerName
  rw [exact_registerAll_iff removed]
  constructor
  · intro given
    rcases given with ⟨consistent, frame⟩
    refine ⟨consistent.discovered, ?_⟩
    intro old registered other tool last
    have kept := frame old.name old (Registry.getTool_eq_some_iff.mpr ⟨registered, rfl⟩) other
    rw [getTool_registerAll, last, Option.some_or] at kept
    exact Option.some.inj kept
  · intro given
    rcases given with ⟨discovered, spared⟩
    refine ⟨⟨?_, discovered⟩, ?_⟩
    · intro tool member old found
      rw [getTool_removeTools exact, Option.filter_eq_some_iff] at found
      obtain ⟨found, other⟩ := found
      obtain ⟨registered, named⟩ := Registry.getTool_eq_some_iff.mp found
      obtain ⟨last, isLast⟩ := exists_lastNamed member
      obtain ⟨inside, lastName⟩ := mem_of_lastNamed isLast
      rw [← spared old registered (by simpa using other) last (named ▸ isLast)]
      exact discovered last inside tool member lastName
    · intro name tool found other
      obtain ⟨registered, named⟩ := Registry.getTool_eq_some_iff.mp found
      have kept : (state.removeTools providerName).getTool name = some tool := by
        rw [getTool_removeTools exact, found, Option.filter_eq_some_iff]
        exact ⟨rfl, by simpa using other⟩
      rw [getTool_registerAll, kept]
      cases last : lastNamed tools name with
      | none => rfl
      | some newer =>
          rw [spared tool registered other newer (named ▸ last)]
          rfl

theorem keepsBooks_iff {call : RegistryCall η} {next : ProviderRegistry η} (exact : state.Exact)
    (stepped : call.step state = some next) :
    KeepsBooks ⟨state, call, next⟩ ↔ Orderly state call := by
  cases call with
  | register tool =>
      obtain rfl : state.register tool = next := Option.some.inj stepped
      rw [Orderly, ← exact_register_iff exact]
      exact ⟨KeepsBooks.exact, fun after => ⟨after, by simp, by simp⟩⟩
  | unregister name =>
      obtain rfl : (state.unregister name).2 = next := Option.some.inj stepped
      exact ⟨fun _ => trivial, fun _ => ⟨exact_unregister exact name, by simp, by simp⟩⟩
  | discover outcome =>
      cases outcome with
      | error text =>
          obtain rfl : state = next := Option.some.inj stepped
          exact ⟨fun _ => trivial, fun _ => ⟨exact, by simp, by simp⟩⟩
      | ok tools =>
          obtain rfl : state.registerAll tools = next := Option.some.inj stepped
          rw [Orderly, ← exact_registerAll_iff exact]
          exact ⟨KeepsBooks.exact, fun after => ⟨after, by simp, by simp⟩⟩
  | reloadProvider providerName outcome =>
      have removed := exact_removeTools exact providerName
      have frame : ∀ name tool, state.getTool name = some tool → tool.providerKey ≠ providerName →
          (state.removeTools providerName).getTool name = some tool := by
        intro name tool found other
        rw [getTool_removeTools exact, found, Option.filter_eq_some_iff]
        exact ⟨rfl, by simpa using other⟩
      have after : next = if providerName ∈ providerRegistry then
          ((state.removeTools providerName).discover outcome).2
        else state.removeTools providerName := by
        rw [← Option.some.inj stepped, reloadProvider]
        split <;> rfl
      by_cases known : providerName ∈ providerRegistry
      · rw [if_pos known] at after
        cases outcome with
        | error text =>
            obtain rfl : next = state.removeTools providerName := after
            have unchanged := removeTools_eq_self_iff exact providerName
            constructor
            · intro kept _
              exact unchanged.mp (kept.atomic providerName text rfl known)
            · intro orderly
              refine ⟨removed, ?_, ?_⟩
              · intro provider outcome given
                rcases given with ⟨⟩
                exact frame
              · intro provider error given also
                rcases given with ⟨⟩
                rcases also with -
                exact unchanged.mpr (orderly known)
        | ok tools =>
            obtain rfl : next = (state.removeTools providerName).registerAll tools := after
            have both := reload_registerAll_iff exact tools providerName
            constructor
            · intro kept _
              exact both.mp ⟨kept.exact, kept.frame providerName (.ok tools) rfl⟩
            · intro orderly
              obtain ⟨exactAfter, frameAfter⟩ := both.mpr (orderly known)
              refine ⟨exactAfter, ?_, by simp⟩
              intro provider outcome given
              rcases given with ⟨⟩
              exact frameAfter
      · rw [if_neg known] at after
        obtain rfl : next = state.removeTools providerName := after
        constructor
        · intro _
          cases outcome <;> exact fun impossible => absurd impossible known
        · intro _
          refine ⟨removed, ?_, ?_⟩
          · intro provider result given
            rcases given with ⟨⟩
            exact frame
          · intro provider error given inside
            rcases given with ⟨⟩
            exact absurd inside known

/-- In a run from the empty registry every call keeps the books exactly if every call finds the
registry in order. -/
theorem books_kept_iff {events : List (Event (ProviderRegistry η) (RegistryCall η))}
    (run : Run RegistryCall.step {} events state) :
    (∀ event ∈ events, KeepsBooks event) ↔ ∀ event ∈ events, Orderly event.before event.action := by
  apply run.forall_event_iff Exact KeepsBooks (fun event => Orderly event.before event.action)
  · intro name provider
    simp [namesUnder, getTool, Registry.getTool]
  · intro state call next exact stepped
    exact keepsBooks_iff exact stepped
  · intro state call next exact stepped orderly
    exact ((keepsBooks_iff exact stepped).mpr orderly).exact

end

def searchTool (provider : String) : ToolDefinition Unit :=
  { name := "search", provider := provider }

def orderlyCalls : List (RegistryCall Unit) :=
  [.register (searchTool "sdk"), .reloadProvider "sdk" (.ok [searchTool "sdk"]),
    .unregister "search", .reloadProvider "sdk" (.error "no module")]

theorem orderly_run : Run RegistryCall.step {} ((record RegistryCall.step {} orderlyCalls).getD [])
    (final {} ((record RegistryCall.step {} orderlyCalls).getD [])) :=
  run_of_isSome rfl

theorem books_kept_orderly :
    ((record RegistryCall.step {} orderlyCalls).getD []).length = 4 ∧
      ∀ event ∈ (record RegistryCall.step {} orderlyCalls).getD [], KeepsBooks event := by
  refine ⟨rfl, (books_kept_iff orderly_run).mpr ?_⟩
  simp only [orderlyCalls, record, RegistryCall.step, Option.map_some, Option.getD_some,
    List.forall_mem_cons, List.not_mem_nil, false_implies, implies_true, and_true]
  refine ⟨?_, ?_, trivial, ?_⟩
  · intro old found
    cases found
  · intro _
    refine ⟨by simp, ?_⟩
    intro old registered other
    obtain rfl : old = searchTool "sdk" := List.mem_singleton.mp registered
    exact absurd (by decide) other
  · intro _ tool registered
    cases registered

/-- A tool registered again under another provider stays in the index of the first one, whose reload
then removes it. -/
def movedCalls : List (RegistryCall Unit) :=
  [.register (searchTool "sdk"), .register (searchTool "openapi"), .reloadProvider "sdk" (.ok [])]

def failingCalls : List (RegistryCall Unit) :=
  [.register (searchTool "sdk"), .reloadProvider "sdk" (.error "no module")]

theorem books_not_kept :
    (¬ ∀ event ∈ (record RegistryCall.step {} movedCalls).getD [], KeepsBooks event) ∧
    ¬ ∀ event ∈ (record RegistryCall.step {} failingCalls).getD [], KeepsBooks event := by
  constructor
  · intro kept
    simp only [movedCalls, record, RegistryCall.step, Option.map_some, Option.getD_some,
      List.forall_mem_cons] at kept
    have moved := (kept.2.1.exact "search" "sdk").mp (by decide +kernel)
    obtain ⟨tool, found, key⟩ := moved
    obtain rfl : searchTool "openapi" = tool := Option.some.inj found
    revert key
    decide
  · intro kept
    simp only [failingCalls, record, RegistryCall.step, Option.map_some, Option.getD_some,
      List.forall_mem_cons] at kept
    have same := kept.2.1.atomic "sdk" "no module" rfl (by decide)
    have lengths := congrArg (fun state => state.registry.tools.length) same
    revert lengths
    decide +kernel

end RagSystem.Tools
