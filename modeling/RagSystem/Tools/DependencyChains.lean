import RagSystem.Tools.DependencyLevels

/-! When `_resolve_dependency_levels` of `proxy/app/tools/orchestrator.py` raises, and which level
a tool gets. -/

namespace RagSystem.Tools

open Layering

variable {η : Type}

/-- The tool depends on the other name; of the entries under one name the last one counts. -/
def Depends (tools : List (ToolDefinition η)) (name needed : String) : Prop :=
  ∃ tool, tools.reverse.find? (fun tool => tool.name = name) = some tool ∧
    needed ∈ tool.dependsOn

def Unresolved (tools : List (ToolDefinition η)) : Prop :=
  ∃ tool ∈ tools, ∃ needed ∈ tool.dependsOn, ∀ other ∈ tools, other.name ≠ needed

def Cyclic (tools : List (ToolDefinition η)) : Prop :=
  ∃ name, Relation.TransGen (Depends tools) name name

/-- The levels partition the names; a tool comes after all it depends on, in the level with the
number of its longest chain of dependencies. -/
structure LaysOut (tools : List (ToolDefinition η)) (levels : List (List String)) : Prop where
  nonempty : ∀ level ∈ levels, level ≠ []
  disjoint : levels.flatten.Nodup
  covers : ∀ name, name ∈ levels.flatten ↔ ∃ tool ∈ tools, tool.name = name
  earlier : ∀ (place : Nat) (level : List String), levels[place]? = some level →
    ∀ name ∈ level, ∀ needed, Depends tools name needed →
      ∃ before < place, ∃ earlier, levels[before]? = some earlier ∧ needed ∈ earlier
  longest : ∀ (place : Nat) (level : List String), levels[place]? = some level →
    ∀ name ∈ level,
      (∃ chain, chain.length = place ∧ List.IsChain (Depends tools) (name :: chain)) ∧
      ∀ chain, List.IsChain (Depends tools) (name :: chain) → chain.length ≤ place

section Relation

variable {tools : List (ToolDefinition η)} {name needed : String}

theorem last_entry {tool : ToolDefinition η}
    (found : tools.reverse.find? (fun tool => tool.name = name) = some tool) :
    tool ∈ tools ∧ tool.name = name := by
  have accepted := List.find?_some found
  exact ⟨List.mem_reverse.mp (List.mem_of_find?_eq_some found), of_decide_eq_true accepted⟩

theorem dependencies_eq : dependencies tools name =
    ((tools.reverse.find? (fun tool => tool.name = name)).map
      ToolDefinition.dependsOn).getD [] := by
  have stored : (Dict.ofList (tools.map (fun tool => (tool.name, tool.dependsOn)))).get? name =
      (((tools.map (fun tool => (tool.name, tool.dependsOn))).reverse.find?
        (fun binding => binding.1 = name)).map Prod.snd).or none :=
    Dict.get?_setAll ∅ _ name
  rw [dependencies, stored, Option.or_none, ← List.map_reverse, List.find?_map, Option.map_map]
  rfl

theorem depends_iff : Depends tools name needed ↔ needed ∈ dependencies tools name := by
  rw [dependencies_eq, Depends]
  cases tools.reverse.find? (fun tool => tool.name = name) with
  | none => simp
  | some tool => simp

theorem depends_iff_of_repeats (repeats : ∀ tool ∈ tools, ∀ other ∈ tools,
    tool.name = other.name → tool.dependsOn = other.dependsOn) :
    Depends tools name needed ↔ ∃ tool ∈ tools, tool.name = name ∧ needed ∈ tool.dependsOn := by
  constructor
  · intro depends
    obtain ⟨tool, found, asked⟩ := depends
    exact ⟨tool, (last_entry found).1, (last_entry found).2, asked⟩
  · intro declared
    obtain ⟨tool, member, same, asked⟩ := declared
    cases found : tools.reverse.find? (fun tool => tool.name = name) with
    | none =>
        have absent := List.find?_eq_none.mp found tool (List.mem_reverse.mpr member)
        exact absurd (decide_eq_true same) absent
    | some last =>
        obtain ⟨listed, named⟩ := last_entry found
        have agree := repeats tool member last listed (same.trans named.symm)
        exact ⟨last, found, agree ▸ asked⟩

theorem mem_toolNames_iff : name ∈ toolNames tools ↔ ∃ tool ∈ tools, tool.name = name := by
  simp [toolNames]

theorem unresolved_iff : Unresolved tools ↔
    tools.findSome? (fun tool => (tool.dependsOn.find? (· ∉ toolNames tools)).map
      (fun dependency => (tool.name, dependency))) ≠ none := by
  rw [Ne, List.findSome?_eq_none_iff]
  simp [Unresolved, mem_toolNames_iff]

theorem closed_of_resolved (resolved : ¬ Unresolved tools) :
    ∀ name ∈ toolNames tools, ∀ needed ∈ dependencies tools name, needed ∈ toolNames tools := by
  intro name _ needed asked
  obtain ⟨tool, found, listed⟩ := depends_iff.mpr asked
  by_contra outside
  exact resolved ⟨tool, (last_entry found).1, needed, listed, fun other inside same =>
    outside (mem_toolNames_iff.mpr ⟨other, inside, same⟩)⟩

theorem depends_eq : Depends tools = fun name needed => needed ∈ dependencies tools name := by
  funext name needed
  exact propext depends_iff

theorem reaches_iff : Reaches (dependencies tools) name needed ↔
    Relation.TransGen (Depends tools) name needed := by
  rw [depends_eq]
  rfl

theorem dependencyChain_iff {chain : List String} :
    DependencyChain (dependencies tools) chain ↔ List.IsChain (Depends tools) chain := by
  rw [depends_eq]
  rfl

end Relation

section Resolution

variable {tools : List (ToolDefinition η)} {levels : List (List String)}

theorem resolve_of_unresolved (unresolved : Unresolved tools) :
    ∃ raised, resolveDependencyLevels tools = .error raised := by
  obtain ⟨missing, found⟩ := Option.ne_none_iff_exists'.mp (unresolved_iff.mp unresolved)
  exact ⟨_, by rw [resolveDependencyLevels, found]⟩

theorem resolve_of_resolved (resolved : ¬ Unresolved tools) :
    resolveDependencyLevels tools =
      levelsFrom (dependencies tools) (toolNames tools).length (toolNames tools) := by
  rw [resolveDependencyLevels, not_ne_iff.mp (mt unresolved_iff.mpr resolved)]

theorem peels_resolved (built : resolveDependencyLevels tools = .ok levels) :
    ¬ Unresolved tools ∧ Peels (dependencies tools) (toolNames tools) levels := by
  have resolved : ¬ Unresolved tools := by
    intro unresolved
    obtain ⟨raised, failed⟩ := resolve_of_unresolved unresolved
    rw [failed] at built
    cases built
  rw [resolve_of_resolved resolved] at built
  exact ⟨resolved, peels_levelsFrom le_rfl built⟩

theorem laysOut_resolved (built : resolveDependencyLevels tools = .ok levels) :
    LaysOut tools levels := by
  obtain ⟨resolved, peels⟩ := peels_resolved built
  have closed := closed_of_resolved resolved
  have layered : Layered (dependencies tools) [] levels :=
    layered_of_peels peels (fun name listed needed asked =>
      Or.inr (closed name listed needed asked))
  refine ⟨ne_nil_of_peels peels, nodup_flatten_of_peels peels (List.nodup_dedup _), ?_, ?_, ?_⟩
  · exact fun name => (mem_flatten_of_peels peels).trans mem_toolNames_iff
  · intro place level listed name member needed depends
    have earlier := earlier_of_layered layered listed member (depends_iff.mp depends)
    exact earlier.resolve_left List.not_mem_nil
  · intro place level listed name member
    obtain ⟨⟨chain, long, linked⟩, bound⟩ := longest_of_peels peels closed listed member
    constructor
    · exact ⟨chain, long, dependencyChain_iff.mp linked⟩
    · exact fun chain linked => bound chain (dependencyChain_iff.mpr linked)

theorem mem_toolNames_of_cycle {name : String}
    (cycle : Relation.TransGen (Depends tools) name name) :
    name ∈ toolNames tools := by
  obtain ⟨needed, ⟨tool, found, _⟩, _⟩ := Relation.TransGen.head'_iff.mp cycle
  exact mem_toolNames_iff.mpr ⟨tool, last_entry found⟩

theorem raises_iff : (∃ raised, resolveDependencyLevels tools = .error raised) ↔
    Unresolved tools ∨ Cyclic tools := by
  constructor
  · intro failed
    obtain ⟨raised, failed⟩ := failed
    by_cases unresolved : Unresolved tools
    · exact Or.inl unresolved
    · rw [resolve_of_resolved unresolved] at failed
      obtain ⟨left, nonempty, stuck⟩ := stuck_of_levelsFrom failed
      obtain ⟨name, cycle⟩ := exists_cycle_of_no_sources nonempty stuck
      exact Or.inr ⟨name, reaches_iff.mp cycle⟩
  · intro wrong
    cases built : resolveDependencyLevels tools with
    | error raised => exact ⟨raised, rfl⟩
    | ok levels =>
        exfalso
        obtain ⟨resolved, peels⟩ := peels_resolved built
        rcases wrong with unresolved | ⟨name, cycle⟩
        · exact resolved unresolved
        · have layered : Layered (dependencies tools) [] levels := layered_of_peels peels
            (fun name listed needed asked =>
              Or.inr (closed_of_resolved resolved name listed needed asked))
          have listed := (mem_flatten_of_peels peels).mpr (mem_toolNames_of_cycle cycle)
          exact not_reaches_self_of_layered layered listed (reaches_iff.mpr cycle)

/-- The levels are a topological layering, and a `ValueError` is raised where there is none. -/
theorem resolveDependencyLevels_layers (tools : List (ToolDefinition η)) :
    ((∃ raised, resolveDependencyLevels tools = .error raised) ↔
      Unresolved tools ∨ Cyclic tools) ∧
    ∀ levels, resolveDependencyLevels tools = .ok levels → LaysOut tools levels :=
  ⟨raises_iff, fun _ built => laysOut_resolved built⟩

end Resolution

end RagSystem.Tools
