import Mathlib.Data.List.Dedup
import RagSystem.Tools.ParallelExecutor

/-! What the dependency levels and `name_to_call` of the parallel executor hold. -/

namespace RagSystem.Tools

open Layering Transition

variable {η : Type}

section Levels

variable {deps : String → List String}

theorem levelsFrom_succ {fuel : Nat} {remaining : List String} (some_left : remaining ≠ []) :
    levelsFrom deps (fuel + 1) remaining =
      if sources deps remaining = [] then .error (.circular remaining)
      else (levelsFrom deps fuel (remaining.filter (· ∉ sources deps remaining))).map
        (sources deps remaining :: ·) := by
  simp only [levelsFrom, List.isEmpty_iff, some_left, if_false]

theorem peels_levelsFrom {fuel : Nat} {remaining : List String} {levels : List (List String)}
    (enough : remaining.length ≤ fuel) (built : levelsFrom deps fuel remaining = .ok levels) :
    Peels deps remaining levels := by
  induction fuel generalizing remaining levels with
  | zero =>
      obtain rfl : remaining = [] := List.length_eq_zero_iff.mp (by omega)
      obtain rfl := Except.ok.inj built
      exact Peels.nothing
  | succ fuel ih =>
      by_cases empty : remaining = []
      · subst empty
        obtain rfl : [] = levels := by simpa [levelsFrom] using built
        exact Peels.nothing
      · rw [levelsFrom_succ empty] at built
        by_cases stuck : sources deps remaining = []
        · simp [stuck] at built
        · rw [if_neg stuck] at built
          have shorter := length_without_sources stuck
          cases later : levelsFrom deps fuel
              (remaining.filter (· ∉ sources deps remaining)) with
          | error raised =>
              rw [later] at built
              cases built
          | ok rest =>
              rw [later] at built
              obtain rfl := Except.ok.inj built
              exact Peels.layer stuck (ih (by omega) later)

theorem stuck_of_levelsFrom {fuel : Nat} {remaining : List String} {raised : ResolutionError}
    (failed : levelsFrom deps fuel remaining = .error raised) :
    ∃ left : List String, left ≠ [] ∧ sources deps left = [] := by
  induction fuel generalizing remaining raised with
  | zero => cases failed
  | succ fuel ih =>
      by_cases empty : remaining = []
      · simp [levelsFrom, empty] at failed
      · rw [levelsFrom_succ empty] at failed
        by_cases stuck : sources deps remaining = []
        · exact ⟨remaining, empty, stuck⟩
        · rw [if_neg stuck] at failed
          cases later : levelsFrom deps fuel
              (remaining.filter (· ∉ sources deps remaining)) with
          | error again => exact ih later
          | ok rest =>
              rw [later] at failed
              cases failed

theorem layered_levelsFrom {fuel : Nat} {remaining past : List String}
    {levels : List (List String)} (enough : remaining.length ≤ fuel)
    (closed : ∀ name ∈ remaining, ∀ needed ∈ deps name, needed ∈ past ∨ needed ∈ remaining)
    (built : levelsFrom deps fuel remaining = .ok levels) :
    Layered deps past levels ∧ ∀ name, name ∈ levels.flatten ↔ name ∈ remaining := by
  have peels := peels_levelsFrom enough built
  exact ⟨layered_of_peels peels closed, fun name => mem_flatten_of_peels peels⟩

theorem levelsFrom_isOk {rank : String → Nat} {fuel : Nat} {remaining : List String}
    (falls : ∀ name ∈ remaining, ∀ needed ∈ deps name, rank needed < rank name) :
    ∃ levels, levelsFrom deps fuel remaining = .ok levels := by
  induction fuel generalizing remaining with
  | zero => exact ⟨[], rfl⟩
  | succ fuel ih =>
      by_cases empty : remaining = []
      · exact ⟨[], by simp [levelsFrom, empty]⟩
      · have some_left : remaining.isEmpty = false := by simpa using empty
        have level : (sources deps remaining).isEmpty = false := by
          simpa using sources_ne_nil empty falls
        have still : ∀ name ∈ remaining.filter (· ∉ sources deps remaining),
            ∀ needed ∈ deps name, rank needed < rank name :=
          fun name listed => falls name (List.mem_filter.mp listed).1
        obtain ⟨rest, later⟩ := ih still
        exact ⟨sources deps remaining :: rest, by
          simp only [levelsFrom, some_left, level, later, Except.map, Bool.false_eq_true, if_false]⟩

end Levels

section Resolution

variable {registry : Registry η} {calls : List ToolCall}

theorem mem_calledTools {tool : ToolDefinition η} :
    tool ∈ calledTools registry calls ↔
      ∃ call ∈ calls, registry.getTool call.name = some tool := by
  simp [calledTools]

theorem name_of_getTool {name : String} {tool : ToolDefinition η}
    (registered : registry.getTool name = some tool) : tool.name = name :=
  (Registry.getTool_eq_some_iff.mp registered).2

theorem mem_toolNames {name : String} :
    name ∈ toolNames (calledTools registry calls) ↔
      (∃ call ∈ calls, call.name = name) ∧ registry.getTool name ≠ none := by
  simp only [toolNames, List.mem_dedup, List.mem_map, mem_calledTools]
  constructor
  · intro given
    rcases given with ⟨tool, ⟨call, member, registered⟩, rfl⟩
    have named := name_of_getTool registered
    exact ⟨⟨call, member, named.symm⟩, by simp [named, registered]⟩
  · intro given
    rcases given with ⟨⟨call, member, rfl⟩, registered⟩
    obtain ⟨tool, found⟩ := Option.ne_none_iff_exists'.mp registered
    exact ⟨tool, ⟨call, member, found⟩, name_of_getTool found⟩

theorem dependencies_of_called {tool : ToolDefinition η}
    (called : tool ∈ calledTools registry calls) :
    dependencies (calledTools registry calls) tool.name = tool.dependsOn := by
  have stored : (Dict.ofList ((calledTools registry calls).map
      (fun tool => (tool.name, tool.dependsOn)))).get? tool.name = some tool.dependsOn := by
    have member : (tool.name, tool.dependsOn) ∈ (calledTools registry calls).map
        (fun tool => (tool.name, tool.dependsOn)) := List.mem_map.mpr ⟨tool, called, rfl⟩
    apply Dict.get?_setAll_of_agree member
    intro others listed
    obtain ⟨other, known, same⟩ := List.mem_map.mp listed
    obtain ⟨call, -, registered⟩ := mem_calledTools.mp known
    obtain ⟨mine, -, own⟩ := mem_calledTools.mp called
    have equal := Registry.eq_of_name (Registry.getTool_eq_some_iff.mp registered).1
      (Registry.getTool_eq_some_iff.mp own).1 (congrArg Prod.fst same)
    rw [← equal]
    exact (congrArg Prod.snd same).symm
  simp [dependencies, stored]

/-- Every dependency of a called tool is the name of a called tool. -/
def Present (registry : Registry η) (calls : List ToolCall) : Prop :=
  ∀ tool ∈ calledTools registry calls, ∀ needed ∈ tool.dependsOn,
    needed ∈ toolNames (calledTools registry calls)

def Acyclic (registry : Registry η) (calls : List ToolCall) : Prop :=
  ∃ rank : String → Nat, ∀ tool ∈ calledTools registry calls, ∀ needed ∈ tool.dependsOn,
    rank needed < rank tool.name

theorem unresolved_eq_none_iff :
    (calledTools registry calls).findSome? (fun tool =>
      (tool.dependsOn.find? (· ∉ toolNames (calledTools registry calls))).map
        (fun dependency => (tool.name, dependency))) = none ↔ Present registry calls := by
  simp [Present]

theorem plan_eq (present : Present registry calls) :
    plan registry calls = levelsFrom (dependencies (calledTools registry calls))
      (toolNames (calledTools registry calls)).length
      (toolNames (calledTools registry calls)) := by
  simp only [plan, resolveDependencyLevels, unresolved_eq_none_iff.mpr present]
  by_cases none_called : calledTools registry calls = []
  · simp [none_called, toolNames, levelsFrom]
  · simp [none_called]

theorem present_of_plan {levels : List (List String)}
    (planned : plan registry calls = .ok levels) : Present registry calls := by
  by_cases none_called : calledTools registry calls = []
  · simp [Present, none_called]
  · rw [← unresolved_eq_none_iff]
    by_contra unresolved
    obtain ⟨missing, found⟩ := Option.ne_none_iff_exists'.mp unresolved
    have some_called : (calledTools registry calls).isEmpty = false := by simpa using none_called
    simp only [plan, resolveDependencyLevels, some_called, found] at planned
    cases planned

theorem exists_called_of_name {name : String}
    (listed : name ∈ toolNames (calledTools registry calls)) :
    ∃ tool ∈ calledTools registry calls, tool.name = name := by
  simpa [toolNames] using listed

theorem plan_isOk (present : Present registry calls) (acyclic : Acyclic registry calls) :
    ∃ levels, plan registry calls = .ok levels := by
  obtain ⟨rank, falls⟩ := acyclic
  have along : ∀ name ∈ toolNames (calledTools registry calls),
      ∀ needed ∈ dependencies (calledTools registry calls) name, rank needed < rank name := by
    intro name listed needed asked
    obtain ⟨tool, called, rfl⟩ := exists_called_of_name listed
    rw [dependencies_of_called called] at asked
    exact falls tool called needed asked
  rw [plan_eq present]
  exact levelsFrom_isOk along

theorem layered_plan {levels : List (List String)} (planned : plan registry calls = .ok levels) :
    Layered (dependencies (calledTools registry calls)) [] levels ∧
      ∀ name, name ∈ levels.flatten ↔ name ∈ toolNames (calledTools registry calls) := by
  have present := present_of_plan planned
  rw [plan_eq present] at planned
  apply layered_levelsFrom le_rfl _ planned
  intro name listed needed asked
  obtain ⟨tool, called, rfl⟩ := exists_called_of_name listed
  rw [dependencies_of_called called] at asked
  exact Or.inr (present tool called needed asked)

end Resolution

section Placing

variable {calls : List ToolCall}

theorem get?_nameToCall {name : String} {placed : Placed}
    (found : (nameToCall calls).get? name = some placed) :
    calls[placed.index]? = some placed.call ∧ placed.call.name = name := by
  obtain ⟨⟨call, index⟩, listed, same⟩ := List.mem_map.mp (Dict.mem_of_get?_ofList found)
  obtain ⟨rfl, rfl⟩ := Prod.mk.inj same
  exact ⟨by simpa using List.mk_mem_zipIdx_iff_getElem?.mp listed, rfl⟩

theorem exists_get?_nameToCall {name : String} :
    (∃ placed, (nameToCall calls).get? name = some placed) ↔ ∃ call ∈ calls, call.name = name := by
  rw [nameToCall, Dict.exists_get?_ofList]
  constructor
  · intro given
    rcases given with ⟨binding, listed, same⟩
    obtain ⟨⟨call, index⟩, inside, rfl⟩ := List.mem_map.mp listed
    have member := List.mk_mem_zipIdx_iff_getElem?.mp inside
    exact ⟨call, List.mem_of_getElem? member, same⟩
  · intro given
    rcases given with ⟨call, member, same⟩
    obtain ⟨index, listed⟩ := List.mem_iff_getElem?.mp member
    exact ⟨_, List.mem_map.mpr ⟨(call, index), List.mk_mem_zipIdx_iff_getElem?.mpr listed, rfl⟩,
      same⟩

def DistinctCalls (registry : Registry η) (calls : List ToolCall) : Prop :=
  ∀ (i j : Nat) (first second : ToolCall), calls[i]? = some first → calls[j]? = some second →
    first.name = second.name → registry.getTool first.name ≠ none → i = j

theorem distinct_of_nodup {registry : Registry η}
    (nodup : (calls.map ToolCall.name).Nodup) : DistinctCalls registry calls := by
  intro i j first second listed other same _
  have here : (calls.map ToolCall.name)[i]? = some first.name := by simp [listed]
  have there : (calls.map ToolCall.name)[j]? = some first.name := by simp [other, same]
  have inside : i < (calls.map ToolCall.name).length := (List.getElem?_eq_some_iff.mp here).1
  exact (List.getElem?_inj inside nodup).mp (here.trans there.symm)

theorem get?_nameToCall_of_distinct {registry : Registry η} {i : Nat} {call : ToolCall}
    (distinct : DistinctCalls registry calls) (listed : calls[i]? = some call)
    (registered : registry.getTool call.name ≠ none) :
    (nameToCall calls).get? call.name = some ⟨i, call⟩ := by
  obtain ⟨placed, found⟩ :=
    exists_get?_nameToCall.mpr ⟨call, List.mem_of_getElem? listed, rfl⟩
  obtain ⟨other, named⟩ := get?_nameToCall found
  have same : i = placed.index := distinct i placed.index call placed.call listed other named.symm
    registered
  subst same
  obtain rfl : call = placed.call := Option.some.inj (listed.symm.trans other)
  exact found

end Placing

end RagSystem.Tools
