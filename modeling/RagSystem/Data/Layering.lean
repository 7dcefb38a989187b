import Mathlib.Data.Fintype.Card
import Mathlib.Data.List.Chain
import Mathlib.Data.List.Dedup
import Mathlib.Data.Set.Finite.List
import Mathlib.Order.WellFounded

/-! Layers of items that depend on one another: each layer only needs the layers before it. -/

namespace Layering

universe u

variable {α : Type u} [DecidableEq α] (deps : α → List α)

/-- The items that need none of the remaining ones. -/
def sources (remaining : List α) : List α :=
  remaining.filter (fun item => (deps item).all (· ∉ remaining))

/-- Every item of a layer needs items of `past` and of earlier layers only. -/
def Layered : List α → List (List α) → Prop
  | _, [] => True
  | past, layer :: rest =>
      (∀ item ∈ layer, ∀ needed ∈ deps item, needed ∈ past) ∧ Layered (past ++ layer) rest

variable {deps} {remaining past : List α}

theorem mem_sources {item : α} :
    item ∈ sources deps remaining ↔
      item ∈ remaining ∧ ∀ needed ∈ deps item, needed ∉ remaining := by
  simp [sources]

theorem sources_ne_nil {rank : α → Nat} (nonempty : remaining ≠ [])
    (falls : ∀ item ∈ remaining, ∀ needed ∈ deps item, rank needed < rank item) :
    sources deps remaining ≠ [] := by
  obtain ⟨least, member, lowest⟩ := (measure rank).wf.has_min {item | item ∈ remaining}
    (List.exists_mem_of_ne_nil remaining nonempty)
  apply List.ne_nil_of_mem (mem_sources.mpr ⟨member, _⟩)
  intro needed listed present
  exact lowest needed present (falls least member needed listed)

theorem length_without_sources (nonempty : sources deps remaining ≠ []) :
    (remaining.filter (· ∉ sources deps remaining)).length < remaining.length := by
  obtain ⟨item, source⟩ := List.exists_mem_of_ne_nil _ nonempty
  rw [List.length_filter_lt_length_iff_exists]
  exact ⟨item, (mem_sources.mp source).1, by simpa using source⟩

/-- Layers as they are peeled off: each one is all that the items left allow. -/
inductive Peels (deps : α → List α) : List α → List (List α) → Prop
  | nothing : Peels deps [] []
  | layer {remaining : List α} {rest : List (List α)} (some_source : sources deps remaining ≠ [])
      (later : Peels deps (remaining.filter (· ∉ sources deps remaining)) rest) :
      Peels deps remaining (sources deps remaining :: rest)

theorem mem_without_sources {item : α} :
    item ∈ remaining.filter (· ∉ sources deps remaining) ↔
      item ∈ remaining ∧ ∃ needed ∈ deps item, needed ∈ remaining := by
  rw [List.mem_filter]
  apply and_congr_right
  intro present
  rw [decide_eq_true_eq, mem_sources]
  constructor
  · intro blocked
    by_contra free
    exact blocked ⟨present, fun needed asked listed => free ⟨needed, asked, listed⟩⟩
  · intro blocked source
    obtain ⟨needed, asked, listed⟩ := blocked
    exact source.2 needed asked listed

theorem exists_needed_of_left {item : α}
    (left : item ∈ remaining.filter (· ∉ sources deps remaining)) :
    ∃ needed ∈ deps item,
      needed ∈ sources deps remaining ++ remaining.filter (· ∉ sources deps remaining) := by
  obtain ⟨_, needed, asked, inside⟩ := mem_without_sources.mp left
  refine ⟨needed, asked, ?_⟩
  by_cases source : needed ∈ sources deps remaining
  · exact List.mem_append_left _ source
  · exact List.mem_append_right _ (List.mem_filter.mpr ⟨inside, by simpa using source⟩)

section Peeling

variable {layers : List (List α)}

theorem mem_flatten_of_peels (peels : Peels deps remaining layers) {item : α} :
    item ∈ layers.flatten ↔ item ∈ remaining := by
  induction peels with
  | nothing => simp
  | @layer remaining rest _ _ ih =>
      rw [List.flatten_cons, List.mem_append, ih, List.mem_filter]
      by_cases source : item ∈ sources deps remaining
      · simp [source, (mem_sources.mp source).1]
      · simp [source]

theorem nodup_flatten_of_peels (peels : Peels deps remaining layers) (nodup : remaining.Nodup) :
    layers.flatten.Nodup := by
  induction peels with
  | nothing => exact List.nodup_nil
  | layer _ later ih =>
      rw [List.flatten_cons]
      apply List.Nodup.append (nodup.filter _) (ih (nodup.filter _))
      intro item source left
      have outside := (List.mem_filter.mp ((mem_flatten_of_peels later).mp left)).2
      exact of_decide_eq_true outside source

theorem ne_nil_of_peels (peels : Peels deps remaining layers) :
    ∀ layer ∈ layers, layer ≠ [] := by
  induction peels with
  | nothing => simp
  | layer some_source _ ih => exact List.forall_mem_cons.mpr ⟨some_source, ih⟩

theorem layered_of_peels (peels : Peels deps remaining layers)
    (closed : ∀ item ∈ remaining, ∀ needed ∈ deps item, needed ∈ past ∨ needed ∈ remaining) :
    Layered deps past layers := by
  induction peels generalizing past with
  | nothing => trivial
  | @layer remaining _ _ _ ih =>
      constructor
      · intro item source needed asked
        have ready := mem_sources.mp source
        exact (closed item ready.1 needed asked).resolve_right (ready.2 needed asked)
      · apply ih
        intro item listed needed asked
        have left := (List.mem_filter.mp listed).1
        rcases closed item left needed asked with before | present
        · exact Or.inl (List.mem_append_left _ before)
        · by_cases source : needed ∈ sources deps remaining
          · exact Or.inl (List.mem_append_right _ source)
          · exact Or.inr (List.mem_filter.mpr ⟨present, by simpa using source⟩)

end Peeling

section Chains

/-- Every item of a layer needs an item of the layer just before it. -/
def Tight (deps : α → List α) : List α → List (List α) → Prop
  | _, [] => True
  | previous, layer :: rest =>
      (∀ item ∈ layer, ∃ needed ∈ deps item, needed ∈ previous) ∧ Tight deps layer rest

/-- Items one after another, each of which needs the next. -/
def DependencyChain (deps : α → List α) (chain : List α) : Prop :=
  List.IsChain (fun item needed => needed ∈ deps item) chain

variable {layers : List (List α)} {previous : List α}

theorem tight_of_peels (peels : Peels deps remaining layers)
    (blocked : ∀ item ∈ remaining, ∃ needed ∈ deps item, needed ∈ previous ++ remaining) :
    Tight deps previous layers := by
  induction peels generalizing previous with
  | nothing => trivial
  | @layer remaining _ _ _ ih =>
      constructor
      · intro item source
        have ready := mem_sources.mp source
        obtain ⟨needed, asked, listed⟩ := blocked item ready.1
        have before := (List.mem_append.mp listed).resolve_right (ready.2 needed asked)
        exact ⟨needed, asked, before⟩
      · exact ih (fun item left => exists_needed_of_left left)

omit [DecidableEq α] in
theorem earlier_of_layered (layered : Layered deps past layers) {place : Nat} {layer : List α}
    (listed : layers[place]? = some layer) {item needed : α} (member : item ∈ layer)
    (asked : needed ∈ deps item) :
    needed ∈ past ∨ ∃ before < place, ∃ earlier, layers[before]? = some earlier ∧
      needed ∈ earlier := by
  induction layers generalizing past place with
  | nil => simp at listed
  | cons first rest ih =>
      cases place with
      | zero =>
          obtain rfl : first = layer := by simpa using listed
          exact Or.inl (layered.1 item member needed asked)
      | succ place =>
          rcases ih layered.2 (by simpa using listed) with before | deeper
          · rcases List.mem_append.mp before with long_past | in_first
            · exact Or.inl long_past
            · exact Or.inr ⟨0, Nat.succ_pos _, first, rfl, in_first⟩
          · obtain ⟨before, less, earlier, there, held⟩ := deeper
            exact Or.inr ⟨before + 1, Nat.succ_lt_succ less, earlier, by simpa using there, held⟩

omit [DecidableEq α] in
theorem length_le_of_layered (layered : Layered deps [] layers) {place : Nat} {layer chain : List α}
    {item : α} (listed : layers[place]? = some layer) (member : item ∈ layer)
    (linked : DependencyChain deps (item :: chain)) : chain.length ≤ place := by
  induction chain generalizing item place layer with
  | nil => exact Nat.zero_le _
  | cons needed chain ih =>
      have both := List.isChain_cons_cons.mp linked
      rcases earlier_of_layered layered listed member both.1 with inside | inside
      · exact absurd inside (List.not_mem_nil)
      · obtain ⟨before, less, earlier, there, held⟩ := inside
        have shorter := ih there held both.2
        exact Nat.succ_le_of_lt (Nat.lt_of_le_of_lt shorter less)

omit [DecidableEq α] in
theorem exists_chain_of_tight {depth : Nat} (tight : Tight deps previous layers)
    (deep : ∀ item ∈ previous, ∃ chain, chain.length = depth ∧ DependencyChain deps (item :: chain))
    {place : Nat} {layer : List α} (listed : layers[place]? = some layer) {item : α}
    (member : item ∈ layer) :
    ∃ chain, chain.length = depth + 1 + place ∧ DependencyChain deps (item :: chain) := by
  induction layers generalizing previous depth place with
  | nil => simp at listed
  | cons first rest ih =>
      have here : ∀ item ∈ first,
          ∃ chain, chain.length = depth + 1 ∧ DependencyChain deps (item :: chain) := by
        intro item inside
        obtain ⟨needed, asked, before⟩ := tight.1 item inside
        obtain ⟨chain, long, linked⟩ := deep needed before
        exact ⟨needed :: chain, by simp [long], List.isChain_cons_cons.mpr ⟨asked, linked⟩⟩
      cases place with
      | zero =>
          obtain rfl : first = layer := by simpa using listed
          exact here item member
      | succ place =>
          obtain ⟨chain, long, linked⟩ := ih tight.2 here (by simpa using listed)
          exact ⟨chain, by omega, linked⟩

theorem longest_of_peels (peels : Peels deps remaining layers)
    (closed : ∀ item ∈ remaining, ∀ needed ∈ deps item, needed ∈ remaining) {place : Nat}
    {layer : List α} (listed : layers[place]? = some layer) {item : α} (member : item ∈ layer) :
    (∃ chain, chain.length = place ∧ DependencyChain deps (item :: chain)) ∧
      ∀ chain, DependencyChain deps (item :: chain) → chain.length ≤ place := by
  have layered : Layered deps [] layers :=
    layered_of_peels peels (fun item present needed asked =>
      Or.inr (closed item present needed asked))
  constructor
  · cases peels with
    | nothing => simp at listed
    | layer some_source later =>
        cases place with
        | zero => exact ⟨[], rfl, List.isChain_singleton _⟩
        | succ place =>
            have tight := tight_of_peels later (fun item left => exists_needed_of_left left)
            have deep : ∀ item ∈ sources deps remaining,
                ∃ chain, chain.length = 0 ∧ DependencyChain deps (item :: chain) :=
              fun item _ => ⟨[], rfl, List.isChain_singleton _⟩
            obtain ⟨chain, long, linked⟩ :=
              exists_chain_of_tight tight deep (by simpa using listed) member
            exact ⟨chain, by omega, linked⟩
  · exact fun chain linked => length_le_of_layered layered listed member linked

end Chains

section Cycles

/-- The item needs the other one, directly or through others. -/
def Reaches (deps : α → List α) : α → α → Prop :=
  Relation.TransGen (fun item needed => needed ∈ deps item)

theorem exists_cycle_of_no_sources (nonempty : remaining ≠ [])
    (stuck : sources deps remaining = []) : ∃ item, Reaches deps item item := by
  by_contra acyclic
  have finite : Finite {item // item ∈ remaining} := List.finite_toSet remaining
  have irreflexive : Std.Irrefl (fun first second : {item // item ∈ remaining} =>
      Reaches deps second.1 first.1) := ⟨fun item cycle => acyclic ⟨item.1, cycle⟩⟩
  have transitive : IsTrans {item // item ∈ remaining} (fun first second =>
      Reaches deps second.1 first.1) := ⟨fun _ _ _ upper lower => lower.trans upper⟩
  have founded := Finite.wellFounded_of_trans_of_irrefl
    (fun first second : {item // item ∈ remaining} => Reaches deps second.1 first.1)
  obtain ⟨item, present⟩ := List.exists_mem_of_ne_nil remaining nonempty
  obtain ⟨least, -, lowest⟩ := founded.has_min Set.univ ⟨⟨item, present⟩, trivial⟩
  have blocked : ∃ needed ∈ deps least.1, needed ∈ remaining := by
    by_contra free
    have source : least.1 ∈ sources deps remaining :=
      mem_sources.mpr ⟨least.2, fun needed asked listed => free ⟨needed, asked, listed⟩⟩
    rw [stuck] at source
    exact List.not_mem_nil source
  obtain ⟨needed, asked, listed⟩ := blocked
  exact lowest ⟨needed, listed⟩ trivial (Relation.TransGen.single asked)

omit [DecidableEq α] in
theorem acc_of_layered {layers : List (List α)} (layered : Layered deps past layers)
    (founded : ∀ item ∈ past, Acc (fun needed item => needed ∈ deps item) item) {item : α}
    (member : item ∈ layers.flatten) : Acc (fun needed item => needed ∈ deps item) item := by
  induction layers generalizing past with
  | nil => simp at member
  | cons layer rest ih =>
      have here : ∀ item ∈ layer, Acc (fun needed item => needed ∈ deps item) item :=
        fun item inside => Acc.intro item
          (fun needed asked => founded needed (layered.1 item inside needed asked))
      rw [List.flatten_cons, List.mem_append] at member
      rcases member with inside | later
      · exact here item inside
      · apply ih layered.2 _ later
        intro other listed
        rcases List.mem_append.mp listed with before | inside
        · exact founded other before
        · exact here other inside

omit [DecidableEq α] in
theorem not_self_of_acc {relation : α → α → Prop} {item : α} (founded : Acc relation item) :
    ¬ relation item item := by
  induction founded with
  | intro item _ ih => exact fun loop => ih item loop loop

omit [DecidableEq α] in
theorem not_reaches_self_of_layered {layers : List (List α)} (layered : Layered deps [] layers)
    {item : α} (member : item ∈ layers.flatten) : ¬ Reaches deps item item := by
  intro cycle
  have founded := (acc_of_layered layered (fun _ inside => absurd inside List.not_mem_nil)
    member).transGen
  exact not_self_of_acc founded (Relation.transGen_swap.mp cycle)

end Cycles

end Layering
