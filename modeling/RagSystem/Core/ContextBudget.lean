import RagSystem.Core.Context

/-! The token budget of `build_context`, with and without metadata headers. -/

namespace RagSystem.Core

variable (helpers : Helpers) (config : Config)

def headerWith (includeMetadata : Bool) (ranked : Ranked) : String :=
  if includeMetadata then headerOf helpers ranked else ""

def partOf (includeMetadata : Bool) (ranked : Ranked) : String :=
  headerWith helpers includeMetadata ranked ++ stripText ranked.1.text ++ "\n\n"

/-- The loop of `build_context`: the parts with their chunks, and the tokens it counted. -/
def contextParts (includeMetadata : Bool) (maxTokens : Nat) :
    (total : Nat) → List Ranked → List (Ranked × String) × Nat
  | total, [] => ([], total)
  | total, ranked :: rest =>
      let text := stripText ranked.1.text
      let part := partOf helpers includeMetadata ranked
      let remaining := maxTokens - total
      if text = "" then contextParts includeMetadata maxTokens total rest
      else if maxTokens < total + estimateTokens part then
        if 50 < remaining then
          ([(ranked, headerWith helpers includeMetadata ranked ++ clip (remaining * 4) text ++
            "...\n\n")], total)
        else ([], total)
      else
        let later := contextParts includeMetadata maxTokens (total + estimateTokens part) rest
        ((ranked, part) :: later.1, later.2)

def usedOrder (sortByScore : Bool) (chunks : List Ranked) : List Ranked :=
  let reordered := if config.reorderEnabled then reorderChunks chunks else chunks
  if sortByScore then sortDescending Prod.snd reordered else reordered

/-- `build_context`. -/
def buildContextWith (includeMetadata sortByScore : Bool) (chunks : List Ranked)
    (maxTokens : Nat) : String :=
  let ordered := usedOrder config sortByScore chunks
  let (parts, total) := contextParts helpers includeMetadata maxTokens 0 ordered
  let finalContext := String.join (parts.map Prod.snd)
  if config.tokenOptimizerEnabled ∧ maxTokens < total then
    let compressed := (compressContext helpers (ordered.map Prod.fst) maxTokens).text
    if compressed = "" then finalContext else compressed
  else finalContext

variable {helpers config} {includeMetadata sortByScore : Bool} {maxTokens total budget : Nat}
  {chunks ordered : List Ranked} {parts : List String}

theorem assemble_eq (helpers : Helpers) (maxTokens total : Nat) (chunks : List Ranked) :
    (assemble helpers maxTokens total chunks).1.text =
        String.join ((contextParts helpers true maxTokens total chunks).1.map Prod.snd) ∧
      (assemble helpers maxTokens total chunks).2 =
        (contextParts helpers true maxTokens total chunks).2 := by
  induction chunks generalizing total with
  | nil => exact ⟨rfl, rfl⟩
  | cons ranked rest ih =>
      have header : headerWith helpers true ranked = headerOf helpers ranked := rfl
      simp only [assemble, contextParts, partOf, header]
      split
      · exact ih total
      split
      · split
        · exact ⟨by simp, rfl⟩
        · exact ⟨rfl, rfl⟩
      · obtain ⟨text, counted⟩ := ih
          (total + estimateTokens (headerOf helpers ranked ++ stripText ranked.1.text ++ "\n\n"))
        refine ⟨?_, counted⟩
        simp only [List.map_cons, String.join_cons, text]

theorem buildContextWith_default :
    buildContextWith helpers config true true chunks maxTokens =
      (buildContext helpers config chunks maxTokens).text := by
  have order : usedOrder config true chunks = orderChunks config chunks := by
    simp only [usedOrder, orderChunks, if_true]
  simp only [buildContextWith, buildContext, order]
  generalize orderChunks config chunks = ordered
  obtain ⟨text, counted⟩ := assemble_eq helpers maxTokens 0 ordered
  rw [counted]
  split
  · split
    · exact text.symm
    · rfl
  · exact text.symm

def fittingParts : (budget : Nat) → List String → List String
  | _, [] => []
  | budget, part :: rest =>
      if estimateTokens part ≤ budget then
        part :: fittingParts (budget - estimateTokens part) rest
      else []

def wholeParts (helpers : Helpers) (includeMetadata : Bool) (ordered : List Ranked) :
    List String :=
  (ordered.filter (fun ranked => stripText ranked.1.text ≠ "")).map
    (partOf helpers includeMetadata)

def tokensLeft (budget : Nat) (parts : List String) : Nat :=
  budget - ((fittingParts budget parts).map estimateTokens).sum

/-- The loop shortens no part: all fit, or too few tokens are left for a shortened one. -/
def Unshortened (budget : Nat) (parts : List String) : Prop :=
  fittingParts budget parts = parts ∨ tokensLeft budget parts ≤ 50

/-- No part is shortened, and what the estimates round off is no more than the tokens left make
up for. -/
structure WithinEstimates (budget : Nat) (parts : List String) : Prop where
  whole : Unshortened budget parts
  exact : ((fittingParts budget parts).map (fun part => part.length % 4)).sum ≤
    4 * tokensLeft budget parts + 3

theorem length_eq_estimate (part : String) :
    part.length = 4 * estimateTokens part + part.length % 4 := by
  unfold estimateTokens
  omega

theorem sum_lengths (parts : List String) :
    (parts.map String.length).sum =
      4 * (parts.map estimateTokens).sum + (parts.map (fun part => part.length % 4)).sum := by
  induction parts with
  | nil => rfl
  | cons part rest ih =>
      have length := length_eq_estimate part
      simp only [List.map_cons, List.sum_cons]
      omega

theorem sum_fittingParts_le (budget : Nat) (parts : List String) :
    ((fittingParts budget parts).map estimateTokens).sum ≤ budget := by
  induction parts generalizing budget with
  | nil => simp [fittingParts]
  | cons part rest ih =>
      simp only [fittingParts]
      split
      · have later := ih (budget - estimateTokens part)
        simp only [List.map_cons, List.sum_cons]
        omega
      · simp

theorem fittingParts_append {first rest : List String}
    (fits : (first.map estimateTokens).sum ≤ budget) :
    fittingParts budget (first ++ rest) =
      first ++ fittingParts (budget - (first.map estimateTokens).sum) rest := by
  induction first generalizing budget with
  | nil => rfl
  | cons part first ih =>
      simp only [List.map_cons, List.sum_cons] at fits ⊢
      have head : estimateTokens part ≤ budget := by omega
      simp only [List.cons_append, fittingParts, if_pos head]
      rw [ih (by omega), Nat.sub_sub]

theorem length_clip (length : Nat) (text : String) :
    (clip length text).length = min length text.length := by
  simp [clip, String.length_toList]

theorem length_shortened (header text : String) (remaining : Nat)
    (exceeds : remaining < estimateTokens (header ++ text ++ "\n\n")) :
    4 * (remaining + 1) ≤ (header ++ clip (remaining * 4) text ++ "...\n\n").length := by
  have separator : "\n\n".length = 2 := by decide
  have ellipsis : "...\n\n".length = 5 := by decide
  simp only [estimateTokens, String.length_append, separator] at exceeds
  simp only [String.length_append, length_clip, ellipsis]
  omega

theorem fittingParts_cons {part : String} (rest : List String)
    (fits : estimateTokens part ≤ budget) :
    fittingParts budget (part :: rest) = part :: fittingParts (budget - estimateTokens part) rest ∧
      tokensLeft budget (part :: rest) = tokensLeft (budget - estimateTokens part) rest := by
  have shape : fittingParts budget (part :: rest) =
      part :: fittingParts (budget - estimateTokens part) rest := by
    simp only [fittingParts, if_pos fits]
  refine ⟨shape, ?_⟩
  simp only [tokensLeft, shape, List.map_cons, List.sum_cons, Nat.sub_sub]

theorem fittingParts_stop {part : String} (rest : List String)
    (exceeds : budget < estimateTokens part) :
    fittingParts budget (part :: rest) = [] ∧ tokensLeft budget (part :: rest) = budget := by
  have shape : fittingParts budget (part :: rest) = [] := by
    simp only [fittingParts, if_neg exceeds.not_ge]
  refine ⟨shape, ?_⟩
  simp only [tokensLeft, shape, List.map_nil, List.sum_nil, Nat.sub_zero]

theorem wholeParts_blank {includeMetadata : Bool} {ranked : Ranked} {rest : List Ranked}
    (blank : stripText ranked.1.text = "") :
    wholeParts helpers includeMetadata (ranked :: rest) =
      wholeParts helpers includeMetadata rest := by
  simp [wholeParts, blank]

theorem wholeParts_text {includeMetadata : Bool} {ranked : Ranked} {rest : List Ranked}
    (text : stripText ranked.1.text ≠ "") :
    wholeParts helpers includeMetadata (ranked :: rest) =
      partOf helpers includeMetadata ranked :: wholeParts helpers includeMetadata rest := by
  simp [wholeParts, text]

theorem contextParts_spec (helpers : Helpers) (includeMetadata : Bool) (ordered : List Ranked)
    (room : total ≤ maxTokens) :
    (contextParts helpers includeMetadata maxTokens total ordered).2 ≤ maxTokens ∧
    ∃ shortened : List String,
      (contextParts helpers includeMetadata maxTokens total ordered).1.map Prod.snd =
        fittingParts (maxTokens - total) (wholeParts helpers includeMetadata ordered) ++
          shortened ∧
      (Unshortened (maxTokens - total) (wholeParts helpers includeMetadata ordered) →
        shortened = []) ∧
      (¬ Unshortened (maxTokens - total) (wholeParts helpers includeMetadata ordered) →
        4 * (tokensLeft (maxTokens - total) (wholeParts helpers includeMetadata ordered) + 1) ≤
          (shortened.map String.length).sum) := by
  induction ordered generalizing total with
  | nil => exact ⟨room, [], rfl, fun _ => rfl, fun some => absurd (Or.inl rfl) some⟩
  | cons ranked rest ih =>
      simp only [contextParts]
      by_cases blank : stripText ranked.1.text = ""
      · rw [if_pos blank, wholeParts_blank blank]
        exact ih room
      rw [if_neg blank, wholeParts_text blank]
      by_cases exceeds : maxTokens < total + estimateTokens (partOf helpers includeMetadata ranked)
      · obtain ⟨none, left⟩ := fittingParts_stop (wholeParts helpers includeMetadata rest)
          (by omega : maxTokens - total < estimateTokens (partOf helpers includeMetadata ranked))
        rw [if_pos exceeds, Unshortened, none, left]
        split
        · next many =>
            refine ⟨room, _, rfl, ?_, ?_⟩
            · intro either
              rcases either with empty | few
              · cases empty
              · omega
            · intro _
              have tooLong : maxTokens - total <
                  estimateTokens (partOf helpers includeMetadata ranked) := by omega
              have long := length_shortened (headerWith helpers includeMetadata ranked)
                (stripText ranked.1.text) (maxTokens - total) tooLong
              simpa using long
        · next few =>
            refine ⟨room, [], rfl, fun _ => rfl, ?_⟩
            intro shortened
            exact absurd (Or.inr (not_lt.mp few)) shortened
      · obtain ⟨more, left⟩ := fittingParts_cons (wholeParts helpers includeMetadata rest)
          (by omega : estimateTokens (partOf helpers includeMetadata ranked) ≤ maxTokens - total)
        rw [if_neg exceeds, Unshortened, more, left]
        obtain ⟨counted, shortened, later, whole, cut⟩ := ih (not_lt.mp exceeds)
        rw [← Nat.sub_sub] at later whole cut
        refine ⟨counted, shortened, ?_, ?_, ?_⟩
        · simp only [List.map_cons, later, List.cons_append]
        · simpa [Unshortened] using whole
        · simpa [Unshortened] using cut

theorem buildContextWith_eq (helpers : Helpers) (config : Config)
    (includeMetadata sortByScore : Bool) (chunks : List Ranked) (maxTokens : Nat) :
    buildContextWith helpers config includeMetadata sortByScore chunks maxTokens =
      String.join ((contextParts helpers includeMetadata maxTokens 0
        (usedOrder config sortByScore chunks)).1.map Prod.snd) := by
  have counted := (contextParts_spec helpers includeMetadata (usedOrder config sortByScore chunks)
    (Nat.zero_le maxTokens)).1
  simp only [buildContextWith]
  rw [if_neg]
  intro exceeded
  omega

/-- The estimate of the context does not exceed the limit, and every chunk before the first one
that does not fit is in it with its whole text. -/
structure BudgetKept (helpers : Helpers) (config : Config) (includeMetadata sortByScore : Bool)
    (chunks : List Ranked) (maxTokens : Nat) : Prop where
  estimate : estimateTokens (buildContextWith helpers config includeMetadata sortByScore chunks
    maxTokens) ≤ maxTokens
  complete : ∀ before after, usedOrder config sortByScore chunks = before ++ after →
    ((wholeParts helpers includeMetadata before).map estimateTokens).sum ≤ maxTokens →
    ∀ ranked ∈ before, (stripText ranked.1.text).toList <:+:
      (buildContextWith helpers config includeMetadata sortByScore chunks maxTokens).toList

theorem complete_of_fits {before after : List Ranked} {ranked : Ranked}
    (order : usedOrder config sortByScore chunks = before ++ after)
    (fits : ((wholeParts helpers includeMetadata before).map estimateTokens).sum ≤ maxTokens)
    (member : ranked ∈ before) :
    (stripText ranked.1.text).toList <:+:
      (buildContextWith helpers config includeMetadata sortByScore chunks maxTokens).toList := by
  by_cases blank : stripText ranked.1.text = ""
  · rw [blank]
    exact List.nil_infix
  obtain ⟨-, shortened, strings, -⟩ := contextParts_spec helpers includeMetadata
    (usedOrder config sortByScore chunks) (Nat.zero_le maxTokens)
  have split : wholeParts helpers includeMetadata (before ++ after) =
      wholeParts helpers includeMetadata before ++ wholeParts helpers includeMetadata after := by
    simp [wholeParts]
  have inside : partOf helpers includeMetadata ranked ∈
      wholeParts helpers includeMetadata before := by
    apply List.mem_map_of_mem
    simpa [blank] using member
  have joined : partOf helpers includeMetadata ranked ∈
      fittingParts maxTokens (wholeParts helpers includeMetadata (before ++ after)) ++
        shortened := by
    rw [split, fittingParts_append fits]
    exact List.mem_append_left _ (List.mem_append_left _ inside)
  have part : (stripText ranked.1.text).toList <:+:
      (partOf helpers includeMetadata ranked).toList := by
    rw [partOf, String.toList_append, String.toList_append]
    exact List.infix_append _ _ _
  rw [buildContextWith_eq, strings, order, Nat.sub_zero, String.toList_join, List.flatMap_def]
  exact part.trans (List.infix_of_mem_flatten (List.mem_map_of_mem joined))

theorem length_buildContextWith (helpers : Helpers) (config : Config)
    (includeMetadata sortByScore : Bool) (chunks : List Ranked) (maxTokens : Nat)
    (parts : List String)
    (given : wholeParts helpers includeMetadata (usedOrder config sortByScore chunks) = parts) :
    ∃ added,
      (buildContextWith helpers config includeMetadata sortByScore chunks maxTokens).length =
        4 * ((fittingParts maxTokens parts).map estimateTokens).sum +
          ((fittingParts maxTokens parts).map (fun part => part.length % 4)).sum + added ∧
      (Unshortened maxTokens parts → added = 0) ∧
      (¬ Unshortened maxTokens parts → 4 * (tokensLeft maxTokens parts + 1) ≤ added) := by
  obtain ⟨-, shortened, strings, whole, cut⟩ := contextParts_spec helpers includeMetadata
    (usedOrder config sortByScore chunks) (Nat.zero_le maxTokens)
  rw [Nat.sub_zero, given] at strings whole cut
  refine ⟨(shortened.map String.length).sum, ?_, ?_, cut⟩
  · rw [buildContextWith_eq, strings, String.length_join, List.map_append, List.sum_append,
      sum_lengths]
  · intro unshortened
    rw [whole unshortened]
    rfl

theorem estimate_buildContextWith_iff (helpers : Helpers) (config : Config)
    (includeMetadata sortByScore : Bool) (chunks : List Ranked) (maxTokens : Nat) :
    estimateTokens (buildContextWith helpers config includeMetadata sortByScore chunks maxTokens) ≤
        maxTokens ↔
      WithinEstimates maxTokens
        (wholeParts helpers includeMetadata (usedOrder config sortByScore chunks)) := by
  generalize given : wholeParts helpers includeMetadata (usedOrder config sortByScore chunks) =
    parts
  obtain ⟨added, length, whole, cut⟩ := length_buildContextWith helpers config includeMetadata
    sortByScore chunks maxTokens parts given
  have fitting := sum_fittingParts_le maxTokens parts
  rw [estimateTokens, length]
  constructor
  · intro estimate
    by_cases unshortened : Unshortened maxTokens parts
    · have none := whole unshortened
      refine ⟨unshortened, ?_⟩
      unfold tokensLeft
      omega
    · have long := cut unshortened
      unfold tokensLeft at long
      omega
  · intro within
    have none := whole within.whole
    have exact := within.exact
    unfold tokensLeft at exact
    omega

theorem budgetKept_iff (helpers : Helpers) (config : Config) (includeMetadata sortByScore : Bool)
    (chunks : List Ranked) (maxTokens : Nat) :
    BudgetKept helpers config includeMetadata sortByScore chunks maxTokens ↔
      WithinEstimates maxTokens
        (wholeParts helpers includeMetadata (usedOrder config sortByScore chunks)) := by
  constructor
  · intro kept
    exact (estimate_buildContextWith_iff _ _ _ _ _ _).mp kept.estimate
  · intro within
    constructor
    · exact (estimate_buildContextWith_iff _ _ _ _ _ _).mpr within
    · intro before after order fits ranked member
      exact complete_of_fits order fits member

def shortChunks : List Ranked :=
  [(⟨{ text := some "a" }, none⟩, 9 / 10), (⟨{ text := some "b" }, none⟩, 8 / 10)]

def shortHelpers : Helpers :=
  { Helpers.plain with fixed := fun _ score => if score = 9 / 10 then "0.900" else "0.800" }

theorem budgetKept_fails :
    estimateTokens (buildContextWith shortHelpers {} true true shortChunks 18) = 19 ∧
      ¬ BudgetKept shortHelpers {} true true shortChunks 18 := by
  have estimate :
      estimateTokens (buildContextWith shortHelpers {} true true shortChunks 18) = 19 := by
    decide +kernel
  refine ⟨estimate, ?_⟩
  intro kept
  have limit := kept.estimate
  rw [estimate] at limit
  omega

end RagSystem.Core
