import RagSystem.Core.Context
import RagSystem.Data.Packing

/-! Chunks packed into a token budget (`TokenBudget` of `proxy/app/domain/value_objects.py`,
`fit_chunks_into_budget` of `proxy/app/core/token_optimizer.py`). -/

namespace RagSystem.Core

structure TokenBudget where
  total : Int
  used : Int := 0
  reserved : Int := 0
  deriving DecidableEq, Repr

namespace TokenBudget

def remaining (budget : TokenBudget) : Int := max 0 (budget.total - budget.used - budget.reserved)

def allocate (budget : TokenBudget) (tokens : Int) : TokenBudget :=
  { budget with used := budget.used + tokens }

def Valid (budget : TokenBudget) : Prop := budget.used + budget.reserved ≤ budget.total

instance (budget : TokenBudget) : Decidable budget.Valid := inferInstanceAs (Decidable (_ ≤ _))

/-- `token_budget_from_dict`: all of the allocation is reserved. -/
def fromDict (allocation : Dict String Int) : TokenBudget :=
  let total := (allocation.entries.map Prod.snd).sum
  { total := total, reserved := total }

theorem fromDict_valid (allocation : Dict String Int) : (fromDict allocation).Valid := by
  simp [Valid, fromDict]

variable {budget : TokenBudget}

theorem remaining_of_valid (valid : budget.Valid) :
    budget.remaining = budget.total - budget.used - budget.reserved := by
  unfold Valid at valid
  rw [remaining, max_eq_right (by omega)]

theorem allocate_valid {tokens : Int} (valid : budget.Valid) (fits : tokens ≤ budget.remaining) :
    (budget.allocate tokens).Valid := by
  rw [remaining_of_valid valid] at fits
  change budget.used + tokens + budget.reserved ≤ budget.total
  omega

theorem remaining_allocate {tokens : Int} (valid : budget.Valid)
    (fits : tokens ≤ budget.remaining) :
    (budget.allocate tokens).remaining = budget.remaining - tokens := by
  rw [remaining_of_valid (allocate_valid valid fits), remaining_of_valid valid]
  change budget.total - (budget.used + tokens) - budget.reserved = _
  omega

end TokenBudget

section Packing

variable (helpers : Helpers)

/-- The loop of `fit_chunks_into_budget`: the selected chunks and the used tokens. -/
def packChunks (estimate : String → Nat) (remaining : Int) :
    (used : Int) → List ChunkDict → List ChunkDict × Int
  | used, [] => ([], used)
  | used, chunk :: rest =>
      let cost := estimate chunk.text
      if remaining < used + cost then ([], used)
      else
        let packed := packChunks estimate remaining (used + cost) rest
        (chunk :: packed.1, packed.2)

def fitChunksIntoBudget (chunks : List ChunkDict) (budget : TokenBudget)
    (estimateCost : Option (String → Nat)) : List ChunkDict × TokenBudget :=
  let estimate := estimateCost.getD (estimateTokenCost helpers)
  let packed := packChunks estimate budget.remaining budget.used chunks
  (packed.1, budget.allocate (packed.2 - budget.used))

def costOf (estimateCost : Option (String → Nat)) (chunk : ChunkDict) : Nat :=
  estimateCost.getD (estimateTokenCost helpers) chunk.text

end Packing

variable {helpers : Helpers} {chunks : List ChunkDict} {budget : TokenBudget}
  {estimateCost : Option (String → Nat)}

theorem packChunks_eq (estimate : String → Nat) (remaining used : Int) (chunks : List ChunkDict) :
    packChunks estimate remaining used chunks =
      (fitting (fun chunk => estimate chunk.text) (remaining - used) chunks,
        used + totalCost (fun chunk => estimate chunk.text)
          (fitting (fun chunk => estimate chunk.text) (remaining - used) chunks)) := by
  induction chunks generalizing used with
  | nil => simp [packChunks, fitting]
  | cons chunk rest ih =>
      rw [packChunks, fitting]
      by_cases exceeds : remaining < used + estimate chunk.text
      · have inner : remaining - used < estimate chunk.text := by omega
        simp [exceeds, inner]
      · have inner : ¬ remaining - used < estimate chunk.text := by omega
        have left : remaining - (used + estimate chunk.text) =
            remaining - used - estimate chunk.text := by omega
        simp only [exceeds, inner, if_false, ih, left, totalCost_cons]
        push_cast
        rw [add_assoc]

theorem fitChunksIntoBudget_eq (chunks : List ChunkDict) (budget : TokenBudget) :
    fitChunksIntoBudget helpers chunks budget estimateCost =
      (fitting (costOf helpers estimateCost) (budget.remaining - budget.used) chunks,
        budget.allocate (totalCost (costOf helpers estimateCost)
          (fitting (costOf helpers estimateCost) (budget.remaining - budget.used) chunks))) := by
  simp only [fitChunksIntoBudget, packChunks_eq, add_sub_cancel_left]
  rfl

/-- The longest beginning within the remaining tokens is selected and paid for, and a second call
goes on where a first one took all. -/
structure PacksGreedily (helpers : Helpers) (estimateCost : Option (String → Nat))
    (chunks : List ChunkDict) (budget : TokenBudget) : Prop where
  selected : LongestWithin (costOf helpers estimateCost)
    (budget.total - budget.used - budget.reserved) chunks
    (fitChunksIntoBudget helpers chunks budget estimateCost).1
  valid : (fitChunksIntoBudget helpers chunks budget estimateCost).2.Valid
  paid : (fitChunksIntoBudget helpers chunks budget estimateCost).2 =
    budget.allocate (totalCost (costOf helpers estimateCost)
      (fitChunksIntoBudget helpers chunks budget estimateCost).1)
  chained : ∀ first second, chunks = first ++ second →
    (fitChunksIntoBudget helpers chunks budget estimateCost).1 =
      if (fitChunksIntoBudget helpers first budget estimateCost).1 = first then
        first ++ (fitChunksIntoBudget helpers second
          (fitChunksIntoBudget helpers first budget estimateCost).2 estimateCost).1
      else (fitChunksIntoBudget helpers first budget estimateCost).1

def affordable (helpers : Helpers) (estimateCost : Option (String → Nat))
    (chunks : List ChunkDict) (budget : TokenBudget) : List ChunkDict :=
  fitting (costOf helpers estimateCost) budget.remaining chunks

/-- Counted once more, the used tokens leave room for the allowed chunks, also when the last of
them comes in a second call; tokens given back in advance leave no room for another one. -/
def RoomTwice (helpers : Helpers) (estimateCost : Option (String → Nat))
    (chunks : List ChunkDict) (budget : TokenBudget) : Prop :=
  let cost := costOf helpers estimateCost
  let allowed := affordable helpers estimateCost chunks budget
  (allowed = [] ∨
      budget.used + totalCost cost allowed + totalCost cost allowed.dropLast ≤ budget.remaining) ∧
    ∀ next rest, chunks = allowed ++ next :: rest →
      budget.remaining < budget.used + totalCost cost allowed + cost next

theorem affordable_within (helpers : Helpers) (estimateCost : Option (String → Nat))
    (chunks : List ChunkDict) (budget : TokenBudget) :
    (totalCost (costOf helpers estimateCost)
      (affordable helpers estimateCost chunks budget) : Int) ≤ budget.remaining :=
  totalCost_fitting_le (le_max_left 0 _) chunks

theorem selected_iff (valid : budget.Valid) :
    LongestWithin (costOf helpers estimateCost) (budget.total - budget.used - budget.reserved)
        chunks (fitChunksIntoBudget helpers chunks budget estimateCost).1 ↔
      fitting (costOf helpers estimateCost) (budget.remaining - budget.used) chunks =
        affordable helpers estimateCost chunks budget := by
  have room : 0 ≤ budget.remaining := le_max_left 0 _
  rw [← TokenBudget.remaining_of_valid valid, longestWithin_iff room, fitChunksIntoBudget_eq,
    affordable]

theorem second_call (valid : budget.Valid) {first : List ChunkDict}
    (all : fitting (costOf helpers estimateCost) (budget.remaining - budget.used) first = first)
    (within : (totalCost (costOf helpers estimateCost) first : Int) ≤ budget.remaining)
    (second : List ChunkDict) :
    (fitChunksIntoBudget helpers second (fitChunksIntoBudget helpers first budget estimateCost).2
        estimateCost).1 =
      fitting (costOf helpers estimateCost) (budget.remaining - budget.used -
        2 * totalCost (costOf helpers estimateCost) first) second := by
  have used (tokens : Int) : (budget.allocate tokens).used = budget.used + tokens := rfl
  have left : budget.remaining - totalCost (costOf helpers estimateCost) first -
      (budget.used + totalCost (costOf helpers estimateCost) first) =
        budget.remaining - budget.used - 2 * totalCost (costOf helpers estimateCost) first := by
    omega
  rw [fitChunksIntoBudget_eq, fitChunksIntoBudget_eq, all,
    TokenBudget.remaining_allocate valid within, used, left]

theorem first_call (chunks : List ChunkDict) (budget : TokenBudget) :
    (fitChunksIntoBudget helpers chunks budget estimateCost).1 =
      fitting (costOf helpers estimateCost) (budget.remaining - budget.used) chunks := by
  rw [fitChunksIntoBudget_eq]

theorem roomTwice_of_packs (valid : budget.Valid)
    (packs : PacksGreedily helpers estimateCost chunks budget) :
    RoomTwice helpers estimateCost chunks budget := by
  have same := (selected_iff valid).mp packs.selected
  obtain ⟨⟨later, whole⟩, -, stops⟩ := fitting_eq_iff.mp same
  constructor
  · rcases List.eq_nil_or_concat (affordable helpers estimateCost chunks budget) with none | more
    · exact Or.inl none
    · obtain ⟨front, last, split⟩ := more
      rw [List.concat_eq_append] at split
      -- The last allowed chunk comes in the second call.
      have chained := packs.chained front (last :: later) (by rw [← whole, split]; simp)
      have within := affordable_within helpers estimateCost chunks budget
      have all : fitting (costOf helpers estimateCost) (budget.remaining - budget.used) front =
          front := by
        have within : front <+:
            fitting (costOf helpers estimateCost) (budget.remaining - budget.used) chunks := by
          rw [same, split]
          exact List.prefix_append front [last]
        exact fitting_self_of_prefix within
      rw [split, totalCost_append] at within
      rw [first_call chunks, same, split, first_call front, if_pos all,
        second_call valid all (by push_cast at within; omega)] at chained
      have single := List.append_cancel_left chained
      have bound := (fitting_eq_iff.mp single.symm).2.1.resolve_left (by simp)
      right
      rw [split, List.dropLast_concat, totalCost_append]
      push_cast
      omega
  · intro next rest split
    have above := stops next rest split
    omega

theorem second_fitting {room used : Int} {cost : ChunkDict → Nat}
    {allowed first second : List ChunkDict}
    (joined : allowed = first ++ fitting cost (room - used - totalCost cost first) second)
    (twice : allowed = [] ∨ used + totalCost cost allowed + totalCost cost allowed.dropLast ≤ room)
    (stops : ∀ next rest, second =
      fitting cost (room - used - totalCost cost first) second ++ next :: rest →
        room < used + totalCost cost allowed + cost next) :
    fitting cost (room - used - 2 * totalCost cost first) second =
      fitting cost (room - used - totalCost cost first) second := by
  have whole : totalCost cost allowed = totalCost cost first +
      totalCost cost (fitting cost (room - used - totalCost cost first) second) := by
    rw [← totalCost_append, ← joined]
  refine fitting_eq_iff.mpr ⟨prefix_fitting _ _ _, ?_, ?_⟩
  · by_cases none : fitting cost (room - used - totalCost cost first) second = []
    · exact Or.inl none
    · right
      have some : allowed ≠ [] := by simp [joined, none]
      have bound := twice.resolve_left some
      have front : totalCost cost first ≤ totalCost cost allowed.dropLast := by
        apply totalCost_le_of_prefix
        rw [joined, List.dropLast_append_of_ne_nil none]
        exact List.prefix_append first _
      omega
  · intro next rest after
    have above := stops next rest after
    omega

theorem packs_of_roomTwice (valid : budget.Valid)
    (room : RoomTwice helpers estimateCost chunks budget) :
    PacksGreedily helpers estimateCost chunks budget := by
  obtain ⟨twice, stops⟩ := room
  have allowed := affordable_within helpers estimateCost chunks budget
  have begins : affordable helpers estimateCost chunks budget <+: chunks := prefix_fitting _ _ _
  have same : fitting (costOf helpers estimateCost) (budget.remaining - budget.used) chunks =
      affordable helpers estimateCost chunks budget := by
    refine fitting_eq_iff.mpr ⟨begins, twice.imp_right fun room => ?_, fun next rest split => ?_⟩
    · omega
    · have above := stops next rest split
      omega
  refine ⟨(selected_iff valid).mpr same, ?_, ?_, ?_⟩
  · rw [fitChunksIntoBudget_eq, same]
    exact TokenBudget.allocate_valid valid allowed
  · rw [fitChunksIntoBudget_eq]
  · intro first second split
    obtain ⟨goesOn, stopsWithin⟩ := fitting_append (costOf helpers estimateCost)
      (budget.remaining - budget.used) first second
    rw [← split, same] at goesOn stopsWithin
    rw [first_call chunks, same, first_call first]
    by_cases all : fitting (costOf helpers estimateCost) (budget.remaining - budget.used) first =
        first
    · have joined := goesOn all
      have within : (totalCost (costOf helpers estimateCost) first : Int) ≤ budget.remaining := by
        rw [joined, totalCost_append] at allowed
        push_cast at allowed
        omega
      -- The second call selects what one call selects behind the first list.
      have behind := second_fitting joined twice (by
        intro next rest after
        apply stops next rest
        calc chunks = first ++ second := split
          _ = _ := congrArg (first ++ ·) after
          _ = _ := (List.append_assoc _ _ _).symm
          _ = _ := by rw [joined])
      rw [if_pos all, second_call valid all within, joined, behind]
    · rw [if_neg all]
      exact stopsWithin all

/-- The longest affordable beginning is selected, in one call or in two, if and only if there is
room for it when the used tokens are counted once more. -/
theorem fitChunksIntoBudget_packs_iff (helpers : Helpers) (chunks : List ChunkDict)
    (budget : TokenBudget) (estimateCost : Option (String → Nat)) (valid : budget.Valid) :
    PacksGreedily helpers estimateCost chunks budget ↔
      RoomTwice helpers estimateCost chunks budget :=
  ⟨roomTwice_of_packs valid, packs_of_roomTwice valid⟩

def sixOfTen : TokenBudget := { total := 10, used := 6 }

def threeTokens : List ChunkDict := [⟨{ text := some "abc" }, none⟩]

theorem fitChunksIntoBudget_packs_at :
    PacksGreedily Helpers.plain (some String.length) threeTokens sixOfTen ↔
      RoomTwice Helpers.plain (some String.length) threeTokens sixOfTen :=
  fitChunksIntoBudget_packs_iff Helpers.plain threeTokens sixOfTen (some String.length) (by decide)

/-- Four tokens remain, yet the chunk is left out. -/
theorem sixOfTen_leaves_out :
    sixOfTen.remaining = 4 ∧
      (fitChunksIntoBudget Helpers.plain threeTokens sixOfTen (some String.length)).1 = [] ∧
      ¬ PacksGreedily Helpers.plain (some String.length) threeTokens sixOfTen := by
  have none : (fitChunksIntoBudget Helpers.plain threeTokens sixOfTen (some String.length)).1 =
      [] := by
    decide +kernel
  refine ⟨rfl, none, fun packs => ?_⟩
  have longest := packs.selected.longest threeTokens List.prefix_rfl (by decide +kernel)
  rw [none] at longest
  simp [threeTokens] at longest

end RagSystem.Core
