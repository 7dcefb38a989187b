import Mathlib.Tactic.Linarith
import Mathlib.Tactic.NormNum
import RagSystem.Core.Rerank
import RagSystem.Data.FirstMax

/-! The adaptive cut at every sensitivity. -/

namespace RagSystem

theorem le_roundHalfEven (number : ℚ) : number.floor ≤ roundHalfEven number := by
  simp only [roundHalfEven]
  split_ifs <;> omega

theorem roundHalfEven_le (number : ℚ) : roundHalfEven number ≤ number.floor + 1 := by
  simp only [roundHalfEven]
  split_ifs <;> omega

theorem roundHalfEven_mono {first second : ℚ} (below : first ≤ second) :
    roundHalfEven first ≤ roundHalfEven second := by
  have floors : first.floor ≤ second.floor := Rat.floor_monotone below
  rcases floors.lt_or_eq with apart | same
  · have low := roundHalfEven_le first
    have high := le_roundHalfEven second
    omega
  · simp only [roundHalfEven, same]
    split_ifs <;> grind

theorem roundHalfEven_intCast (number : Int) : roundHalfEven number = number := by
  simp [roundHalfEven, Rat.floor_intCast]

namespace Core

variable (config : Config)

/-- `adaptive_top_k`. -/
def adaptiveTopKWith (sensitivity : ℚ) (sortedScores : List ℚ) (requested : Nat) : Nat :=
  let floor := max 1 config.adaptiveTopKMin
  let count := min sortedScores.length requested
  let scores := sortedScores.take count
  let span := scores.headD 0 - scores.getLastD 0
  if requested = 0 then 0
  else if count ≤ floor then count
  else if span ≤ 1 / 10 ^ 9 then requested
  else
    match bestAbove (5 / 100 * span) (aboveChord scores) with
    | none => requested
    | some best =>
        let knee := best + 1
        let relaxed := knee + (roundHalfEven
          (((requested : ℚ) - knee) * (1 - min (max sensitivity 0) 1))).toNat
        max floor (min requested relaxed)

theorem adaptiveTopK_eq : adaptiveTopK config = adaptiveTopKWith config (1 / 2) := by
  have factor : (1 : ℚ) - min (max (1 / 2) 0) 1 = 1 / 2 := by norm_num
  funext scores requested
  unfold adaptiveTopKWith
  rw [factor]
  rfl

def kneeOf (scores : List ℚ) : Option Nat :=
  let span := scores.headD 0 - scores.getLastD 0
  if span ≤ 1 / 10 ^ 9 then none else bestAbove (5 / 100 * span) (aboveChord scores)

def relaxedCut (sensitivity : ℚ) (requested best : Nat) : Nat :=
  best + 1 + (roundHalfEven
    (((requested : ℚ) - (best + 1 : Nat)) * (1 - min (max sensitivity 0) 1))).toNat

variable {config} {sensitivity : ℚ} {scores : List ℚ} {requested best index : Nat} {top : ℚ}

theorem adaptiveTopKWith_few (few : min scores.length requested ≤ max 1 config.adaptiveTopKMin) :
    adaptiveTopKWith config sensitivity scores requested = min scores.length requested := by
  by_cases asked : requested = 0
  · simp [adaptiveTopKWith, asked]
  · simp only [adaptiveTopKWith, if_neg asked, if_pos few]

theorem adaptiveTopKWith_smooth (many : max 1 config.adaptiveTopKMin < min scores.length requested)
    (smooth : kneeOf (scores.take (min scores.length requested)) = none) :
    adaptiveTopKWith config sensitivity scores requested = requested := by
  have asked : requested ≠ 0 := by omega
  simp only [adaptiveTopKWith, if_neg asked, if_neg many.not_ge]
  simp only [kneeOf] at smooth
  split
  · rfl
  · next steep =>
      rw [if_neg steep] at smooth
      simp only [smooth]

theorem adaptiveTopKWith_knee (many : max 1 config.adaptiveTopKMin < min scores.length requested)
    (knee : kneeOf (scores.take (min scores.length requested)) = some best) :
    adaptiveTopKWith config sensitivity scores requested =
      max (max 1 config.adaptiveTopKMin)
        (min requested (relaxedCut sensitivity requested best)) := by
  have asked : requested ≠ 0 := by omega
  simp only [adaptiveTopKWith, if_neg asked, if_neg many.not_ge]
  simp only [kneeOf] at knee
  split
  · next flat =>
      rw [if_pos flat] at knee
      cases knee
  · next steep =>
      rw [if_neg steep] at knee
      simp only [knee, relaxedCut]

theorem lt_relaxedCut (sensitivity : ℚ) (requested best : Nat) :
    best < relaxedCut sensitivity requested best := by
  unfold relaxedCut
  omega

theorem relaxedCut_zero (inside : best < requested) :
    relaxedCut 0 requested best = requested := by
  have whole : ((requested : ℚ) - (best + 1 : Nat)) * (1 - min (max 0 0) 1) =
      ((requested - (best + 1 : Nat) : Int) : ℚ) := by
    push_cast
    norm_num
  rw [relaxedCut, whole, roundHalfEven_intCast]
  omega

theorem relaxedCut_antitone (inside : best < requested) :
    Antitone (fun sensitivity => relaxedCut sensitivity requested best) := by
  intro first second below
  have room : (0 : ℚ) ≤ (requested : ℚ) - (best + 1 : Nat) := by
    have cast : ((best + 1 : Nat) : ℚ) ≤ requested := Nat.cast_le.mpr inside
    linarith
  have factor : 1 - min (max second 0) 1 ≤ 1 - min (max first 0) 1 := by
    have clamped : min (max first 0) 1 ≤ min (max second 0) 1 :=
      min_le_min_right 1 (max_le_max_right 0 below)
    linarith
  have rounded := roundHalfEven_mono (mul_le_mul_of_nonneg_left factor room)
  simp only [relaxedCut]
  omega

theorem bestAbove_eq_some {bound : ℚ} {numbers : List ℚ} :
    bestAbove bound numbers = some index ↔ ∃ top, FirstMax numbers index top ∧ bound < top := by
  have scanned : bestAbove bound numbers = (scanMax some 0 (bound, none) numbers).2 := rfl
  rw [scanned]
  rcases scanMax_spec some 0 (bound, none) numbers with kept | replaced
  · rw [kept.2]
    constructor
    · intro none
      cases none
    · intro given
      rcases given with ⟨top, first, above⟩
      exact absurd above (kept.1 top (List.mem_of_getElem? first.found)).not_gt
  · obtain ⟨place, greatest, first, above, result⟩ := replaced
    rw [result]
    constructor
    · intro same
      have equal : place = index := by simpa using same
      exact ⟨greatest, equal ▸ first, above⟩
    · intro given
      rcases given with ⟨top, other, _⟩
      rw [first.unique other, Nat.zero_add]

theorem length_aboveChord (scores : List ℚ) : (aboveChord scores).length = scores.length := by
  simp [aboveChord]

theorem kneeOf_lt (knee : kneeOf scores = some best) : best < scores.length := by
  simp only [kneeOf] at knee
  split at knee
  · cases knee
  · obtain ⟨top, first, _⟩ := bestAbove_eq_some.mp knee
    rw [← length_aboveChord]
    exact first.lt_length

theorem adaptiveTopKWith_cases (config : Config) (scores : List ℚ) (requested : Nat) :
    (min scores.length requested ≤ max 1 config.adaptiveTopKMin ∧ ∀ sensitivity,
        adaptiveTopKWith config sensitivity scores requested = min scores.length requested) ∨
      (kneeOf (scores.take (min scores.length requested)) = none ∧ ∀ sensitivity,
        adaptiveTopKWith config sensitivity scores requested = requested) ∨
      ∃ best, max 1 config.adaptiveTopKMin < requested ∧ best < requested ∧
        kneeOf (scores.take (min scores.length requested)) = some best ∧ ∀ sensitivity,
        adaptiveTopKWith config sensitivity scores requested =
          max (max 1 config.adaptiveTopKMin)
            (min requested (relaxedCut sensitivity requested best)) := by
  by_cases few : min scores.length requested ≤ max 1 config.adaptiveTopKMin
  · exact Or.inl ⟨few, fun _ => adaptiveTopKWith_few few⟩
  · have many := not_le.mp few
    right
    cases knee : kneeOf (scores.take (min scores.length requested)) with
    | none => exact Or.inl ⟨rfl, fun _ => adaptiveTopKWith_smooth many knee⟩
    | some best =>
        have inside := kneeOf_lt knee
        rw [List.length_take] at inside
        refine Or.inr ⟨best, by omega, by omega, rfl, ?_⟩
        exact fun _ => adaptiveTopKWith_knee many knee

theorem adaptiveTopKWith_le : adaptiveTopKWith config sensitivity scores requested ≤ requested := by
  rcases adaptiveTopKWith_cases config scores requested with few | smooth | knee
  · rw [few.2]
    omega
  · rw [smooth.2]
  · obtain ⟨best, many, _, _, result⟩ := knee
    rw [result]
    omega

theorem le_adaptiveTopKWith :
    min (max 1 config.adaptiveTopKMin) (min scores.length requested) ≤
      adaptiveTopKWith config sensitivity scores requested := by
  rcases adaptiveTopKWith_cases config scores requested with few | smooth | knee
  · rw [few.2]
    omega
  · rw [smooth.2]
    omega
  · obtain ⟨best, many, _, _, result⟩ := knee
    rw [result]
    omega

theorem adaptiveTopKWith_antitone (config : Config) (scores : List ℚ) (requested : Nat) :
    Antitone (fun sensitivity => adaptiveTopKWith config sensitivity scores requested) := by
  intro first second below
  rcases adaptiveTopKWith_cases config scores requested with few | smooth | knee
  · simp only [few.2, le_refl]
  · simp only [smooth.2, le_refl]
  · obtain ⟨best, _, inside, _, result⟩ := knee
    simp only [result]
    have cut := relaxedCut_antitone inside below
    simp only at cut
    omega

theorem adaptiveTopKWith_zero (config : Config) (scores : List ℚ) (requested : Nat) :
    min scores.length requested ≤ adaptiveTopKWith config 0 scores requested := by
  rcases adaptiveTopKWith_cases config scores requested with few | smooth | knee
  · rw [few.2]
  · rw [smooth.2]
    omega
  · obtain ⟨best, _, inside, _, result⟩ := knee
    rw [result, relaxedCut_zero inside]
    omega

theorem lt_adaptiveTopKWith
    (furthest : FirstMax (aboveChord (scores.take (min scores.length requested))) index top)
    (above : 5 / 100 * ((scores.take (min scores.length requested)).headD 0 -
      (scores.take (min scores.length requested)).getLastD 0) < top) :
    index < adaptiveTopKWith config sensitivity scores requested := by
  have inside := furthest.lt_length
  rw [length_aboveChord, List.length_take] at inside
  rcases adaptiveTopKWith_cases config scores requested with few | smooth | knee
  · rw [few.2]
    omega
  · rw [smooth.2]
    omega
  · obtain ⟨best, _, _, knee, result⟩ := knee
    rw [result]
    have found := bestAbove_eq_some.mpr ⟨top, furthest, above⟩
    have same : best = index := by
      simp only [kneeOf] at knee
      split at knee
      · cases knee
      · rw [found] at knee
        exact (Option.some.inj knee).symm
    have kept := lt_relaxedCut sensitivity requested best
    omega

/-- The cut lies between the floor and the request, shrinks as the sensitivity grows, keeps all
scores at sensitivity 0, and never falls before the index of a knee. -/
theorem adaptiveTopKWith_bounds (config : Config) (scores : List ℚ) (requested : Nat) :
    (∀ sensitivity,
      min (max 1 config.adaptiveTopKMin) (min scores.length requested) ≤
          adaptiveTopKWith config sensitivity scores requested ∧
        adaptiveTopKWith config sensitivity scores requested ≤ requested) ∧
      Antitone (fun sensitivity => adaptiveTopKWith config sensitivity scores requested) ∧
      min scores.length requested ≤ adaptiveTopKWith config 0 scores requested ∧
      ∀ sensitivity index top,
        FirstMax (aboveChord (scores.take (min scores.length requested))) index top →
          5 / 100 * ((scores.take (min scores.length requested)).headD 0 -
            (scores.take (min scores.length requested)).getLastD 0) < top →
          index < adaptiveTopKWith config sensitivity scores requested := by
  refine ⟨fun sensitivity => ⟨le_adaptiveTopKWith, adaptiveTopKWith_le⟩, ?_, ?_, ?_⟩
  · exact adaptiveTopKWith_antitone config scores requested
  · exact adaptiveTopKWith_zero config scores requested
  · intro sensitivity index top furthest above
    exact lt_adaptiveTopKWith furthest above

theorem adaptiveTopKWith_bounds_steep :
    3 < adaptiveTopKWith {} 1 [10, 9, 9, 9, 1, 1, 1, 1] 7 :=
  (adaptiveTopKWith_bounds {} [10, 9, 9, 9, 1, 1, 1, 1] 7).2.2.2 1 3 (7 / 2)
    ⟨by decide +kernel, by decide +kernel, by decide +kernel⟩ (by decide +kernel)

end Core
end RagSystem
