import Mathlib.Analysis.Real.Sqrt
import Mathlib.Tactic.FieldSimp
import Mathlib.Tactic.Linarith
import RagSystem.Core.Retrieval
import RagSystem.Data.FirstMax

/-! Knee-point pruning at every sensitivity. -/

namespace RagSystem.Core

/-- `knee_point_pruning`; the distances are compared by their numerators. -/
def kneePointPruningWith (sensitivity : ℚ) (results : List Hit) : List Hit :=
  let scores := results.map Hit.score
  let highest := scores.foldl max (scores.headD 0)
  let lowest := scores.foldl min (scores.headD 0)
  if results.length ≤ 2 then results
  else if highest = lowest then
    results.take (max 2 ((results.length : ℚ) * sensitivity).floor.toNat)
  else
    let heights := scores.map (fun score => (score - lowest) / (highest - lowest))
    let start := heights.headD 0
    let rise := heights.getLastD 0 - start
    let distances := heights.zipIdx.map (fun item =>
      |(item.2 : ℚ) / (results.length - 1 : ℚ) * rise - (item.1 - start)| * (1 + sensitivity))
    results.take (max (argmax distances) 1 + 1)

/-- The numerators of the distances of the points from the line through the first and the last. -/
def chordOffsets (heights : List ℚ) : List ℚ :=
  let start := heights.headD 0
  let rise := heights.getLastD 0 - start
  heights.zipIdx.map (fun item =>
    |(item.2 : ℚ) / (heights.length - 1 : ℚ) * rise - (item.1 - start)|)

/-! The distances of the code, over the real numbers. -/

/-- The distance of a point from its projection on the line through the origin and `(1, rise)`. -/
noncomputable def projectionDistance (rise x y : ℝ) : ℝ :=
  let lineLength := √(1 + rise ^ 2)
  let along := x * (1 / lineLength) + y * (rise / lineLength)
  √((x - along * (1 / lineLength)) ^ 2 + (y - along * (rise / lineLength)) ^ 2)

theorem projectionDistance_eq (rise x y : ℝ) :
    projectionDistance rise x y = |x * rise - y| / √(1 + rise ^ 2) := by
  have positive : 0 < 1 + rise ^ 2 := by positivity
  have square : √(1 + rise ^ 2) ^ 2 = 1 + rise ^ 2 := Real.sq_sqrt positive.le
  have root : 0 < √(1 + rise ^ 2) := Real.sqrt_pos.mpr positive
  simp only [projectionDistance]
  generalize √(1 + rise ^ 2) = lineLength at square root ⊢
  have across : x - (x * (1 / lineLength) + y * (rise / lineLength)) * (1 / lineLength) =
      rise * ((x * rise - y) / lineLength ^ 2) := by
    field_simp
    rw [square]
    ring
  have upwards : y - (x * (1 / lineLength) + y * (rise / lineLength)) * (rise / lineLength) =
      -((x * rise - y) / lineLength ^ 2) := by
    field_simp
    rw [square]
    ring
  have offset : (rise * ((x * rise - y) / lineLength ^ 2)) ^ 2 +
      (-((x * rise - y) / lineLength ^ 2)) ^ 2 = ((x * rise - y) / lineLength) ^ 2 := by
    calc
      _ = (1 + rise ^ 2) * ((x * rise - y) / lineLength ^ 2) ^ 2 := by ring
      _ = ((x * rise - y) / lineLength) ^ 2 := by
        rw [← square]
        field_simp
  rw [across, upwards, offset, Real.sqrt_sq_eq_abs, abs_div, abs_of_pos root]

/-- The distances of `knee_point_pruning`, scaled by the sensitivity. -/
noncomputable def kneeDistances (sensitivity : ℝ) (heights : List ℚ) : List ℝ :=
  let start : ℝ := heights.headD 0
  let rise : ℝ := heights.getLastD 0 - start
  heights.zipIdx.map (fun item =>
    projectionDistance rise (item.2 / (heights.length - 1)) (item.1 - start) * (1 + sensitivity))

theorem kneeDistances_eq (sensitivity : ℝ) (heights : List ℚ) :
    kneeDistances sensitivity heights = (chordOffsets heights).map (fun offset : ℚ =>
      (offset : ℝ) / √(1 + ((heights.getLastD 0 - heights.headD 0 : ℚ) : ℝ) ^ 2) *
        (1 + sensitivity)) := by
  simp only [kneeDistances, chordOffsets, List.map_map]
  apply List.map_congr_left
  intro item _
  rw [projectionDistance_eq]
  simp only [Function.comp_apply]
  push_cast
  rfl

section Argmax

variable {numbers : List ℚ} {index : Nat} {top : ℚ}

theorem argmax_spec (some : numbers ≠ []) : ∃ top, FirstMax numbers (argmax numbers) top := by
  cases numbers with
  | nil => exact absurd rfl some
  | cons first rest =>
      have scanned : argmax (first :: rest) = (scanMax id 1 (first, 0) rest).2 := rfl
      rw [scanned]
      rcases scanMax_spec id 1 (first, 0) rest with kept | replaced
      · rw [kept.2]
        exact ⟨first, FirstMax.head kept.1⟩
      · obtain ⟨index, top, found, above, result⟩ := replaced
        rw [result, Nat.add_comm]
        exact ⟨top, found.later above⟩

theorem argmax_eq (first : FirstMax numbers index top) : argmax numbers = index := by
  have some : numbers ≠ [] := by
    intro given
    rcases given with rfl
    exact absurd first.lt_length (by simp)
  obtain ⟨greatest, found⟩ := argmax_spec some
  exact found.unique first

theorem argmax_scaled {factor : ℚ} (positive : 0 < factor) (numbers : List ℚ) :
    argmax (numbers.map (fun number => number * factor)) = argmax numbers := by
  by_cases empty : numbers = []
  · rw [empty]
    rfl
  · obtain ⟨top, first⟩ := argmax_spec empty
    have increasing : StrictMono (fun number : ℚ => number * factor) := by
      intro first second below
      exact mul_lt_mul_of_pos_right below positive
    exact argmax_eq (first.map increasing)

end Argmax

def highestScore (results : List Hit) : ℚ :=
  (results.map Hit.score).foldl max ((results.map Hit.score).headD 0)

def lowestScore (results : List Hit) : ℚ :=
  (results.map Hit.score).foldl min ((results.map Hit.score).headD 0)

def heightsOf (results : List Hit) : List ℚ :=
  (results.map Hit.score).map (fun score =>
    (score - lowestScore results) / (highestScore results - lowestScore results))

theorem argmax_chordOffsets_lt (heights : List ℚ) (several : 2 ≤ heights.length) :
    argmax (chordOffsets heights) + 1 < heights.length := by
  have length : (chordOffsets heights).length = heights.length := by simp [chordOffsets]
  have nonempty : chordOffsets heights ≠ [] := by
    intro none
    rw [none] at length
    simp only [List.length_nil] at length
    omega
  obtain ⟨top, first⟩ := argmax_spec nonempty
  have inside := first.lt_length
  by_contra last
  have place : argmax (chordOffsets heights) = heights.length - 1 := by omega
  have endZero : (chordOffsets heights)[heights.length - 1]? = some 0 := by
    have found : heights[heights.length - 1]? = some (heights.getLastD 0) := by
      cases heights with
      | nil => simp at several
      | cons first rest => simp [List.getLast?_eq_getElem?]
    have wide : (heights.length : ℚ) - 1 ≠ 0 := by
      have cast : (2 : ℚ) ≤ heights.length := by exact_mod_cast several
      linarith
    have whole : ((heights.length - 1 : Nat) : ℚ) / (heights.length - 1) = 1 := by
      rw [Nat.cast_sub (by omega), Nat.cast_one]
      exact div_self wide
    simp only [chordOffsets, List.getElem?_map, List.getElem?_zipIdx, found, Option.map_some,
      Nat.zero_add, whole]
    simp
  have startZero : (chordOffsets heights)[0]? = some 0 := by
    cases heights with
    | nil => simp at several
    | cons first rest => simp [chordOffsets]
  have bottom : top = 0 := by
    have found := first.found
    rw [place, endZero] at found
    exact (Option.some.inj found).symm
  have before : (0 : ℚ) ∈ (chordOffsets heights).take (argmax (chordOffsets heights)) := by
    apply List.mem_of_getElem? (i := 0)
    rw [List.getElem?_take_of_lt (by omega), startZero]
  have below := first.earlier 0 before
  rw [bottom] at below
  exact absurd below (lt_irrefl 0)

section Cut

variable {sensitivity : ℚ} {results : List Hit}

theorem kneePointPruningWith_few (few : results.length ≤ 2) :
    kneePointPruningWith sensitivity results = results := by
  simp only [kneePointPruningWith, if_pos few]

theorem kneePointPruningWith_flat (many : 2 < results.length)
    (flat : highestScore results = lowestScore results) :
    kneePointPruningWith sensitivity results =
      results.take (max 2 ((results.length : ℚ) * sensitivity).floor.toNat) := by
  simp only [highestScore, lowestScore] at flat
  simp only [kneePointPruningWith, if_neg many.not_ge, if_pos flat]

theorem kneePointPruningWith_curve (many : 2 < results.length)
    (curve : highestScore results ≠ lowestScore results) (positive : 0 ≤ sensitivity) :
    kneePointPruningWith sensitivity results =
      results.take (max (argmax (chordOffsets (heightsOf results))) 1 + 1) := by
  have scaled := argmax_scaled (by linarith : (0 : ℚ) < 1 + sensitivity)
    (chordOffsets (heightsOf results))
  simp only [highestScore, lowestScore] at curve
  rw [← scaled]
  simp only [kneePointPruningWith, if_neg many.not_ge, if_neg curve, chordOffsets, heightsOf,
    List.map_map, List.length_map, highestScore, lowestScore]
  rfl

theorem kneePointPruning_eq (results : List Hit) :
    kneePointPruning results = kneePointPruningWith (1 / 2) results := by
  have half : ((results.length : ℚ) * (1 / 2)).floor.toNat = results.length / 2 := by
    have floor : ((results.length : Int) / (2 : Nat) : ℚ).floor = (results.length : Int) / 2 :=
      Rat.floor_intCast_div_natCast results.length 2
    have same : (results.length : ℚ) * (1 / 2) = ((results.length : Int) : ℚ) / (2 : Nat) := by
      push_cast
      ring
    rw [same, floor]
    omega
  by_cases many : results.length ≤ 2
  · simp only [kneePointPruning, kneePointPruningWith, if_pos many]
  · by_cases flat : highestScore results = lowestScore results
    · rw [kneePointPruningWith_flat (not_le.mp many) flat, half]
      simp only [highestScore, lowestScore] at flat
      simp only [kneePointPruning, if_neg many, if_pos flat]
    · rw [kneePointPruningWith_curve (not_le.mp many) flat (by norm_num)]
      simp only [highestScore, lowestScore] at flat
      simp only [kneePointPruning, if_neg many, if_neg flat, chordOffsets, heightsOf,
        List.length_map, highestScore, lowestScore]

theorem kneePointPruningWith_take (sensitivity : ℚ) (results : List Hit) :
    ∃ count, min 2 results.length ≤ count ∧
      kneePointPruningWith sensitivity results = results.take count := by
  by_cases few : results.length ≤ 2
  · exact ⟨results.length, by omega, by rw [kneePointPruningWith_few few, List.take_length]⟩
  · by_cases flat : highestScore results = lowestScore results
    · exact ⟨_, by omega, kneePointPruningWith_flat (not_le.mp few) flat⟩
    · simp only [highestScore, lowestScore] at flat
      simp only [kneePointPruningWith, if_neg few, if_neg flat]
      exact ⟨_, by omega, rfl⟩

theorem length_kneePointPruningWith_zero (many : 2 < results.length) :
    (kneePointPruningWith 0 results).length < results.length := by
  by_cases flat : highestScore results = lowestScore results
  · rw [kneePointPruningWith_flat many flat, List.length_take, mul_zero]
    have none : (Rat.floor 0).toNat = 0 := by decide +kernel
    omega
  · rw [kneePointPruningWith_curve many flat le_rfl, List.length_take]
    have length : (heightsOf results).length = results.length := by simp [heightsOf]
    have last := argmax_chordOffsets_lt (heightsOf results) (by omega)
    omega

theorem length_kneePointPruningWith_one (many : 2 < results.length)
    (flat : highestScore results = lowestScore results) :
    (kneePointPruningWith 1 results).length = results.length := by
  have whole : ((results.length : ℚ) * 1).floor.toNat = results.length := by
    rw [mul_one]
    exact_mod_cast congrArg Int.toNat (Rat.floor_intCast results.length)
  rw [kneePointPruningWith_flat many flat, whole, List.length_take]
  omega

theorem kneePointPruningWith_shrinks_iff :
    (∀ low high, 0 ≤ low → low ≤ high → high ≤ 1 →
      (kneePointPruningWith high results).length ≤ (kneePointPruningWith low results).length) ↔
    results.length ≤ 2 ∨ highestScore results ≠ lowestScore results := by
  constructor
  · intro shrinks
    by_contra neither
    obtain ⟨many, flat⟩ := not_or.mp neither
    have dropped := length_kneePointPruningWith_zero (not_le.mp many)
    have kept := length_kneePointPruningWith_one (not_le.mp many) (not_not.mp flat)
    have fewer := shrinks 0 1 le_rfl zero_le_one le_rfl
    omega
  · intro either low high start order _
    by_cases few : results.length ≤ 2
    · rw [kneePointPruningWith_few few, kneePointPruningWith_few few]
    · have curve := either.resolve_left few
      rw [kneePointPruningWith_curve (not_le.mp few) curve start,
        kneePointPruningWith_curve (not_le.mp few) curve (start.trans order)]

/-- Pruning keeps the first results, two or more, and fewer of them the more sensitive it is;
sensitivity 0 keeps them all. -/
structure KneeMonotone (results : List Hit) : Prop where
  first : ∀ sensitivity, 0 ≤ sensitivity → sensitivity ≤ 1 →
    kneePointPruningWith sensitivity results <+: results ∧
      min 2 results.length ≤ (kneePointPruningWith sensitivity results).length
  shrinks : ∀ low high, 0 ≤ low → low ≤ high → high ≤ 1 →
    (kneePointPruningWith high results).length ≤ (kneePointPruningWith low results).length
  whole : kneePointPruningWith 0 results = results

def fallingHits : List Hit :=
  [⟨⟨"a", {}⟩, 9⟩, ⟨⟨"b", {}⟩, 8⟩, ⟨⟨"c", {}⟩, 1⟩]

end Cut

end RagSystem.Core
