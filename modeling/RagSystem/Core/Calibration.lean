import Mathlib.Data.Finset.Sort
import Mathlib.Data.Rat.Cast.Order
import Mathlib.Data.Real.Basic
import RagSystem.Data.Builtins
import RagSystem.Data.LeastBest

/-! The calibration of the confidence threshold (`proxy/app/core/confidence.py`) on labelled
cases. -/

namespace RagSystem.Core.Confidence

abbrev Case := ℚ × Bool

structure Counts where
  tp : Nat := 0
  fn : Nat := 0
  fp : Nat := 0
  tn : Nat := 0
  deriving DecidableEq, Repr

def count (predictedOk : ℚ → Bool) (counts : Counts) (case : Case) : Counts :=
  if predictedOk case.1 ∧ case.2 then { counts with tp := counts.tp + 1 }
  else if predictedOk case.1 ∧ ¬ case.2 then { counts with fp := counts.fp + 1 }
  else if ¬ predictedOk case.1 ∧ case.2 then { counts with fn := counts.fn + 1 }
  else { counts with tn := counts.tn + 1 }

def Counts.precision (counts : Counts) : ℚ :=
  if 0 < counts.tp + counts.fp then counts.tp / (counts.tp + counts.fp : Nat) else 0

def Counts.recall (counts : Counts) : ℚ :=
  if 0 < counts.tp + counts.fn then counts.tp / (counts.tp + counts.fn : Nat) else 0

def Counts.f1 (counts : Counts) : ℚ :=
  if 0 < counts.precision + counts.recall then
    2 * counts.precision * counts.recall / (counts.precision + counts.recall)
  else 0

def f1Of (testCases : List Case) (predictedOk : ℚ → Bool) : ℚ :=
  (testCases.foldl (count predictedOk) {}).f1

/-- The F1 of the threshold `candidate`: `score >= candidate`. -/
def f1At (testCases : List Case) (candidate : ℚ) : ℚ :=
  f1Of testCases (fun score => candidate ≤ score)

def tryCandidate (testCases : List Case) (best : ℚ × ℚ) (candidate : ℚ) : ℚ × ℚ :=
  let f1 := f1At testCases candidate
  if best.1 < f1 then (f1, candidate)
  else if f1 = best.1 ∧ candidate < best.2 then (best.1, candidate)
  else best

def tryMidpoint (testCases : List Case) (best : ℚ × ℚ) (mid : ℚ) : ℚ × ℚ :=
  let f1 := f1At testCases mid
  if best.1 < f1 then (f1, mid) else best

def midpoints (candidates : List ℚ) : List ℚ :=
  let sortedCandidates := candidates.toFinset.sort (· ≤ ·)
  List.zipWith (fun first second => (first + second) / 2) sortedCandidates sortedCandidates.tail

/-- `fallback` is the `CONFIDENCE_THRESHOLD` of the configuration. -/
def calibrateThreshold (fallback : ℚ) (testCases : List Case) : ℚ :=
  if testCases = [] then fallback
  else
    let candidates := testCases.map Prod.fst
    let best := candidates.foldl (tryCandidate testCases) (0, 1 / 2)
    roundTo 3 ((midpoints candidates).foldl (tryMidpoint testCases) best).2

/-! The F1 of any threshold is that of the least score at or above it. -/

section Scores

variable {testCases : List Case} {predictedOk other : ℚ → Bool} {counts : Counts} {case : Case}

def scores (testCases : List Case) : List ℚ := testCases.map Prod.fst

/-- The F1 of the classifier `score >= threshold`, for a real threshold. -/
noncomputable def f1Above (testCases : List Case) (threshold : ℝ) : ℚ :=
  f1Of testCases (fun score => threshold ≤ (score : ℝ))

def Optimal (testCases : List Case) (threshold : ℚ) : Prop :=
  ∀ other : ℝ, f1Above testCases other ≤ f1Above testCases threshold

theorem f1Above_cast (testCases : List Case) (threshold : ℚ) :
    f1Above testCases threshold = f1At testCases threshold := by
  simp only [f1Above, f1At, Rat.cast_le]

theorem foldl_count_congr
    (same : ∀ score ∈ scores testCases, predictedOk score = other score) (counts : Counts) :
    testCases.foldl (count predictedOk) counts = testCases.foldl (count other) counts := by
  induction testCases generalizing counts with
  | nil => rfl
  | cons case rest ih =>
      obtain ⟨here, behind⟩ := List.forall_mem_cons.mp same
      have step : count predictedOk counts case = count other counts case := by
        rw [count, count, here]
      rw [List.foldl_cons, List.foldl_cons, step, ih behind]

theorem f1Of_congr (same : ∀ score ∈ scores testCases, predictedOk score = other score) :
    f1Of testCases predictedOk = f1Of testCases other := by
  rw [f1Of, f1Of, foldl_count_congr same]

theorem precision_nonneg (counts : Counts) : 0 ≤ counts.precision := by
  rw [Counts.precision]
  split
  · exact div_nonneg (Nat.cast_nonneg _) (Nat.cast_nonneg _)
  · exact le_refl _

theorem recall_nonneg (counts : Counts) : 0 ≤ counts.recall := by
  rw [Counts.recall]
  split
  · exact div_nonneg (Nat.cast_nonneg _) (Nat.cast_nonneg _)
  · exact le_refl _

theorem f1_nonneg (counts : Counts) : 0 ≤ counts.f1 := by
  rw [Counts.f1]
  split
  · rename_i positive
    have both := mul_nonneg (precision_nonneg counts) (recall_nonneg counts)
    rw [mul_assoc]
    exact div_nonneg (mul_nonneg zero_le_two both) positive.le
  · exact le_refl _

theorem f1_pos_iff : 0 < counts.f1 ↔ 0 < counts.tp := by
  constructor
  · intro positive
    by_contra none
    have zero : counts.tp = 0 := Nat.eq_zero_of_not_pos none
    have precision : counts.precision = 0 := by simp [Counts.precision, zero]
    rw [Counts.f1, precision, mul_zero, zero_mul, zero_div, ite_self] at positive
    exact lt_irrefl 0 positive
  · intro some
    have cast : (0 : ℚ) < counts.tp := Nat.cast_pos.mpr some
    have precision : 0 < counts.precision := by
      rw [Counts.precision, if_pos (Nat.add_pos_left some _)]
      exact div_pos cast (Nat.cast_pos.mpr (Nat.add_pos_left some _))
    have recalled : 0 < counts.recall := by
      rw [Counts.recall, if_pos (Nat.add_pos_left some _)]
      exact div_pos cast (Nat.cast_pos.mpr (Nat.add_pos_left some _))
    rw [Counts.f1, if_pos (add_pos precision recalled)]
    exact div_pos (mul_pos (mul_pos two_pos precision) recalled) (add_pos precision recalled)

theorem tp_count : (count predictedOk counts case).tp =
    counts.tp + if predictedOk case.1 ∧ case.2 then 1 else 0 := by
  rw [count]
  split
  · rfl
  · split
    · rfl
    · split
      · rfl
      · rfl

theorem tp_foldl_pos_iff (counts : Counts) : 0 < (testCases.foldl (count predictedOk) counts).tp ↔
    0 < counts.tp ∨ ∃ case ∈ testCases, predictedOk case.1 ∧ case.2 := by
  induction testCases generalizing counts with
  | nil => simp
  | cons case rest ih =>
      rw [List.foldl_cons, ih, tp_count, List.exists_mem_cons_iff, ← or_assoc]
      apply or_congr_left
      by_cases right : predictedOk case.1 ∧ case.2
      · simp [right]
      · simp [right]

theorem f1Of_pos_iff : 0 < f1Of testCases predictedOk ↔
    ∃ case ∈ testCases, predictedOk case.1 ∧ case.2 := by
  rw [f1Of, f1_pos_iff, tp_foldl_pos_iff]
  exact or_iff_right (Nat.lt_irrefl 0)

theorem f1Of_nonneg (testCases : List Case) (predictedOk : ℚ → Bool) :
    0 ≤ f1Of testCases predictedOk :=
  f1_nonneg _

structure LeastTaken (testCases : List Case) (takes : ℚ → Prop) (score : ℚ) : Prop where
  mem : score ∈ scores testCases
  taken : takes score
  least : ∀ other ∈ scores testCases, takes other → score ≤ other

theorem exists_leastTaken {takes : ℚ → Prop} (some : ∃ score ∈ scores testCases, takes score) :
    ∃ score, LeastTaken testCases takes score := by
  classical
  obtain ⟨first, member, taken⟩ := some
  have nonempty : ((scores testCases).toFinset.filter takes).Nonempty :=
    ⟨first, Finset.mem_filter.mpr ⟨List.mem_toFinset.mpr member, taken⟩⟩
  obtain ⟨least, inside, below⟩ := Finset.exists_min_image _ id nonempty
  rw [Finset.mem_filter, List.mem_toFinset] at inside
  refine ⟨least, inside.1, inside.2, ?_⟩
  intro other listed taken
  exact below other (Finset.mem_filter.mpr ⟨List.mem_toFinset.mpr listed, taken⟩)

theorem leastTaken_cast {threshold next : ℚ} :
    LeastTaken testCases (fun score => (threshold : ℝ) ≤ (score : ℝ)) next ↔
      LeastTaken testCases (fun score => threshold ≤ score) next := by
  simp only [Rat.cast_le]

theorem f1Above_eq {threshold : ℝ} {next : ℚ}
    (least : LeastTaken testCases (fun score => threshold ≤ (score : ℝ)) next) :
    f1Above testCases threshold = f1At testCases next := by
  apply f1Of_congr
  intro score member
  apply decide_eq_decide.mpr
  constructor
  · exact least.least score member
  · intro above
    calc threshold
      _ ≤ (next : ℝ) := least.taken
      _ ≤ (score : ℝ) := Rat.cast_le.mpr above

theorem f1Above_eq_zero {threshold : ℝ}
    (none : ¬ ∃ score ∈ scores testCases, threshold ≤ (score : ℝ)) :
    f1Above testCases threshold = 0 := by
  apply le_antisymm (not_lt.mp _) (f1Of_nonneg _ _)
  intro positive
  obtain ⟨case, member, takes, _⟩ := f1Of_pos_iff.mp positive
  exact none ⟨case.1, List.mem_map_of_mem member, of_decide_eq_true takes⟩

theorem f1Above_le {best : ℚ} (greatest : ∀ score ∈ scores testCases,
    f1At testCases score ≤ f1At testCases best) (threshold : ℝ) :
    f1Above testCases threshold ≤ f1At testCases best := by
  by_cases some : ∃ score ∈ scores testCases, threshold ≤ (score : ℝ)
  · obtain ⟨next, least⟩ := exists_leastTaken some
    rw [f1Above_eq least]
    exact greatest next least.mem
  · rw [f1Above_eq_zero some]
    exact f1Of_nonneg _ _

end Scores

/-! What the search finds. -/

section Search

variable {testCases : List Case} {best : ℚ} {fallback : ℚ}

/-- No case is right, or the least of the best scores is rounded to where the next score is one of
the best, too. -/
def RoundingKeeps (testCases : List Case) : Prop :=
  (∀ case ∈ testCases, case.2 = false) ∨
    ∃ best, LeastBest (f1At testCases) (scores testCases) best ∧
      ∃ next, LeastTaken testCases (fun score => roundTo 3 best ≤ score) next ∧
        f1At testCases next = f1At testCases best

theorem foldl_tryMidpoint {state : ℚ × ℚ} (greatest : ∀ mid, f1At testCases mid ≤ state.1)
    (mids : List ℚ) : mids.foldl (tryMidpoint testCases) state = state := by
  induction mids with
  | nil => rfl
  | cons mid rest ih =>
      have step : tryMidpoint testCases state mid = state := if_neg (not_lt.mpr (greatest mid))
      rw [List.foldl_cons, step, ih]

theorem f1At_best_pos (least : LeastBest (f1At testCases) (scores testCases) best)
    (right : ∃ case ∈ testCases, case.2 = true) : 0 < f1At testCases best := by
  obtain ⟨case, member, correct⟩ := right
  have positive : 0 < f1At testCases case.1 :=
    f1Of_pos_iff.mpr ⟨case, member, decide_eq_true (le_refl _), correct⟩
  calc 0
    _ < f1At testCases case.1 := positive
    _ ≤ f1At testCases best := least.greatest case.1 (List.mem_map_of_mem member)

theorem calibrateThreshold_eq (fallback : ℚ) (right : ∃ case ∈ testCases, case.2 = true) :
    ∃ best, LeastBest (f1At testCases) (scores testCases) best ∧
      calibrateThreshold fallback testCases = roundTo 3 best := by
  obtain ⟨case, member, correct⟩ := right
  have kept : LeastBest.Kept (f1At testCases) 0 (scores testCases)
      ((scores testCases).foldl (tryCandidate testCases) (0, 1 / 2)) :=
    LeastBest.kept_foldl (fun score _ => f1Of_nonneg _ _) (1 / 2)
  have positive : 0 < f1At testCases case.1 :=
    f1Of_pos_iff.mpr ⟨case, member, decide_eq_true (le_refl _), correct⟩
  rcases kept with flat | found
  · exact absurd (flat.2 case.1 (List.mem_map_of_mem member)) positive.ne'
  · obtain ⟨_, same, best⟩ := found
    refine ⟨_, best, ?_⟩
    have greatest (mid : ℚ) : f1At testCases mid ≤
        ((scores testCases).foldl (tryCandidate testCases) (0, 1 / 2)).1 := by
      have below := f1Above_le best.greatest mid
      rw [f1Above_cast] at below
      exact below.trans same.ge
    rw [calibrateThreshold, if_neg (List.ne_nil_of_mem member)]
    exact congrArg (fun state : ℚ × ℚ => roundTo 3 state.2) (foldl_tryMidpoint greatest _)

end Search

/-- The calibrated threshold has the greatest F1 of all thresholds just where the rounding loses
no case that counts. -/
theorem optimal_iff_roundingKeeps (fallback : ℚ) (testCases : List Case) :
    Optimal testCases (calibrateThreshold fallback testCases) ↔ RoundingKeeps testCases := by
  by_cases right : ∃ case ∈ testCases, case.2 = true
  · obtain ⟨best, least, result⟩ := calibrateThreshold_eq fallback right
    rw [Optimal, result]
    constructor
    · intro optimal
      have reached : f1At testCases best ≤ f1Above testCases (roundTo 3 best : ℚ) := by
        rw [← f1Above_cast]
        exact optimal best
      by_cases some : ∃ score ∈ scores testCases, ((roundTo 3 best : ℚ) : ℝ) ≤ (score : ℝ)
      · obtain ⟨next, taken⟩ := exists_leastTaken some
        rw [f1Above_eq taken] at reached
        exact Or.inr ⟨best, least, next, leastTaken_cast.mp taken,
          le_antisymm (least.greatest next taken.mem) reached⟩
      · rw [f1Above_eq_zero some] at reached
        exact absurd (f1At_best_pos least right) reached.not_gt
    · intro keeps
      rcases keeps with wrong | found
      · obtain ⟨case, member, correct⟩ := right
        exact absurd correct (Bool.eq_false_iff.mp (wrong case member))
      · obtain ⟨other, also, next, taken, same⟩ := found
        obtain rfl := least.unique also
        intro threshold
        calc
          f1Above testCases threshold ≤ f1At testCases best := f1Above_le least.greatest threshold
          _ = f1At testCases next := same.symm
          _ = f1Above testCases (roundTo 3 best : ℚ) :=
            (f1Above_eq (leastTaken_cast.mpr taken)).symm
  · have wrong : ∀ case ∈ testCases, case.2 = false := by
      intro case member
      exact Bool.eq_false_iff.mpr (fun correct => right ⟨case, member, correct⟩)
    have flat (predictedOk : ℚ → Bool) : f1Of testCases predictedOk = 0 := by
      apply le_antisymm (not_lt.mp _) (f1Of_nonneg _ _)
      intro positive
      obtain ⟨case, member, _, correct⟩ := f1Of_pos_iff.mp positive
      exact right ⟨case, member, correct⟩
    constructor
    · exact fun _ => Or.inl wrong
    · intro _ other
      rw [f1Above, f1Above, flat, flat]

/-- A single case, right, whose score is rounded up. -/
theorem calibrateThreshold_rounds_up :
    ¬ Optimal [(8006 / 10000, true)] (calibrateThreshold (1 / 2) [(8006 / 10000, true)]) := by
  intro optimal
  have reached := optimal ((8006 / 10000 : ℚ) : ℝ)
  rw [f1Above_cast, f1Above_cast] at reached
  revert reached
  decide +kernel

end RagSystem.Core.Confidence
