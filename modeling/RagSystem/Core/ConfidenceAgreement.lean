import Mathlib.Data.List.Infix
import RagSystem.Core.AdaptiveTopK
import RagSystem.Core.Confidence

/-! Where the two computations of the confidence agree. -/

namespace RagSystem

section Rounding

variable {number : ℚ} {even : Int}

theorem floor_bounds (number : ℚ) : (number.floor : ℚ) ≤ number ∧ number < number.floor + 1 := by
  refine ⟨Rat.floor_le number, ?_⟩
  exact_mod_cast Rat.lt_floor_add_one number

theorem le_roundHalfEven_iff (two : even % 2 = 0) :
    even ≤ roundHalfEven number ↔ (even : ℚ) - 1 / 2 ≤ number := by
  obtain ⟨low, high⟩ := floor_bounds number
  rcases lt_trichotomy even (number.floor + 1) with below | here | above
  · have under : even ≤ number.floor := Int.lt_add_one_iff.mp below
    have cast : (even : ℚ) ≤ number.floor := Int.cast_le.mpr under
    have left := under.trans (le_roundHalfEven number)
    have right : (even : ℚ) - 1 / 2 ≤ number := by linarith
    exact iff_of_true left right
  · have cast : (even : ℚ) = number.floor + 1 := by exact_mod_cast here
    simp only [roundHalfEven, cast]
    split_ifs with small large tie
    · exact iff_of_false (by omega) (by linarith)
    · exact iff_of_true here.le (by linarith)
    · omega
    · exact iff_of_true here.le (by linarith)
  · have cast : (number.floor : ℚ) + 1 + 1 ≤ even := by exact_mod_cast above
    have left := roundHalfEven_le number
    exact iff_of_false (by omega) (by linarith)

theorem roundHalfEven_le_iff (two : even % 2 = 0) :
    roundHalfEven number ≤ even ↔ number ≤ (even : ℚ) + 1 / 2 := by
  obtain ⟨low, high⟩ := floor_bounds number
  rcases lt_trichotomy number.floor even with below | here | above
  · have cast : (number.floor : ℚ) + 1 ≤ even := by exact_mod_cast below
    have left := roundHalfEven_le number
    exact iff_of_true (by omega) (by linarith)
  · have cast : (number.floor : ℚ) = even := by exact_mod_cast here
    simp only [roundHalfEven, cast]
    split_ifs with small large tie
    · exact iff_of_true here.le (by linarith)
    · exact iff_of_false (by omega) (by linarith)
    · exact iff_of_true here.le (by linarith)
    · omega
  · have cast : (even : ℚ) + 1 ≤ number.floor := by exact_mod_cast above
    have left := le_roundHalfEven number
    exact iff_of_false (by omega) (by linarith)

theorem roundHalfEven_near (number : ℚ) :
    number - 1 / 2 ≤ roundHalfEven number ∧ (roundHalfEven number : ℚ) ≤ number + 1 / 2 := by
  obtain ⟨low, high⟩ := floor_bounds number
  simp only [roundHalfEven]
  split_ifs with small large tie
  · constructor
    · linarith
    · linarith
  · push_cast
    constructor
    · linarith
    · linarith
  · constructor
    · linarith
    · linarith
  · push_cast
    constructor
    · linarith
    · linarith

end Rounding

namespace Core.Confidence

section Actions

variable {score first second : ℚ}

/-- Where the cut of the rounded score and those of the score itself name the same action. -/
def InBands (score : ℚ) : Prop :=
  score < 2 / 10 ∨ 4 / 10 ≤ score ∧ score < 595 / 1000 ∨ 6 / 10 ≤ score

instance (score : ℚ) : Decidable (InBands score) := inferInstanceAs (Decidable (_ ∨ _))

theorem roundTo_two (score : ℚ) : roundTo 2 score = roundHalfEven (score * 100) / 100 := by
  norm_num [roundTo]

theorem le_roundTo_iff (score : ℚ) (hundredths : Int) (two : hundredths % 2 = 0) :
    (hundredths : ℚ) / 100 ≤ roundTo 2 score ↔ (hundredths : ℚ) / 100 - 1 / 200 ≤ score := by
  have whole : hundredths ≤ roundHalfEven (score * 100) ↔ (hundredths : ℚ) - 1 / 2 ≤ score * 100 :=
    le_roundHalfEven_iff two
  rw [roundTo_two, div_le_div_iff_of_pos_right (by norm_num), Int.cast_le, whole]
  constructor
  · intro below
    linarith
  · intro below
    linarith

theorem roundTo_le_iff (score : ℚ) (hundredths : Int) (two : hundredths % 2 = 0) :
    roundTo 2 score ≤ (hundredths : ℚ) / 100 ↔ score ≤ (hundredths : ℚ) / 100 + 1 / 200 := by
  have whole : roundHalfEven (score * 100) ≤ hundredths ↔ score * 100 ≤ (hundredths : ℚ) + 1 / 2 :=
    roundHalfEven_le_iff two
  rw [roundTo_two, div_le_div_iff_of_pos_right (by norm_num), Int.cast_le, whole]
  constructor
  · intro below
    linarith
  · intro below
    linarith

theorem attachedAction_roundTo (score : ℚ) : attachedAction (roundTo 2 score) =
    if 595 / 1000 ≤ score then "USE" else if 395 / 1000 ≤ score then "REWRITE" else "FALLBACK" := by
  have use : (6 / 10 : ℚ) ≤ roundTo 2 score ↔ 595 / 1000 ≤ score := by
    have cut := le_roundTo_iff score 60 rfl
    norm_num at cut ⊢
    exact cut
  have rewritten : (4 / 10 : ℚ) ≤ roundTo 2 score ↔ 395 / 1000 ≤ score := by
    have cut := le_roundTo_iff score 40 rfl
    norm_num at cut ⊢
    exact cut
  simp only [attachedAction, use, rewritten]

theorem action_eq_iff (score : ℚ) :
    attachedAction (roundTo 2 score) = computedAction score ↔ InBands score := by
  rw [attachedAction_roundTo, computedAction, InBands]
  by_cases top : 6 / 10 ≤ score
  · have high : 595 / 1000 ≤ score := by linarith
    simp [top, high]
  · by_cases middle : 4 / 10 ≤ score
    · have low : ¬ score < 2 / 10 := by linarith
      have past : 395 / 1000 ≤ score := by linarith
      by_cases high : 595 / 1000 ≤ score
      · simp [top, middle, high, low, not_lt.mpr high]
      · simp [top, middle, high, past, not_le.mp high]
    · have under : ¬ 595 / 1000 ≤ score := by linarith
      by_cases low : 2 / 10 ≤ score
      · by_cases past : 395 / 1000 ≤ score
        · simp [top, middle, under, low, past]
        · simp [top, middle, under, low, past]
      · have below : ¬ 395 / 1000 ≤ score := by linarith
        simp [top, middle, under, low, below, not_le.mp low]

theorem inBands_clamp (score : ℚ) : InBands (clamp score) ↔ InBands score := by
  rw [InBands, InBands, clamp]
  rcases le_total score 0 with low | positive
  · rw [min_eq_right (low.trans zero_le_one), max_eq_left low]
    exact iff_of_true (Or.inl (by norm_num)) (Or.inl (by linarith))
  · rcases le_total score 1 with inside | high
    · rw [min_eq_right inside, max_eq_right positive]
    · rw [min_eq_left high, max_eq_right zero_le_one]
      exact iff_of_true (Or.inr (Or.inr (by norm_num))) (Or.inr (Or.inr (by linarith)))

theorem roundTo_eq_zero (low : score ≤ 1 / 200) : roundTo 2 (clamp score) = 0 := by
  have capped : min 1 score ≤ 1 / 200 :=
    calc min 1 score
      _ ≤ score := min_le_right 1 score
      _ ≤ 1 / 200 := low
  have small : clamp score ≤ 1 / 200 := max_le (by norm_num) capped
  have positive : 0 ≤ clamp score := le_max_left 0 _
  have below := roundTo_le_iff (clamp score) 0 rfl
  have above := le_roundTo_iff (clamp score) 0 rfl
  norm_num at below above
  apply le_antisymm
  · exact below.mpr small
  · exact above.mpr (by linarith)

theorem roundTo_eq_one (high : 199 / 200 ≤ score) : roundTo 2 (clamp score) = 1 := by
  have large : 199 / 200 ≤ clamp score := le_max_of_le_right (le_min (by norm_num) high)
  have bounded : clamp score ≤ 1 := max_le zero_le_one (min_le_left 1 score)
  have below := roundTo_le_iff (clamp score) 100 rfl
  have above := le_roundTo_iff (clamp score) 100 rfl
  norm_num at below above
  apply le_antisymm
  · exact below.mpr (by linarith)
  · exact above.mpr large

theorem roundTo_near (score : ℚ) :
    score - 1 / 200 ≤ roundTo 2 score ∧ roundTo 2 score ≤ score + 1 / 200 := by
  obtain ⟨low, high⟩ := roundHalfEven_near (score * 100)
  rw [roundTo_two, le_div_iff₀ (by norm_num), div_le_iff₀ (by norm_num)]
  constructor
  · linarith
  · linarith

theorem roundTo_clamp_eq_iff (apart : second + 12 / 100 ≤ first) :
    roundTo 2 (clamp first) = roundTo 2 (clamp second) ↔ first ≤ 1 / 200 ∨ 199 / 200 ≤ second := by
  constructor
  · intro same
    by_contra inner
    obtain ⟨above, below⟩ := not_or.mp inner
    have left := (roundTo_near (clamp first)).1
    have right := (roundTo_near (clamp second)).2
    have lower : min 1 first ≤ clamp first := le_max_right 0 _
    rcases le_total second 0 with cut | positive
    · have zero : roundTo 2 (clamp second) = 0 := roundTo_eq_zero (by linarith)
      rcases le_total first 1 with inside | high
      · rw [min_eq_right inside] at lower
        linarith
      · rw [min_eq_left high] at lower
        linarith
    · have upper : clamp second ≤ second := max_le positive (min_le_right 1 second)
      rcases le_total first 1 with inside | high
      · rw [min_eq_right inside] at lower
        linarith
      · have one : roundTo 2 (clamp first) = 1 := roundTo_eq_one (by linarith)
        linarith
  · intro cut
    rcases cut with low | high
    · rw [roundTo_eq_zero low, roundTo_eq_zero (by linarith)]
    · rw [roundTo_eq_one high, roundTo_eq_one (by linarith)]

end Actions

section Agreement

variable {setup : Setup} {context answer : String} {nli : Option ℚ} {hits : Nat}

def capitalPhrases : List String := ["I don't know", "I'm not sure", "I cannot"]

def plainPhrases : List String := uncertaintyPhrases.drop 3

def Mentions (lower : String → String) (answer phrase : String) : Prop :=
  occursIn (lower phrase) (lower answer) = true

instance (lower : String → String) (answer phrase : String) :
    Decidable (Mentions lower answer phrase) :=
  inferInstanceAs (Decidable (_ = true))

def uncertaintyHits (lower : String → String) (answer : String) : Nat :=
  (uncertaintyPhrases.filter (Mentions lower answer)).length

/-- What is assumed of `str.lower`: it leaves no capital I, and the phrases in small letters as they
are. -/
structure LowersPhrases (lower : String → String) : Prop where
  noCapital : ∀ text, 'I' ∉ (lower text).toList
  plain : ∀ phrase ∈ plainPhrases, lower phrase = phrase

/-- Only phrases that are listed with a capital are in the answer. -/
def OnlyCapital (lower : String → String) (answer : String) : Prop :=
  (∃ phrase ∈ capitalPhrases, Mentions lower answer phrase) ∧
    ∀ phrase ∈ plainPhrases, ¬ Mentions lower answer phrase

instance (lower : String → String) (answer : String) : Decidable (OnlyCapital lower answer) :=
  inferInstanceAs (Decidable (_ ∧ _))

def level (contextLength answerLength : Nat) (nli : Option ℚ) (unsure : Bool) : ℚ :=
  let heuristic := 7 / 10 - (if contextLength < 20 then 4 / 10 else 0) -
    (if contextLength ≠ 0 ∧ (contextLength : ℚ) < answerLength * (1 / 2) then 2 / 10 else 0) -
    (if unsure then 2 / 10 else 0) - (if answerLength < 20 then 15 / 100 else 0)
  match nli with
  | some score => 6 / 10 * heuristic + 4 / 10 * score
  | none => heuristic

/-- The two computations of the confidence agree. -/
def Agree (setup : Setup) (context answer : String) : Prop :=
  let attached := (computeConfidence setup context answer).domainConfidence
  let computed := computeConfidenceScore context.length answer.length
    ((groundingOf setup context answer).map GroundingReport.score)
    (uncertaintyHits setup.lower answer)
  attached.value = computed.value ∧ attached.action = computed.action

theorem penalty (penalised : Prop) [Decidable penalised] (score amount : ℚ) :
    (if penalised then score - amount else score) = score - if penalised then amount else 0 := by
  split
  · rfl
  · exact (sub_zero score).symm

theorem computeConfidenceScore_eq (contextLength answerLength : Nat) (nli : Option ℚ)
    (hits : Nat) :
    (computeConfidenceScore contextLength answerLength nli hits).value =
        roundTo 2 (clamp (level contextLength answerLength nli (0 < hits))) ∧
      (computeConfidenceScore contextLength answerLength nli hits).action =
        computedAction (clamp (level contextLength answerLength nli (0 < hits))) := by
  cases nli with
  | none => simp only [computeConfidenceScore, level, penalty, decide_eq_true_eq, and_self]
  | some score => simp only [computeConfidenceScore, level, penalty, decide_eq_true_eq, and_self]

theorem computeConfidence_eq (setup : Setup) (stripped : stripText context = context)
    (strippedAnswer : stripText answer = answer) :
    (computeConfidence setup context answer).domainConfidence.value =
        roundTo 2 (clamp (level context.length answer.length
          ((groundingOf setup context answer).map GroundingReport.score)
          (foundPhrases setup answer ≠ []))) ∧
      (computeConfidence setup context answer).domainConfidence.action =
        attachedAction (roundTo 2 (clamp (level context.length answer.length
          ((groundingOf setup context answer).map GroundingReport.score)
          (foundPhrases setup answer ≠ [])))) := by
  have emptyContext : (context = "" ∨ (stripText context).length < 20) ↔ context.length < 20 := by
    rw [stripped]
    constructor
    · intro given
      rcases given with rfl | short
      · decide
      · exact short
    · exact Or.inr
  have someContext : context ≠ "" ↔ context.length ≠ 0 := by
    rw [ne_eq, ne_eq, String.length_eq_zero_iff]
  simp only [computeConfidence, level, penalty, decide_eq_true_eq, emptyContext, strippedAnswer,
    someContext]
  cases groundingOf setup context answer with
  | none => exact ⟨rfl, rfl⟩
  | some report => exact ⟨rfl, rfl⟩

theorem level_true_add_le (contextLength answerLength : Nat) (nli : Option ℚ) :
    level contextLength answerLength nli true + 12 / 100 ≤
      level contextLength answerLength nli false := by
  simp only [level, if_true, Bool.false_eq_true, if_false]
  cases nli with
  | none => linarith
  | some score => linarith

theorem subset_of_occursIn {phrase text : String} (occurs : occursIn phrase text = true) :
    phrase.toList ⊆ text.toList := by
  obtain ⟨rest, tail, start⟩ := List.any_eq_true.mp occurs
  have inside := (List.mem_tails _ _).mp tail
  have within := List.isPrefixOf_iff_prefix.mp start
  exact fun char member => inside.subset (within.subset member)

theorem not_occursIn_capital {lower : String → String} (lowers : LowersPhrases lower)
    (answer : String) : ∀ phrase ∈ capitalPhrases, occursIn phrase (lower answer) = false := by
  intro phrase listed
  have capital : 'I' ∈ phrase.toList := by
    revert phrase
    decide +kernel
  apply Bool.eq_false_iff.mpr
  intro occurs
  exact lowers.noCapital answer (subset_of_occursIn occurs capital)

theorem foundPhrases_ne_nil_iff (lowers : LowersPhrases setup.lower) :
    foundPhrases setup answer ≠ [] ↔
      ∃ phrase ∈ plainPhrases, Mentions setup.lower answer phrase := by
  have split : uncertaintyPhrases = capitalPhrases ++ plainPhrases := rfl
  have capital : capitalPhrases.filter
      (fun phrase => occursIn phrase (setup.lower answer)) = [] := by
    apply List.filter_eq_nil_iff.mpr
    intro phrase listed
    rw [not_occursIn_capital lowers answer phrase listed]
    exact Bool.false_ne_true
  rw [foundPhrases, split, List.filter_append, capital, List.nil_append, ne_eq,
    List.filter_eq_nil_iff, not_forall]
  simp only [not_forall, Classical.not_not, exists_prop]
  apply exists_congr
  intro phrase
  apply and_congr_right
  intro listed
  rw [Mentions, lowers.plain phrase listed]

theorem uncertaintyHits_pos_iff {lower : String → String} :
    0 < uncertaintyHits lower answer ↔
      ∃ phrase ∈ uncertaintyPhrases, Mentions lower answer phrase := by
  rw [uncertaintyHits, List.length_pos_iff_exists_mem]
  simp only [List.mem_filter, decide_eq_true_eq]

theorem onlyCapital_iff (lowers : LowersPhrases setup.lower) :
    OnlyCapital setup.lower answer ↔
      0 < uncertaintyHits setup.lower answer ∧ ¬ foundPhrases setup answer ≠ [] := by
  have split : uncertaintyPhrases = capitalPhrases ++ plainPhrases := rfl
  rw [uncertaintyHits_pos_iff, foundPhrases_ne_nil_iff lowers, OnlyCapital, split]
  constructor
  · intro only
    obtain ⟨phrase, listed, mentioned⟩ := only.1
    refine ⟨⟨phrase, List.mem_append_left _ listed, mentioned⟩, ?_⟩
    intro found
    obtain ⟨other, plain, also⟩ := found
    exact only.2 other plain also
  · intro both
    obtain ⟨phrase, listed, mentioned⟩ := both.1
    rcases List.mem_append.mp listed with capital | plain
    · exact ⟨⟨phrase, capital, mentioned⟩, fun other plain also => both.2 ⟨other, plain, also⟩⟩
    · exact absurd ⟨phrase, plain, mentioned⟩ both.2

theorem uncertaintyHits_pos_of_found (lowers : LowersPhrases setup.lower)
    (found : foundPhrases setup answer ≠ []) : 0 < uncertaintyHits setup.lower answer := by
  obtain ⟨phrase, plain, mentioned⟩ := (foundPhrases_ne_nil_iff lowers).mp found
  exact uncertaintyHits_pos_iff.mpr ⟨phrase, List.mem_of_mem_drop plain, mentioned⟩

/-- The score is in no band where the actions differ, and no phrase that is found by one of the
computations only makes a difference. -/
def Settled (setup : Setup) (context answer : String) : Prop :=
  let score := level context.length answer.length
    ((groundingOf setup context answer).map GroundingReport.score)
  OnlyCapital setup.lower answer ∧ (score false ≤ 1 / 200 ∨ 199 / 200 ≤ score true) ∨
    ¬ OnlyCapital setup.lower answer ∧
      InBands (score (decide (∃ phrase ∈ uncertaintyPhrases, Mentions setup.lower answer phrase)))

end Agreement

def asciiLower (text : String) : String := String.ofList (text.toList.map Char.toLower)

theorem toLower_ne_capital (char : Char) : char.toLower ≠ 'I' := by
  intro same
  delta Char.toLower at same
  split at same
  · rename_i capital
    have large : 'A'.val.toNat ≤ char.val.toNat := UInt32.le_iff_toNat_le.mp capital.1
    have small : char.val.toNat ≤ 'Z'.val.toNat := UInt32.le_iff_toNat_le.mp capital.2
    have number : (char.val + ('a'.val - 'A'.val)).toNat = 'I'.val.toNat :=
      congrArg (fun char => char.val.toNat) same
    rw [UInt32.toNat_add] at number
    change 65 ≤ char.val.toNat at large
    change char.val.toNat ≤ 90 at small
    change (char.val.toNat + 32) % 4294967296 = 73 at number
    omega
  · rename_i other
    subst same
    exact other (by decide)

theorem lowersPhrases_ascii : LowersPhrases asciiLower where
  noCapital := by
    intro text member
    rw [asciiLower, String.toList_ofList] at member
    obtain ⟨char, _, same⟩ := List.mem_map.mp member
    exact toLower_ne_capital char same
  plain := by decide +kernel

def uncheckedSetup : Setup where
  nliGroundingEnabled := false
  hallucinationCheckEnabled := false
  computeNliGrounding _ _ := ⟨0, 0, 0, []⟩
  lower := asciiLower
  showList texts := ", ".intercalate texts

end Core.Confidence

end RagSystem
