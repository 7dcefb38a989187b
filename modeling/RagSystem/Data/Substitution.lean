import Mathlib.Data.List.Chain
import Mathlib.Data.List.TakeWhile

/-! Substitution of leftmost matches and stripping, on lists. A pattern is given by the length of
its match at the start of a list, and matches nothing empty. -/

namespace Substitution

variable {α : Type*}

section Substitute

variable (matchLength : List α → Nat) (replacement : List α)

/-- The substitution in a list whose first `skip` items belong to a match. -/
def substituteFrom : Nat → List α → List α
  | _, [] => []
  | skip + 1, _ :: rest => substituteFrom skip rest
  | 0, item :: rest =>
      match matchLength (item :: rest) with
      | 0 => item :: substituteFrom 0 rest
      | length + 1 => replacement ++ substituteFrom length rest

/-- Every match is replaced, from the left and without overlaps. -/
def substitute (text : List α) : List α := substituteFrom matchLength replacement 0 text

variable {matchLength replacement} {text : List α}

theorem substituteFrom_eq (skip : Nat) (text : List α) :
    substituteFrom matchLength replacement skip text =
      substitute matchLength replacement (text.drop skip) := by
  induction text generalizing skip with
  | nil =>
      rw [List.drop_nil, substitute, substituteFrom, substituteFrom]
  | cons item rest ih =>
      cases skip with
      | zero => rfl
      | succ skip =>
          rw [substituteFrom, List.drop_succ_cons]
          exact ih skip

@[simp] theorem substitute_nil : substitute matchLength replacement [] = [] := rfl

theorem substitute_cons {item : α} {rest : List α} (unmatched : matchLength (item :: rest) = 0) :
    substitute matchLength replacement (item :: rest) =
      item :: substitute matchLength replacement rest := by
  rw [substitute, substituteFrom, unmatched]
  rfl

theorem substitute_of_match (matched : 0 < matchLength text) (nonempty : text ≠ []) :
    substitute matchLength replacement text =
      replacement ++ substitute matchLength replacement (text.drop (matchLength text)) := by
  cases text with
  | nil => exact absurd rfl nonempty
  | cons item rest =>
      rw [substitute, substituteFrom]
      cases length : matchLength (item :: rest) with
      | zero => rw [length] at matched; cases matched
      | succ length =>
          rw [List.drop_succ_cons, ← substituteFrom_eq]

theorem scan (matchLength : List α → Nat) {motive : List α → Prop} (nil : motive [])
    (keep : ∀ item rest, matchLength (item :: rest) = 0 → motive rest → motive (item :: rest))
    (replace : ∀ text, text ≠ [] → 0 < matchLength text →
      motive (text.drop (matchLength text)) → motive text) (text : List α) : motive text := by
  induction length : text.length using Nat.strong_induction_on generalizing text with
  | _ count ih =>
      cases text with
      | nil => exact nil
      | cons item rest =>
          cases matched : matchLength (item :: rest) with
          | zero =>
              refine keep item rest matched (ih rest.length ?_ rest rfl)
              simp [← length]
          | succ used =>
              refine replace _ (List.cons_ne_nil item rest) (by omega) ?_
              refine ih _ ?_ _ rfl
              rw [← length, List.length_drop, List.length_cons]
              omega

theorem mem_substitute {item : α} (member : item ∈ substitute matchLength replacement text) :
    item ∈ text ∨ item ∈ replacement := by
  induction text using scan matchLength with
  | nil => cases member
  | keep first rest unmatched ih =>
      rw [substitute_cons unmatched, List.mem_cons] at member
      obtain rfl | later := member
      · exact Or.inl List.mem_cons_self
      · exact (ih later).imp_left (List.mem_cons_of_mem first)
  | replace text nonempty matched ih =>
      rw [substitute_of_match matched nonempty, List.mem_append] at member
      obtain inserted | later := member
      · exact Or.inr inserted
      · exact (ih later).imp_left List.mem_of_mem_drop

theorem length_substitute_le
    (shorter : ∀ text, 0 < matchLength text → replacement.length ≤ matchLength text)
    (within : ∀ text, matchLength text ≤ text.length) (text : List α) :
    (substitute matchLength replacement text).length ≤ text.length := by
  induction text using scan matchLength with
  | nil => exact le_rfl
  | keep item rest unmatched ih =>
      rw [substitute_cons unmatched, List.length_cons, List.length_cons]
      exact Nat.succ_le_succ ih
  | replace text nonempty matched ih =>
      rw [substitute_of_match matched nonempty, List.length_append]
      rw [List.length_drop] at ih
      have inserted := shorter text matched
      have inside := within text
      omega

theorem pairwise_substitute {related : α → α → Prop} (pairs : text.Pairwise related)
    (inserted : replacement.Pairwise related)
    (other : ∀ new ∈ replacement, ∀ item, related new item ∧ related item new) :
    (substitute matchLength replacement text).Pairwise related := by
  induction text using scan matchLength with
  | nil => exact List.Pairwise.nil
  | keep item rest unmatched ih =>
      obtain ⟨before, later⟩ := List.pairwise_cons.mp pairs
      rw [substitute_cons unmatched]
      refine List.pairwise_cons.mpr ⟨?_, ih later⟩
      intro second member
      obtain old | new := mem_substitute member
      · exact before second old
      · exact (other second new item).2
  | replace text nonempty matched ih =>
      rw [substitute_of_match matched nonempty]
      refine List.pairwise_append.mpr ⟨inserted, ih (pairs.sublist (List.drop_sublist _ _)), ?_⟩
      exact fun new member item _ => (other new member item).1

theorem substitute_eq_self (same : ∀ rest, rest <:+ text → 0 < matchLength rest →
    rest.take (matchLength rest) = replacement) :
    substitute matchLength replacement text = text := by
  induction text using scan matchLength with
  | nil => rfl
  | keep item rest unmatched ih =>
      rw [substitute_cons unmatched,
        ih (fun part suffix => same part (suffix.trans (List.suffix_cons item rest)))]
  | replace text nonempty matched ih =>
      rw [substitute_of_match matched nonempty,
        ih (fun part suffix => same part (suffix.trans (List.drop_suffix _ _))),
        ← same text List.suffix_rfl matched, List.take_append_drop]

end Substitute

section Class

variable (inside : α → Bool)

/-- The match of a class of single items. -/
def classLength : List α → Nat
  | [] => 0
  | item :: _ => if inside item then 1 else 0

theorem substitute_class (text : List α) :
    substitute (classLength inside) [] text = text.filter (fun item => !inside item) := by
  induction text using scan (classLength inside) with
  | nil => rfl
  | keep item rest unmatched ih =>
      have outside : inside item = false := by simpa [classLength] using unmatched
      rw [substitute_cons unmatched, ih, List.filter_cons, outside]
      rfl
  | replace text nonempty matched ih =>
      cases text with
      | nil => exact absurd rfl nonempty
      | cons item rest =>
          have within : inside item = true := by
            by_contra outside
            simp [classLength, outside] at matched
          have one : classLength inside (item :: rest) = 1 := if_pos within
          rw [substitute_of_match matched nonempty, List.nil_append, ih, one, List.drop_one,
            List.tail_cons, List.filter_cons, within]
          rfl

end Class

section Runs

variable (inside : α → Bool)

/-- The match of a run of items. -/
def runLength (text : List α) : Nat := (text.takeWhile inside).length

variable {inside} {single : α} {text : List α}

theorem runLength_cons_eq_zero {item : α} {rest : List α} :
    runLength inside (item :: rest) = 0 ↔ inside item = false := by
  cases within : inside item <;> simp [runLength, within]

theorem drop_runLength (text : List α) :
    text.drop (runLength inside text) = text.dropWhile inside := by
  have whole := List.takeWhile_append_dropWhile (p := inside) (l := text)
  have dropped : (text.takeWhile inside ++ text.dropWhile inside).drop (runLength inside text) =
      text.dropWhile inside := List.drop_left
  rwa [whole] at dropped

theorem dropWhile_head {item : α} (leads : (text.dropWhile inside).head? = some item) :
    inside item = false := by
  have stopped := List.head?_dropWhile_not inside text
  rw [leads] at stopped
  simpa using stopped

theorem eq_of_mem_substitute_runs {item : α}
    (member : item ∈ substitute (runLength inside) [single] text) (within : inside item = true) :
    item = single := by
  induction text using scan (runLength inside) with
  | nil => cases member
  | keep first rest unmatched ih =>
      rw [substitute_cons unmatched, List.mem_cons] at member
      obtain rfl | later := member
      · rw [runLength_cons_eq_zero.mp unmatched] at within
        cases within
      · exact ih later
  | replace text nonempty matched ih =>
      rw [substitute_of_match matched nonempty, List.singleton_append, List.mem_cons] at member
      obtain same | later := member
      · exact same
      · exact ih later

theorem head_substitute_runs
    (first : ∀ item, text.head? = some item → inside item = false) (item : α)
    (leads : (substitute (runLength inside) [single] text).head? = some item) :
    inside item = false := by
  cases text with
  | nil => cases leads
  | cons other rest =>
      have outside := first other rfl
      rw [substitute_cons (runLength_cons_eq_zero.mpr outside), List.head?_cons] at leads
      rwa [← Option.some.inj leads]

theorem isChain_substitute_runs (text : List α) :
    (substitute (runLength inside) [single] text).IsChain
      (fun first second => ¬(inside first = true ∧ inside second = true)) := by
  induction text using scan (runLength inside) with
  | nil => exact List.IsChain.nil
  | keep item rest unmatched ih =>
      rw [substitute_cons unmatched]
      refine ih.cons (fun second _ both => ?_)
      rw [runLength_cons_eq_zero.mp unmatched] at both
      exact Bool.false_ne_true both.1
  | replace text nonempty matched ih =>
      rw [substitute_of_match matched nonempty, List.singleton_append]
      refine ih.cons (fun second leads both => ?_)
      have outside : inside second = false := by
        refine head_substitute_runs (fun item starts => ?_) second leads
        rw [drop_runLength] at starts
        exact dropWhile_head starts
      rw [outside] at both
      exact Bool.false_ne_true both.2

theorem substitute_runs_eq_self (only : ∀ item ∈ text, inside item = true → item = single)
    (apart : text.IsChain (fun first second => ¬(inside first = true ∧ inside second = true))) :
    substitute (runLength inside) [single] text = text := by
  apply substitute_eq_self
  intro rest suffix matched
  cases rest with
  | nil => cases matched
  | cons item rest =>
      have within : inside item = true := by
        by_contra outside
        rw [runLength_cons_eq_zero.mpr (by simpa using outside)] at matched
        cases matched
      have alone : rest.takeWhile inside = [] := by
        cases rest with
        | nil => rfl
        | cons second rest =>
            have next := List.isChain_cons_cons.mp (apart.suffix suffix)
            have outside : inside second = false := by
              simpa [within] using next.1
            exact List.takeWhile_cons_of_neg (by simp [outside])
      have one : runLength inside (item :: rest) = 1 := by
        rw [runLength, List.takeWhile_cons_of_pos within, alone]
        rfl
      rw [one, only item (suffix.mem List.mem_cons_self) within]
      rfl

end Runs

section Strip

variable (inside : α → Bool)

/-- The list without its first and last items inside a class. -/
def strip (text : List α) : List α :=
  ((text.dropWhile inside).reverse.dropWhile inside).reverse

variable {inside} {text : List α}

theorem strip_prefix_dropWhile (inside : α → Bool) (text : List α) :
    strip inside text <+: text.dropWhile inside := by
  rw [strip, ← List.reverse_suffix, List.reverse_reverse]
  exact List.dropWhile_suffix _

theorem strip_infix : strip inside text <:+: text :=
  (strip_prefix_dropWhile inside text).isInfix.trans (List.dropWhile_suffix _).isInfix

theorem strip_last {item : α} (ends : (strip inside text).getLast? = some item) :
    inside item = false := by
  rw [strip, List.getLast?_reverse] at ends
  exact dropWhile_head ends

theorem strip_head {item : α} (leads : (strip inside text).head? = some item) :
    inside item = false := by
  obtain ⟨after, whole⟩ := strip_prefix_dropWhile inside text
  have start : (text.dropWhile inside).head? = some item := by
    rw [← whole, List.head?_append, leads]
    rfl
  exact dropWhile_head start

theorem strip_eq_self (leads : ∀ item, text.head? = some item → inside item = false)
    (ends : ∀ item, text.getLast? = some item → inside item = false) :
    strip inside text = text := by
  have fixed : ∀ text : List α, (∀ item, text.head? = some item → inside item = false) →
      text.dropWhile inside = text := by
    intro text first
    cases text with
    | nil => rfl
    | cons item rest => exact List.dropWhile_cons_of_neg (by simp [first item rfl])
  rw [strip, fixed text leads, fixed text.reverse (by rwa [List.head?_reverse]),
    List.reverse_reverse]

end Strip

end Substitution
