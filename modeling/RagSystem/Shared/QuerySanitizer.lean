import RagSystem.Data.JsonText
import RagSystem.Data.Substitution
import RagSystem.Etl.MarkdownText

/-! Sanitizing of queries (`InputValidator.validate_query` in `proxy/app/shared/security.py`), on
code points. -/

namespace RagSystem.QuerySanitizer

open JsonText (Text)
open Substitution

def maxQueryLength : Nat := 8000

def less : Nat := '<'.toNat

def greater : Nat := '>'.toNat

def space : Nat := ' '.toNat

/-- What `<[^>]*>` matches at the start of the text. -/
def tagLength : Text → Nat
  | [] => 0
  | point :: rest =>
      if point = less ∧ greater ∈ rest then (rest.takeWhile (· ≠ greater)).length + 2 else 0

/-- `[\x00-\x08\x0b\x0c\x0e-\x1f\x7f]`. -/
def isControl (point : Nat) : Bool :=
  point ≤ 0x08 || point = 0x0B || point = 0x0C || (0x0E ≤ point && point ≤ 0x1F) || point = 0x7F

/-- What `\s` matches and `str.strip` strips. -/
def isSpace (point : Nat) : Bool :=
  point ∈ [0x20, 0x85, 0xA0, 0x1680, 0x2028, 0x2029, 0x202F, 0x205F, 0x3000] ||
    (0x09 ≤ point && point ≤ 0x0D) || (0x1C ≤ point && point ≤ 0x1F) ||
    (0x2000 ≤ point && point ≤ 0x200A)

example (char : Char) : isSpace char.toNat = Etl.MarkdownText.isSpace char := rfl

def validateQuery (query : Text) : Text :=
  let truncated := query.take maxQueryLength
  let untagged := substitute tagLength [] truncated
  let printable := substitute (classLength isControl) [] untagged
  let collapsed := substitute (runLength isSpace) [space] printable
  strip isSpace collapsed

/-- No `<` that a `>` follows. -/
def Untagged (text : Text) : Prop :=
  text.Pairwise fun first second => ¬(first = less ∧ second = greater)

structure Sanitized (text : Text) : Prop where
  bounded : text.length ≤ maxQueryLength
  untagged : Untagged text
  printable : ∀ point ∈ text, isControl point = false
  collapsed : text.IsChain fun first second => ¬(isSpace first = true ∧ isSpace second = true)
  spaces : ∀ point ∈ text, isSpace point = true → point = space
  leading : ∀ point, text.head? = some point → isSpace point = false
  trailing : ∀ point, text.getLast? = some point → isSpace point = false

variable {text : Text}

theorem tagLength_cons {point : Nat} {rest : Text} :
    tagLength (point :: rest) = 0 ↔ ¬(point = less ∧ greater ∈ rest) := by
  unfold tagLength
  split
  · simp_all
  · simp_all

theorem untagged_substitute (text : Text) : Untagged (substitute tagLength [] text) := by
  induction text using scan tagLength with
  | nil => exact List.Pairwise.nil
  | keep point rest unmatched ih =>
      rw [substitute_cons unmatched]
      refine List.pairwise_cons.mpr ⟨?_, ih⟩
      intro second member both
      obtain old | inserted := mem_substitute member
      · exact tagLength_cons.mp unmatched ⟨both.1, both.2 ▸ old⟩
      · cases inserted
  | replace text nonempty matched ih =>
      rw [substitute_of_match matched nonempty]
      exact ih

theorem tagLength_of_untagged (untagged : Untagged text) : tagLength text = 0 := by
  cases text with
  | nil => rfl
  | cons point rest =>
      refine tagLength_cons.mpr (fun tag => ?_)
      exact (List.pairwise_cons.mp untagged).1 greater tag.2 ⟨tag.1, rfl⟩

theorem substitute_tags_eq_self (untagged : Untagged text) :
    substitute tagLength [] text = text := by
  apply substitute_eq_self
  intro rest suffix matched
  rw [tagLength_of_untagged (untagged.sublist suffix.sublist)] at matched
  cases matched

theorem tagLength_le (text : Text) : tagLength text ≤ text.length := by
  cases text with
  | nil => exact le_rfl
  | cons point rest =>
      rw [tagLength]
      split
      · rename_i tag
        have whole := congrArg List.length (List.takeWhile_append_dropWhile
          (p := fun point : Nat => decide (point ≠ greater)) (l := rest))
        have left : rest.dropWhile (fun point => decide (point ≠ greater)) ≠ [] := by
          intro gone
          have same := List.dropWhile_eq_nil_iff.mp gone greater tag.2
          simp at same
        have some := List.length_pos_iff.mpr left
        rw [List.length_append] at whole
        rw [List.length_cons]
        omega
      · exact Nat.zero_le _

theorem length_substitute_tags (text : Text) :
    (substitute tagLength [] text).length ≤ text.length :=
  length_substitute_le (fun _ _ => Nat.zero_le _) tagLength_le text

theorem length_substitute_spaces (text : Text) :
    (substitute (runLength isSpace) [space] text).length ≤ text.length :=
  length_substitute_le (fun _ matched => matched)
    (fun _ => (List.takeWhile_sublist isSpace).length_le) text

def printed (query : Text) : Text :=
  (substitute tagLength [] (query.take maxQueryLength)).filter (fun point => !isControl point)

theorem validateQuery_eq (query : Text) :
    validateQuery query =
      strip isSpace (substitute (runLength isSpace) [space] (printed query)) := by
  rw [validateQuery, substitute_class, printed]

theorem untagged_collapsed (query : Text) :
    Untagged (substitute (runLength isSpace) [space] (printed query)) := by
  have tags := untagged_substitute (query.take maxQueryLength)
  refine pairwise_substitute (tags.sublist List.filter_sublist) (List.pairwise_singleton _ _) ?_
  intro new inserted point
  obtain rfl := List.mem_singleton.mp inserted
  exact ⟨fun both => absurd both.1 (by decide), fun both => absurd both.2 (by decide)⟩

theorem printable_collapsed {query : Text} {point : Nat}
    (member : point ∈ substitute (runLength isSpace) [space] (printed query)) :
    isControl point = false := by
  obtain old | inserted := mem_substitute member
  · simpa using (List.mem_filter.mp old).2
  · obtain rfl := List.mem_singleton.mp inserted
    decide

theorem validateQuery_sanitized (query : Text) : Sanitized (validateQuery query) := by
  rw [validateQuery_eq]
  have part : strip isSpace (substitute (runLength isSpace) [space] (printed query)) <:+:
      substitute (runLength isSpace) [space] (printed query) := strip_infix
  constructor
  · calc
      _ ≤ (substitute (runLength isSpace) [space] (printed query)).length := part.length_le
      _ ≤ (printed query).length := length_substitute_spaces _
      _ ≤ (substitute tagLength [] (query.take maxQueryLength)).length := List.length_filter_le _ _
      _ ≤ (query.take maxQueryLength).length := length_substitute_tags _
      _ ≤ maxQueryLength := List.length_take_le _ _
  · exact (untagged_collapsed query).sublist part.sublist
  · exact fun point member => printable_collapsed (part.mem member)
  · exact List.IsChain.infix (isChain_substitute_runs (printed query)) part
  · exact fun point member blank => eq_of_mem_substitute_runs (part.mem member) blank
  · exact fun point => strip_head
  · exact fun point => strip_last

theorem validateQuery_eq_self (sanitized : Sanitized text) : validateQuery text = text := by
  have printable : text.filter (fun point => !isControl point) = text := by
    apply List.filter_eq_self.mpr
    intro point member
    rw [sanitized.printable point member]
    rfl
  rw [validateQuery_eq, printed, List.take_of_length_le sanitized.bounded,
    substitute_tags_eq_self sanitized.untagged, printable,
    substitute_runs_eq_self sanitized.spaces sanitized.collapsed,
    strip_eq_self sanitized.leading sanitized.trailing]

theorem validateQuery_complete (query : Text) :
    Sanitized (validateQuery query) ∧ validateQuery (validateQuery query) = validateQuery query :=
  ⟨validateQuery_sanitized query, validateQuery_eq_self (validateQuery_sanitized query)⟩

example : validateQuery (JsonText.codes "a <<b>\n \x07>c <d") = JsonText.codes "a >c <d" := by
  decide +kernel

end RagSystem.QuerySanitizer
