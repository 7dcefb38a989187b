import Mathlib.Algebra.Order.Archimedean.Basic
import Mathlib.Algebra.Order.Floor.Semifield
import Mathlib.Tactic.Ring
import RagSystem.Etl.SemanticChunker

/-! `_estimate_tokens` (`etl/chunker/semantic_chunker.py`), and how far the chunks that
`_merge_short_chunks` puts together keep to the limit that decides about them. -/

namespace RagSystem.Etl

def isCyrillic (char : Char) : Bool :=
  (0x0400 ≤ char.toNat && char.toNat ≤ 0x04FF) || (0x0500 ≤ char.toNat && char.toNat ≤ 0x052F)

def isLatin (char : Char) : Bool :=
  (0x0041 ≤ char.toNat && char.toNat ≤ 0x005A) || (0x0061 ≤ char.toNat && char.toNat ≤ 0x007A) ||
    (0x00C0 ≤ char.toNat && char.toNat ≤ 0x024F)

def isCjk (char : Char) : Bool :=
  (0x4E00 ≤ char.toNat && char.toNat ≤ 0x9FFF) || (0x3040 ≤ char.toNat && char.toNat ≤ 0x309F) ||
    (0x30A0 ≤ char.toNat && char.toNat ≤ 0x30FF) || (0xAC00 ≤ char.toNat && char.toNat ≤ 0xD7AF)

inductive Script
  | cyrillic
  | latin
  | cjk
  | other
  deriving DecidableEq, Repr

def scriptOf (char : Char) : Script :=
  if isCyrillic char then .cyrillic else if isLatin char then .latin
  else if isCjk char then .cjk else .other

def countOf (script : Script) (text : List Char) : Nat :=
  text.countP (fun char => scriptOf char = script)

/-- `cyrillic / 3.0 + latin / 4.0 + cjk / 1.5 + other / 4.0` -/
def weightedRatio (text : List Char) : ℚ :=
  countOf .cyrillic text / 3 + countOf .latin text / 4 + countOf .cjk text / (3 / 2) +
    countOf .other text / 4

/-- `_estimate_tokens` -/
def estimateTokens (text : String) : Nat :=
  if text = "" then 0 else max 1 ⌊weightedRatio text.toList⌋₊

/-! ### Twelfths of a token -/

def Script.twelfths : Script → Nat
  | .cyrillic => 4
  | .latin => 3
  | .cjk => 8
  | .other => 3

def weight (text : String) : Nat := (text.toList.map (fun char => (scriptOf char).twelfths)).sum

theorem weightedRatio_eq (text : List Char) :
    weightedRatio text = ((text.map (fun char => (scriptOf char).twelfths)).sum : Nat) / 12 := by
  induction text with
  | nil => simp [weightedRatio, countOf]
  | cons char rest ih =>
      have step : weightedRatio (char :: rest) =
          weightedRatio rest + ((scriptOf char).twelfths : ℚ) / 12 := by
        unfold weightedRatio countOf
        cases kind : scriptOf char <;> simp [kind, Script.twelfths] <;> ring
      rw [step, ih, List.map_cons, List.sum_cons]
      push_cast
      ring

theorem estimateTokens_eq (text : String) :
    estimateTokens text = if text = "" then 0 else max 1 (weight text / 12) := by
  have floored := Nat.floor_div_eq_div (K := ℚ) (weight text) 12
  rw [estimateTokens, weightedRatio_eq]
  split
  · rfl
  · exact congrArg (max 1) floored

theorem weight_append (first second : String) :
    weight (first ++ second) = weight first + weight second := by
  simp [weight]

theorem weight_joined (first second : String) :
    weight (first ++ "\n\n" ++ second) = weight first + weight second + 6 := by
  have blank : weight "\n\n" = 6 := by decide +kernel
  rw [weight_append, weight_append, blank]
  omega

theorem estimateTokens_le_iff {text : String} (some : text ≠ "") (limit : Int) :
    (estimateTokens text : Int) ≤ limit ↔ (max 12 (weight text) : Int) < 12 * (limit + 1) := by
  rw [estimateTokens_eq, if_neg some]
  omega

/-! ### The merge pass -/

variable (chunker : SemanticChunker) (libraries : Libraries)

/-- The test of the loop: the estimates of the two chunks fit together, and one of them is small. -/
def Joins (buffer chunk : Chunk) : Prop :=
  (buffer.tokensApprox + chunk.tokensApprox : Int) ≤ chunker.maxTokens ∧
    ((buffer.tokensApprox : Int) < chunker.minChunkTokens ∨
      (chunk.tokensApprox : Int) < chunker.minChunkTokens)

instance (buffer chunk : Chunk) : Decidable (Joins chunker buffer chunk) :=
  inferInstanceAs (Decidable (_ ∧ _))

def joined (buffer chunk : Chunk) : Chunk :=
  { buffer with
    text := buffer.text ++ "\n\n" ++ chunk.text
    tokensApprox := chunker.estimateTokens (buffer.text ++ "\n\n" ++ chunk.text)
    hash := libraries.sha256 (buffer.text ++ "\n\n" ++ chunk.text)
    keywords := buffer.keywords ++ chunk.keywords
    entities := buffer.entities ++ chunk.entities
    hypotheticalQuestions := buffer.hypotheticalQuestions ++ chunk.hypotheticalQuestions }

theorem mergeInto_cons (buffer chunk : Chunk) (rest : List Chunk) :
    mergeInto chunker libraries buffer (chunk :: rest) =
      if Joins chunker buffer chunk then
        mergeInto chunker libraries (joined chunker libraries buffer chunk) rest
      else buffer :: mergeInto chunker libraries chunk rest := rfl

/-- Wherever the loop joins, what the two texts weigh with the blank line between them, and at least
one token, is below the limit before it is rounded down. -/
def NoCarryFrom (buffer : Chunk) : List Chunk → Prop
  | [] => True
  | chunk :: rest =>
      if Joins chunker buffer chunk then
        (max 12 (weight buffer.text + weight chunk.text + 6) : Int) < 12 * (chunker.maxTokens + 1) ∧
          NoCarryFrom (joined chunker libraries buffer chunk) rest
      else NoCarryFrom chunk rest

def NoCarry : List Chunk → Prop
  | [] => True
  | chunk :: rest => NoCarryFrom chunker libraries chunk rest

/-- The chunk's estimate is the estimator's, and within the limit. -/
structure Estimated (chunk : Chunk) : Prop where
  estimate : chunk.tokensApprox = estimateTokens chunk.text
  within : (chunk.tokensApprox : Int) ≤ chunker.maxTokens

structure Bounded (chunks merged : List Chunk) : Prop where
  within : ∀ chunk ∈ merged, (estimateTokens chunk.text : Int) ≤ chunker.maxTokens
  text : "\n\n".intercalate (merged.map Chunk.text) = "\n\n".intercalate (chunks.map Chunk.text)
variable {chunker libraries}

theorem mergeInto_ne_nil (buffer : Chunk) (rest : List Chunk) :
    mergeInto chunker libraries buffer rest ≠ [] := by
  induction rest generalizing buffer with
  | nil => simp [mergeInto]
  | cons chunk rest ih =>
      rw [mergeInto_cons]
      split
      · exact ih _
      · simp

theorem intercalate_mergeInto (buffer : Chunk) (rest : List Chunk) :
    "\n\n".intercalate ((mergeInto chunker libraries buffer rest).map Chunk.text) =
      "\n\n".intercalate ((buffer :: rest).map Chunk.text) := by
  induction rest generalizing buffer with
  | nil => rfl
  | cons chunk rest ih =>
      rw [mergeInto_cons]
      split
      · rw [ih]
        cases rest with
        | nil => simp [joined]
        | cons next later => simp [joined, String.append_assoc]
      · have more : (mergeInto chunker libraries chunk rest).map Chunk.text ≠ [] := by
          simpa using mergeInto_ne_nil chunk rest
        rw [List.map_cons, String.intercalate_cons_of_ne_nil more, ih,
          ← String.intercalate_cons_of_ne_nil (by simp)]
        rfl

theorem mem_mergeInto_of_exceeds {buffer : Chunk}
    (exceeds : chunker.maxTokens < (buffer.tokensApprox : Int)) (rest : List Chunk) :
    buffer ∈ mergeInto chunker libraries buffer rest := by
  cases rest with
  | nil => exact List.mem_singleton_self buffer
  | cons chunk rest =>
      have apart : ¬ Joins chunker buffer chunk := by
        intro joins
        have small := joins.1
        omega
      rw [mergeInto_cons, if_neg apart]
      exact List.mem_cons_self

theorem within_mergeInto_iff (estimator : chunker.estimateTokens = estimateTokens)
    {buffer : Chunk} {rest : List Chunk} (first : Estimated chunker buffer)
    (others : ∀ chunk ∈ rest, Estimated chunker chunk) :
    (∀ chunk ∈ mergeInto chunker libraries buffer rest,
      (estimateTokens chunk.text : Int) ≤ chunker.maxTokens) ↔
      NoCarryFrom chunker libraries buffer rest := by
  induction rest generalizing buffer with
  | nil =>
      have fits := first.within
      rw [first.estimate] at fits
      simp [mergeInto, NoCarryFrom, fits]
  | cons chunk rest ih =>
      obtain ⟨next, later⟩ := List.forall_mem_cons.mp others
      rw [mergeInto_cons, NoCarryFrom]
      by_cases joins : Joins chunker buffer chunk
      · have words : (joined chunker libraries buffer chunk).text ≠ "" := by
          simp [joined]
        have limit := estimateTokens_le_iff words chunker.maxTokens
        have weighs : weight (joined chunker libraries buffer chunk).text =
            weight buffer.text + weight chunk.text + 6 := weight_joined _ _
        have estimate : (joined chunker libraries buffer chunk).tokensApprox =
            estimateTokens (joined chunker libraries buffer chunk).text :=
          congrFun estimator _
        rw [weighs, Nat.cast_add, Nat.cast_add, Nat.cast_ofNat] at limit
        rw [if_pos joins, if_pos joins, ← limit]
        constructor
        · intro all
          have fits : (estimateTokens (joined chunker libraries buffer chunk).text : Int) ≤
              chunker.maxTokens := by
            by_contra exceeds
            rw [← estimate] at exceeds
            have present : joined chunker libraries buffer chunk ∈
                mergeInto chunker libraries (joined chunker libraries buffer chunk) rest :=
              mem_mergeInto_of_exceeds (not_le.mp exceeds) rest
            have bounded := all _ present
            rw [← estimate] at bounded
            exact exceeds bounded
          exact ⟨fits, (ih ⟨estimate, estimate ▸ fits⟩ later).mp all⟩
        · intro kept
          exact (ih ⟨estimate, estimate ▸ kept.1⟩ later).mpr kept.2
      · rw [if_neg joins, if_neg joins, List.forall_mem_cons, ih next later]
        have fits := first.within
        rw [first.estimate] at fits
        exact and_iff_right fits

theorem weight_le_estimate (text : String) : weight text ≤ 12 * estimateTokens text + 11 := by
  rw [estimateTokens_eq]
  split
  · next blank => simp [blank, weight]
  · omega

theorem mergeInto_le_add_two (estimator : chunker.estimateTokens = estimateTokens)
    {buffer : Chunk} {rest : List Chunk}
    (estimate : buffer.tokensApprox = estimateTokens buffer.text)
    (within : (buffer.tokensApprox : Int) ≤ chunker.maxTokens + 2)
    (others : ∀ chunk ∈ rest, Estimated chunker chunk) :
    ∀ chunk ∈ mergeInto chunker libraries buffer rest,
      (estimateTokens chunk.text : Int) ≤ chunker.maxTokens + 2 := by
  induction rest generalizing buffer with
  | nil => simpa [mergeInto, ← estimate] using within
  | cons chunk rest ih =>
      obtain ⟨next, later⟩ := List.forall_mem_cons.mp others
      rw [mergeInto_cons]
      split
      · next joins =>
          have taken : (joined chunker libraries buffer chunk).tokensApprox =
              estimateTokens (joined chunker libraries buffer chunk).text := congrFun estimator _
          have words : (joined chunker libraries buffer chunk).text ≠ "" := by simp [joined]
          have weighs : weight (joined chunker libraries buffer chunk).text =
              weight buffer.text + weight chunk.text + 6 := weight_joined _ _
          have first := weight_le_estimate buffer.text
          have second := weight_le_estimate chunk.text
          have small := joins.1
          rw [estimate, next.estimate] at small
          refine ih taken ?_ later
          rw [taken, estimateTokens_eq, if_neg words, weighs]
          omega
      · rw [List.forall_mem_cons]
        exact ⟨estimate ▸ within, ih next.estimate (next.within.trans (by omega)) later⟩

def word : Chunk := { text := "abcdefg", hash := "", tokensApprox := 1 }

def limited (maxTokens : Int) : SemanticChunker :=
  { maxTokens := maxTokens, estimateTokens := estimateTokens }

def noLibraries : Libraries := ⟨id, none, none, none⟩

theorem estimated_word {maxTokens : Int} (room : 1 ≤ maxTokens) :
    ∀ chunk ∈ [word, word], Estimated (limited maxTokens) chunk := by
  have estimate : estimateTokens "abcdefg" = 1 := by
    rw [estimateTokens_eq]
    decide +kernel
  have single : Estimated (limited maxTokens) word := ⟨estimate.symm, by simpa [word, limited] using room⟩
  simp [single]

end RagSystem.Etl
