import Mathlib.Data.List.Basic

/-! Literals between quotes in which an escape symbol takes the next symbol as it is, and texts in
which only the quotes have been escaped. -/

namespace QuotedText

variable {α : Type*} [DecidableEq α] (quote escape : α)

/-- What a literal denotes and what follows it, read after its opening quote; `none` if it does
not end. -/
def readLiteral : List α → Option (List α × List α)
  | [] => none
  | symbol :: rest =>
      if symbol = quote then some ([], rest)
      else if symbol = escape then
        match rest with
        | [] => none
        | taken :: later => (readLiteral later).map (fun read => (taken :: read.1, read.2))
      else (readLiteral rest).map (fun read => (symbol :: read.1, read.2))

def escapeQuotes (text : List α) : List α :=
  text.flatMap (fun symbol => if symbol = quote then [escape, quote] else [symbol])

variable {quote escape} {text read rest : List α}

theorem readLiteral_quote : readLiteral quote escape (quote :: rest) = some ([], rest) := by
  rw [readLiteral.eq_def]
  simp only [if_true]

theorem readLiteral_plain {symbol : α} (unquoted : symbol ≠ quote) (unescaped : symbol ≠ escape) :
    readLiteral quote escape (symbol :: rest) =
      (readLiteral quote escape rest).map (fun read => (symbol :: read.1, read.2)) := by
  rw [readLiteral.eq_def]
  simp only [unquoted, unescaped, if_false]

theorem readLiteral_escape (distinct : escape ≠ quote) (taken : α) :
    readLiteral quote escape (escape :: taken :: rest) =
      (readLiteral quote escape rest).map (fun read => (taken :: read.1, read.2)) := by
  rw [readLiteral.eq_def]
  simp only [distinct, if_false, if_true]

theorem escapeQuotes_quote :
    escapeQuotes quote escape (quote :: text) =
      escape :: quote :: escapeQuotes quote escape text := by
  simp [escapeQuotes]

theorem escapeQuotes_cons {symbol : α} (unquoted : symbol ≠ quote) :
    escapeQuotes quote escape (symbol :: text) = symbol :: escapeQuotes quote escape text := by
  simp [escapeQuotes, unquoted]

theorem readLiteral_escapeQuotes (distinct : escape ≠ quote) (plain : escape ∉ text) :
    readLiteral quote escape (escapeQuotes quote escape text ++ quote :: rest) =
      some (text, rest) := by
  induction text with
  | nil => exact readLiteral_quote
  | cons symbol text ih =>
      have later := ih (fun member => plain (List.mem_cons_of_mem symbol member))
      by_cases quoted : symbol = quote
      · subst quoted
        rw [escapeQuotes_quote, List.cons_append, List.cons_append, readLiteral_escape distinct,
          later]
        rfl
      · have unescaped : symbol ≠ escape := fun same => plain (same ▸ List.mem_cons_self)
        rw [escapeQuotes_cons quoted, List.cons_append, readLiteral_plain quoted unescaped, later]
        rfl

theorem length_le_of_readLiteral (distinct : escape ≠ quote) (text : List α) {read : List α}
    (whole : readLiteral quote escape (escapeQuotes quote escape text ++ [quote]) =
      some (read, [])) : read.length ≤ text.length := by
  induction length : text.length using Nat.strongRecOn generalizing text read with
  | ind count ih =>
      cases text with
      | nil =>
          obtain ⟨rfl, -⟩ := Prod.mk.inj (Option.some.inj (readLiteral_quote.symm.trans whole))
          exact Nat.zero_le _
      | cons symbol text =>
          -- whatever is taken first, one symbol of the text at least has been used up
          have shorter {taken : α} {later : List α} (fewer : later.length ≤ text.length)
              (again : (readLiteral quote escape (escapeQuotes quote escape later ++ [quote])).map
                (fun read => (taken :: read.1, read.2)) = some (read, [])) :
              read.length ≤ count := by
            obtain ⟨⟨behind, after⟩, found, same⟩ := Option.map_eq_some_iff.mp again
            obtain ⟨rfl, rfl⟩ := Prod.mk.inj same
            rw [List.length_cons] at length
            have bound : behind.length ≤ later.length :=
              ih later.length (by omega) later found rfl
            change behind.length + 1 ≤ count
            omega
          by_cases quoted : symbol = quote
          · subst quoted
            rw [escapeQuotes_quote, List.cons_append, List.cons_append,
              readLiteral_escape distinct] at whole
            exact shorter (Nat.le_refl _) whole
          · rw [escapeQuotes_cons quoted, List.cons_append] at whole
            by_cases escaped : symbol = escape
            · subst escaped
              cases text with
              | nil =>
                  simp [escapeQuotes, readLiteral, distinct] at whole
              | cons taken text =>
                  by_cases closing : taken = quote
                  · subst closing
                    rw [escapeQuotes_quote, List.cons_append, List.cons_append,
                      readLiteral_escape distinct, readLiteral_quote] at whole
                    simp at whole
                  · rw [escapeQuotes_cons closing, List.cons_append,
                      readLiteral_escape distinct] at whole
                    exact shorter (Nat.le_succ _) whole
            · rw [readLiteral_plain quoted escaped] at whole
              exact shorter (Nat.le_refl _) whole

theorem readLiteral_escapeQuotes_iff (distinct : escape ≠ quote) :
    readLiteral quote escape (escapeQuotes quote escape text ++ [quote]) = some (text, []) ↔
      escape ∉ text := by
  constructor
  · intro whole member
    induction text with
    | nil => exact List.not_mem_nil member
    | cons symbol text ih =>
        by_cases quoted : symbol = quote
        · subst quoted
          rw [escapeQuotes_quote, List.cons_append, List.cons_append,
            readLiteral_escape distinct] at whole
          obtain ⟨⟨behind, after⟩, found, same⟩ := Option.map_eq_some_iff.mp whole
          obtain ⟨same, rfl⟩ := Prod.mk.inj same
          obtain rfl := List.tail_eq_of_cons_eq same
          exact ih found ((List.mem_cons.mp member).resolve_left distinct)
        · by_cases escaped : symbol = escape
          · subst escaped
            -- the symbol after the escape takes its place, and the rest is too short
            rw [escapeQuotes_cons quoted, List.cons_append] at whole
            cases text with
            | nil => simp [escapeQuotes, readLiteral, distinct] at whole
            | cons taken text =>
                by_cases closing : taken = quote
                · subst closing
                  rw [escapeQuotes_quote, List.cons_append, List.cons_append,
                    readLiteral_escape distinct, readLiteral_quote] at whole
                  simp at whole
                · rw [escapeQuotes_cons closing, List.cons_append,
                    readLiteral_escape distinct] at whole
                  obtain ⟨⟨behind, after⟩, found, same⟩ := Option.map_eq_some_iff.mp whole
                  obtain ⟨same, rfl⟩ := Prod.mk.inj same
                  have bound := length_le_of_readLiteral distinct text found
                  have lengths := congrArg List.length (List.tail_eq_of_cons_eq same)
                  simp only [List.length_cons] at lengths
                  omega
          · rw [escapeQuotes_cons quoted, List.cons_append,
              readLiteral_plain quoted escaped] at whole
            obtain ⟨⟨behind, after⟩, found, same⟩ := Option.map_eq_some_iff.mp whole
            obtain ⟨same, rfl⟩ := Prod.mk.inj same
            obtain rfl := List.tail_eq_of_cons_eq same
            exact ih found ((List.mem_cons.mp member).resolve_left (Ne.symm escaped))
  · exact readLiteral_escapeQuotes distinct

end QuotedText
