import Mathlib.Data.List.TakeWhile

/-! Shell words, as `shlex.split` reads a line: the scanner over symbols of five kinds, and the
first word of a line. -/

namespace ShellWords

inductive CharKind
  | blank
  | single
  | double
  | slash
  | plain
  deriving DecidableEq, Repr

/-- Blanks, the two quotes and the backslash. -/
def kindOf (char : Char) : CharKind :=
  if char.toNat ∈ [0x20, 0x09, 0x0D, 0x0A] then .blank
  else if char.toNat = 0x27 then .single
  else if char.toNat = 0x22 then .double
  else if char.toNat = 0x5C then .slash
  else .plain

variable {α : Type} (kind : α → CharKind)

/-- Where the scanner is: between words, in one, in quotes, or after a backslash, which within
double quotes is kept unless it escapes something. -/
inductive LexState (α : Type)
  | idle
  | word
  | single
  | double
  | escape
  | escapeDouble (slash : α)
  deriving DecidableEq, Repr

/-- A backslash that is not yet in the word. -/
@[simp] def LexState.held : LexState α → List α
  | escapeDouble slash => [slash]
  | _ => []

/-- The words ended by a symbol, the state after it, and the word begun. -/
structure Turn (α : Type) where
  ended : List (List α) := []
  state : LexState α
  token : List α
  deriving DecidableEq, Repr

def step (state : LexState α) (token : List α) (symbol : α) : Turn α :=
  match state, kind symbol with
  | .idle, .blank => { state := .idle, token := [] }
  | .idle, .single => { state := .single, token := [] }
  | .idle, .double => { state := .double, token := [] }
  | .idle, .slash => { state := .escape, token := [] }
  | .idle, .plain => { state := .word, token := [symbol] }
  | .word, .blank => { ended := [token], state := .idle, token := [] }
  | .word, .single => { state := .single, token := token }
  | .word, .double => { state := .double, token := token }
  | .word, .slash => { state := .escape, token := token }
  | .word, .plain => { state := .word, token := token ++ [symbol] }
  | .single, .single => { state := .word, token := token }
  | .single, _ => { state := .single, token := token ++ [symbol] }
  | .double, .double => { state := .word, token := token }
  | .double, .slash => { state := .escapeDouble symbol, token := token }
  | .double, _ => { state := .double, token := token ++ [symbol] }
  | .escape, _ => { state := .word, token := token ++ [symbol] }
  | .escapeDouble _, .double => { state := .double, token := token ++ [symbol] }
  | .escapeDouble _, .slash => { state := .double, token := token ++ [symbol] }
  | .escapeDouble slash, _ => { state := .double, token := token ++ [slash, symbol] }

/-- The words at the end of the line; `none` is an open quote or a backslash with nothing after
it. -/
def ended : LexState α → List α → Option (List (List α))
  | .idle, _ => some []
  | .word, token => some [token]
  | _, _ => none

def splitFrom (state : LexState α) (token : List α) : List α → Option (List (List α))
  | [] => ended state token
  | symbol :: rest =>
      let turn := step kind state token symbol
      (splitFrom turn.state turn.token rest).map (turn.ended ++ ·)

/-- `shlex.split` -/
def split (line : List α) : Option (List (List α)) := splitFrom kind .idle [] line

example : split kindOf "a 'b c'\"\\d\" \\e".toList =
    some ["a".toList, "b c\\d".toList, "e".toList] := by decide +kernel

section

variable {β : Type} (f : β → α)

def LexState.map : LexState β → LexState α
  | idle => .idle
  | word => .word
  | single => .single
  | double => .double
  | escape => .escape
  | escapeDouble slash => .escapeDouble (f slash)

theorem step_map (state : LexState β) (token : List β) (symbol : β) :
    let turn := step (kind ∘ f) state token symbol
    step kind (state.map f) (token.map f) (f symbol) =
      { ended := turn.ended.map (List.map f), state := turn.state.map f,
        token := turn.token.map f } := by
  cases symbolKind : kind (f symbol) <;> cases state <;>
    simp [step, LexState.map, symbolKind]

theorem splitFrom_map (state : LexState β) (token line : List β) :
    splitFrom kind (state.map f) (token.map f) (line.map f) =
      (splitFrom (kind ∘ f) state token line).map (List.map (List.map f)) := by
  induction line generalizing state token with
  | nil => cases state <;> rfl
  | cons symbol rest ih =>
      simp only [List.map_cons, splitFrom, step_map, ih, Option.map_map]
      congr 1
      funext words
      simp

theorem split_map (line : List β) :
    split kind (line.map f) = (split (kind ∘ f) line).map (List.map (List.map f)) :=
  splitFrom_map kind f .idle [] line

end

/-! ### The first word -/

section

variable (space : α → Bool)

/-- What stands before the first white space, after any at the beginning. -/
def firstWord (line : List α) : List α := (line.dropWhile space).takeWhile (!space ·)

/-- The line opens with a word of plain symbols, which a blank or the end of the line follows. -/
def leads (begun : Bool) : List α → Bool
  | [] => begun
  | symbol :: rest =>
      match kind symbol with
      | .blank => begun || leads false rest
      | .plain => !space symbol && leads true rest
      | _ => false

end

variable {kind} {space : α → Bool}

theorem step_begun (kind : α → CharKind) {state : LexState α} (begun : state ≠ .idle)
    (token : List α) (symbol : α) :
    state = .word ∧ kind symbol = .blank ∨
      ∃ more next, step kind state token symbol = { state := next, token := token ++ more } ∧
        next ≠ .idle ∧ more.length + next.held.length ≤ state.held.length + 1 ∧
        (kind symbol = .blank ∨ kind symbol = .plain → symbol ∈ more) := by
  by_cases ends : state = .word ∧ kind symbol = .blank
  · exact .inl ends
  · right
    refine ⟨(step kind state token symbol).token.drop token.length,
      (step kind state token symbol).state, ?_⟩
    cases symbolKind : kind symbol <;> cases state <;> simp_all [step]

theorem word_goes_on
    (spaces : ∀ symbol, space symbol = true → kind symbol = .blank ∨ kind symbol = .plain)
    {line token : List α} {state : LexState α} {words : List (List α)} (begun : state ≠ .idle)
    (splits : splitFrom kind state token line = some words) :
    ∃ more later, words = (token ++ more) :: later ∧
      ((∃ symbol ∈ more, space symbol = true) ∨
        more.length ≤ state.held.length + (line.takeWhile (!space ·)).length) := by
  induction line generalizing state token words with
  | nil =>
      cases state with
      | word =>
          cases splits
          exact ⟨[], [], by simp, by simp⟩
      | idle => exact absurd rfl begun
      | _ => cases splits
  | cons symbol rest ih =>
      obtain ⟨later, splitsLater, rfl⟩ := Option.map_eq_some_iff.mp splits
      rcases step_begun kind begun token symbol with
        ⟨rfl, blank⟩ | ⟨more, next, turns, goesOn, bound, kept⟩
      · have turns : step kind .word token symbol = ⟨[token], .idle, []⟩ := by simp [step, blank]
        rw [turns]
        exact ⟨[], later, by simp, .inr (Nat.zero_le _)⟩
      · rw [turns] at splitsLater ⊢
        obtain ⟨added, others, rfl, grows⟩ := ih goesOn splitsLater
        refine ⟨more ++ added, others, by simp, ?_⟩
        by_cases white : space symbol = true
        · exact .inl ⟨symbol, List.mem_append_left _ (kept (spaces symbol white)), white⟩
        · rcases grows with ⟨other, member, otherWhite⟩ | short
          · exact .inl ⟨other, List.mem_append_right _ member, otherWhite⟩
          · right
            simp only [List.takeWhile_cons, white, List.length_append, List.length_cons, if_true,
              Bool.not_false]
            omega

theorem space_free (space : α → Bool) (line : List α) :
    ¬ ∃ symbol ∈ line.takeWhile (!space ·), space symbol = true := by
  intro given
  rcases given with ⟨symbol, member, white⟩
  have visible := List.all_eq_true.mp List.all_takeWhile symbol member
  simp [white] at visible

section

variable (blanks : ∀ symbol, kind symbol = .blank → space symbol = true)
  (spaces : ∀ symbol, space symbol = true → kind symbol = .blank ∨ kind symbol = .plain)

include spaces in
theorem quoted_ne {line token : List α} {state : LexState α} {words : List (List α)}
    (begun : state ≠ .idle) (holds : state.held = [])
    (splits : splitFrom kind state token line = some words) {symbol : α}
    (visible : space symbol = false) :
    words.head? ≠ some (token ++ symbol :: line.takeWhile (!space ·)) := by
  obtain ⟨more, later, rfl, goes⟩ := word_goes_on spaces begun splits
  intro heads
  have equal : more = symbol :: line.takeWhile (!space ·) := by simpa using heads
  rcases goes with ⟨other, member, white⟩ | short
  · rw [equal, List.mem_cons] at member
    rcases member with rfl | member
    · rw [visible] at white
      cases white
    · exact space_free space line ⟨other, member, white⟩
  · simp only [equal, holds, List.length_cons, List.length_nil] at short
    omega

include spaces in
theorem white_ne {line token : List α} {words : List (List α)} {symbol : α}
    (splits : splitFrom kind .word (token ++ [symbol]) line = some words) :
    words.head? ≠ some token := by
  obtain ⟨more, later, rfl, goes⟩ := word_goes_on spaces (by simp) splits
  simp

include blanks spaces in
theorem head_word_iff {line token : List α} {words : List (List α)}
    (splits : splitFrom kind .word token line = some words) :
    words.head? = some (token ++ line.takeWhile (!space ·)) ↔
      leads kind space true line = true := by
  induction line generalizing token words with
  | nil =>
      cases splits
      simp [leads]
  | cons symbol rest ih =>
      obtain ⟨later, splitsLater, rfl⟩ := Option.map_eq_some_iff.mp splits
      cases symbolKind : kind symbol with
      | blank =>
          simp [step, symbolKind, leads, blanks symbol symbolKind]
      | plain =>
          simp only [step, symbolKind] at splitsLater ⊢
          cases white : space symbol with
          | true =>
              have differs := white_ne spaces splitsLater
              simpa [leads, symbolKind, white] using differs
          | false =>
              have after := ih splitsLater
              simpa [leads, symbolKind, white] using after
      | _ =>
          have visible : space symbol = false := by
            by_contra white
            have kinds := spaces symbol (by simpa using white)
            simp [symbolKind] at kinds
          simp only [step, symbolKind] at splitsLater ⊢
          have differs := quoted_ne spaces (by simp) rfl splitsLater visible
          simpa [leads, symbolKind, visible] using differs

include blanks spaces in
theorem head_iff {line : List α} {words : List (List α)} (splits : split kind line = some words) :
    words.head? = some (firstWord space line) ↔ leads kind space false line = true := by
  unfold split at splits
  induction line generalizing words with
  | nil =>
      cases splits
      simp [leads]
  | cons symbol rest ih =>
      obtain ⟨later, splitsLater, rfl⟩ := Option.map_eq_some_iff.mp splits
      cases symbolKind : kind symbol with
      | blank =>
          simp only [step, symbolKind] at splitsLater ⊢
          have after := ih splitsLater
          simpa [leads, symbolKind, firstWord, blanks symbol symbolKind] using after
      | plain =>
          simp only [step, symbolKind] at splitsLater ⊢
          cases white : space symbol with
          | true =>
              obtain ⟨more, others, rfl, goes⟩ := word_goes_on spaces (by simp) splitsLater
              have free := space_free space ((symbol :: rest).dropWhile space)
              have differs : symbol :: more ≠ firstWord space (symbol :: rest) := by
                intro equal
                apply free
                exact ⟨symbol, by rw [← firstWord, ← equal]; exact List.mem_cons_self, white⟩
              simpa [leads, symbolKind, white] using differs
          | false =>
              have after := head_word_iff blanks spaces splitsLater
              simpa [leads, symbolKind, white, firstWord] using after
      | _ =>
          have visible : space symbol = false := by
            by_contra white
            have kinds := spaces symbol (by simpa using white)
            simp [symbolKind] at kinds
          simp only [step, symbolKind] at splitsLater ⊢
          have differs := quoted_ne spaces (by simp) rfl splitsLater visible
          simpa [leads, symbolKind, visible, firstWord] using differs

end

end ShellWords
