import RagSystem.Data.ShellWords
import Mathlib.Data.List.Nodup

/-! Shell lines with texts put into them: splitting the line with the texts in it, and splitting it
before, and when the words are the same. -/

namespace ShellWords

variable {α : Type} (kind : α → CharKind)

/-- A symbol of the line, or a place with its text. -/
inductive Slot (α : Type)
  | own (symbol : α)
  | text (content : List α)
  deriving DecidableEq, Repr

namespace Slot

/-- To the scanner a place is one plain symbol. -/
def kindOf : Slot α → CharKind
  | own symbol => kind symbol
  | text _ => .plain

def expand : Slot α → List α
  | own symbol => [symbol]
  | text content => content

end Slot

/-- The line as it is when the texts are put in before it is split. -/
def resolved (slots : List (Slot α)) : List α := slots.flatMap Slot.expand

/-- The words of the line, each place replaced by its text inside its own word. -/
def filled (slots : List (Slot α)) : Option (List (List α)) :=
  (split (Slot.kindOf kind) slots).map (List.map resolved)

/-- A line with texts, symbol by symbol. -/
inductive Part (α : Type)
  | literal (symbol : α)
  | start
  | value (symbol : α)
  deriving DecidableEq, Repr

@[simp] def Part.symbol : Part α → Option α
  | literal symbol => some symbol
  | start => none
  | value symbol => some symbol

def Slot.parts : Slot α → List (Part α)
  | own symbol => [.literal symbol]
  | text content => .start :: content.map .value

def symbols (parts : List (Part α)) : List α := parts.filterMap Part.symbol

/-- The scanner at a place, before the text. -/
@[simp] def opened (state : LexState α) (token : List α) : Turn α :=
  match state with
  | .idle => { state := .word, token := [] }
  | .word => { state := .word, token := token }
  | .single => { state := .single, token := token }
  | .double => { state := .double, token := token }
  | .escape => { state := .word, token := token }
  | .escapeDouble slash => { state := .double, token := token ++ [slash] }

/-- Splitting with the texts put in afterwards. -/
def fillStep (state : LexState α) (token : List α) : Part α → Turn α
  | .literal symbol => step kind state token symbol
  | .start => opened state token
  | .value symbol =>
      { state := (opened state token).state, token := (opened state token).token ++ [symbol] }

def fillFrom (state : LexState α) (token : List α) : List (Part α) → Option (List (List α))
  | [] => ended state token
  | part :: rest =>
      let turn := fillStep kind state token part
      (fillFrom turn.state turn.token rest).map (turn.ended ++ ·)

/-- Where the two ways of splitting are while they agree. In `fresh` a word has begun with texts
that are all empty; in `pendingEscape` and `pendingSlash` a backslash stands before a place whose
text has not begun, or at the end of a text within double quotes. -/
inductive Joint (α : Type)
  | idle
  | fresh
  | word
  | single
  | double
  | escape
  | escapeDouble (slash : α)
  | pendingEscape
  | pendingSlash (slash : α)
  deriving DecidableEq, Repr

namespace Joint

/-- They go on agreeing, or `none`. -/
def next : Joint α → Part α → Option (Joint α)
  | idle, .literal symbol | word, .literal symbol =>
      match kind symbol with
      | .blank => some idle
      | .single => some single
      | .double => some double
      | .slash => some escape
      | .plain => some word
  | fresh, .literal symbol =>
      match kind symbol with
      | .blank => none
      | .single => some single
      | .double => some double
      | .slash => some escape
      | .plain => some word
  | single, .literal symbol => if kind symbol = .single then some word else some single
  | double, .literal symbol =>
      match kind symbol with
      | .double => some word
      | .slash => some (escapeDouble symbol)
      | _ => some double
  | escape, .literal _ => some word
  | escapeDouble _, .literal _ => some double
  | pendingEscape, .literal symbol => if kind symbol = .plain then some word else none
  | idle, .start => some fresh
  | escape, .start => some pendingEscape
  | escapeDouble slash, .start => some (pendingSlash slash)
  | joint, .start => some joint
  | idle, .value symbol | fresh, .value symbol | word, .value symbol =>
      if kind symbol = .plain then some word else none
  | single, .value symbol => if kind symbol = .single then none else some single
  | double, .value symbol =>
      match kind symbol with
      | .double => none
      | .slash => some (pendingSlash symbol)
      | _ => some double
  | escape, .value _ | pendingEscape, .value _ => some word
  | pendingSlash _, .literal symbol | escapeDouble _, .value symbol
  | pendingSlash _, .value symbol =>
      match kind symbol with
      | .double | .slash => none
      | _ => some double

/-- The state of the scanner that sees a plain symbol at each place. -/
@[simp] def filled : Joint α → LexState α
  | idle => .idle
  | fresh | word | pendingEscape => .word
  | single => .single
  | double | pendingSlash _ => .double
  | escape => .escape
  | escapeDouble slash => .escapeDouble slash

/-- The state of the scanner that sees the texts. -/
@[simp] def resolved : Joint α → LexState α
  | idle | fresh => .idle
  | word => .word
  | single => .single
  | double => .double
  | escape | pendingEscape => .escape
  | escapeDouble slash | pendingSlash slash => .escapeDouble slash

/-- The backslash that only the first scanner has in its word. -/
@[simp] def ahead : Joint α → List α
  | pendingSlash slash => [slash]
  | _ => []

/-- No word has begun. -/
def Empty (joint : Joint α) (token : List α) : Prop :=
  joint = idle ∨ joint = fresh → token = []

end Joint

/-- The texts leave the words of the line as they are. -/
def inertFrom (joint : Joint α) : List (Part α) → Bool
  | [] =>
      match joint with
      | .idle | .word => true
      | _ => false
  | part :: rest =>
      match joint.next kind part with
      | none => false
      | some next => inertFrom next rest

def inert (slots : List (Slot α)) : Bool := inertFrom kind .idle (slots.flatMap Slot.parts)

/-! ### The two ways side by side -/

variable {kind}

/-- One symbol of the line with the texts put in before; a place is none. -/
def readStep (kind : α → CharKind) (state : LexState α) (token : List α) (part : Part α) : Turn α :=
  match part.symbol with
  | none => { state := state, token := token }
  | some symbol => step kind state token symbol

theorem symbols_cons (part : Part α) (rest : List (Part α)) :
    symbols (part :: rest) = part.symbol.toList ++ symbols rest := by
  cases part <;> simp [symbols, List.filterMap_cons]

theorem splitFrom_symbols (state : LexState α) (token : List α) (part : Part α)
    (rest : List (Part α)) :
    splitFrom kind state token (symbols (part :: rest)) =
      (splitFrom kind (readStep kind state token part).state (readStep kind state token part).token
        (symbols rest)).map ((readStep kind state token part).ended ++ ·) := by
  cases part with
  | literal symbol => rfl
  | start => simp [symbols, List.filterMap_cons, Part.symbol, readStep]
  | value symbol => rfl

theorem Joint.next_aligned {joint next : Joint α} {part : Part α} {token : List α}
    (empty : joint.Empty token) (advances : joint.next kind part = some next) :
    let turn := readStep kind joint.resolved token part
    fillStep kind joint.filled (token ++ joint.ahead) part =
        { ended := turn.ended, state := next.filled, token := turn.token ++ next.ahead } ∧
      turn.state = next.resolved ∧ next.Empty turn.token ∧
      (turn.token ++ next.resolved.held).Sublist
        (token ++ joint.resolved.held ++ part.symbol.toList) := by
  cases part with
  | start =>
      cases joint <;> simp only [Joint.next, Option.some.injEq] at advances <;> subst advances <;>
        simp_all [Joint.Empty, fillStep, readStep]
  | literal symbol =>
      cases symbolKind : kind symbol <;> cases joint <;>
        simp only [Joint.next, symbolKind, reduceCtorEq, if_true, if_false,
          Option.some.injEq] at advances <;>
        subst advances <;>
        simp_all [Joint.Empty, fillStep, step, readStep]
  | value symbol =>
      cases symbolKind : kind symbol <;> cases joint <;>
        simp only [Joint.next, symbolKind, reduceCtorEq, if_true, if_false,
          Option.some.injEq] at advances <;>
        subst advances <;>
        simp_all [Joint.Empty, fillStep, step, readStep]

/-- A symbol of a begun word, which will be in a word of the line. -/
def Turn.Keeps (turn : Turn α) (symbol : α) : Prop :=
  turn.state ≠ .idle ∧ symbol ∈ turn.token

/-- A symbol that no word of the line has or will have, unless it is still to come. -/
def Turn.Lacks (turn : Turn α) (symbol : α) : Prop :=
  symbol ∉ turn.ended.flatten ∧ symbol ∉ turn.token ∧ symbol ∉ turn.state.held

theorem Joint.next_parts {joint : Joint α} {part : Part α} {token : List α}
    (parts : joint.next kind part = none)
    (nodup : (token ++ joint.resolved.held ++ part.symbol.toList).Nodup) :
    let first := fillStep kind joint.filled (token ++ joint.ahead) part
    let second := readStep kind joint.resolved token part
    (joint = .fresh ∧ ∃ symbol, part = .literal symbol ∧ kind symbol = .blank) ∨
      ∃ symbol ∈ token ++ joint.resolved.held ++ part.symbol.toList,
        first.Keeps symbol ∧ second.Lacks symbol ∨ second.Keeps symbol ∧ first.Lacks symbol := by
  rw [List.append_assoc, List.nodup_append] at nodup
  have coming : (joint.resolved.held ++ part.symbol.toList).Nodup := nodup.2.1
  have apart : ∀ symbol ∈ joint.resolved.held ++ part.symbol.toList, symbol ∉ token :=
    fun symbol member earlier => nodup.2.2 symbol earlier symbol member rfl
  clear nodup
  cases part with
  | start => cases joint <;> simp [Joint.next] at parts
  | literal symbol =>
      cases joint with
      | fresh => 
        cases symbolKind : kind symbol <;> simp [Joint.next, symbolKind] at parts
        exact .inl ⟨rfl, symbol, rfl, symbolKind⟩
      | pendingEscape =>
        refine .inr ⟨symbol, by simp, .inr ?_⟩
        cases symbolKind : kind symbol <;> simp_all [Joint.next, Turn.Keeps, Turn.Lacks,
            fillStep, step, readStep]
      | pendingSlash slash =>
        refine .inr ⟨slash, by simp, .inl ?_⟩
        cases symbolKind : kind symbol <;> simp_all [Joint.next, Turn.Keeps, Turn.Lacks,
            fillStep, step, readStep]
      | _ => 
        cases symbolKind : kind symbol <;> simp [Joint.next, symbolKind] at parts
  | value symbol =>
      cases joint with
      | pendingSlash slash =>
        refine .inr ⟨slash, by simp, .inl ?_⟩
        cases symbolKind : kind symbol <;> simp_all [Joint.next, Turn.Keeps, Turn.Lacks,
            fillStep, step, readStep]
      | escapeDouble slash =>
        refine .inr ⟨slash, by simp, .inl ?_⟩
        cases symbolKind : kind symbol <;> simp_all [Joint.next, Turn.Keeps, Turn.Lacks,
            fillStep, step, readStep]
      | _ =>
        refine .inr ⟨symbol, by simp, .inl ?_⟩
        cases symbolKind : kind symbol <;> simp_all [Joint.next, Turn.Keeps, Turn.Lacks,
            fillStep, step, readStep]

theorem fillStep_keeps {state : LexState α} {token : List α} {part : Part α} {symbol : α}
    (begun : state ≠ .idle) (member : symbol ∈ token) :
    symbol ∈ (fillStep kind state token part).ended.flatten ∨
      (fillStep kind state token part).Keeps symbol := by
  cases part with
  | start => cases state <;> simp_all [fillStep, Turn.Keeps]
  | value value => cases state <;> simp_all [fillStep, Turn.Keeps]
  | literal literal =>
      cases literalKind : kind literal <;> cases state <;>
        simp_all [fillStep, step, Turn.Keeps]

theorem mem_of_keeps {parts : List (Part α)} {state : LexState α} {token : List α} {symbol : α}
    {words : List (List α)} (begun : state ≠ .idle) (member : symbol ∈ token)
    (fills : fillFrom kind state token parts = some words) : symbol ∈ words.flatten := by
  induction parts generalizing state token words with
  | nil =>
      cases state with
      | word =>
          cases fills
          simpa using member
      | idle => exact absurd rfl begun
      | _ => cases fills
  | cons part rest ih =>
      obtain ⟨later, fillsLater, rfl⟩ := Option.map_eq_some_iff.mp fills
      rw [List.flatten_append, List.mem_append]
      cases fillStep_keeps begun member with
      | inl ended => exact .inl ended
      | inr kept => exact .inr (ih kept.1 kept.2 fillsLater)

theorem fillStep_mem {state : LexState α} {token : List α} {part : Part α} {symbol : α}
    (member : ¬ (fillStep kind state token part).Lacks symbol) :
    symbol ∈ token ∨ symbol ∈ state.held ∨ symbol ∈ part.symbol.toList := by
  contrapose member
  push Not at member
  cases part with
  | start => cases state <;> simp_all [fillStep, Turn.Lacks]
  | value value => cases state <;> simp_all [fillStep, Turn.Lacks]
  | literal literal =>
      cases literalKind : kind literal <;> cases state <;>
        simp_all [fillStep, step, Turn.Lacks]

theorem mem_of_mem_words {parts : List (Part α)} {state : LexState α} {token : List α} {symbol : α}
    {words : List (List α)} (fills : fillFrom kind state token parts = some words)
    (member : symbol ∈ words.flatten) :
    symbol ∈ token ∨ symbol ∈ state.held ∨ symbol ∈ symbols parts := by
  induction parts generalizing state token words with
  | nil =>
      cases state with
      | idle => cases fills; cases member
      | word =>
          cases fills
          exact .inl (by simpa using member)
      | _ => cases fills
  | cons part rest ih =>
      obtain ⟨later, fillsLater, rfl⟩ := Option.map_eq_some_iff.mp fills
      rw [List.flatten_append, List.mem_append] at member
      have here : symbol ∈ symbols rest ∨ ¬ (fillStep kind state token part).Lacks symbol := by
        cases member with
        | inl ended => exact .inr (fun lacks => lacks.1 ended)
        | inr after =>
            rcases ih fillsLater after with begun | held | coming
            · exact .inr (fun lacks => lacks.2.1 begun)
            · exact .inr (fun lacks => lacks.2.2 held)
            · exact .inl coming
      rw [symbols_cons, List.mem_append]
      cases here with
      | inl coming => exact .inr (.inr (.inr coming))
      | inr present =>
          rcases fillStep_mem present with begun | held | own
          · exact .inl begun
          · exact .inr (.inl held)
          · exact .inr (.inr (.inl own))

theorem fillFrom_literal (state : LexState α) (token line : List α) :
    fillFrom kind state token (line.map .literal) = splitFrom kind state token line := by
  induction line generalizing state token with
  | nil => rfl
  | cons symbol rest ih => simp only [List.map_cons, fillFrom, splitFrom, fillStep, ih]

theorem symbols_literal (line : List α) : symbols (line.map .literal) = line := by
  induction line with
  | nil => rfl
  | cons symbol rest ih => simpa [symbols, Part.symbol] using ih

theorem Turn.Keeps.mem {turn : Turn α} {symbol : α} {parts : List (Part α)}
    {later : List (List α)} (keeps : turn.Keeps symbol)
    (fills : fillFrom kind turn.state turn.token parts = some later) :
    symbol ∈ (turn.ended ++ later).flatten := by
  rw [List.flatten_append, List.mem_append]
  exact .inr (mem_of_keeps keeps.1 keeps.2 fills)

theorem Turn.Lacks.not_mem {turn : Turn α} {symbol : α} {parts : List (Part α)}
    {later : List (List α)} (lacks : turn.Lacks symbol) (absent : symbol ∉ symbols parts)
    (fills : fillFrom kind turn.state turn.token parts = some later) :
    symbol ∉ (turn.ended ++ later).flatten := by
  intro member
  rw [List.flatten_append, List.mem_append] at member
  cases member with
  | inl ended => exact lacks.1 ended
  | inr after =>
      rcases mem_of_mem_words fills after with begun | held | coming
      · exact lacks.2.1 begun
      · exact lacks.2.2 held
      · exact absent coming

theorem nodup_rest {token held words : List α} {part : Part α} {rest : List (Part α)}
    (nodup : (token ++ held ++ symbols (part :: rest)).Nodup)
    (sublist : words.Sublist (token ++ held ++ part.symbol.toList)) :
    (words ++ symbols rest).Nodup := by
  rw [symbols_cons, ← List.append_assoc] at nodup
  exact nodup.sublist (sublist.append (List.Sublist.refl _))

theorem splits_alike {parts : List (Part α)} {joint : Joint α} {token : List α}
    (empty : joint.Empty token) (quiet : inertFrom kind joint parts = true) :
    ∃ words, fillFrom kind joint.filled (token ++ joint.ahead) parts = some words ∧
      splitFrom kind joint.resolved token (symbols parts) = some words := by
  induction parts generalizing joint token with
  | nil =>
      cases joint with
      | idle => exact ⟨[], rfl, rfl⟩
      | word => exact ⟨[token], by simp [fillFrom, ended], rfl⟩
      | _ => cases quiet
  | cons part rest ih =>
      cases advance : joint.next kind part with
      | none => simp [inertFrom, advance] at quiet
      | some next =>
          have quietAfter : inertFrom kind next rest = true := by
            simpa [inertFrom, advance] using quiet
          have aligned := Joint.next_aligned empty advance
          obtain ⟨words, fills, splits⟩ := ih aligned.2.2.1 quietAfter
          refine ⟨(readStep kind joint.resolved token part).ended ++ words, ?_, ?_⟩
          · simp only [fillFrom, aligned.1, fills, Option.map_some]
          · rw [splitFrom_symbols, aligned.2.1, splits, Option.map_some]

theorem alike_inert {parts : List (Part α)} {joint : Joint α} {token : List α}
    {first second : List (List α)} (empty : joint.Empty token)
    (nodup : (token ++ joint.resolved.held ++ symbols parts).Nodup)
    (fills : fillFrom kind joint.filled (token ++ joint.ahead) parts = some first)
    (splits : splitFrom kind joint.resolved token (symbols parts) = some second)
    (same : first.flatten = second.flatten) :
    second.length ≤ first.length ∧
      (second.length = first.length → inertFrom kind joint parts = true) := by
  induction parts generalizing joint token first second with
  | nil =>
      cases joint with
      | idle => cases fills; cases splits; exact ⟨Nat.le_refl _, fun _ => rfl⟩
      | fresh => cases fills; cases splits; simp
      | word => cases fills; cases splits; exact ⟨by simp, fun _ => rfl⟩
      | _ => cases splits
  | cons part rest ih =>
      rw [splitFrom_symbols] at splits
      obtain ⟨firstLater, fillsLater, rfl⟩ := Option.map_eq_some_iff.mp fills
      obtain ⟨secondLater, splitsLater, rfl⟩ := Option.map_eq_some_iff.mp splits
      cases advance : joint.next kind part with
      | some next =>
          have aligned := Joint.next_aligned empty advance
          rw [aligned.1] at fillsLater same ⊢
          rw [aligned.2.1] at splitsLater
          simp only [List.flatten_append, List.append_cancel_left_eq] at same
          have later := ih aligned.2.2.1 (nodup_rest nodup aligned.2.2.2) fillsLater splitsLater
            same
          simp only [List.length_append, inertFrom, advance, Nat.add_left_cancel_iff,
            Nat.add_le_add_iff_left]
          exact later
      | none => 
          have fewer := nodup_rest nodup (List.Sublist.refl _)
          rcases Joint.next_parts advance (List.nodup_append.mp fewer).1 with 
            ⟨rfl, symbol, rfl, blank⟩ | ⟨symbol, member, apart⟩
          · rw [empty (.inr rfl)] at fillsLater splitsLater same ⊢
            simp only [Joint.filled, Joint.resolved, Joint.ahead, fillStep, readStep, Part.symbol,
              step, blank, List.append_nil, List.flatten_append] at fillsLater splitsLater same ⊢
            have none : (Joint.idle : Joint α).Empty [] := fun _ => rfl
            have later := ih none (nodup_rest nodup (List.nil_sublist _)) fillsLater splitsLater
              (by simpa using same)
            constructor
            · simp
              omega
            · intro even
              simp at even
              omega
          · have absent : symbol ∉ symbols rest := 
              fun coming => (List.nodup_append.mp fewer).2.2 symbol member symbol coming rfl
            have splitsLiteral := splitsLater
            rw [← fillFrom_literal] at splitsLiteral
            have absentLiteral : symbol ∉ symbols ((symbols rest).map .literal) := by
              rw [symbols_literal]
              exact absent
            exfalso
            cases apart with
            | inl kept =>
                apply kept.2.not_mem absentLiteral splitsLiteral
                rw [← same]
                exact kept.1.mem fillsLater
            | inr kept =>
                apply kept.2.not_mem absent fillsLater
                rw [same]
                exact kept.1.mem splitsLiteral

/-! ### Places as symbols -/

theorem symbols_append (first second : List (Part α)) :
    symbols (first ++ second) = symbols first ++ symbols second :=
  List.filterMap_append

theorem symbols_parts (slot : Slot α) : symbols slot.parts = slot.expand := by
  cases slot with
  | own symbol => rfl
  | text content =>
      induction content with
      | nil => rfl
      | cons symbol rest ih =>
          simpa [Slot.parts, symbols, List.filterMap_cons, Slot.expand] using ih

theorem symbols_flatMap_parts (slots : List (Slot α)) :
    symbols (slots.flatMap Slot.parts) = resolved slots := by
  induction slots with
  | nil => rfl
  | cons slot rest ih =>
      rw [List.flatMap_cons, symbols_append, symbols_parts, ih]
      rfl

theorem fillFrom_values {state : LexState α} (settled : ∀ token, opened state token =
    { state := state, token := token }) (token content : List α) (rest : List (Part α)) :
    fillFrom kind state token (content.map .value ++ rest) =
      fillFrom kind state (token ++ content) rest := by
  induction content generalizing token with
  | nil => simp
  | cons symbol content ih =>
      simp only [List.map_cons, List.cons_append, fillFrom, fillStep, settled, ih,
        List.append_assoc, List.nil_append, Option.map_id']

theorem opened_opened (state : LexState α) (token other : List α) :
    opened (opened state token).state other =
      { state := (opened state token).state, token := other } := by
  cases state <;> rfl

theorem fillFrom_text (state : LexState α) (token content : List α) (rest : List (Part α)) :
    fillFrom kind state token ((Slot.text content).parts ++ rest) =
      fillFrom kind (opened state token).state ((opened state token).token ++ content) rest := by
  have settled := opened_opened state token
  have begins : (opened state token).ended = [] := by cases state <;> rfl
  simp only [Slot.parts, List.cons_append, fillFrom, fillStep, begins, List.nil_append,
    Option.map_id', fillFrom_values settled]

theorem step_own (kind : α → CharKind) (state : LexState α) (token : List (Slot α)) (symbol : α) :
    let slots := step (Slot.kindOf kind) (state.map Slot.own) token (.own symbol)
    let plain := step kind state (resolved token) symbol
    plain.state.map Slot.own = slots.state ∧ resolved slots.token = plain.token ∧
      slots.ended.map resolved = plain.ended := by
  cases symbolKind : kind symbol <;> cases state <;>
    simp [step, LexState.map, Slot.kindOf, symbolKind, resolved, Slot.expand]

theorem step_text (kind : α → CharKind) (state : LexState α) (token : List (Slot α)) (content : List α) :
    let slots := step (Slot.kindOf kind) (state.map Slot.own) token (.text content)
    let plain := opened state (resolved token)
    plain.state.map Slot.own = slots.state ∧ resolved slots.token = plain.token ++ content ∧
      slots.ended = [] := by
  cases state <;> simp [step, LexState.map, Slot.kindOf, resolved, Slot.expand]

theorem fillFrom_parts (slots token : List (Slot α)) (state : LexState α) :
    fillFrom kind state (resolved token) (slots.flatMap Slot.parts) =
      (splitFrom (Slot.kindOf kind) (state.map Slot.own) token slots).map (List.map resolved) := by
  induction slots generalizing state token with
  | nil => cases state <;> rfl
  | cons slot rest ih =>
      rw [List.flatMap_cons]
      cases slot with
      | own symbol =>
          have turns := step_own kind state token symbol
          calc
            _ = (fillFrom kind (step kind state (resolved token) symbol).state
                  (step kind state (resolved token) symbol).token (rest.flatMap Slot.parts)).map
                ((step kind state (resolved token) symbol).ended ++ ·) := rfl
            _ = _ := by
              rw [← turns.2.1, ih, ← turns.2.2, turns.1, Option.map_map]
              simp [splitFrom, Function.comp_def]
      | text content =>
          have turns := step_text kind state token content
          rw [fillFrom_text, ← turns.2.1]
          simp only [splitFrom, ← turns.1, turns.2.2, List.nil_append, Option.map_id', ih]

theorem fillFrom_eq_filled (slots : List (Slot α)) :
    fillFrom kind .idle [] (slots.flatMap Slot.parts) = filled kind slots :=
  fillFrom_parts slots [] .idle

theorem split_resolved_iff (kind : α → CharKind) {slots : List (Slot α)} (nodup : (resolved slots).Nodup) :
    split kind (resolved slots) = filled kind slots ∧ (split kind (resolved slots)).isSome ↔
      inert kind slots = true := by
  have begin : (Joint.idle : Joint α).Empty [] := fun _ => rfl
  rw [← symbols_flatMap_parts] at nodup
  rw [← symbols_flatMap_parts, ← fillFrom_eq_filled]
  constructor
  · intro alike
    obtain ⟨words, splits⟩ := Option.isSome_iff_exists.mp alike.2
    exact (alike_inert begin nodup (alike.1.symm.trans splits) splits rfl).2 rfl
  · intro quiet
    obtain ⟨words, fills, splits⟩ := splits_alike begin quiet
    have resolves : split kind (symbols (slots.flatMap Slot.parts)) = some words := splits
    rw [resolves]
    exact ⟨fills.symm, rfl⟩

/-! ### Symbols told apart -/

section

variable (kind) {β : Type} (f : β → α)

def Slot.map : Slot β → Slot α
  | own symbol => .own (f symbol)
  | text content => .text (content.map f)

theorem resolved_map (slots : List (Slot β)) :
    resolved (slots.map (Slot.map f)) = (resolved slots).map f := by
  induction slots with
  | nil => rfl
  | cons slot rest ih =>
      cases slot <;> simp_all [resolved, Slot.map, Slot.expand]

theorem filled_map (slots : List (Slot β)) :
    filled kind (slots.map (Slot.map f)) =
      (filled (kind ∘ f) slots).map (List.map (List.map f)) := by
  have kinds : Slot.kindOf kind ∘ Slot.map f = Slot.kindOf (kind ∘ f) := by
    funext slot
    cases slot <;> rfl
  simp only [filled, split_map, kinds, Option.map_map]
  congr 1
  funext words
  simp [resolved_map]

def Part.map : Part β → Part α
  | literal symbol => .literal (f symbol)
  | start => .start
  | value symbol => .value (f symbol)

def Joint.map : Joint β → Joint α
  | idle => .idle
  | fresh => .fresh
  | word => .word
  | single => .single
  | double => .double
  | escape => .escape
  | escapeDouble slash => .escapeDouble (f slash)
  | pendingEscape => .pendingEscape
  | pendingSlash slash => .pendingSlash (f slash)

theorem Joint.next_map (joint : Joint β) (part : Part β) :
    (joint.map f).next kind (part.map f) = (joint.next (kind ∘ f) part).map (Joint.map f) := by
  cases part with
  | start => cases joint <;> rfl
  | literal symbol =>
      cases symbolKind : kind (f symbol) <;> cases joint <;>
        simp [Joint.map, Part.map, Joint.next, symbolKind]
  | value symbol =>
      cases symbolKind : kind (f symbol) <;> cases joint <;>
        simp [Joint.map, Part.map, Joint.next, symbolKind]

theorem inertFrom_map (joint : Joint β) (parts : List (Part β)) :
    inertFrom kind (joint.map f) (parts.map (Part.map f)) = inertFrom (kind ∘ f) joint parts := by
  induction parts generalizing joint with
  | nil => cases joint <;> rfl
  | cons part rest ih =>
      simp only [List.map_cons, inertFrom, Joint.next_map]
      cases joint.next (kind ∘ f) part with
      | none => rfl
      | some next => exact ih next

theorem inert_map (slots : List (Slot β)) :
    inert kind (slots.map (Slot.map f)) = inert (kind ∘ f) slots := by
  have parts : (slots.map (Slot.map f)).flatMap Slot.parts =
      (slots.flatMap Slot.parts).map (Part.map f) := by
    induction slots with
    | nil => rfl
    | cons slot rest ih =>
        cases slot <;> simp_all [Slot.map, Slot.parts, Part.map]
  unfold inert
  rw [parts]
  exact inertFrom_map kind f .idle _

end

/-- Each symbol with its number in the line. -/
def numberFrom (count : Nat) : List (Slot α) → List (Slot (α × Nat))
  | [] => []
  | .own symbol :: rest => .own (symbol, count) :: numberFrom (count + 1) rest
  | .text content :: rest =>
      .text (content.zipIdx count) :: numberFrom (count + content.length) rest

theorem resolved_numberFrom (count : Nat) (slots : List (Slot α)) :
    resolved (numberFrom count slots) = (resolved slots).zipIdx count := by
  induction slots generalizing count with
  | nil => rfl
  | cons slot rest ih =>
      cases slot <;> simp_all [resolved, numberFrom, Slot.expand, List.zipIdx_append]

theorem map_numberFrom (count : Nat) (slots : List (Slot α)) :
    (numberFrom count slots).map (Slot.map Prod.fst) = slots := by
  induction slots generalizing count with
  | nil => rfl
  | cons slot rest ih => cases slot <;> simp_all [numberFrom, Slot.map]

theorem nodup_zipIdx (line : List α) (count : Nat) : (line.zipIdx count).Nodup := by
  apply List.Nodup.of_map Prod.snd
  rw [List.zipIdx_map_snd]
  exact List.nodup_range'

theorem split_numbered_iff (kind : α → CharKind) (slots : List (Slot α)) :
    split (kind ∘ Prod.fst) (resolved slots).zipIdx =
          filled (kind ∘ Prod.fst) (numberFrom 0 slots) ∧
        (split (kind ∘ Prod.fst) (resolved slots).zipIdx).isSome ↔
      inert kind slots = true := by
  have numbered := resolved_numberFrom 0 slots
  have nodup := nodup_zipIdx (resolved slots) 0
  rw [← numbered] at nodup
  have settled := split_resolved_iff (kind ∘ Prod.fst) nodup
  rw [numbered, ← inert_map, map_numberFrom] at settled
  exact settled

/-! ### The first word -/

section

variable (kind) (space : α → Bool)

/-- The line opens with a word of plain symbols, its own and those of texts, which a blank or the end
of the line follows. -/
def opens (begun : Bool) : List (Slot α) → Bool
  | [] => begun
  | .own symbol :: rest =>
      match kind symbol with
      | .blank => begun || opens false rest
      | .plain => !space symbol && opens true rest
      | _ => false
  | .text content :: rest => content.all (!space ·) && opens (begun || !content.isEmpty) rest

end

variable {space : α → Bool}

theorem inertFrom_values {joint : Joint α} (outside : joint = .fresh ∨ joint = .word)
    {content : List α} {rest : List (Part α)}
    (quiet : inertFrom kind joint (content.map .value ++ rest) = true) :
    (∀ symbol ∈ content, kind symbol = .plain) ∧
      inertFrom kind (if content.isEmpty then joint else .word) rest = true := by
  induction content generalizing joint with
  | nil => exact ⟨by simp, by simpa using quiet⟩
  | cons symbol content ih =>
      have advances : kind symbol = .plain ∧
          inertFrom kind .word (content.map .value ++ rest) = true := by
        by_cases plain : kind symbol = .plain
        · refine ⟨plain, ?_⟩
          rcases outside with rfl | rfl <;> simpa [inertFrom, Joint.next, plain] using quiet
        · rcases outside with rfl | rfl <;> simp [inertFrom, Joint.next, plain] at quiet
      have later := ih (.inr rfl) advances.2
      refine ⟨List.forall_mem_cons.mpr ⟨advances.1, later.1⟩, ?_⟩
      simpa using later.2

theorem leads_append (plain : List α) (begun : Bool) (line : List α)
    (kinds : ∀ symbol ∈ plain, kind symbol = .plain) :
    leads kind space begun (plain ++ line) =
      (plain.all (!space ·) && leads kind space (begun || !plain.isEmpty) line) := by
  induction plain generalizing begun with
  | nil => simp
  | cons symbol rest ih =>
      simp [leads, kinds symbol List.mem_cons_self, Bool.and_assoc,
        ih true (fun other member => kinds other (List.mem_cons_of_mem _ member))]

theorem opens_eq_leads {slots : List (Slot α)} {joint : Joint α} {begun : Bool}
    (outside : (joint = .idle ∨ joint = .fresh) ∧ begun = false ∨ joint = .word ∧ begun = true)
    (quiet : inertFrom kind joint (slots.flatMap Slot.parts) = true) :
    opens kind space begun slots = leads kind space begun (resolved slots) := by
  induction slots generalizing joint begun with
  | nil => rfl
  | cons slot rest ih =>
      rw [List.flatMap_cons] at quiet
      cases slot with
      | own symbol =>
          have line : resolved (.own symbol :: rest) = symbol :: resolved rest := rfl
          rw [line]
          cases symbolKind : kind symbol with
          | blank =>
              have after : inertFrom kind .idle (rest.flatMap Slot.parts) = true := by
                rcases outside with ⟨rfl | rfl, rfl⟩ | ⟨rfl, rfl⟩ <;>
                  simp_all [Slot.parts, inertFrom, Joint.next]
              simp [opens, leads, symbolKind, ih (.inl ⟨.inl rfl, rfl⟩) after]
          | plain =>
              have after : inertFrom kind .word (rest.flatMap Slot.parts) = true := by
                rcases outside with ⟨rfl | rfl, rfl⟩ | ⟨rfl, rfl⟩ <;>
                  simp_all [Slot.parts, inertFrom, Joint.next]
              simp [opens, leads, symbolKind, ih (.inr ⟨rfl, rfl⟩) after]
          | _ => simp [opens, leads, symbolKind]
      | text content =>
          have begins : ∃ other : Joint α, (other = .fresh ∧ begun = false ∨ other = .word ∧ begun = true) ∧
              inertFrom kind other (content.map .value ++ rest.flatMap Slot.parts) = true := by
            rcases outside with ⟨rfl | rfl, rfl⟩ | ⟨rfl, rfl⟩
            · exact ⟨.fresh, .inl ⟨rfl, rfl⟩, quiet⟩
            · exact ⟨.fresh, .inl ⟨rfl, rfl⟩, quiet⟩
            · exact ⟨.word, .inr ⟨rfl, rfl⟩, quiet⟩
          obtain ⟨other, place, quietText⟩ := begins
          have values := inertFrom_values (place.imp And.left And.left) quietText
          have line : resolved (.text content :: rest) = content ++ resolved rest := rfl
          rw [line, leads_append content begun (resolved rest) values.1, opens]
          congr 1
          apply ih _ values.2
          cases content with
          | nil => 
            rcases place with ⟨rfl, rfl⟩ | ⟨rfl, rfl⟩ <;> simp
          | cons symbol content => simp

end ShellWords
