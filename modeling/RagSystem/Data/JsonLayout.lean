import RagSystem.Data.JsonText

/-! JSON texts with white space between their parts, as `json.dumps(.., indent=..)` puts it. -/

namespace JsonText

/-- The code points that a reader skips. -/
def IsBlank (text : Text) : Prop := ∀ point ∈ text, point ∈ [32, 9, 10, 13]

/-- What stands inside the brackets of a list or an object at their ends, and behind the commas
between its parts, by the number of brackets around it. -/
structure Layout where
  line : Nat → Text
  gap : Nat → Text
  blank_line : ∀ depth, IsBlank (line depth)
  blank_gap : ∀ depth, IsBlank (gap depth)

/-- The layout without an indent. -/
def compact : Layout where
  line _ := []
  gap _ := [32]
  blank_line _ := by simp [IsBlank]
  blank_gap _ := by simp [IsBlank]

def newline (indent depth : Nat) : Text := 10 :: List.replicate (indent * depth) 32

theorem isBlank_newline (indent depth : Nat) : IsBlank (newline indent depth) := by
  intro point member
  rcases List.mem_cons.mp member with rfl | inside
  · decide
  · obtain rfl := (List.mem_replicate.mp inside).2
    decide

/-- Each part on a line of its own. -/
def indented (indent : Nat) : Layout where
  line := newline indent
  gap := newline indent
  blank_line := isBlank_newline indent
  blank_gap := isBlank_newline indent

def enclosed (layout : Layout) (depth first last : Nat) (texts : List Text) : Text :=
  if texts = [] then [first, last]
  else [first] ++ layout.line (depth + 1) ++ joined (44 :: layout.gap (depth + 1)) texts ++
    layout.line depth ++ [last]

section Writing

variable {φ : Type} (floats : Floats φ) (layout : Layout)

mutual

/-- The text of a value inside so many brackets. -/
def dumpsWith : Nat → Value φ → Option Text
  | _, .null => some (codes "null")
  | _, .bool true => some (codes "true")
  | _, .bool false => some (codes "false")
  | _, .int number => dumpsInt number
  | _, .float number => some (dumpsFloat floats number)
  | _, .str text => some (quoted text)
  | depth, .arr items => (dumpsItemsWith (depth + 1) items).map (enclosed layout depth 91 93)
  | depth, .obj entries =>
      (dumpsEntriesWith (depth + 1) entries).map (enclosed layout depth 123 125)

def dumpsItemsWith : Nat → List (Value φ) → Option (List Text)
  | _, [] => some []
  | depth, item :: rest =>
      match dumpsWith depth item, dumpsItemsWith depth rest with
      | some text, some texts => some (text :: texts)
      | _, _ => none

def dumpsEntriesWith : Nat → List (Text × Value φ) → Option (List Text)
  | _, [] => some []
  | depth, entry :: rest =>
      match dumpsWith depth entry.2, dumpsEntriesWith depth rest with
      | some text, some texts => some ((quoted entry.1 ++ codes ": " ++ text) :: texts)
      | _, _ => none

end

theorem enclosed_compact (depth first last : Nat) (texts : List Text) :
    enclosed compact depth first last texts =
      [first] ++ joined (codes ", ") texts ++ [last] := by
  cases texts with
  | nil => rfl
  | cons text texts =>
      rw [enclosed, if_neg (List.cons_ne_nil _ _)]
      simp [compact, codes]

mutual

theorem dumpsWith_compact : ∀ (value : Value φ) (depth : Nat),
    dumpsWith floats compact depth value = dumps floats value
  | .null, _ => rfl
  | .bool true, _ => rfl
  | .bool false, _ => rfl
  | .int _, _ => rfl
  | .float _, _ => rfl
  | .str _, _ => rfl
  | .arr items, depth => by
      rw [dumpsWith, dumps, dumpsItemsWith_compact items (depth + 1)]
      congr 1
      funext texts
      exact enclosed_compact depth 91 93 texts
  | .obj entries, depth => by
      rw [dumpsWith, dumps, dumpsEntriesWith_compact entries (depth + 1)]
      congr 1
      funext texts
      exact enclosed_compact depth 123 125 texts

theorem dumpsItemsWith_compact : ∀ (items : List (Value φ)) (depth : Nat),
    dumpsItemsWith floats compact depth items = dumpsItems floats items
  | [], _ => rfl
  | item :: rest, depth => by
      rewrite [dumpsItemsWith, dumpsItems, dumpsWith_compact item depth,
        dumpsItemsWith_compact rest depth]
      rfl

theorem dumpsEntriesWith_compact : ∀ (entries : List (Text × Value φ)) (depth : Nat),
    dumpsEntriesWith floats compact depth entries = dumpsEntries floats entries
  | [], _ => rfl
  | entry :: rest, depth => by
      rewrite [dumpsEntriesWith, dumpsEntries, dumpsWith_compact entry.2 depth,
        dumpsEntriesWith_compact rest depth]
      rfl

end

end Writing

end JsonText
