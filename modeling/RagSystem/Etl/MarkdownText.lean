import Mathlib.Data.List.Basic
import Mathlib.Data.List.TakeWhile

/-! The text operations of `etl/chunker/semantic_chunker.py`, on lists of characters: its regular
expressions as scanners, and the string methods they are used with. -/

namespace RagSystem.Etl.MarkdownText

abbrev Text := List Char

/-- What `str.strip` strips and `\s` matches. -/
def isSpace (char : Char) : Bool :=
  char.toNat ∈ [0x20, 0x85, 0xA0, 0x1680, 0x2028, 0x2029, 0x202F, 0x205F, 0x3000] ||
    (0x09 ≤ char.toNat && char.toNat ≤ 0x0D) || (0x1C ≤ char.toNat && char.toNat ≤ 0x1F) ||
    (0x2000 ≤ char.toNat && char.toNat ≤ 0x200A)

def strip (text : Text) : Text :=
  ((text.dropWhile isSpace).reverse.dropWhile isSpace).reverse

/-- `str.find`. -/
def find (needle : Text) : Text → Option Nat
  | [] => if needle = [] then some 0 else none
  | char :: rest =>
      if needle.isPrefixOf (char :: rest) then some 0 else (find needle rest).map (· + 1)

/-- `text[from:to]`. -/
def slice (text : Text) (start stop : Nat) : Text := (text.take stop).drop start

/-- What `^(#{1,3})\s+(.+)$` matches at the start of a line: the hashes, the heading and the number
of characters. A heading of blanks at the end of the text is matched by backtracking. -/
def headingAt (text : Text) : Option (Nat × Text × Nat) :=
  let level := (text.takeWhile (· = '#')).length
  let after := text.drop level
  let blanks := after.takeWhile isSpace
  let body := after.drop blanks.length
  if level = 0 ∨ 3 < level ∨ blanks = [] then none
  else if body = [] then
    match (blanks.drop 1).reverse.dropWhile (· = '\n') with
    | [] => none
    | last :: earlier => some (level, [last], level + 1 + earlier.length + 1)
  else
    let heading := body.takeWhile (· ≠ '\n')
    some (level, heading, level + blanks.length + heading.length)

structure HeadingMatch where
  start : Nat
  stop : Nat
  level : Nat
  heading : Text
  deriving DecidableEq, Repr

/-- `finditer`; the fuel is the number of characters left. -/
def headingMatchesFrom : Nat → Nat → Bool → Text → List HeadingMatch
  | 0, _, _, _ => []
  | _, _, _, [] => []
  | fuel + 1, position, lineStart, char :: rest =>
      match if lineStart then headingAt (char :: rest) else none with
      | some (level, heading, count) =>
          ⟨position, position + count, level, strip heading⟩ ::
            headingMatchesFrom fuel (position + count) false ((char :: rest).drop count)
      | none => headingMatchesFrom fuel (position + 1) (char = '\n') rest

def headingMatches (text : Text) : List HeadingMatch :=
  headingMatchesFrom text.length 0 true text

structure Section where
  heading : Text
  level : Nat
  content : Text
  deriving DecidableEq, Repr

def sectionsFrom (text : Text) : List HeadingMatch → List Section
  | [] => []
  | found :: later =>
      let stop := (later.head?.map HeadingMatch.start).getD text.length
      ⟨found.heading, found.level, strip (slice text found.stop stop)⟩ :: sectionsFrom text later

/-- `_split_markdown_by_headings`; text before the first heading belongs to no section. -/
def splitMarkdownByHeadings (text : Text) : List Section :=
  match headingMatches text with
  | [] => [⟨"root".toList, 0, strip text⟩]
  | found => sectionsFrom text found

/-- `re.split(r"\n\s*\n", text)`: a piece ends at a line break with another one in the blanks after
it, up to the last of them. -/
def blankLinePieces : Nat → Text → Text → List Text
  | 0, piece, text => [piece ++ text]
  | _, piece, [] => [piece]
  | fuel + 1, piece, char :: rest =>
      let blanks := rest.takeWhile isSpace
      if char = '\n' ∧ '\n' ∈ blanks then
        let kept := (blanks.reverse.takeWhile (· ≠ '\n')).length
        piece :: blankLinePieces fuel [] (rest.drop (blanks.length - kept))
      else blankLinePieces fuel (piece ++ [char]) rest

def splitByParagraphs (text : Text) : List Text :=
  ((blankLinePieces text.length [] text).filter (fun piece => strip piece ≠ [])).map strip

/-- `re.split(r"(?<=[.!?])\s+", text)`. -/
def sentencePieces : Nat → Text → Text → List Text
  | 0, piece, text => [piece ++ text]
  | _, piece, [] => [piece]
  | fuel + 1, piece, char :: rest =>
      if isSpace char ∧ piece.getLast? ∈ [some '.', some '!', some '?'] then
        piece :: sentencePieces fuel [] (rest.dropWhile isSpace)
      else sentencePieces fuel (piece ++ [char]) rest

def splitSentences (text : Text) : List Text := sentencePieces text.length [] text

/-- `re.sub(r"^#+\s*", "", text, flags=re.MULTILINE)`. -/
def dropHeadingMarks : Nat → Bool → Text → Text
  | 0, _, text => text
  | _, _, [] => []
  | fuel + 1, lineStart, char :: rest =>
      if lineStart ∧ char = '#' then
        let after := rest.dropWhile (· = '#')
        let blanks := after.takeWhile isSpace
        dropHeadingMarks fuel (blanks.getLast? = some '\n') (after.drop blanks.length)
      else char :: dropHeadingMarks fuel (char = '\n') rest

def withoutHeadingMarks (text : Text) : Text := dropHeadingMarks text.length true text

/-! ### What is not blank -/

def solid (text : Text) : Text := text.filter (fun char => !isSpace char)

theorem solid_append (first second : Text) :
    solid (first ++ second) = solid first ++ solid second :=
  List.filter_append first second

theorem solid_eq_nil_iff {text : Text} : solid text = [] ↔ ∀ char ∈ text, isSpace char = true := by
  simp [solid]

theorem solid_dropWhile (text : Text) : solid (text.dropWhile isSpace) = solid text := by
  induction text with
  | nil => rfl
  | cons char rest ih =>
      cases blank : isSpace char with
      | true => simpa [solid, blank] using ih
      | false => simp [blank]

theorem solid_strip (text : Text) : solid (strip text) = solid text := by
  have reversed (text : Text) : solid text.reverse = (solid text).reverse := List.filter_reverse
  rw [strip, reversed, solid_dropWhile, reversed, List.reverse_reverse, solid_dropWhile]

theorem strip_eq_nil_iff {text : Text} : strip text = [] ↔ solid text = [] := by
  constructor
  · intro stripped
    rw [← solid_strip, stripped]
    rfl
  · intro blank
    have gone : text.dropWhile isSpace = [] := by
      simpa [List.dropWhile_eq_nil_iff] using solid_eq_nil_iff.mp blank
    rw [strip, gone]
    rfl

theorem head_dropWhile_isSpace {text : Text} {char : Char}
    (first : (text.dropWhile isSpace).head? = some char) : isSpace char = false := by
  have head := List.head?_dropWhile_not isSpace text
  rw [first] at head
  simpa using head

theorem strip_prefix_dropWhile (text : Text) : strip text <+: text.dropWhile isSpace := by
  rw [strip, ← List.reverse_suffix, List.reverse_reverse]
  exact List.dropWhile_suffix _

theorem strip_infix_self (text : Text) : strip text <:+: text :=
  (strip_prefix_dropWhile text).isInfix.trans (List.dropWhile_suffix _).isInfix

theorem head_strip {text : Text} {char : Char} (first : (strip text).head? = some char) :
    isSpace char = false := by
  obtain ⟨after, whole⟩ := strip_prefix_dropWhile text
  have start : (text.dropWhile isSpace).head? = some char := by
    rw [← whole, List.head?_append, first]
    rfl
  exact head_dropWhile_isSpace start

theorem infix_dropWhile {part text : Text}
    (first : ∀ char, part.head? = some char → isSpace char = false) (inside : part <:+: text) :
    part <:+: text.dropWhile isSpace := by
  obtain ⟨before, after, rfl⟩ := inside
  induction before with
  | nil =>
      cases part with
      | nil => exact List.nil_infix
      | cons char rest =>
          rw [List.nil_append, List.cons_append,
            List.dropWhile_cons_of_neg (by simp [first char rfl])]
          exact ⟨[], after, rfl⟩
  | cons char before ih =>
      rw [List.cons_append, List.cons_append]
      cases blank : isSpace char with
      | true =>
          rw [List.dropWhile_cons_of_pos blank]
          exact ih
      | false =>
          rw [List.dropWhile_cons_of_neg (by simp [blank])]
          exact ⟨char :: before, after, rfl⟩

theorem strip_infix_strip {part text : Text} (inside : part <:+: text) :
    strip part <:+: strip text := by
  have left : strip part <:+: text.dropWhile isSpace :=
    infix_dropWhile (fun _ => head_strip) ((strip_infix_self part).trans inside)
  have reversed : (strip part).reverse <:+: (text.dropWhile isSpace).reverse :=
    List.reverse_infix.mpr left
  have last : ∀ char, (strip part).reverse.head? = some char → isSpace char = false := by
    rw [strip, List.reverse_reverse]
    exact fun _ => head_dropWhile_isSpace
  change strip part <:+: ((text.dropWhile isSpace).reverse.dropWhile isSpace).reverse
  rw [← List.reverse_infix, List.reverse_reverse]
  exact infix_dropWhile last reversed

theorem solid_blankLinePieces (fuel : Nat) (piece text : Text) :
    (blankLinePieces fuel piece text).flatMap solid = solid (piece ++ text) := by
  induction fuel generalizing piece text with
  | zero => simp [blankLinePieces]
  | succ fuel ih =>
      cases text with
      | nil => simp [blankLinePieces]
      | cons char rest =>
          rw [blankLinePieces]
          dsimp only
          split
          · next between =>
              -- the line breaks and the blanks between the two pieces are left out
              have dropped (count : Nat) (within : count ≤ (rest.takeWhile isSpace).length) :
                  solid (rest.drop count) = solid rest := by
                have blank : solid (rest.take count) = [] := by
                  rw [solid_eq_nil_iff]
                  intro other member
                  have early : rest.take count <+: rest.takeWhile isSpace :=
                    List.prefix_of_prefix_length_le (List.take_prefix _ _)
                      (List.takeWhile_prefix _) ((List.length_take_le _ _).trans within)
                  exact List.mem_takeWhile_imp (early.subset member)
                conv_rhs => rw [← List.take_append_drop count rest, solid_append, blank,
                  List.nil_append]
              have line : solid (char :: rest) = solid rest := by
                rw [between.1]
                rfl
              rw [List.flatMap_cons, ih, List.nil_append, dropped _ (Nat.sub_le _ _), solid_append,
                line]
          · rw [ih, List.append_assoc]
            rfl

theorem solid_splitByParagraphs (text : Text) :
    (splitByParagraphs text).flatMap solid = solid text := by
  have kept : ∀ pieces : List Text,
      ((pieces.filter (fun piece => strip piece ≠ [])).map strip).flatMap solid =
        pieces.flatMap solid := by
    intro pieces
    induction pieces with
    | nil => rfl
    | cons piece rest ih =>
        by_cases blank : strip piece = []
        · rw [List.filter_cons_of_neg (by simp [blank]), ih, List.flatMap_cons,
            strip_eq_nil_iff.mp blank, List.nil_append]
        · rw [List.filter_cons_of_pos (by simp [blank]), List.map_cons, List.flatMap_cons, ih,
            solid_strip, List.flatMap_cons]
  rw [splitByParagraphs, kept, solid_blankLinePieces, List.nil_append]

theorem solid_of_mem_splitByParagraphs {text paragraph : Text}
    (member : paragraph ∈ splitByParagraphs text) : solid paragraph ≠ [] := by
  obtain ⟨piece, kept, rfl⟩ := List.mem_map.mp member
  rw [solid_strip]
  simpa [strip_eq_nil_iff] using (List.mem_filter.mp kept).2

theorem splitByParagraphs_eq_nil_iff {text : Text} :
    splitByParagraphs text = [] ↔ solid text = [] := by
  constructor
  · intro none
    rw [← solid_splitByParagraphs, none]
    rfl
  · intro blank
    rw [← solid_splitByParagraphs, List.flatMap_eq_nil_iff] at blank
    rw [List.eq_nil_iff_forall_not_mem]
    exact fun paragraph member => solid_of_mem_splitByParagraphs member (blank paragraph member)

example : (splitMarkdownByHeadings "intro\n# One\na\n\nb\n##  Two \nc".toList) =
    [⟨"One".toList, 1, "a\n\nb".toList⟩, ⟨"Two".toList, 2, "c".toList⟩] := by decide +kernel

example : splitByParagraphs "a\nb\n \n\n c ".toList = ["a\nb".toList, "c".toList] := by
  decide +kernel

end RagSystem.Etl.MarkdownText
