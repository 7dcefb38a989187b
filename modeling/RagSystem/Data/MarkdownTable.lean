import Mathlib.Data.List.Basic
import Mathlib.Data.List.TakeWhile

/-! The lines of a Markdown table: cells between bars, where a backslash escapes a bar. -/

namespace MarkdownTable

abbrev Text := List Char

/-- A character in front of the first of the cells. -/
def push (char : Char) : List Text → List Text
  | [] => [[char]]
  | cell :: rest => (char :: cell) :: rest

/-- The text between the bars, with the escaped ones in it. -/
def splitCells : Text → List Text
  | [] => [[]]
  | [char] => if char = '|' then [[], []] else [[char]]
  | char :: next :: rest =>
      if char = '\\' ∧ next = '|' then push '|' (splitCells rest)
      else if char = '|' then [] :: splitCells (next :: rest)
      else push char (splitCells (next :: rest))

def trimLeft (text : Text) : Text := text.dropWhile (· = ' ')

def trim (text : Text) : Text := (trimLeft (trimLeft text).reverse).reverse

/-- The cells of a line that starts and ends with a bar. -/
def readCells : Text → List Text
  | [] => []
  | char :: rest => if char = '|' then (splitCells rest).dropLast.map trim else []

/-- The lines behind the last blank one. -/
def tableLines (text : Text) : List Text :=
  ((text.splitOn '\n').reverse.takeWhile (· ≠ [])).reverse

/-- Every bar with a backslash in front. -/
def escapeBar (char : Char) : Text := if char = '|' then ['\\', '|'] else [char]

variable {char : Char} {text rest : Text} {cells : List Text}

theorem splitCells_bar (rest : Text) : splitCells ('|' :: rest) = [] :: splitCells rest := by
  cases rest with
  | nil => rfl
  | cons next rest =>
      rw [splitCells, if_neg (fun both => absurd both.1 (by decide)), if_pos rfl]

theorem splitCells_escaped (rest : Text) :
    splitCells ('\\' :: '|' :: rest) = push '|' (splitCells rest) := by
  rw [splitCells, if_pos ⟨rfl, rfl⟩]

theorem splitCells_plain (bar : char ≠ '|') (apart : char = '\\' → rest.head? ≠ some '|') :
    splitCells (char :: rest) = push char (splitCells rest) := by
  cases rest with
  | nil => exact if_neg bar
  | cons next rest =>
      have plain : ¬ (char = '\\' ∧ next = '|') :=
        fun both => apart both.1 (by rw [List.head?_cons, both.2])
      rw [splitCells, if_neg plain, if_neg bar]

theorem head?_escaped (text : Text) (follow : rest.head? ≠ some '|') :
    (text.flatMap escapeBar ++ rest).head? ≠ some '|' := by
  cases text with
  | nil => exact follow
  | cons char text =>
      rw [List.flatMap_cons, escapeBar]
      split
      · simp
      · next bar => simpa using bar

theorem splitCells_escapedText (text : Text) (follow : rest.head? ≠ some '|') :
    splitCells (text.flatMap escapeBar ++ rest) = text.foldr push (splitCells rest) := by
  induction text with
  | nil => rfl
  | cons char text ih =>
      rw [List.flatMap_cons, List.append_assoc, List.foldr_cons, ← ih, escapeBar]
      split
      · next bar =>
          rw [bar]
          exact splitCells_escaped _
      · next bar => exact splitCells_plain bar (fun _ => head?_escaped text follow)

theorem foldr_push (text : Text) (cell : Text) (rest : List Text) :
    text.foldr push (cell :: rest) = (text ++ cell) :: rest := by
  induction text with
  | nil => rfl
  | cons char text ih => rw [List.foldr_cons, ih, List.cons_append, push]

theorem splitCells_cell (text rest : Text) :
    splitCells (' ' :: (text.flatMap escapeBar ++ ' ' :: '|' :: rest)) =
      (' ' :: (text ++ [' '])) :: splitCells rest := by
  have blank (rest : Text) : splitCells (' ' :: rest) = push ' ' (splitCells rest) :=
    splitCells_plain (by decide) (fun same => absurd same (by decide))
  rw [blank, splitCells_escapedText text (by simp), blank, splitCells_bar, push, foldr_push, push]

/-- A text with nothing to trim. -/
def Trimmed (text : Text) : Prop := text.head? ≠ some ' ' ∧ text.getLast? ≠ some ' '

theorem trimLeft_of_head? (head : text.head? ≠ some ' ') : trimLeft text = text := by
  cases text with
  | nil => rfl
  | cons char text => exact List.dropWhile_cons_of_neg (by simpa using head)

theorem trim_cell (trimmed : Trimmed text) : trim (' ' :: (text ++ [' '])) = text := by
  have left : trimLeft (' ' :: (text ++ [' '])) = trimLeft (text ++ [' ']) := rfl
  cases text with
  | nil => rfl
  | cons char text =>
      have head : (char :: text ++ [' ']).head? ≠ some ' ' := trimmed.1
      have last : (char :: text).reverse.head? ≠ some ' ' := by
        rw [List.head?_reverse]
        exact trimmed.2
      have reversed : trimLeft (' ' :: (char :: text).reverse) = trimLeft (char :: text).reverse :=
        rfl
      rw [trim, left, trimLeft_of_head? head, List.reverse_append, List.reverse_singleton,
        List.singleton_append, reversed, trimLeft_of_head? last, List.reverse_reverse]

theorem splitCells_row (cells : List Text) :
    splitCells (cells.flatMap (fun cell => ' ' :: (cell.flatMap escapeBar ++ [' ', '|']))) =
      cells.map (fun cell => ' ' :: (cell ++ [' '])) ++ [[]] := by
  induction cells with
  | nil => rfl
  | cons cell cells ih =>
      rw [List.flatMap_cons, List.cons_append, List.append_assoc]
      exact (splitCells_cell cell _).trans (congrArg _ ih)

theorem readCells_row (cells : List Text) :
    readCells ('|' :: cells.flatMap (fun cell => ' ' :: (cell.flatMap escapeBar ++ [' ', '|']))) =
      cells.map (fun cell => trim (' ' :: (cell ++ [' ']))) := by
  rw [readCells, if_pos rfl, splitCells_row, List.dropLast_concat, List.map_map]
  rfl

theorem tableLines_eq {before : List Text} {lines : List Text}
    (broken : text.splitOn '\n' = before ++ [] :: lines) (full : ∀ line ∈ lines, line ≠ []) :
    tableLines text = lines := by
  rw [tableLines, broken, List.reverse_append, List.reverse_cons, List.append_assoc,
    List.takeWhile_append_of_pos (by simpa using full)]
  simp

theorem tableLines_self (full : ∀ line ∈ text.splitOn '\n', line ≠ []) :
    tableLines text = text.splitOn '\n' := by
  have all : (text.splitOn '\n').reverse.takeWhile (· ≠ []) = (text.splitOn '\n').reverse :=
    List.takeWhile_eq_self_iff.mpr (by simpa using full)
  rw [tableLines, all, List.reverse_reverse]

end MarkdownTable
