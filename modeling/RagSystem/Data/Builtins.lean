import Mathlib.Algebra.Order.Field.Rat
import Mathlib.Data.List.Sort
import RagSystem.Etl.MarkdownText

/-! Python built-ins: rounding, sorting, slices of strings, the words and sentences of a text. -/

namespace RagSystem

/-- `round`: to the nearest integer, ties to the even one. -/
def roundHalfEven (number : ℚ) : Int :=
  let below := number.floor
  let rest := number - below
  if rest < 1 / 2 then below
  else if 1 / 2 < rest then below + 1
  else if below % 2 = 0 then below else below + 1

/-- `round(number, digits)`. -/
def roundTo (digits : Nat) (number : ℚ) : ℚ :=
  roundHalfEven (number * 10 ^ digits) / 10 ^ digits

/-- `sorted(.., reverse=True)`: descending and stable. -/
def sortDescending {α : Type} (score : α → ℚ) (items : List α) : List α :=
  items.insertionSort (fun first second => score second ≤ score first)

theorem mem_sortDescending {α : Type} {score : α → ℚ} {items : List α} {item : α} :
    item ∈ sortDescending score items ↔ item ∈ items :=
  List.mem_insertionSort _

/-- `text[:length]`. -/
def clip (length : Nat) (text : String) : String := String.ofList (text.toList.take length)

def stripText (text : String) : String := String.ofList (Etl.MarkdownText.strip text.toList)

/-- `re.split(r"(?<=[.!?])\s+", text)`. -/
def sentencesOf (text : String) : List String :=
  (Etl.MarkdownText.splitSentences text.toList).map String.ofList

/-- The maximal runs of characters that satisfy `inside`, as `str.split` and
`re.findall(r"\w+", ..)` return them. -/
def runsOf (inside : Char → Bool) (text : String) : List String :=
  ((text.toList.splitOnP (fun char => !inside char)).filter (· ≠ [])).map String.ofList

/-- The decimal digits zero of the scripts; each one's digits to nine follow it. -/
def decimalZeros : List Nat :=
  [0x30, 0x660, 0x6f0, 0x7c0, 0x966, 0x9e6, 0xa66, 0xae6, 0xb66, 0xbe6, 0xc66, 0xce6, 0xd66, 0xde6,
    0xe50, 0xed0, 0xf20, 0x1040, 0x1090, 0x17e0, 0x1810, 0x1946, 0x19d0, 0x1a80, 0x1a90, 0x1b50,
    0x1bb0, 0x1c40, 0x1c50, 0xa620, 0xa8d0, 0xa900, 0xa9d0, 0xa9f0, 0xaa50, 0xabf0, 0xff10, 0x104a0,
    0x10d30, 0x11066, 0x110f0, 0x11136, 0x111d0, 0x112f0, 0x11450, 0x114d0, 0x11650, 0x116c0,
    0x11730, 0x118e0, 0x11950, 0x11c50, 0x11d50, 0x11da0, 0x16a60, 0x16ac0, 0x16b50, 0x1d7ce,
    0x1d7d8, 0x1d7e2, 0x1d7ec, 0x1d7f6, 0x1e140, 0x1e2f0, 0x1e950, 0x1fbf0]

def decimalDigit (char : Char) : Option Nat :=
  (decimalZeros.find? (fun first => first ≤ char.toNat ∧ char.toNat < first + 10)).map
    (char.toNat - ·)

/-- Digits with single underscores between them, no more of them than the interpreter converts. -/
def decimalValue (text : List Char) : Option Nat :=
  let groups := text.splitOn '_'
  if groups.any List.isEmpty then none
  else
    match groups.flatten.mapM decimalDigit with
    | none => none
    | some digits =>
        if digits.length ≤ 4300 then some (digits.foldl (fun value digit => 10 * value + digit) 0)
        else none

/-- `int(text)`; `none` is its `ValueError`. -/
def intOf (text : String) : Option Int :=
  match Etl.MarkdownText.strip text.toList with
  | '+' :: rest => (decimalValue rest).map Int.ofNat
  | '-' :: rest => (decimalValue rest).map (fun value => -Int.ofNat value)
  | digits => (decimalValue digits).map Int.ofNat

end RagSystem
