import Mathlib.Data.Nat.Digits.Defs
import RagSystem.Data.Dict

/-! JSON texts as `json.dumps(.., ensure_ascii=False)` writes and `json.loads` reads them. -/

namespace JsonText

/-- A Python string, as its code points; surrogates may be among them. -/
abbrev Text := List Nat

def codes (text : String) : Text := text.toList.map Char.toNat

/-- `float`: a number of the type `φ`, or one of the values that are no numbers. -/
inductive PyFloat (φ : Type)
  | finite (number : φ)
  | infinity
  | minusInfinity
  | nan
  deriving DecidableEq, Repr

inductive Value (φ : Type)
  | null
  | bool (value : Bool)
  | int (value : Int)
  | float (value : PyFloat φ)
  | str (text : Text)
  | arr (items : List (Value φ))
  | obj (entries : List (Text × Value φ))
  deriving Repr

/-- The entries of a Python dictionary have distinct names. -/
inductive Distinct {φ : Type} : Value φ → Prop
  | null : Distinct .null
  | bool (value : Bool) : Distinct (.bool value)
  | int (value : Int) : Distinct (.int value)
  | float (value : PyFloat φ) : Distinct (.float value)
  | str (text : Text) : Distinct (.str text)
  | arr (items : List (Value φ)) (each : ∀ item ∈ items, Distinct item) : Distinct (.arr items)
  | obj (entries : List (Text × Value φ)) (names : (entries.map Prod.fst).Nodup)
      (each : ∀ entry ∈ entries, Distinct entry.2) : Distinct (.obj entries)

/-! Numbers. -/

def isDigit (point : Nat) : Bool := 48 ≤ point && point ≤ 57

/-- `int` and `str` refuse longer numbers. -/
def intMaxStrDigits : Nat := 4300

def decimal (number : Nat) : Text :=
  if number = 0 then [48] else (Nat.digits 10 number).reverse.map (48 + ·)

def decimalValue (digits : Text) : Nat :=
  digits.foldl (fun value digit => 10 * value + (digit - 48)) 0

def signed (sign : Text) (magnitude : Nat) : Int :=
  if sign = [] then (magnitude : Int) else -(magnitude : Int)

def signOf (number : Int) : Text := if number < 0 then codes "-" else []

def IsSign (text : Text) : Prop := text = [] ∨ text = [45]

/-- A zero alone, or digits that start with another one. -/
def IsWhole (text : Text) : Prop :=
  text = [48] ∨ ∃ first rest, text = first :: rest ∧ first ≠ 48 ∧ ∀ point ∈ text, isDigit point

def IsFraction (text : Text) : Prop :=
  text = [] ∨ ∃ digits, text = 46 :: digits ∧ digits ≠ [] ∧ ∀ point ∈ digits, isDigit point

def IsExponent (text : Text) : Prop :=
  text = [] ∨ ∃ mark sign digits, text = mark :: (sign ++ digits) ∧ (mark = 101 ∨ mark = 69) ∧
    (sign = [] ∨ sign = [43] ∨ sign = [45]) ∧ digits ≠ [] ∧ ∀ point ∈ digits, isDigit point

/-- The form of a number with a point or an exponent. -/
def IsFloat (text : Text) : Prop :=
  ∃ sign whole fraction exponent, text = sign ++ whole ++ fraction ++ exponent ∧
    IsSign sign ∧ IsWhole whole ∧ IsFraction fraction ∧ IsExponent exponent ∧
    ¬ (fraction = [] ∧ exponent = [])

/-- `repr` of a finite `float`, and `float` of such a text. -/
structure Floats (φ : Type) where
  repr : φ → Text
  parse : Text → PyFloat φ
  parse_repr : ∀ number, parse (repr number) = .finite number
  isFloat_repr : ∀ number, IsFloat (repr number)

/-! Writing. -/

def hexDigit (digit : Nat) : Nat := if digit < 10 then 48 + digit else 87 + digit

/-- The letters of the short escapes and what they stand for, the solidus apart. -/
def shortEscapes : List (Nat × Nat) :=
  [(34, 34), (92, 92), (110, 10), (114, 13), (116, 9), (102, 12), (98, 8)]

def escape (point : Nat) : Text :=
  match shortEscapes.find? (fun pair => pair.2 = point) with
  | some pair => [92, pair.1]
  | none =>
      if point < 32 then [92, 117, 48, 48, hexDigit (point / 16), hexDigit (point % 16)]
      else [point]

def quoted (text : Text) : Text := [34] ++ text.flatMap escape ++ [34]

def joined (separator : Text) : List Text → Text
  | [] => []
  | [text] => text
  | text :: other :: rest => text ++ separator ++ joined separator (other :: rest)

section Writing

variable {φ : Type} (floats : Floats φ)

def dumpsFloat : PyFloat φ → Text
  | .finite number => floats.repr number
  | .infinity => codes "Infinity"
  | .minusInfinity => codes "-Infinity"
  | .nan => codes "NaN"

def dumpsInt (number : Int) : Option Text :=
  let digits := decimal number.natAbs
  if intMaxStrDigits < digits.length then none else some (signOf number ++ digits)

mutual

/-- `none` is the `ValueError` for an integer of too many digits. -/
def dumps : Value φ → Option Text
  | .null => some (codes "null")
  | .bool true => some (codes "true")
  | .bool false => some (codes "false")
  | .int number => dumpsInt number
  | .float number => some (dumpsFloat floats number)
  | .str text => some (quoted text)
  | .arr items => (dumpsItems items).map (fun texts => [91] ++ joined (codes ", ") texts ++ [93])
  | .obj entries =>
      (dumpsEntries entries).map (fun texts => [123] ++ joined (codes ", ") texts ++ [125])

def dumpsItems : List (Value φ) → Option (List Text)
  | [] => some []
  | item :: rest =>
      match dumps item, dumpsItems rest with
      | some text, some texts => some (text :: texts)
      | _, _ => none

def dumpsEntries : List (Text × Value φ) → Option (List Text)
  | [] => some []
  | entry :: rest =>
      match dumps entry.2, dumpsEntries rest with
      | some text, some texts => some ((quoted entry.1 ++ codes ": " ++ text) :: texts)
      | _, _ => none

end

end Writing

/-! Reading. -/

/-- A `JSONDecodeError`, or the `ValueError` for an integer of too many digits. -/
inductive Failure
  | decode
  | tooManyDigits
  deriving DecidableEq, Repr

/-- What was read, and the text behind it. -/
abbrev Scan (α : Type) := Except Failure (α × Text)

def skip (text : Text) : Text := text.dropWhile (· ∈ [32, 9, 10, 13])

def hexValue (point : Nat) : Option Nat :=
  if 48 ≤ point ∧ point ≤ 57 then some (point - 48)
  else if 97 ≤ point ∧ point ≤ 102 then some (point - 87)
  else if 65 ≤ point ∧ point ≤ 70 then some (point - 55)
  else none

/-- Four hexadecimal digits. -/
def scanHex : Text → Scan Nat
  | first :: second :: third :: fourth :: rest =>
      match hexValue first, hexValue second, hexValue third, hexValue fourth with
      | some a, some b, some c, some d => .ok (((a * 16 + b) * 16 + c) * 16 + d, rest)
      | _, _, _, _ => .error .decode
  | _ => .error .decode

def isHighSurrogate (point : Nat) : Bool := 0xd800 ≤ point && point < 0xdc00

def isLowSurrogate (point : Nat) : Bool := 0xdc00 ≤ point && point < 0xe000

/-- A high surrogate and a low one that follows it are one code point. -/
def scanUnicode (text : Text) : Scan Nat :=
  match scanHex text with
  | .error failure => .error failure
  | .ok (high, rest) =>
      if isHighSurrogate high ∧ rest.take 2 = [92, 117] then
        match scanHex (rest.drop 2) with
        | .error failure => .error failure
        | .ok (low, behind) =>
            if isLowSurrogate low then
              .ok (0x10000 + (high - 0xd800) * 0x400 + (low - 0xdc00), behind)
            else .ok (high, rest)
      else .ok (high, rest)

/-- The text behind a backslash. -/
def scanEscape : Text → Scan Nat
  | [] => .error .decode
  | letter :: rest =>
      if letter = 117 then scanUnicode rest
      else if letter = 47 then .ok (47, rest)
      else
        match shortEscapes.find? (fun pair => pair.1 = letter) with
        | some pair => .ok (pair.2, rest)
        | none => .error .decode

/-- `scanstring`, behind the opening quote. The first number bounds the code points read. -/
def scanString : Nat → Text → Scan Text
  | 0, _ => .error .decode
  | _ + 1, [] => .error .decode
  | fuel + 1, point :: rest =>
      if point = 34 then .ok ([], rest)
      else if point = 92 then
        match scanEscape rest with
        | .error failure => .error failure
        | .ok (escaped, behind) =>
            match scanString fuel behind with
            | .error failure => .error failure
            | .ok (text, after) => .ok (escaped :: text, after)
      else if point < 32 then .error .decode
      else
        match scanString fuel rest with
        | .error failure => .error failure
        | .ok (text, after) => .ok (point :: text, after)

def scanWhole : Text → Scan Text
  | [] => .error .decode
  | first :: rest =>
      if first = 48 then .ok ([48], rest)
      else if isDigit first then
        .ok ((first :: rest).takeWhile isDigit, (first :: rest).dropWhile isDigit)
      else .error .decode

def scanFraction (text : Text) : Text × Text :=
  match text with
  | [] => ([], text)
  | point :: rest =>
      if point = 46 ∧ rest.takeWhile isDigit ≠ [] then
        (46 :: rest.takeWhile isDigit, rest.dropWhile isDigit)
      else ([], text)

def scanExponentSign : Text → Text × Text
  | [] => ([], [])
  | first :: rest => if first = 43 ∨ first = 45 then ([first], rest) else ([], first :: rest)

def scanExponent (text : Text) : Text × Text :=
  match text with
  | [] => ([], text)
  | mark :: rest =>
      let parts := scanExponentSign rest
      if (mark = 101 ∨ mark = 69) ∧ parts.2.takeWhile isDigit ≠ [] then
        (mark :: (parts.1 ++ parts.2.takeWhile isDigit), parts.2.dropWhile isDigit)
      else ([], text)

section Reading

variable {φ : Type} (floats : Floats φ)

def scanNumber (text : Text) : Scan (Value φ) :=
  let sign := text.take (if text.head? = some 45 then 1 else 0)
  match scanWhole (text.drop sign.length) with
  | .error failure => .error failure
  | .ok (whole, rest) =>
      let fraction := scanFraction rest
      let exponent := scanExponent fraction.2
      if fraction.1 = [] ∧ exponent.1 = [] then
        if intMaxStrDigits < whole.length then .error .tooManyDigits
        else .ok (.int (signed sign (decimalValue whole)), exponent.2)
      else .ok (.float (floats.parse (sign ++ whole ++ fraction.1 ++ exponent.1)), exponent.2)

def constants : List (Text × Value φ) :=
  [(codes "null", .null), (codes "true", .bool true), (codes "false", .bool false),
    (codes "NaN", .float .nan), (codes "Infinity", .float .infinity),
    (codes "-Infinity", .float .minusInfinity)]

/-- Items with commas between them, up to the point that closes them. -/
def scanSequence {α : Type} (close : Nat) (scan : Text → Scan α) : Nat → Text → Scan (List α)
  | 0, _ => .error .decode
  | fuel + 1, text =>
      match scan text with
      | .error failure => .error failure
      | .ok (item, rest) =>
          match skip rest with
          | [] => .error .decode
          | next :: more =>
              if next = close then .ok ([item], more)
              else if next = 44 then
                match scanSequence close scan fuel (skip more) with
                | .error failure => .error failure
                | .ok (items, after) => .ok (item :: items, after)
              else .error .decode

/-- A name, a colon and a value. -/
def scanEntry (scan : Text → Scan (Value φ)) : Text → Scan (Text × Value φ)
  | [] => .error .decode
  | first :: rest =>
      if first = 34 then
        match scanString (rest.length + 1) rest with
        | .error failure => .error failure
        | .ok (name, behind) =>
            if (skip behind).head? = some 58 then
              match scan (skip (skip behind).tail) with
              | .error failure => .error failure
              | .ok (value, after) => .ok ((name, value), after)
            else .error .decode
      else .error .decode

/-- The first number bounds the nesting. -/
def scanOnce : Nat → Text → Scan (Value φ)
  | 0, _ => .error .decode
  | _ + 1, [] => .error .decode
  | fuel + 1, first :: rest =>
      if first = 34 then
        match scanString (rest.length + 1) rest with
        | .error failure => .error failure
        | .ok (text, after) => .ok (.str text, after)
      else if first = 123 then
        if (skip rest).head? = some 125 then .ok (.obj [], (skip rest).tail)
        else
          match scanSequence 125 (scanEntry (scanOnce fuel)) (rest.length + 1) (skip rest) with
          | .error failure => .error failure
          | .ok (entries, after) => .ok (.obj (Dict.ofList entries).entries, after)
      else if first = 91 then
        if (skip rest).head? = some 93 then .ok (.arr [], (skip rest).tail)
        else
          match scanSequence 93 (scanOnce fuel) (rest.length + 1) (skip rest) with
          | .error failure => .error failure
          | .ok (items, after) => .ok (.arr items, after)
      else
        match constants.find? (fun constant => constant.1.isPrefixOf (first :: rest)) with
        | some constant => .ok (constant.2, (first :: rest).drop constant.1.length)
        | none => scanNumber floats (first :: rest)

/-- A byte order mark is refused. -/
def loads (text : Text) : Except Failure (Value φ) :=
  if text.head? = some 0xfeff then .error .decode
  else
    match scanOnce floats (text.length + 1) (skip text) with
    | .error failure => .error failure
    | .ok (value, rest) => if skip rest = [] then .ok value else .error .decode

end Reading

end JsonText
