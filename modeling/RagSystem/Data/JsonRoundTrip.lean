import Mathlib.Data.Nat.Digits.Lemmas
import RagSystem.Data.JsonLayout

/-! What `json.dumps` writes `json.loads` reads back. -/

namespace JsonText

variable {φ : Type} {floats : Floats φ} {text tail : Text}

/-! Numbers. -/

/-- What may follow a number. -/
def Stops (tail : Text) : Prop :=
  ∀ point ∈ tail.head?, isDigit point = false ∧ point ≠ 46 ∧ point ≠ 101 ∧ point ≠ 69

def NoDigit (tail : Text) : Prop := ∀ point ∈ tail.head?, isDigit point = false

theorem Stops.noDigit (stops : Stops tail) : NoDigit tail := fun point head => (stops point head).1

theorem span_digits {digits : Text} (all : ∀ point ∈ digits, isDigit point) (ends : NoDigit tail) :
    (digits ++ tail).takeWhile isDigit = digits ∧ (digits ++ tail).dropWhile isDigit = tail := by
  rw [List.takeWhile_append_of_pos all, List.dropWhile_append_of_pos all]
  cases tail with
  | nil => simp
  | cons point rest =>
      have other : isDigit point = false := ends point rfl
      simp [other]

theorem isDigit_decimal (number : Nat) : ∀ point ∈ decimal number, isDigit point := by
  unfold decimal
  split
  · decide
  · intro point member
    obtain ⟨digit, inside, rfl⟩ := List.mem_map.mp member
    have small := Nat.digits_lt_base (b := 10) (by omega) (List.mem_reverse.mp inside)
    simp only [isDigit, Bool.and_eq_true, decide_eq_true_eq]
    omega

theorem decimalValue_decimal (number : Nat) : decimalValue (decimal number) = number := by
  unfold decimal
  split
  · rename_i zero
    simp [decimalValue, zero]
  · have restored := Nat.ofDigits_digits 10 number
    rw [Nat.ofDigits_eq_foldr] at restored
    rw [decimalValue, List.foldl_map, List.foldl_reverse]
    simpa [Nat.add_comm] using restored

theorem isWhole_decimal (number : Nat) : IsWhole (decimal number) := by
  by_cases zero : number = 0
  · left
    simp [decimal, zero]
  · right
    have shown : decimal number = (Nat.digits 10 number).reverse.map (48 + ·) := by
      rw [decimal, if_neg zero]
    have nonempty : Nat.digits 10 number ≠ [] := Nat.digits_ne_nil_iff_ne_zero.mpr zero
    have leading : (Nat.digits 10 number).getLast nonempty ≠ 0 := Nat.getLast_digit_ne_zero 10 zero
    refine ⟨48 + (Nat.digits 10 number).getLast nonempty,
      ((Nat.digits 10 number).dropLast.reverse).map (48 + ·), ?_, ?_, isDigit_decimal number⟩
    · rw [shown]
      conv_lhs => rw [← List.dropLast_append_getLast nonempty]
      simp
    · omega

theorem scanWhole_append {whole : Text} (form : IsWhole whole) (ends : NoDigit tail) :
    scanWhole (whole ++ tail) = .ok (whole, tail) := by
  rcases form with rfl | ⟨first, rest, rfl, nonzero, all⟩
  · rfl
  · obtain ⟨taken, dropped⟩ := span_digits all ends
    rw [List.cons_append] at taken dropped ⊢
    rw [scanWhole, if_neg nonzero, if_pos (all first List.mem_cons_self), taken, dropped]

theorem scanFraction_append {fraction : Text} (form : IsFraction fraction)
    (ends : NoDigit tail) (point : tail.head? ≠ some 46) :
    scanFraction (fraction ++ tail) = (fraction, tail) := by
  rcases form with rfl | ⟨digits, rfl, nonempty, all⟩
  · cases tail with
    | nil => rfl
    | cons first rest =>
        have other : first ≠ 46 := by simpa using point
        simp [scanFraction, other]
  · obtain ⟨taken, dropped⟩ := span_digits all ends
    simp [scanFraction, taken, dropped, nonempty]

theorem scanExponent_append {exponent : Text} (form : IsExponent exponent) (stops : Stops tail) :
    scanExponent (exponent ++ tail) = (exponent, tail) := by
  rcases form with rfl | ⟨mark, sign, digits, rfl, marked, signs, nonempty, all⟩
  · cases tail with
    | nil => rfl
    | cons first rest =>
        obtain ⟨-, -, small, large⟩ := stops first rfl
        simp [scanExponent, small, large]
  · obtain ⟨taken, dropped⟩ := span_digits all stops.noDigit
    have parts : scanExponentSign (sign ++ (digits ++ tail)) = (sign, digits ++ tail) := by
      rcases signs with rfl | rfl | rfl
      · cases digits with
        | nil => contradiction
        | cons digit digits =>
            have range := all digit List.mem_cons_self
            simp only [isDigit, Bool.and_eq_true, decide_eq_true_eq] at range
            have neither : ¬ (digit = 43 ∨ digit = 45) := by omega
            rw [List.nil_append, List.cons_append, scanExponentSign, if_neg neither]
      · rfl
      · rfl
    rw [List.cons_append, List.append_assoc, scanExponent]
    simp [parts, taken, dropped, nonempty, marked]

theorem head?_whole {whole : Text} (form : IsWhole whole) :
    ∃ digit rest, whole = digit :: rest ∧ isDigit digit := by
  rcases form with rfl | ⟨first, rest, rfl, -, all⟩
  · exact ⟨48, [], rfl, rfl⟩
  · exact ⟨first, rest, rfl, all first List.mem_cons_self⟩

theorem noDigit_fraction {fraction exponent : Text} (first : IsFraction fraction)
    (second : IsExponent exponent) (stops : Stops tail) :
    NoDigit (fraction ++ (exponent ++ tail)) := by
  intro point head
  rcases first with rfl | ⟨digits, rfl, -, -⟩
  · rcases second with rfl | ⟨mark, sign, digits, rfl, marked, -, -, -⟩
    · exact (stops point head).1
    · obtain rfl : mark = point := by simpa using head
      rcases marked with rfl | rfl
      · rfl
      · rfl
  · obtain rfl : 46 = point := by simpa using head
    rfl

theorem exponent_head {exponent : Text} (form : IsExponent exponent) (stops : Stops tail) :
    NoDigit (exponent ++ tail) ∧ (exponent ++ tail).head? ≠ some 46 := by
  rcases form with rfl | ⟨mark, sign, digits, rfl, marked, -, -, -⟩
  · refine ⟨stops.noDigit, ?_⟩
    intro point
    exact (stops 46 point).2.1 rfl
  · have other : isDigit mark = false ∧ mark ≠ 46 := by
      rcases marked with rfl | rfl
      · decide
      · decide
    constructor
    · intro point head
      obtain rfl : mark = point := by simpa using head
      exact other.1
    · simpa using other.2

theorem scanNumber_append (floats : Floats φ) {sign whole fraction exponent : Text}
    (signs : IsSign sign) (first : IsWhole whole) (second : IsFraction fraction)
    (third : IsExponent exponent)
    (stops : Stops tail) :
    scanNumber floats (sign ++ whole ++ fraction ++ exponent ++ tail) =
      if fraction = [] ∧ exponent = [] then
        if intMaxStrDigits < whole.length then .error .tooManyDigits
        else .ok (.int (signed sign (decimalValue whole)), tail)
      else .ok (.float (floats.parse (sign ++ whole ++ fraction ++ exponent)), tail) := by
  obtain ⟨digit, rest, shown, numeral⟩ := head?_whole first
  have split : (sign ++ whole ++ fraction ++ exponent ++ tail).take
      (if (sign ++ whole ++ fraction ++ exponent ++ tail).head? = some 45 then 1 else 0) =
        sign := by
    rcases signs with rfl | rfl
    · have other : digit ≠ 45 := by
        intro given
        rcases given with rfl
        simp [isDigit] at numeral
      simp [shown, other]
    · simp
  have dropped : (sign ++ whole ++ fraction ++ exponent ++ tail).drop sign.length =
      whole ++ (fraction ++ (exponent ++ tail)) := by
    simp
  have ends := exponent_head third stops
  rw [scanNumber]
  simp only [split, dropped, scanWhole_append first (noDigit_fraction second third stops),
    scanFraction_append second ends.1 ends.2, scanExponent_append third stops]

theorem signed_natAbs (number : Int) : signed (signOf number) number.natAbs = number := by
  unfold signed signOf
  by_cases negative : number < 0
  · rw [if_pos negative, if_neg (by decide)]
    omega
  · rw [if_neg negative, if_pos rfl]
    omega

theorem isSign_signOf (number : Int) : IsSign (signOf number) := by
  unfold signOf
  split
  · exact Or.inr rfl
  · exact Or.inl rfl

theorem scanNumber_dumpsInt (floats : Floats φ) {number : Int} (shown : dumpsInt number = some text)
    (stops : Stops tail) : scanNumber floats (text ++ tail) = .ok (.int number, tail) := by
  unfold dumpsInt at shown
  dsimp only at shown
  split at shown
  · contradiction
  · rename_i short
    obtain rfl := Option.some.inj shown
    have read := scanNumber_append floats (isSign_signOf number)
      (isWhole_decimal number.natAbs) (Or.inl rfl) (Or.inl rfl) stops
    simp only [List.append_nil, and_self, if_true, short, if_false, decimalValue_decimal,
      signed_natAbs] at read
    exact read

theorem scanNumber_repr (number : φ) (stops : Stops tail) :
    scanNumber floats (floats.repr number ++ tail) = .ok (.float (.finite number), tail) := by
  obtain ⟨sign, whole, fraction, exponent, shown, signs, first, second, third, float⟩ :=
    floats.isFloat_repr number
  rw [shown, scanNumber_append floats signs first second third stops, if_neg float, ← shown,
    floats.parse_repr]

/-! Strings. -/

theorem hexValue_hexDigit : ∀ digit < 16, hexValue (hexDigit digit) = some digit := by decide

theorem scanHex_control {point : Nat} (small : point < 32) (rest : Text) :
    scanHex (48 :: 48 :: hexDigit (point / 16) :: hexDigit (point % 16) :: rest) =
      .ok (point, rest) := by
  have zero : hexValue 48 = some 0 := rfl
  have value : ((0 * 16 + 0) * 16 + point / 16) * 16 + point % 16 = point := by omega
  simp only [scanHex, zero, hexValue_hexDigit (point / 16) (by omega),
    hexValue_hexDigit (point % 16) (by omega), value]

theorem shortEscapes_letter : ∀ pair ∈ shortEscapes,
    shortEscapes.find? (fun other => other.1 = pair.1) = some pair ∧
      pair.1 ≠ 117 ∧ pair.1 ≠ 47 := by
  decide

theorem scanEscape_control {point : Nat} (small : point < 32) (rest : Text) :
    scanEscape (117 :: 48 :: 48 :: hexDigit (point / 16) :: hexDigit (point % 16) :: rest) =
      .ok (point, rest) := by
  have low : isHighSurrogate point = false := by
    simp only [isHighSurrogate, Bool.and_eq_false_iff, decide_eq_false_iff_not]
    omega
  simp [scanEscape, scanUnicode, scanHex_control small rest, low]

theorem scanString_plain {point : Nat} (quote : point ≠ 34) (backslash : point ≠ 92)
    (printable : ¬ point < 32) (fuel : Nat) (rest : Text) :
    scanString (fuel + 1) (point :: rest) =
      match scanString fuel rest with
      | .error failure => .error failure
      | .ok (text, after) => .ok (point :: text, after) :=
  (if_neg quote).trans ((if_neg backslash).trans (if_neg printable))

theorem scanString_escape (fuel point : Nat) (rest : Text) :
    scanString (fuel + 1) (escape point ++ rest) =
      match scanString fuel rest with
      | .error failure => .error failure
      | .ok (text, after) => .ok (point :: text, after) := by
  unfold escape
  cases short : shortEscapes.find? (fun pair => pair.2 = point) with
  | some pair =>
      obtain ⟨found, unicode, solidus⟩ := shortEscapes_letter pair (List.mem_of_find?_eq_some short)
      obtain rfl : pair.2 = point := by simpa using List.find?_some short
      have escaped : scanEscape (pair.1 :: rest) = .ok (pair.2, rest) := by
        rw [scanEscape, if_neg unicode, if_neg solidus]
        simp only [found]
      simp only [List.cons_append, List.nil_append, scanString, escaped]
      rfl
  | none =>
      dsimp only
      by_cases small : point < 32
      · rw [if_pos small]
        simp only [List.cons_append, List.nil_append, scanString, scanEscape_control small]
        rfl
      · rw [if_neg small]
        have plain := List.find?_eq_none.mp short
        have quote : point ≠ 34 := by
          intro given
          rcases given with rfl
          exact plain (34, 34) (by decide) (by simp)
        have backslash : point ≠ 92 := by
          intro given
          rcases given with rfl
          exact plain (92, 92) (by decide) (by simp)
        exact scanString_plain quote backslash small fuel rest

theorem scanString_quoted (text tail : Text) (fuel : Nat) (enough : text.length < fuel) :
    scanString fuel (text.flatMap escape ++ 34 :: tail) = .ok (text, tail) := by
  induction text generalizing fuel with
  | nil =>
      obtain ⟨fuel, rfl⟩ := Nat.exists_eq_add_of_lt enough
      simp [scanString]
  | cons point text ih =>
      cases fuel with
      | zero => omega
      | succ fuel =>
          rw [List.length_cons] at enough
          rw [List.flatMap_cons, List.append_assoc, scanString_escape, ih fuel (by omega)]

theorem length_le_flatMap_escape (text : Text) : text.length ≤ (text.flatMap escape).length := by
  induction text with
  | nil => simp
  | cons point text ih =>
      have some : 1 ≤ (escape point).length := by
        unfold escape
        split
        · simp
        · split
          · simp
          · simp
      rw [List.flatMap_cons, List.length_append, List.length_cons]
      omega

theorem scanString_body (text tail : Text) :
    let rest := text.flatMap escape ++ 34 :: tail
    scanString (rest.length + 1) rest = .ok (text, tail) := by
  intro rest
  have shorter := length_le_flatMap_escape text
  have length : rest.length = (text.flatMap escape).length + (tail.length + 1) := by
    simp [rest]
  apply scanString_quoted
  omega

/-! Values. -/

/-- The first code point of a text that was written is no whitespace, closes nothing and is no
byte order mark. -/
def Starts (text : Text) : Prop :=
  ∃ first rest, text = first :: rest ∧ first ∉ [32, 9, 10, 13] ∧ first ≠ 93 ∧ first ≠ 125 ∧
    first ≠ 0xfeff

theorem skip_cons {first : Nat} (rest : Text) (visible : first ∉ [32, 9, 10, 13]) :
    skip (first :: rest) = first :: rest := by
  rw [skip, List.dropWhile_cons_of_neg (by simpa using visible)]

theorem skip_append {blank : Text} (white : IsBlank blank) (rest : Text) :
    skip (blank ++ rest) = skip rest := by
  induction blank with
  | nil => rfl
  | cons point blank ih =>
      obtain ⟨first, others⟩ := List.forall_mem_cons.mp white
      rw [List.cons_append, skip, List.dropWhile_cons_of_pos (by simpa using first)]
      exact ih others

theorem Starts.skip_append (starts : Starts text) (tail : Text) :
    skip (text ++ tail) = text ++ tail := by
  obtain ⟨first, rest, rfl, visible, -⟩ := starts
  exact skip_cons _ visible

theorem starts_of_head {first : Nat} {rest : Text}
    (fine : first ∉ [32, 9, 10, 13] ∧ first ≠ 93 ∧ first ≠ 125 ∧ first ≠ 0xfeff) :
    Starts (first :: rest) :=
  ⟨first, rest, rfl, fine⟩

theorem starts_number {sign whole : Text} (signs : IsSign sign) (form : IsWhole whole)
    (rest : Text) : Starts (sign ++ whole ++ rest) := by
  obtain ⟨digit, digits, rfl, numeral⟩ := head?_whole form
  simp only [isDigit, Bool.and_eq_true, decide_eq_true_eq] at numeral
  rcases signs with rfl | rfl
  · refine ⟨digit, digits ++ rest, rfl, ?_, by omega, by omega, by omega⟩
    simp only [List.mem_cons, List.not_mem_nil, or_false]
    omega
  · exact starts_of_head (by decide)

theorem starts_dumpsFloat (number : PyFloat φ) : Starts (dumpsFloat floats number) := by
  cases number with
  | finite number =>
      obtain ⟨sign, whole, fraction, exponent, shown, signs, form, -⟩ := floats.isFloat_repr number
      rw [dumpsFloat, shown, List.append_assoc]
      exact starts_number signs form (fraction ++ exponent)
  | infinity => exact starts_of_head (by decide)
  | minusInfinity => exact starts_of_head (by decide)
  | nan => exact starts_of_head (by decide)

theorem starts_enclosed (layout : Layout) (depth last : Nat) {first : Nat} (texts : List Text)
    (fine : first ∉ [32, 9, 10, 13] ∧ first ≠ 93 ∧ first ≠ 125 ∧ first ≠ 0xfeff) :
    Starts (enclosed layout depth first last texts) := by
  rw [enclosed]
  split
  · exact starts_of_head fine
  · exact starts_of_head fine

theorem starts_dumpsWith {layout : Layout} {depth : Nat} {value : Value φ}
    (shown : dumpsWith floats layout depth value = some text) : Starts text := by
  cases value with
  | null =>
      obtain rfl := Option.some.inj shown
      exact starts_of_head (by decide)
  | bool value =>
      cases value with
      | true =>
          obtain rfl := Option.some.inj shown
          exact starts_of_head (by decide)
      | false =>
          obtain rfl := Option.some.inj shown
          exact starts_of_head (by decide)
  | int number =>
      rw [dumpsWith, dumpsInt] at shown
      split at shown
      · contradiction
      · obtain rfl := Option.some.inj shown
        simpa using starts_number (isSign_signOf number) (isWhole_decimal number.natAbs) []
  | float number =>
      obtain rfl := Option.some.inj shown
      exact starts_dumpsFloat number
  | str string =>
      obtain rfl := Option.some.inj shown
      exact starts_of_head (by decide)
  | arr items =>
      obtain ⟨texts, -, rfl⟩ := Option.map_eq_some_iff.mp shown
      exact starts_enclosed layout depth 93 texts (by decide)
  | obj entries =>
      obtain ⟨texts, -, rfl⟩ := Option.map_eq_some_iff.mp shown
      exact starts_enclosed layout depth 125 texts (by decide)

/-- A text that the scan reads as the item, whatever may follow it. -/
def Reads {α : Type} (scan : Text → Scan α) (item : α) (text : Text) : Prop :=
  Starts text ∧ ∀ tail, Stops tail → scan (text ++ tail) = .ok (item, tail)

theorem stops_cons {point : Nat} {rest : Text}
    (other : isDigit point = false ∧ point ≠ 46 ∧ point ≠ 101 ∧ point ≠ 69) :
    Stops (point :: rest) := by
  intro first head
  obtain rfl : point = first := by simpa using head
  exact other

theorem Starts.append (starts : Starts text) (tail : Text) : Starts (text ++ tail) := by
  obtain ⟨first, rest, rfl, fine⟩ := starts
  exact ⟨first, rest ++ tail, rfl, fine⟩

theorem Starts.joined (starts : Starts text) (separator : Text) (texts : List Text) :
    Starts (joined separator (text :: texts)) := by
  cases texts with
  | nil => exact starts
  | cons other texts =>
      rw [JsonText.joined, List.append_assoc]
      exact starts.append _

theorem scanSequence_joined {α : Type} {scan : Text → Scan α} {close : Nat}
    (closes : close = 93 ∨ close = 125) {gap last : Text} (gapBlank : IsBlank gap)
    (lastBlank : IsBlank last) {items : List α} {texts : List Text}
    (each : List.Forall₂ (Reads scan) items texts) (nonempty : items ≠ []) (fuel : Nat)
    (enough : items.length ≤ fuel) (tail : Text) :
    scanSequence close scan fuel (joined (44 :: gap) texts ++ (last ++ close :: tail)) =
      .ok (items, tail) := by
  have visible : close ∉ [32, 9, 10, 13] := by
    rcases closes with rfl | rfl
    · decide
    · decide
  have ends : skip (last ++ close :: tail) = close :: tail := by
    rw [skip_append lastBlank, skip_cons _ visible]
  have stops : Stops (last ++ close :: tail) := by
    cases last with
    | nil =>
        apply stops_cons
        rcases closes with rfl | rfl
        · decide
        · decide
    | cons point rest =>
        apply stops_cons
        have white := lastBlank point List.mem_cons_self
        simp only [List.mem_cons, List.not_mem_nil, or_false] at white
        rcases white with rfl | rfl | rfl | rfl
        · decide
        · decide
        · decide
        · decide
  have other : 44 ≠ close := by omega
  have comma : 44 ∉ [32, 9, 10, 13] := by decide
  induction each generalizing fuel with
  | nil => contradiction
  | @cons item text items texts reads each ih =>
      cases fuel with
      | zero => simp at enough
      | succ fuel =>
          rw [List.length_cons] at enough
          cases each with
          | nil =>
              rw [joined, scanSequence, reads.2 _ stops]
              simp only [ends, if_true]
          | @cons second following items texts another each =>
              have rest := ih (by simp) fuel (by omega)
              have next : Starts (joined (44 :: gap) (following :: texts)) :=
                another.1.joined (44 :: gap) texts
              have shown : joined (44 :: gap) (text :: following :: texts) ++
                  (last ++ close :: tail) =
                  text ++ 44 :: (gap ++
                    (joined (44 :: gap) (following :: texts) ++ (last ++ close :: tail))) := by
                simp [joined]
              have space : skip (gap ++
                  (joined (44 :: gap) (following :: texts) ++ (last ++ close :: tail))) =
                    joined (44 :: gap) (following :: texts) ++ (last ++ close :: tail) := by
                rw [skip_append gapBlank]
                exact next.skip_append _
              rw [shown, scanSequence, reads.2 _ (stops_cons (by decide))]
              simp only [skip_cons _ comma, if_neg other, if_true, space, rest]

theorem length_le_joined (separator : Text) (solid : separator ≠ []) (texts : List Text) :
    texts.length ≤ (joined separator texts).length + 1 ∧
      ∀ text ∈ texts, text.length ≤ (joined separator texts).length := by
  have positive := List.length_pos_iff.mpr solid
  induction texts with
  | nil => simp [joined]
  | cons text texts ih =>
      cases texts with
      | nil => simp [joined]
      | cons other texts =>
          obtain ⟨count, each⟩ := ih
          simp only [joined, List.length_append, List.length_cons] at count ⊢
          refine ⟨by omega, List.forall_mem_cons.mpr ⟨by omega, ?_⟩⟩
          intro text member
          have bounded := each text member
          omega

theorem reads_entry {scan : Text → Scan (Value φ)} {value : Value φ} (name : Text)
    (reads : Reads scan value text) :
    Reads (scanEntry scan) (name, value) (quoted name ++ codes ": " ++ text) := by
  refine ⟨starts_of_head (by decide), ?_⟩
  intro tail stops
  have shown : quoted name ++ codes ": " ++ text ++ tail =
      34 :: (name.flatMap escape ++ 34 :: 58 :: 32 :: (text ++ tail)) := by
    simp [quoted, codes]
  have space : skip (32 :: (text ++ tail)) = text ++ tail := reads.1.skip_append tail
  have colon : 58 ∉ [32, 9, 10, 13] := by decide
  rw [shown, scanEntry, if_pos rfl, scanString_body]
  simp only [skip_cons _ colon, List.head?_cons, if_true, List.tail_cons, space,
    reads.2 tail stops]

theorem scanOnce_constant (constant : Text × Value φ) (member : constant ∈ constants)
    (fuel : Nat) (tail : Text) :
    scanOnce floats (fuel + 1) (constant.1 ++ tail) = .ok (constant.2, tail) := by
  simp only [constants, List.mem_cons, List.not_mem_nil, or_false] at member
  rcases member with rfl | rfl | rfl | rfl | rfl | rfl
  · rfl
  · rfl
  · rfl
  · rfl
  · rfl
  · rfl

theorem scanOnce_number {sign whole : Text} (signs : IsSign sign) (form : IsWhole whole)
    (fuel : Nat) (rest : Text) :
    scanOnce floats (fuel + 1) (sign ++ whole ++ rest) =
      scanNumber floats (sign ++ whole ++ rest) := by
  obtain ⟨digit, digits, rfl, numeral⟩ := head?_whole form
  simp only [isDigit, Bool.and_eq_true, decide_eq_true_eq] at numeral
  rcases signs with rfl | rfl
  · have none : (constants (φ := φ)).find?
        (fun constant => constant.1.isPrefixOf (digit :: (digits ++ rest))) = none := by
      simp [constants, codes]
      omega
    rw [List.nil_append, List.cons_append, scanOnce, if_neg (by omega), if_neg (by omega),
      if_neg (by omega)]
    simp only [none]
  · have none : (constants (φ := φ)).find?
        (fun constant => constant.1.isPrefixOf (45 :: digit :: (digits ++ rest))) = none := by
      simp [constants, codes]
      omega
    rw [List.singleton_append, List.cons_append, List.cons_append, scanOnce, if_neg (by decide),
      if_neg (by decide), if_neg (by decide)]
    simp only [none]

theorem forall₂_dumpsItemsWith {layout : Layout} {depth : Nat} {items : List (Value φ)}
    {texts : List Text} (shown : dumpsItemsWith floats layout depth items = some texts) :
    List.Forall₂ (fun item text => dumpsWith floats layout depth item = some text) items texts := by
  induction items generalizing texts with
  | nil =>
      obtain rfl := Option.some.inj shown
      exact List.Forall₂.nil
  | cons item items ih =>
      rw [dumpsItemsWith] at shown
      split at shown
      · rename_i first rest
        obtain rfl := Option.some.inj shown
        exact List.Forall₂.cons first (ih rest)
      · contradiction

theorem forall₂_dumpsEntriesWith {layout : Layout} {depth : Nat}
    {entries : List (Text × Value φ)} {texts : List Text}
    (shown : dumpsEntriesWith floats layout depth entries = some texts) :
    List.Forall₂ (fun entry text => ∃ body, dumpsWith floats layout depth entry.2 = some body ∧
      text = quoted entry.1 ++ codes ": " ++ body) entries texts := by
  induction entries generalizing texts with
  | nil =>
      obtain rfl := Option.some.inj shown
      exact List.Forall₂.nil
  | cons entry entries ih =>
      rw [dumpsEntriesWith] at shown
      split at shown
      · rename_i first rest
        obtain rfl := Option.some.inj shown
        exact List.Forall₂.cons ⟨_, first, rfl⟩ (ih rest)
      · contradiction

theorem forall₂_imp_of_mem {α β : Type} {first second : α → β → Prop} {items : List α}
    {texts : List β} (each : List.Forall₂ first items texts)
    (implies : ∀ item ∈ items, ∀ text ∈ texts, first item text → second item text) :
    List.Forall₂ second items texts := by
  induction each with
  | nil => exact List.Forall₂.nil
  | @cons item text items texts related each ih =>
      apply List.Forall₂.cons
      · exact implies item List.mem_cons_self text List.mem_cons_self related
      · apply ih
        intro other inside shown member
        exact implies other (List.mem_cons_of_mem item inside) shown
          (List.mem_cons_of_mem text member)

theorem scanSequence_body {α : Type} {scan : Text → Scan α} (layout : Layout) (depth : Nat)
    {close : Nat} (closes : close = 93 ∨ close = 125) {items : List α} {texts : List Text}
    (each : List.Forall₂ (Reads scan) items texts) (nonempty : items ≠ []) (tail : Text) :
    ∀ first, ∃ rest,
      enclosed layout depth first close texts ++ tail = first :: rest ∧
        (skip rest).head? ≠ some 125 ∧ (skip rest).head? ≠ some 93 ∧
        scanSequence close scan (rest.length + 1) (skip rest) = .ok (items, tail) := by
  intro first
  have written : texts ≠ [] := by
    intro given
    rcases given with rfl
    exact nonempty (List.forall₂_nil_right_iff.mp each)
  refine ⟨layout.line (depth + 1) ++ (joined (44 :: layout.gap (depth + 1)) texts ++
    (layout.line depth ++ close :: tail)), ?_, ?_⟩
  · rw [enclosed, if_neg written]
    simp
  rw [skip_append (layout.blank_line (depth + 1))]
  have bounded := (length_le_joined (44 :: layout.gap (depth + 1)) (by simp) texts).1
  have same := each.length_eq
  cases each with
  | nil => contradiction
  | @cons item text items texts reads each =>
      have starts := (reads.1.joined (44 :: layout.gap (depth + 1)) texts).append
        (layout.line depth ++ close :: tail)
      have solid := starts.skip_append []
      rw [List.append_nil] at solid
      rw [solid]
      obtain ⟨head, others, shown, visible, bracket, brace, -⟩ := starts
      refine ⟨?_, ?_, ?_⟩
      · rw [shown]
        simpa using brace
      · rw [shown]
        simpa using bracket
      · apply scanSequence_joined closes (layout.blank_gap (depth + 1)) (layout.blank_line depth)
          (List.Forall₂.cons reads each) nonempty
        simp only [List.length_append, List.length_cons] at bounded same ⊢
        omega

theorem scanOnce_dumpsInt {number : Int} (shown : dumpsInt number = some text) (fuel : Nat)
    (stops : Stops tail) :
    scanOnce floats (fuel + 1) (text ++ tail) = .ok (.int number, tail) := by
  rw [← scanNumber_dumpsInt floats shown stops]
  unfold dumpsInt at shown
  dsimp only at shown
  split at shown
  · contradiction
  · obtain rfl := Option.some.inj shown
    exact scanOnce_number (isSign_signOf number) (isWhole_decimal number.natAbs) fuel tail

theorem scanOnce_dumpsFloat (number : PyFloat φ) (fuel : Nat) (stops : Stops tail) :
    scanOnce floats (fuel + 1) (dumpsFloat floats number ++ tail) = .ok (.float number, tail) := by
  cases number with
  | finite number =>
      rw [dumpsFloat, ← scanNumber_repr number stops]
      obtain ⟨sign, whole, fraction, exponent, shown, signs, form, -⟩ := floats.isFloat_repr number
      rw [shown, List.append_assoc, List.append_assoc]
      exact scanOnce_number signs form fuel _
  | infinity =>
      exact scanOnce_constant (codes "Infinity", .float .infinity)
        (by simp [constants]) fuel tail
  | minusInfinity =>
      exact scanOnce_constant (codes "-Infinity", .float .minusInfinity)
        (by simp [constants]) fuel tail
  | nan =>
      exact scanOnce_constant (codes "NaN", .float .nan) (by simp [constants]) fuel
        tail

theorem scanOnce_arr (layout : Layout) (depth : Nat) {fuel : Nat} {items : List (Value φ)}
    {texts : List Text} (each : List.Forall₂ (Reads (scanOnce floats fuel)) items texts) :
    scanOnce floats (fuel + 1) (enclosed layout depth 91 93 texts ++ tail) =
      .ok (.arr items, tail) := by
  by_cases empty : items = []
  · subst empty
    obtain rfl := List.forall₂_nil_left_iff.mp each
    rfl
  · obtain ⟨rest, shown, -, other, read⟩ :=
      scanSequence_body layout depth (Or.inl rfl) each empty tail 91
    rw [shown, scanOnce, if_neg (by decide), if_neg (by decide), if_pos rfl, if_neg other, read]

theorem scanOnce_obj (layout : Layout) (depth : Nat) {fuel : Nat}
    {entries : List (Text × Value φ)} {texts : List Text}
    (names : (entries.map Prod.fst).Nodup)
    (each : List.Forall₂ (Reads (scanEntry (scanOnce floats fuel))) entries texts) :
    scanOnce floats (fuel + 1) (enclosed layout depth 123 125 texts ++ tail) =
      .ok (.obj entries, tail) := by
  by_cases empty : entries = []
  · subst empty
    obtain rfl := List.forall₂_nil_left_iff.mp each
    rfl
  · obtain ⟨rest, shown, other, -, read⟩ :=
      scanSequence_body layout depth (Or.inr rfl) each empty tail 123
    have same : Dict.ofList entries = ⟨entries, names⟩ := Dict.ofList_entries ⟨entries, names⟩
    rw [shown, scanOnce, if_neg (by decide), if_pos rfl, if_neg other, read]
    simp only [same]

theorem length_lt_enclosed (layout : Layout) (depth first last : Nat) (texts : List Text) :
    0 < (enclosed layout depth first last texts).length ∧
      ∀ text ∈ texts, text.length < (enclosed layout depth first last texts).length := by
  rw [enclosed]
  split
  · next empty =>
      rw [empty]
      simp
  · have shorter := (length_le_joined (44 :: layout.gap (depth + 1)) (by simp) texts).2
    simp only [List.length_append, List.length_singleton]
    refine ⟨by omega, ?_⟩
    intro text member
    have bounded := shorter text member
    omega

theorem reads_dumpsWith {layout : Layout} {value : Value φ} (distinct : Distinct value)
    {depth fuel : Nat} (shown : dumpsWith floats layout depth value = some text)
    (enough : text.length ≤ fuel) : Reads (scanOnce floats (fuel + 1)) value text := by
  refine ⟨starts_dumpsWith shown, ?_⟩
  induction distinct generalizing text depth fuel with
  | null =>
      obtain rfl := Option.some.inj shown
      intro tail _
      exact scanOnce_constant (codes "null", .null) (by simp [constants]) fuel tail
  | bool value =>
      intro tail _
      cases value with
      | true =>
          obtain rfl := Option.some.inj shown
          exact scanOnce_constant (codes "true", .bool true) (by simp [constants])
            fuel tail
      | false =>
          obtain rfl := Option.some.inj shown
          exact scanOnce_constant (codes "false", .bool false) (by simp [constants])
            fuel tail
  | int number =>
      intro tail stops
      exact scanOnce_dumpsInt shown fuel stops
  | float number =>
      obtain rfl := Option.some.inj shown
      intro tail stops
      exact scanOnce_dumpsFloat number fuel stops
  | str string =>
      obtain rfl := Option.some.inj shown
      intro tail _
      have split : quoted string ++ tail = 34 :: (string.flatMap escape ++ 34 :: tail) := by
        simp [quoted]
      rw [split, scanOnce, if_pos rfl, scanString_body]
  | arr items each ih =>
      rw [dumpsWith, Option.map_eq_some_iff] at shown
      obtain ⟨texts, listed, rfl⟩ := shown
      have shorter := length_lt_enclosed layout depth 91 93 texts
      cases fuel with
      | zero => omega
      | succ fuel =>
          intro tail _
          apply scanOnce_arr
          apply forall₂_imp_of_mem (forall₂_dumpsItemsWith listed)
          intro item inside written member text
          have bounded := shorter.2 written member
          exact ⟨starts_dumpsWith text, ih item inside text (by omega)⟩
  | obj entries names each ih =>
      rw [dumpsWith, Option.map_eq_some_iff] at shown
      obtain ⟨texts, listed, rfl⟩ := shown
      have shorter := length_lt_enclosed layout depth 123 125 texts
      cases fuel with
      | zero => omega
      | succ fuel =>
          intro tail _
          apply scanOnce_obj layout depth names
          apply forall₂_imp_of_mem (forall₂_dumpsEntriesWith listed)
          intro entry inside written member text
          obtain ⟨body, dumped, rfl⟩ := text
          have bounded := shorter.2 _ member
          simp only [List.length_append] at bounded
          exact reads_entry entry.1 ⟨starts_dumpsWith dumped, ih entry inside dumped (by omega)⟩

theorem loads_dumpsWith {layout : Layout} {depth : Nat} {value : Value φ}
    (distinct : Distinct value) (shown : dumpsWith floats layout depth value = some text) :
    loads floats text = .ok value := by
  have reads := reads_dumpsWith distinct shown (le_refl text.length)
  have starts := reads.1
  have read := reads.2 [] (by intro point head; simp at head)
  have whole := starts.skip_append []
  rw [List.append_nil] at read whole
  obtain ⟨first, rest, rfl, -, -, -, mark⟩ := starts
  rw [loads, if_neg (by simpa using mark), whole, read]
  rfl

theorem loads_dumps {value : Value φ} (distinct : Distinct value)
    (shown : dumps floats value = some text) : loads floats text = .ok value := by
  rw [← dumpsWith_compact floats value 0] at shown
  exact loads_dumpsWith distinct shown

end JsonText
