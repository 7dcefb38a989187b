import RagSystem.Data.JsonRoundTrip

/-! JSON texts as `json.dumps` writes them by default, with escapes for all but ASCII. -/

namespace JsonText

variable {φ : Type} {floats : Floats φ} {text rest : Text} {point fuel : Nat}

/-! Writing. -/

def fourDigits (point : Nat) : Text :=
  [hexDigit (point / 4096), hexDigit (point / 256 % 16), hexDigit (point / 16 % 16),
    hexDigit (point % 16)]

def highSurrogate (point : Nat) : Nat := 0xd800 + (point - 0x10000) / 0x400

def lowSurrogate (point : Nat) : Nat := 0xdc00 + (point - 0x10000) % 0x400

def escapeAscii (point : Nat) : Text :=
  match shortEscapes.find? (fun pair => pair.2 = point) with
  | some pair => [92, pair.1]
  | none =>
      if 32 ≤ point ∧ point ≤ 126 then [point]
      else if point < 0x10000 then 92 :: 117 :: fourDigits point
      else
        92 :: 117 :: (fourDigits (highSurrogate point) ++
          92 :: 117 :: fourDigits (lowSurrogate point))

def quotedAscii (text : Text) : Text := [34] ++ text.flatMap escapeAscii ++ [34]

section Writing

variable (floats)

mutual

def dumpsAscii : Value φ → Option Text
  | .null => some (codes "null")
  | .bool true => some (codes "true")
  | .bool false => some (codes "false")
  | .int number => dumpsInt number
  | .float number => some (dumpsFloat floats number)
  | .str text => some (quotedAscii text)
  | .arr items =>
      (dumpsItemsAscii items).map (fun texts => [91] ++ joined (codes ", ") texts ++ [93])
  | .obj entries =>
      (dumpsEntriesAscii entries).map (fun texts => [123] ++ joined (codes ", ") texts ++ [125])

def dumpsItemsAscii : List (Value φ) → Option (List Text)
  | [] => some []
  | item :: rest =>
      match dumpsAscii item, dumpsItemsAscii rest with
      | some text, some texts => some (text :: texts)
      | _, _ => none

def dumpsEntriesAscii : List (Text × Value φ) → Option (List Text)
  | [] => some []
  | entry :: rest =>
      match dumpsAscii entry.2, dumpsEntriesAscii rest with
      | some text, some texts => some ((quotedAscii entry.1 ++ codes ": " ++ text) :: texts)
      | _, _ => none

end

end Writing

/-! What a reader returns. -/

/-- No two surrogates side by side that stand for one code point. -/
structure Unpaired (text : Text) : Prop where
  inRange : ∀ point ∈ text, point < 0x110000
  apart : text.IsChain (fun first second => ¬ (isHighSurrogate first ∧ isLowSurrogate second))

/-- The values that a reader returns. -/
inductive Parsed : Value φ → Prop
  | null : Parsed .null
  | bool (value : Bool) : Parsed (.bool value)
  | int (value : Int) (short : (decimal value.natAbs).length ≤ intMaxStrDigits) :
      Parsed (.int value)
  | float (value : PyFloat φ) : Parsed (.float value)
  | str (text : Text) (unpaired : Unpaired text) : Parsed (.str text)
  | arr (items : List (Value φ)) (each : ∀ item ∈ items, Parsed item) : Parsed (.arr items)
  | obj (entries : List (Text × Value φ)) (names : (entries.map Prod.fst).Nodup)
      (unpaired : ∀ entry ∈ entries, Unpaired entry.1) (each : ∀ entry ∈ entries, Parsed entry.2) :
      Parsed (.obj entries)

/-! Strings. -/

theorem scanHex_fourDigits (small : point < 0x10000) (rest : Text) :
    scanHex (fourDigits point ++ rest) = .ok (point, rest) := by
  have value : ((point / 4096 * 16 + point / 256 % 16) * 16 + point / 16 % 16) * 16 +
      point % 16 = point := by
    omega
  simp only [fourDigits, List.cons_append, List.nil_append, scanHex,
    hexValue_hexDigit (point / 4096) (by omega), hexValue_hexDigit (point / 256 % 16) (by omega),
    hexValue_hexDigit (point / 16 % 16) (by omega), hexValue_hexDigit (point % 16) (by omega),
    value]

/-- What follows a high surrogate does not go on with a low one. -/
def Separate (rest : Text) : Prop :=
  rest.take 2 = [92, 117] →
    ∃ low behind, scanHex (rest.drop 2) = .ok (low, behind) ∧ isLowSurrogate low = false

theorem scanUnicode_alone (small : point < 0x10000)
    (separate : isHighSurrogate point = true → Separate rest) :
    scanUnicode (fourDigits point ++ rest) = .ok (point, rest) := by
  simp only [scanUnicode, scanHex_fourDigits small]
  by_cases both : isHighSurrogate point = true ∧ rest.take 2 = [92, 117]
  · obtain ⟨low, behind, read, other⟩ := separate both.1 both.2
    rw [if_pos both]
    simp only [read, other, Bool.false_eq_true, if_false]
  · rw [if_neg both]

theorem isHighSurrogate_high (large : 0x10000 ≤ point) (inRange : point < 0x110000) :
    isHighSurrogate (highSurrogate point) = true := by
  simp only [isHighSurrogate, Bool.and_eq_true, decide_eq_true_eq]
  rw [highSurrogate]
  omega

theorem isLowSurrogate_low (point : Nat) : isLowSurrogate (lowSurrogate point) = true := by
  simp only [isLowSurrogate, Bool.and_eq_true, decide_eq_true_eq]
  rw [lowSurrogate]
  omega

theorem isLowSurrogate_high (inRange : point < 0x110000) :
    isLowSurrogate (highSurrogate point) = false := by
  simp only [isLowSurrogate, Bool.and_eq_false_iff, decide_eq_false_iff_not]
  rw [highSurrogate]
  omega

theorem scanUnicode_pair (large : 0x10000 ≤ point) (inRange : point < 0x110000) (rest : Text) :
    scanUnicode (fourDigits (highSurrogate point) ++
      92 :: 117 :: (fourDigits (lowSurrogate point) ++ rest)) = .ok (point, rest) := by
  have high : highSurrogate point < 0x10000 := by
    rw [highSurrogate]
    omega
  have low : lowSurrogate point < 0x10000 := by
    rw [lowSurrogate]
    omega
  have value : 0x10000 + (highSurrogate point - 0xd800) * 0x400 + (lowSurrogate point - 0xdc00) =
      point := by
    rw [highSurrogate, lowSurrogate]
    omega
  rw [scanUnicode, scanHex_fourDigits high]
  dsimp only
  rw [if_pos ⟨isHighSurrogate_high large inRange, rfl⟩]
  simp only [List.drop_succ_cons, List.drop_zero, scanHex_fourDigits low, isLowSurrogate_low,
    if_true, value]

theorem plain_of_find?_none (short : shortEscapes.find? (fun pair => pair.2 = point) = none) :
    point ≠ 34 ∧ point ≠ 92 := by
  have plain := List.find?_eq_none.mp short
  constructor
  · intro given
    subst given
    exact plain (34, 34) (by decide) (by simp)
  · intro given
    subst given
    exact plain (92, 92) (by decide) (by simp)

theorem scanString_unicode (read : scanUnicode text = .ok (point, rest)) :
    scanString (fuel + 1) (92 :: 117 :: text) =
      match scanString fuel rest with
      | .error failure => .error failure
      | .ok (more, after) => .ok (point :: more, after) := by
  have escaped : scanEscape (117 :: text) = .ok (point, rest) := by
    rw [scanEscape, if_pos rfl, read]
  rw [scanString, if_neg (by decide), if_pos rfl, escaped] <;> rfl

theorem scanString_escapeAscii (fuel : Nat) (inRange : point < 0x110000)
    (separate : isHighSurrogate point = true → Separate rest) :
    scanString (fuel + 1) (escapeAscii point ++ rest) =
      match scanString fuel rest with
      | .error failure => .error failure
      | .ok (text, after) => .ok (point :: text, after) := by
  rw [escapeAscii]
  cases short : shortEscapes.find? (fun pair => pair.2 = point) with
  | some pair =>
      obtain ⟨found, unicode, solidus⟩ := shortEscapes_letter pair (List.mem_of_find?_eq_some short)
      obtain rfl : pair.2 = point := by simpa using List.find?_some short
      have escaped : scanEscape (pair.1 :: rest) = .ok (pair.2, rest) := by
        rw [scanEscape, if_neg unicode, if_neg solidus]
        simp only [found]
      simp only [List.cons_append, List.nil_append, scanString, escaped]
      rfl
  | none =>
      dsimp only
      by_cases printable : 32 ≤ point ∧ point ≤ 126
      · obtain ⟨quote, backslash⟩ := plain_of_find?_none short
        rw [if_pos printable]
        exact scanString_plain quote backslash (by omega) fuel rest
      · rw [if_neg printable]
        by_cases small : point < 0x10000
        · rw [if_pos small]
          exact scanString_unicode (scanUnicode_alone small separate)
        · rw [if_neg small, List.cons_append, List.cons_append, List.append_assoc]
          exact scanString_unicode (scanUnicode_pair (by omega) inRange rest)

theorem separate_escapeAscii (inRange : point < 0x110000)
    (other : isLowSurrogate point = false) (rest : Text) :
    Separate (escapeAscii point ++ rest) := by
  intro marks
  rw [escapeAscii] at marks ⊢
  cases short : shortEscapes.find? (fun pair => pair.2 = point) with
  | some pair =>
      rw [short] at marks
      have unicode := (shortEscapes_letter pair (List.mem_of_find?_eq_some short)).2.1
      simp only [List.cons_append, List.nil_append, List.take_succ_cons, List.take_zero,
        List.cons.injEq, and_true, true_and] at marks
      exact absurd marks unicode
  | none =>
      rw [short] at marks
      dsimp only at marks ⊢
      by_cases printable : 32 ≤ point ∧ point ≤ 126
      · rw [if_pos printable] at marks
        have backslash := (plain_of_find?_none short).2
        simp only [List.cons_append, List.nil_append, List.take_succ_cons, List.cons.injEq] at marks
        exact absurd marks.1 backslash
      · rw [if_neg printable]
        by_cases small : point < 0x10000
        · rw [if_pos small]
          exact ⟨point, rest, scanHex_fourDigits small rest, other⟩
        · rw [if_neg small, List.cons_append, List.cons_append, List.append_assoc]
          refine ⟨highSurrogate point, _, scanHex_fourDigits ?_ _, isLowSurrogate_high inRange⟩
          rw [highSurrogate]
          omega

theorem Unpaired.tail (unpaired : Unpaired (point :: text)) : Unpaired text :=
  ⟨fun other member => unpaired.inRange other (List.mem_cons_of_mem point member),
    unpaired.apart.tail⟩

theorem Unpaired.separate (unpaired : Unpaired (point :: text))
    (high : isHighSurrogate point = true) (tail : Text) :
    Separate (text.flatMap escapeAscii ++ 34 :: tail) := by
  cases text with
  | nil =>
      intro marks
      cases marks
  | cons next text =>
      have other : isLowSurrogate next = false := by
        have apart := (List.isChain_cons_cons.mp unpaired.apart).1
        rw [high] at apart
        simpa using apart
      rw [List.flatMap_cons, List.append_assoc]
      exact separate_escapeAscii (unpaired.inRange next (by simp)) other _

theorem scanString_quotedAscii (unpaired : Unpaired text) (tail : Text) (fuel : Nat)
    (enough : text.length < fuel) :
    scanString fuel (text.flatMap escapeAscii ++ 34 :: tail) = .ok (text, tail) := by
  induction text generalizing fuel with
  | nil =>
      obtain ⟨fuel, rfl⟩ := Nat.exists_eq_add_of_lt enough
      simp [scanString]
  | cons point text ih =>
      cases fuel with
      | zero => omega
      | succ fuel =>
          rw [List.length_cons] at enough
          rw [List.flatMap_cons, List.append_assoc,
            scanString_escapeAscii fuel (unpaired.inRange point List.mem_cons_self)
              (fun high => unpaired.separate high tail),
            ih unpaired.tail fuel (by omega)]

theorem length_le_flatMap_escapeAscii (text : Text) :
    text.length ≤ (text.flatMap escapeAscii).length := by
  induction text with
  | nil => simp
  | cons point text ih =>
      have some : 1 ≤ (escapeAscii point).length := by
        rw [escapeAscii]
        split
        · simp
        · split
          · simp
          · split
            · simp
            · simp
      rw [List.flatMap_cons, List.length_append, List.length_cons]
      omega

theorem scanString_bodyAscii (unpaired : Unpaired text) (tail : Text) :
    let rest := text.flatMap escapeAscii ++ 34 :: tail
    scanString (rest.length + 1) rest = .ok (text, tail) := by
  intro rest
  have shorter := length_le_flatMap_escapeAscii text
  have length : rest.length = (text.flatMap escapeAscii).length + (tail.length + 1) := by
    simp [rest]
  apply scanString_quotedAscii unpaired
  omega

/-! Values. -/

theorem reads_quotedAscii (unpaired : Unpaired text) (fuel : Nat) :
    Reads (scanOnce floats (fuel + 1)) (.str text) (quotedAscii text) := by
  refine ⟨starts_of_head (by decide), ?_⟩
  intro tail _
  have split : quotedAscii text ++ tail = 34 :: (text.flatMap escapeAscii ++ 34 :: tail) := by
    simp [quotedAscii]
  rw [split, scanOnce, if_pos rfl, scanString_bodyAscii unpaired]

theorem reads_entryAscii {scan : Text → Scan (Value φ)} {value : Value φ} {name : Text}
    (unpaired : Unpaired name) (reads : Reads scan value text) :
    Reads (scanEntry scan) (name, value) (quotedAscii name ++ codes ": " ++ text) := by
  refine ⟨starts_of_head (by decide), ?_⟩
  intro tail stops
  have shown : quotedAscii name ++ codes ": " ++ text ++ tail =
      34 :: (name.flatMap escapeAscii ++ 34 :: 58 :: 32 :: (text ++ tail)) := by
    simp [quotedAscii, codes]
  have space : skip (32 :: (text ++ tail)) = text ++ tail := reads.1.skip_append tail
  have colon : 58 ∉ [32, 9, 10, 13] := by decide
  rw [shown, scanEntry, if_pos rfl, scanString_bodyAscii unpaired]
  simp only [skip_cons _ colon, List.head?_cons, if_true, List.tail_cons, space,
    reads.2 tail stops]

theorem forall₂_dumpsItemsAscii {items : List (Value φ)} {texts : List Text}
    (shown : dumpsItemsAscii floats items = some texts) :
    List.Forall₂ (fun item text => dumpsAscii floats item = some text) items texts := by
  induction items generalizing texts with
  | nil =>
      obtain rfl := Option.some.inj shown
      exact List.Forall₂.nil
  | cons item items ih =>
      rw [dumpsItemsAscii] at shown
      split at shown
      · rename_i first rest
        obtain rfl := Option.some.inj shown
        exact List.Forall₂.cons first (ih rest)
      · contradiction

theorem forall₂_dumpsEntriesAscii {entries : List (Text × Value φ)} {texts : List Text}
    (shown : dumpsEntriesAscii floats entries = some texts) :
    List.Forall₂ (fun entry text => ∃ body, dumpsAscii floats entry.2 = some body ∧
      text = quotedAscii entry.1 ++ codes ": " ++ body) entries texts := by
  induction entries generalizing texts with
  | nil =>
      obtain rfl := Option.some.inj shown
      exact List.Forall₂.nil
  | cons entry entries ih =>
      rw [dumpsEntriesAscii] at shown
      split at shown
      · rename_i first rest
        obtain rfl := Option.some.inj shown
        exact List.Forall₂.cons ⟨_, first, rfl⟩ (ih rest)
      · contradiction

theorem reads_dumpsAscii (floats : Floats φ) {value : Value φ} (parsed : Parsed value) :
    ∃ text, dumpsAscii floats value = some text ∧
      ∀ fuel, text.length ≤ fuel → Reads (scanOnce floats (fuel + 1)) value text := by
  induction parsed with
  | null =>
      refine ⟨_, rfl, ?_⟩
      intro fuel _
      exact ⟨starts_of_head (by decide),
        fun tail _ => scanOnce_constant (codes "null", .null) (by simp [constants]) fuel tail⟩
  | bool value =>
      cases value with
      | true =>
          refine ⟨_, rfl, ?_⟩
          intro fuel _
          exact ⟨starts_of_head (by decide), fun tail _ =>
            scanOnce_constant (codes "true", .bool true) (by simp [constants]) fuel tail⟩
      | false =>
          refine ⟨_, rfl, ?_⟩
          intro fuel _
          exact ⟨starts_of_head (by decide), fun tail _ =>
            scanOnce_constant (codes "false", .bool false) (by simp [constants]) fuel tail⟩
  | int number short =>
      have shown : dumpsInt number = some (signOf number ++ decimal number.natAbs) :=
        if_neg (by omega)
      refine ⟨_, shown, ?_⟩
      intro fuel _
      refine ⟨?_, fun tail stops => scanOnce_dumpsInt shown fuel stops⟩
      simpa using starts_number (isSign_signOf number) (isWhole_decimal number.natAbs) []
  | float number =>
      refine ⟨_, rfl, ?_⟩
      intro fuel _
      exact ⟨starts_dumpsFloat number, fun tail stops => scanOnce_dumpsFloat number fuel stops⟩
  | str string unpaired => exact ⟨_, rfl, fun fuel _ => reads_quotedAscii unpaired fuel⟩
  | arr items each ih =>
      have written : ∃ texts, dumpsItemsAscii floats items = some texts := by
        clear each
        induction items with
        | nil => exact ⟨[], rfl⟩
        | cons item items more =>
            obtain ⟨first, shown, -⟩ := ih item List.mem_cons_self
            obtain ⟨others, listed⟩ :=
              more (fun other member => ih other (List.mem_cons_of_mem item member))
            exact ⟨first :: others, by rw [dumpsItemsAscii, shown, listed]⟩
      obtain ⟨texts, listed⟩ := written
      refine ⟨enclosed compact 0 91 93 texts, ?_, ?_⟩
      · rw [dumpsAscii, listed, enclosed_compact]
        rfl
      · have shorter := length_lt_enclosed compact 0 91 93 texts
        intro fuel enough
        cases fuel with
        | zero => omega
        | succ fuel =>
            refine ⟨starts_enclosed compact 0 93 texts (by decide), fun tail _ => ?_⟩
            apply scanOnce_arr
            apply forall₂_imp_of_mem (forall₂_dumpsItemsAscii listed)
            intro item inside written member dumped
            obtain ⟨text, shown, reads⟩ := ih item inside
            obtain rfl := Option.some.inj (dumped.symm.trans shown)
            have bounded := shorter.2 written member
            exact reads fuel (by omega)
  | obj entries names unpaired each ih =>
      have written : ∃ texts, dumpsEntriesAscii floats entries = some texts := by
        clear each names unpaired
        induction entries with
        | nil => exact ⟨[], rfl⟩
        | cons entry entries more =>
            obtain ⟨first, shown, -⟩ := ih entry List.mem_cons_self
            obtain ⟨others, listed⟩ :=
              more (fun other member => ih other (List.mem_cons_of_mem entry member))
            exact ⟨_ :: others, by rw [dumpsEntriesAscii, shown, listed]⟩
      obtain ⟨texts, listed⟩ := written
      refine ⟨enclosed compact 0 123 125 texts, ?_, ?_⟩
      · rw [dumpsAscii, listed, enclosed_compact]
        rfl
      · have shorter := length_lt_enclosed compact 0 123 125 texts
        intro fuel enough
        cases fuel with
        | zero => omega
        | succ fuel =>
            refine ⟨starts_enclosed compact 0 125 texts (by decide), fun tail _ => ?_⟩
            apply scanOnce_obj compact 0 names
            apply forall₂_imp_of_mem (forall₂_dumpsEntriesAscii listed)
            intro entry inside written member shape
            obtain ⟨body, dumped, rfl⟩ := shape
            obtain ⟨text, shown, reads⟩ := ih entry inside
            obtain rfl := Option.some.inj (dumped.symm.trans shown)
            have bounded := shorter.2 _ member
            simp only [List.length_append] at bounded
            exact reads_entryAscii (unpaired entry inside) (reads fuel (by omega))

theorem loads_dumpsAscii (floats : Floats φ) {value : Value φ} (parsed : Parsed value) :
    ∃ text, dumpsAscii floats value = some text ∧ loads floats text = .ok value := by
  obtain ⟨text, shown, reads⟩ := reads_dumpsAscii floats parsed
  have whole := reads text.length (le_refl text.length)
  have starts := whole.1
  have read := whole.2 [] (by intro point head; simp at head)
  have solid := starts.skip_append []
  rw [List.append_nil] at read solid
  obtain ⟨first, rest, same, -, -, -, mark⟩ := starts
  refine ⟨text, shown, ?_⟩
  rw [loads, if_neg (by rw [same]; simpa using mark), solid, read]
  rfl

end JsonText
