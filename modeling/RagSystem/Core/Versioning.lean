import Mathlib.Data.List.Lex
import RagSystem.Core.Context
import RagSystem.Data.FirstMax
import RagSystem.Data.Grouping

/-! One version for each document (`proxy/app/core/context/versioning.py`). -/

namespace RagSystem.Core.Versioning

def otherDigits : List (Nat × Nat) :=
  [(0xb2, 0xb3), (0xb9, 0xb9), (0x1369, 0x1371), (0x19da, 0x19da), (0x2070, 0x2070),
    (0x2074, 0x2079), (0x2080, 0x2089), (0x2460, 0x2468), (0x2474, 0x247c), (0x2488, 0x2490),
    (0x24ea, 0x24ea), (0x24f5, 0x24fd), (0x24ff, 0x24ff), (0x2776, 0x277e), (0x2780, 0x2788),
    (0x278a, 0x2792), (0x10a40, 0x10a43), (0x10e60, 0x10e68), (0x11052, 0x1105a),
    (0x1f100, 0x1f10a)]

def isDigitChar (char : Char) : Bool :=
  (decimalDigit char).isSome ||
    otherDigits.any (fun range => decide (range.1 ≤ char.toNat ∧ char.toNat ≤ range.2))

/-- `str.isdigit`. -/
def isDigit (text : String) : Bool := text ≠ "" && text.toList.all isDigitChar

def isSeparator (char : Char) : Bool := char = '.' || char = '-'

/-- `re.split(r"[.-]", version)`. -/
def versionParts (version : String) : List String :=
  (version.toList.splitOnP isSeparator).map String.ofList

/-- The numbers of a version. A part of digits that `int` refuses makes the version the lowest. -/
def numbersOf (version : String) : List Int :=
  (((versionParts version).filter isDigit).mapM intOf).getD [0]

def versionKey (ranked : Ranked) : List Int := numbersOf (ranked.1.own.access.version.getD "0")

def sourceOf (ranked : Ranked) : String := ranked.1.own.sourceId.getD "unknown"

def resolveGroup (requested : Option String) (group : List Ranked) : List Ranked :=
  let filtered := if requested.getD "" = "" then []
    else group.filter (fun ranked => ranked.1.own.access.version = requested)
  if filtered ≠ [] then filtered
  else
    match group with
    | [] => []
    | first :: rest => [maxBy versionKey first rest]

def resolveVersions (chunks : List Ranked) (requested : Option String) : List Ranked :=
  (groupBy sourceOf chunks).entries.flatMap (fun entry => resolveGroup requested entry.2)

/-! The order of the versions. -/

theorem digit_range {char : Char} (digit : char.isDigit = true) :
    0x30 ≤ char.toNat ∧ char.toNat < 0x30 + 10 := by
  simp only [Char.isDigit, Bool.and_eq_true, decide_eq_true_eq, ge_iff_le,
    UInt32.le_iff_toNat_le] at digit
  have upper : char.toNat ≤ 57 := digit.2
  exact ⟨digit.1, by omega⟩

theorem decimalDigit_ascii {char : Char} (digit : char.isDigit = true) :
    decimalDigit char = some (char.toNat - '0'.toNat) := by
  rw [decimalDigit, decimalZeros, List.find?_cons, decide_eq_true (digit_range digit)]
  rfl

theorem mapM_decimalDigit {digits : List Char} (ascii : ∀ char ∈ digits, char.isDigit = true) :
    digits.mapM decimalDigit = some (digits.map (fun char => char.toNat - '0'.toNat)) := by
  induction digits with
  | nil => rfl
  | cons char digits ih =>
      rw [List.mapM_cons, decimalDigit_ascii (ascii char List.mem_cons_self),
        ih (fun other member => ascii other (List.mem_cons_of_mem char member))]
      rfl

theorem decimalValue_toDigits (number : Nat) :
    decimalValue (Nat.toDigits 10 number) =
      if (Nat.toDigits 10 number).length ≤ 4300 then some number else none := by
  have single : (Nat.toDigits 10 number).splitOn '_' = [Nat.toDigits 10 number] := by
    rw [List.splitOn_eq_splitOnP]
    apply List.splitOnP_eq_singleton
    intro char member
    have other : char ≠ '_' := fun same => Nat.underscore_not_in_toDigits (same ▸ member)
    simpa using other
  have ascii : ∀ char ∈ Nat.toDigits 10 number, char.isDigit = true := fun char member =>
    Nat.isDigit_of_mem_toDigits (by omega) (by omega) member
  have solid : [Nat.toDigits 10 number].any List.isEmpty = false := by
    simp [Nat.toDigits_ne_nil]
  have value : (List.map (fun char => char.toNat - '0'.toNat) (Nat.toDigits 10 number)).foldl
      (fun value digit => 10 * value + digit) 0 = number := by
    rw [List.foldl_map, ← Nat.ofDigitChars_eq_foldl, Nat.ofDigitChars_ten_toDigits]
  rw [decimalValue, single]
  simp only [solid, List.flatten_singleton, mapM_decimalDigit ascii, List.length_map, value,
    Bool.false_eq_true, if_false]

theorem digits_ascii {number : Nat} {char : Char} (member : char ∈ Nat.toDigits 10 number) :
    char.isDigit = true :=
  Nat.isDigit_of_mem_toDigits (by omega) (by omega) member

theorem strip_toDigits (number : Nat) :
    Etl.MarkdownText.strip (Nat.toDigits 10 number) = Nat.toDigits 10 number := by
  have solid : ∀ digits : List Char, (∀ char ∈ digits, char ∈ Nat.toDigits 10 number) →
      digits.dropWhile Etl.MarkdownText.isSpace = digits := by
    intro digits inside
    cases digits with
    | nil => rfl
    | cons char digits =>
        have range := digit_range (digits_ascii (inside char List.mem_cons_self))
        have visible : Etl.MarkdownText.isSpace char = false := by
          simp only [Etl.MarkdownText.isSpace, List.mem_cons, List.not_mem_nil, or_false,
            Bool.or_eq_false_iff, Bool.and_eq_false_iff, decide_eq_false_iff_not]
          omega
        rw [List.dropWhile_cons_of_neg (by simp [visible])]
  rw [Etl.MarkdownText.strip, solid _ (fun char member => member), solid _ (by simp),
    List.reverse_reverse]

theorem intOf_toString (number : Nat) :
    intOf (toString number) =
      if (Nat.toDigits 10 number).length ≤ 4300 then some (number : Int) else none := by
  have shown : (toString number).toList = Nat.toDigits 10 number := by
    rw [Nat.toString_eq_repr, Nat.toList_repr]
  rw [intOf, shown, strip_toDigits]
  split
  · rename_i rest plus
    have digit : '+'.isDigit = true := digits_ascii (by rw [plus]; simp)
    simp at digit
  · rename_i rest minus
    have digit : '-'.isDigit = true := digits_ascii (by rw [minus]; simp)
    simp at digit
  · rw [decimalValue_toDigits, apply_ite (Option.map Int.ofNat)]
    rfl

theorem isDigit_toString (number : Nat) : isDigit (toString number) = true := by
  have shown : (toString number).toList = Nat.toDigits 10 number := by
    rw [Nat.toString_eq_repr, Nat.toList_repr]
  have some : toString number ≠ "" := by
    intro empty
    rw [empty] at shown
    exact Nat.toDigits_ne_nil shown.symm
  simp only [isDigit, some, shown, ne_eq, not_false_eq_true, decide_true, Bool.true_and,
    List.all_eq_true]
  intro char member
  simp [isDigitChar, decimalDigit_ascii (digits_ascii member)]

theorem versionParts_append {separator : Char} (separates : isSeparator separator = true)
    (first second : String) :
    versionParts (first ++ String.singleton separator ++ second) =
      versionParts first ++ versionParts second := by
  have joined : (first ++ String.singleton separator ++ second).toList =
      first.toList ++ separator :: second.toList := by
    simp
  rw [versionParts, joined, List.splitOnP_append_cons _ _ separates, List.map_append]
  rfl

theorem versionParts_toString (number : Nat) :
    versionParts (toString number) = [toString number] := by
  have shown : (toString number).toList = Nat.toDigits 10 number := by
    rw [Nat.toString_eq_repr, Nat.toList_repr]
  have whole : (toString number).toList.splitOnP isSeparator = [(toString number).toList] := by
    apply List.splitOnP_eq_singleton
    intro char member
    rw [shown] at member
    have range := digit_range (digits_ascii member)
    have dot : char ≠ '.' := by rintro rfl; simp at range
    have dash : char ≠ '-' := by rintro rfl; simp at range
    simp [isSeparator, dot, dash]
  rw [versionParts, whole, List.map_singleton, String.ofList_toList]

/-- A version of numbers, as `1.10` or `2025-01-31`. -/
def written (separator : Char) : List Nat → String
  | [] => ""
  | [number] => toString number
  | number :: next :: numbers =>
      toString number ++ String.singleton separator ++ written separator (next :: numbers)

theorem versionParts_written {separator : Char} (separates : isSeparator separator = true)
    {numbers : List Nat} (some : numbers ≠ []) :
    versionParts (written separator numbers) = numbers.map toString := by
  induction numbers using written.induct with
  | case1 => contradiction
  | case2 number => exact versionParts_toString number
  | case3 number next numbers ih =>
      rw [written, versionParts_append separates, ih (by simp), versionParts_toString]
      rfl

theorem numbersOf_written {separator : Char} (separates : isSeparator separator = true)
    {numbers : List Nat} (some : numbers ≠ [])
    (short : ∀ number ∈ numbers, (Nat.toDigits 10 number).length ≤ 4300) :
    numbersOf (written separator numbers) = numbers.map Int.ofNat := by
  have digits : (numbers.map toString).filter isDigit = numbers.map toString := by
    rw [List.filter_eq_self, List.forall_mem_map]
    exact fun number _ => isDigit_toString number
  have values : (numbers.map toString).mapM intOf = Option.some (numbers.map Int.ofNat) := by
    clear some digits
    induction numbers with
    | nil => rfl
    | cons number numbers ih =>
        rw [List.map_cons, List.mapM_cons, intOf_toString, if_pos (short number List.mem_cons_self),
          ih (fun other member => short other (List.mem_cons_of_mem number member))]
        rfl
  rw [numbersOf, versionParts_written separates some, digits, values]
  rfl

theorem numbersOf_written_date : numbersOf (written '-' [2025, 1, 31]) = [2025, 1, 31] :=
  numbersOf_written (by decide) (by decide) (by decide)

theorem numbersOf_suffix {separator : Char} (separates : isSeparator separator = true)
    (version : String) {label : String} (plain : ∀ char ∈ label.toList, isSeparator char = false)
    (text : isDigit label = false) :
    numbersOf (version ++ String.singleton separator ++ label) = numbersOf version := by
  have single : versionParts label = [label] := by
    rw [versionParts, List.splitOnP_eq_singleton plain, List.map_singleton, String.ofList_toList]
  rw [numbersOf, versionParts_append separates, single, List.filter_append]
  simp [text, numbersOf]

/-! What is selected. -/

/-- The pair has the version that the query asks for; no version and the empty one ask for none. -/
def Requested (requested : Option String) (ranked : Ranked) : Prop :=
  requested.getD "" ≠ "" ∧ ranked.1.own.access.version = requested

instance (requested : Option String) (ranked : Ranked) : Decidable (Requested requested ranked) :=
  inferInstanceAs (Decidable (_ ∧ _))

def Offered (chunks : List Ranked) (requested : Option String) (source : String) : Prop :=
  ∃ ranked ∈ chunks, sourceOf ranked = source ∧ Requested requested ranked

instance (chunks : List Ranked) (requested : Option String) (source : String) :
    Decidable (Offered chunks requested source) :=
  inferInstanceAs (Decidable (∃ ranked ∈ chunks, _))

def Newest (chunks : List Ranked) (ranked : Ranked) : Prop :=
  ∀ other ∈ chunks, sourceOf other = sourceOf ranked → versionKey other ≤ versionKey ranked

instance (chunks : List Ranked) (ranked : Ranked) : Decidable (Newest chunks ranked) :=
  inferInstanceAs (Decidable (∀ other ∈ chunks, _))

def Selected (chunks : List Ranked) (requested : Option String) (ranked : Ranked) : Prop :=
  if Offered chunks requested (sourceOf ranked) then Requested requested ranked
  else Newest chunks ranked

instance (chunks : List Ranked) (requested : Option String) (ranked : Ranked) :
    Decidable (Selected chunks requested ranked) :=
  inferInstanceAs (Decidable (ite _ _ _))

/-- Where the requested version is missing, one pair of the document has the highest version. -/
def NewestOnce (chunks : List Ranked) (requested : Option String) : Prop :=
  ∀ source ∈ chunks.map sourceOf, ¬ Offered chunks requested source →
    ((groupOf sourceOf chunks source).filter (fun ranked => Newest chunks ranked)).length = 1

variable {chunks : List Ranked} {requested : Option String} {source : String} {ranked : Ranked}

theorem filtered_eq (requested : Option String) (group : List Ranked) :
    (if requested.getD "" = "" then []
      else group.filter (fun ranked => ranked.1.own.access.version = requested)) =
        group.filter (fun ranked => Requested requested ranked) := by
  by_cases none : requested.getD "" = ""
  · simp [none, Requested]
  · simp [none, Requested]

theorem resolveGroup_of_requested {group : List Ranked}
    (offered : group.filter (fun ranked => Requested requested ranked) ≠ []) :
    resolveGroup requested group = group.filter (fun ranked => Requested requested ranked) := by
  simp only [resolveGroup, filtered_eq]
  rw [if_pos offered]

theorem resolveGroup_of_latest {group : List Ranked}
    (missing : group.filter (fun ranked => Requested requested ranked) = []) (some : group ≠ []) :
    ∃ best ∈ group, (∀ other ∈ group, versionKey other ≤ versionKey best) ∧
      resolveGroup requested group = [best] := by
  simp only [resolveGroup, filtered_eq, missing]
  cases group with
  | nil => contradiction
  | cons first rest =>
      obtain ⟨member, greatest⟩ := maxBy_spec versionKey first rest
      exact ⟨maxBy versionKey first rest, member, greatest, rfl⟩

theorem mem_of_mem_resolveGroup (group : List Ranked) (ranked : Ranked)
    (member : ranked ∈ resolveGroup requested group) : ranked ∈ group := by
  by_cases missing : group.filter (fun ranked => Requested requested ranked) = []
  · cases group with
    | nil => simp [resolveGroup] at member
    | cons first rest =>
        obtain ⟨best, inside, -, single⟩ := resolveGroup_of_latest missing (by simp)
        rw [single, List.mem_singleton] at member
        exact member ▸ inside
  · rw [resolveGroup_of_requested missing] at member
    exact List.mem_of_mem_filter member

theorem offered_iff :
    Offered chunks requested source ↔
      (groupOf sourceOf chunks source).filter (fun ranked => Requested requested ranked) ≠ [] := by
  rw [Ne, List.filter_eq_nil_iff]
  push Not
  constructor
  · intro given
    rcases given with ⟨ranked, member, same, asked⟩
    exact ⟨ranked, mem_groupOf.mpr ⟨member, same⟩, by simpa using asked⟩
  · intro given
    rcases given with ⟨ranked, member, asked⟩
    obtain ⟨inside, same⟩ := mem_groupOf.mp member
    exact ⟨ranked, inside, same, by simpa using asked⟩

theorem resolveGroup_perm_iff (listed : source ∈ chunks.map sourceOf) :
    (resolveGroup requested (groupOf sourceOf chunks source)).Perm
        ((groupOf sourceOf chunks source).filter (fun ranked => Selected chunks requested ranked)) ↔
      (¬ Offered chunks requested source →
        ((groupOf sourceOf chunks source).filter
          (fun ranked => Newest chunks ranked)).length = 1) := by
  by_cases offered : Offered chunks requested source
  · have selected : (groupOf sourceOf chunks source).filter
        (fun ranked => Selected chunks requested ranked) =
          (groupOf sourceOf chunks source).filter (fun ranked => Requested requested ranked) := by
      apply List.filter_congr
      intro ranked member
      simp [Selected, (mem_groupOf.mp member).2, offered]
    rw [selected, resolveGroup_of_requested (offered_iff.mp offered)]
    simp [offered]
  · have selected : (groupOf sourceOf chunks source).filter
        (fun ranked => Selected chunks requested ranked) =
          (groupOf sourceOf chunks source).filter (fun ranked => Newest chunks ranked) := by
      apply List.filter_congr
      intro ranked member
      simp [Selected, (mem_groupOf.mp member).2, offered]
    have missing := not_not.mp (fun some => offered (offered_iff.mpr some))
    have some : groupOf sourceOf chunks source ≠ [] := by
      obtain ⟨ranked, member, same⟩ := List.mem_map.mp listed
      exact List.ne_nil_of_mem (mem_groupOf.mpr ⟨member, same⟩)
    obtain ⟨best, member, greatest, single⟩ := resolveGroup_of_latest missing some
    have newest : best ∈ (groupOf sourceOf chunks source).filter
        (fun ranked => Newest chunks ranked) := by
      rw [List.mem_filter, decide_eq_true_eq]
      refine ⟨member, fun other inside same => greatest other (mem_groupOf.mpr ⟨inside, ?_⟩)⟩
      rw [same, (mem_groupOf.mp member).2]
    rw [selected, single, List.singleton_perm]
    simp only [offered, not_false_eq_true, true_implies]
    rw [List.length_eq_one_iff]
    constructor
    · intro alone
      exact ⟨best, alone.symm⟩
    · intro given
      rcases given with ⟨other, alone⟩
      rw [alone, List.mem_singleton] at newest
      rw [alone, newest]

/-- The selected pairs are returned, all of them and nothing else, if and only if each document
without the requested version has a single pair with its highest version. -/
theorem resolveVersions_selected_iff (chunks : List Ranked) (requested : Option String) :
    (resolveVersions chunks requested).Perm
        (chunks.filter (fun ranked => Selected chunks requested ranked)) ↔
      NewestOnce chunks requested := by
  rw [resolveVersions, flatMap_groupBy_perm_iff mem_of_mem_resolveGroup]
  constructor
  · intro each source member
    exact (resolveGroup_perm_iff member).mp (each source member)
  · intro once source member
    exact (resolveGroup_perm_iff member).mpr (once source member)

def manual : List Ranked :=
  [(⟨{ access := { version := some "1.10" }, sourceId := some "manual", text := some "Install" },
      none⟩, 9 / 10),
    (⟨{ access := { version := some "1.10" }, sourceId := some "manual", text := some "Configure" },
      none⟩, 8 / 10)]

/-- The second chunk of the only version is dropped. -/
theorem manual_loses_a_chunk :
    resolveVersions manual none = manual.take 1 ∧
      ¬ (resolveVersions manual none).Perm
        (manual.filter (fun ranked => Selected manual none ranked)) := by
  decide +kernel

end RagSystem.Core.Versioning
