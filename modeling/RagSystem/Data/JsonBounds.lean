import Mathlib.Tactic.Common
import RagSystem.Data.JsonText

/-! What is read is shorter than the text. -/

namespace JsonText

variable {φ : Type} {floats : Floats φ} {text rest : Text}

/-- Whatever the scan reads, it leaves less than it was given. -/
def Consumes {α : Type} (scan : Text → Scan α) : Prop :=
  ∀ text item rest, scan text = .ok (item, rest) → rest.length < text.length

theorem length_skip_le (text : Text) : (skip text).length ≤ text.length :=
  (List.dropWhile_suffix _).length_le

theorem consumes_scanHex : Consumes scanHex := by
  intro text point rest read
  unfold scanHex at read
  split at read
  · split at read
    · obtain ⟨-, rfl⟩ := Prod.mk.inj (Except.ok.inj read)
      simp only [List.length_cons]
      omega
    · contradiction
  · contradiction

theorem consumes_scanUnicode : Consumes scanUnicode := by
  intro text point rest read
  unfold scanUnicode at read
  split at read
  · contradiction
  · rename_i high behind first
    have shorter := consumes_scanHex text high behind first
    split at read
    · split at read
      · contradiction
      · rename_i low after second
        have more := consumes_scanHex _ low after second
        rw [List.length_drop] at more
        split at read
        · obtain ⟨-, rfl⟩ := Prod.mk.inj (Except.ok.inj read)
          omega
        · obtain ⟨-, rfl⟩ := Prod.mk.inj (Except.ok.inj read)
          exact shorter
    · obtain ⟨-, rfl⟩ := Prod.mk.inj (Except.ok.inj read)
      exact shorter

theorem consumes_scanEscape : Consumes scanEscape := by
  intro text point rest read
  cases text with
  | nil => contradiction
  | cons letter behind =>
      rw [scanEscape] at read
      rw [List.length_cons]
      split at read
      · have shorter := consumes_scanUnicode behind point rest read
        omega
      · split at read
        · obtain ⟨-, rfl⟩ := Prod.mk.inj (Except.ok.inj read)
          omega
        · split at read
          · obtain ⟨-, rfl⟩ := Prod.mk.inj (Except.ok.inj read)
            omega
          · contradiction

theorem length_scanString (fuel : Nat) {text string rest : Text}
    (read : scanString fuel text = .ok (string, rest)) :
    string.length + rest.length < text.length := by
  induction fuel generalizing text string with
  | zero => contradiction
  | succ fuel ih =>
      cases text with
      | nil => contradiction
      | cons point behind =>
          rw [scanString] at read
          rw [List.length_cons]
          split at read
          · obtain ⟨rfl, rfl⟩ := Prod.mk.inj (Except.ok.inj read)
            simp
          · split at read
            · split at read
              · contradiction
              · rename_i escaped after first
                have shorter := consumes_scanEscape behind escaped after first
                split at read
                · contradiction
                · rename_i later last second
                  obtain ⟨rfl, rfl⟩ := Prod.mk.inj (Except.ok.inj read)
                  have more := ih second
                  rw [List.length_cons]
                  omega
            · split at read
              · contradiction
              · split at read
                · contradiction
                · rename_i later last second
                  obtain ⟨rfl, rfl⟩ := Prod.mk.inj (Except.ok.inj read)
                  have more := ih second
                  rw [List.length_cons]
                  omega

theorem constant_spec {constant : Text × Value φ} (member : constant ∈ constants) :
    0 < constant.1.length ∧ ∀ string, constant.2 ≠ .str string := by
  simp only [constants, List.mem_cons, List.not_mem_nil, or_false] at member
  rcases member with rfl | rfl | rfl | rfl | rfl | rfl
  · exact ⟨Nat.succ_pos _, fun string same => by cases same⟩
  · exact ⟨Nat.succ_pos _, fun string same => by cases same⟩
  · exact ⟨Nat.succ_pos _, fun string same => by cases same⟩
  · exact ⟨Nat.succ_pos _, fun string same => by cases same⟩
  · exact ⟨Nat.succ_pos _, fun string same => by cases same⟩
  · exact ⟨Nat.succ_pos _, fun string same => by cases same⟩

theorem scanNumber_ne_str (text string rest : Text) :
    scanNumber floats text ≠ .ok (.str string, rest) := by
  intro read
  rw [scanNumber] at read
  dsimp only at read
  split at read
  · contradiction
  · split at read
    · split at read
      · contradiction
      · cases read
    · cases read

theorem length_scanOnce_str (fuel : Nat) {text string rest : Text}
    (read : scanOnce floats fuel text = .ok (.str string, rest)) :
    string.length < text.length := by
  cases fuel with
  | zero => contradiction
  | succ fuel =>
      cases text with
      | nil => contradiction
      | cons first behind =>
          rw [scanOnce] at read
          rw [List.length_cons]
          split at read
          · split at read
            · contradiction
            · rename_i found after scanned
              obtain ⟨same, -⟩ := Prod.mk.inj (Except.ok.inj read)
              obtain rfl := Value.str.inj same
              have shorter := length_scanString _ scanned
              omega
          · split at read
            · split at read
              · cases read
              · split at read
                · contradiction
                · cases read
            · split at read
              · split at read
                · cases read
                · split at read
                  · contradiction
                  · cases read
              · split at read
                · rename_i constant found
                  have same := (Prod.mk.inj (Except.ok.inj read)).1
                  exact absurd same ((constant_spec (List.mem_of_find?_eq_some found)).2 string)
                · exact absurd read (scanNumber_ne_str _ string rest)

theorem loads_ne_str (text : Text) : loads floats text ≠ .ok (.str text) := by
  intro read
  rw [loads] at read
  split at read
  · contradiction
  · split at read
    · contradiction
    · rename_i value rest scanned
      split at read
      · obtain rfl := Except.ok.inj read
        have shorter := length_scanOnce_str _ scanned
        have visible := length_skip_le text
        omega
      · contradiction

end JsonText
