/-
# OpsAssist.Theory.Letters -- ASCII letters and digits by their code points

The character classes as ranges, so that arithmetic decides what is apart, and what changing
the case of a letter does.
-/
import Mathlib.Tactic.Cases

namespace OpsAssist.Theory.Letters

set_option autoImplicit false

variable {c : Char}

theorem isUpper_iff : c.isUpper = true ↔ 65 ≤ c.toNat ∧ c.toNat ≤ 90 := decide_eq_true_iff

theorem isLower_iff : c.isLower = true ↔ 97 ≤ c.toNat ∧ c.toNat ≤ 122 :=
  (Bool.and_eq_true_iff).trans (and_congr decide_eq_true_iff decide_eq_true_iff)

theorem isDigit_iff : c.isDigit = true ↔ 48 ≤ c.toNat ∧ c.toNat ≤ 57 :=
  (Bool.and_eq_true_iff).trans (and_congr decide_eq_true_iff decide_eq_true_iff)

theorem isAlphanum_iff :
    c.isAlphanum = true ↔ (c.isUpper = true ∨ c.isLower = true) ∨ c.isDigit = true :=
  (Bool.or_eq_true_iff).trans (or_congr_left Bool.or_eq_true_iff)

theorem isAlphanum_range (letter : c.isAlphanum = true) : 48 ≤ c.toNat ∧ c.toNat ≤ 122 := by
  rw [isAlphanum_iff, isUpper_iff, isLower_iff, isDigit_iff] at letter
  omega

theorem digit_not_lower (digit : c.isDigit = true) : c.isLower = false := by
  rw [isDigit_iff] at digit
  rw [← Bool.not_eq_true, isLower_iff]
  omega

theorem lower_not_upper (lower : c.isLower = true) : c.isUpper = false := by
  rw [isLower_iff] at lower
  rw [← Bool.not_eq_true, isUpper_iff]
  omega

/-- A character that is no capital is lower case already. -/
theorem toLower_same (other : c.isUpper = false) : c.toLower = c := by
  refine dif_neg fun capital => ?_
  rw [← Bool.not_eq_true, isUpper_iff] at other
  exact other capital

theorem toUpper_same (other : c.isLower = false) : c.toUpper = c := by
  refine dif_neg fun small => ?_
  rw [← Bool.not_eq_true, isLower_iff] at other
  exact other small

/-- What holds of the capitals holds of every capital. -/
theorem upper_induction (p : Char → Prop) (all : ∀ n : Fin 26, p (Char.ofNat (n.val + 65)))
    (upper : c.isUpper = true) : p c := by
  obtain ⟨low, high⟩ := isUpper_iff.mp upper
  have letter := all ⟨c.toNat - 65, by omega⟩
  dsimp only at letter
  rwa [Nat.sub_add_cancel low, Char.ofNat_toNat] at letter

theorem lower_induction (p : Char → Prop) (all : ∀ n : Fin 26, p (Char.ofNat (n.val + 97)))
    (lower : c.isLower = true) : p c := by
  obtain ⟨low, high⟩ := isLower_iff.mp lower
  have letter := all ⟨c.toNat - 97, by omega⟩
  dsimp only at letter
  rwa [Nat.sub_add_cancel low, Char.ofNat_toNat] at letter

theorem isUpper_toUpper (lower : c.isLower = true) : c.toUpper.isUpper = true :=
  lower_induction (fun c => c.toUpper.isUpper = true) (by decide) lower

theorem isLower_toLower (upper : c.isUpper = true) : c.toLower.isLower = true :=
  upper_induction (fun c => c.toLower.isLower = true) (by decide) upper

theorem toLower_toLower (c : Char) : c.toLower.toLower = c.toLower := by
  cases upper : c.isUpper with
  | true => exact toLower_same (lower_not_upper (isLower_toLower upper))
  | false => rw [toLower_same upper, toLower_same upper]

end OpsAssist.Theory.Letters
