/-
Theory.Ascii -- the ASCII classes by code point

A class is one range of code points or two, so what tells a letter or a digit from
another character is arithmetic; and the decimal digits a number is written in.
-/
import Mathlib.Tactic

namespace TypstMcp.Theory.Ascii

set_option autoImplicit false

variable {c : Char}

theorem isUpper_iff : c.isUpper = true ↔ 65 ≤ c.toNat ∧ c.toNat ≤ 90 := by
  show decide (c.val ≥ 'A'.val ∧ c.val ≤ 'Z'.val) = true ↔ _
  rw [decide_eq_true_eq, ge_iff_le, UInt32.le_iff_toNat_le, UInt32.le_iff_toNat_le]
  rfl

theorem isLower_iff : c.isLower = true ↔ 97 ≤ c.toNat ∧ c.toNat ≤ 122 := by
  show (decide (c.val ≥ 'a'.val) && decide (c.val ≤ 'z'.val)) = true ↔ _
  rw [Bool.and_eq_true, decide_eq_true_eq, decide_eq_true_eq, ge_iff_le, UInt32.le_iff_toNat_le,
    UInt32.le_iff_toNat_le]
  rfl

theorem isDigit_iff : c.isDigit = true ↔ 48 ≤ c.toNat ∧ c.toNat ≤ 57 := Char.isDigit_iff_toNat

theorem isAlpha_iff :
    c.isAlpha = true ↔ 65 ≤ c.toNat ∧ c.toNat ≤ 90 ∨ 97 ≤ c.toNat ∧ c.toNat ≤ 122 := by
  show (c.isUpper || c.isLower) = true ↔ _
  rw [Bool.or_eq_true, isUpper_iff, isLower_iff]

theorem isAlphanum_iff : c.isAlphanum = true ↔ c.isAlpha = true ∨ c.isDigit = true := by
  show (c.isAlpha || c.isDigit) = true ↔ _
  rw [Bool.or_eq_true]

/-- What is neither a letter nor a digit lies outside their ranges. -/
theorem isAlphanum_range (alphanum : c.isAlphanum = true) :
    48 ≤ c.toNat ∧ c.toNat ≤ 57 ∨ 65 ≤ c.toNat ∧ c.toNat ≤ 90 ∨ 97 ≤ c.toNat ∧ c.toNat ≤ 122 := by
  rcases isAlphanum_iff.1 alphanum with letter | digit
  · exact .inr (isAlpha_iff.1 letter)
  · exact .inl (isDigit_iff.1 digit)

theorem toString_toList (n : Nat) : (toString n).toList = Nat.toDigits 10 n := by
  rw [Nat.toString_eq_repr, Nat.toList_repr]

/-- A number is written in digits only. -/
theorem isDigit_of_mem_toString {n : Nat} (inside : c ∈ (toString n).toList) : c.isDigit = true := by
  rw [toString_toList] at inside
  exact Nat.isDigit_of_mem_toDigits (by decide) (by decide) inside

/-- Digits write a number below the power of ten they have places for. -/
theorem ofDigitChars_lt {digits : List Char} (all : digits.all Char.isDigit = true) (init : Nat) :
    Nat.ofDigitChars 10 digits init < (init + 1) * 10 ^ digits.length := by
  induction digits generalizing init with
  | nil => simp
  | cons c rest ih =>
      rw [List.all_cons, Bool.and_eq_true] at all
      have digit := isDigit_iff.1 all.1
      have value : c.toNat - '0'.toNat ≤ 9 := by
        show c.toNat - 48 ≤ 9
        omega
      rw [Nat.ofDigitChars_cons, List.length_cons, Nat.pow_succ', ← Nat.mul_assoc]
      refine lt_of_lt_of_le (ih all.2 _) (Nat.mul_le_mul_right _ ?_)
      omega

theorem toString_inj {m n : Nat} (same : toString m = toString n) : m = n := by
  have digits := congrArg String.toList same
  rw [toString_toList, toString_toList] at digits
  have read := congrArg (Nat.ofDigitChars 10 · 0) digits
  simpa only [Nat.ofDigitChars_ten_toDigits] using read

end TypstMcp.Theory.Ascii
