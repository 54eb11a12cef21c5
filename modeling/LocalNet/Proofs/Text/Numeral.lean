import Mathlib.Data.List.Basic

/-!
# Numbers in decimal

A number is written in digits that make it up, and no zero stands in front of others.
-/

namespace LocalNet.Text

structure Numeral (digits : List Char) (value : Nat) : Prop where
  plain : ∀ digit ∈ digits, digit.isDigit = true
  amount : Nat.ofDigitChars 10 digits 0 = value
  front : digits.head? = some '0' → digits = ['0']

theorem to_digits_front (value : Nat) (zero : (Nat.toDigits 10 value).head? = some '0') :
    Nat.toDigits 10 value = ['0'] := by
  induction value using Nat.strongRecOn with
  | ind value ih =>
      by_cases small : value < 10
      · have single : ∀ digit < 10, (Nat.toDigits 10 digit).head? = some '0' →
            Nat.toDigits 10 digit = ['0'] := by
          decide
        exact single value small zero
      · -- The digits in front are those of a tenth, which would be zero by them.
        rw [Nat.toDigits_of_base_le (by decide) (by omega),
          List.head?_append_of_ne_nil _ Nat.toDigits_ne_nil] at zero
        have front := ih (value / 10) (by omega) zero
        have tenth : value / 10 = 0 := by
          rw [← Nat.ofDigitChars_ten_toDigits (n := value / 10), front]
          rfl
        omega

theorem numeral_of_nat (value : Nat) : Numeral (Nat.toDigits 10 value) value where
  plain := fun _ member => Nat.isDigit_of_mem_toDigits (by decide) (by decide) member
  amount := Nat.ofDigitChars_ten_toDigits
  front := to_digits_front value

end LocalNet.Text
