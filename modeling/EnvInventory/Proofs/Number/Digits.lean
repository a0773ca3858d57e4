import EnvInventory.Number
import Mathlib.Data.List.Basic

/-!
# Decimal digits of a number

The digits of a number stand for that number again, and only zero is written with a zero in front.
-/

namespace EnvInventory.Digits

theorem range_of_isDigit {c : Char} (digit : c.isDigit = true) : '0' ≤ c ∧ c ≤ '9' := by
  simpa [Char.isDigit, Char.le_def] using digit

/-- A decimal digit stands for its distance from zero. -/
theorem value?_of_isDigit {c : Char} (digit : c.isDigit = true) : value? c = some (c.toNat - 48) := by
  rw [value?, if_pos (range_of_isDigit digit)]

/-- Reading on from a number, one decimal digit after the other. -/
theorem foldl_of_isDigit {digits : List Char} (decimal : ∀ c ∈ digits, c.isDigit = true)
    (start : Nat) :
    digits.foldl (fun number c => number * 10 + (value? c).getD 0) start
      = Nat.ofDigitChars 10 digits start := by
  induction digits generalizing start with
  | nil => rfl
  | cons c digits ih =>
      have first : value? c = some (c.toNat - 48) := value?_of_isDigit (decimal c List.mem_cons_self)
      have rest := ih fun d member => decimal d (List.mem_cons_of_mem c member)
      rw [List.foldl_cons, first, Option.getD_some, rest, Nat.ofDigitChars_cons, Nat.mul_comm start]
      rfl

/-- A number is written with decimal digits. -/
theorem isDigit_of_mem_toDigits {n : Nat} : ∀ c ∈ Nat.toDigits 10 n, c.isDigit = true :=
  fun _ member => Nat.isDigit_of_mem_toDigits (by decide) (by decide) member

/-- The decimal digits of a number stand for it. -/
theorem number_toDigits (n : Nat) : number 10 (Nat.toDigits 10 n) = n := by
  rw [number, foldl_of_isDigit isDigit_of_mem_toDigits, Nat.ofDigitChars_ten_toDigits]

/-- The first digit of a number other than zero is no zero. -/
theorem head?_toDigits_ne {n : Nat} (positive : n ≠ 0) : (Nat.toDigits 10 n).head? ≠ some '0' := by
  induction n using Nat.strongRecOn with
  | ind n ih =>
      by_cases single : n < 10
      · rw [Nat.toDigits_of_lt_base single]
        simpa using positive
      · have shorter : n / 10 < n := by omega
        have quotient : n / 10 ≠ 0 := by omega
        rw [Nat.toDigits_of_base_le (by decide) (Nat.not_lt.1 single),
          List.head?_append_of_ne_nil _ Nat.toDigits_ne_nil]
        exact ih (n / 10) shorter quotient

end EnvInventory.Digits
