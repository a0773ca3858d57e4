import EnvInventory.Json.Read
import EnvInventory.Json.Render
import EnvInventory.Proofs.Number.Digits

/-!
# Written integers

An integer is written with a sign and its decimal digits.  The reader takes all the digits that there
are, so the number ends where something follows that cannot continue it: no digit, no point and no
letter of an exponent.  Integers within 64 bits are read exactly: `integerNumber?_of_fitsWord`.
-/

namespace EnvInventory.Json

/-- A text that does not continue a number. -/
def EndsNumber (rest : List Char) : Prop :=
  ∀ c, rest.head? = some c → c.isDigit = false ∧ c ≠ '.' ∧ c ≠ 'e' ∧ c ≠ 'E'

/-- Behind a number no digit follows. -/
theorem EndsNumber.takeWhile {rest : List Char} (ends : EndsNumber rest) :
    rest.takeWhile Char.isDigit = [] ∧ rest.dropWhile Char.isDigit = rest := by
  cases rest with
  | nil => exact ⟨rfl, rfl⟩
  | cons c rest =>
      have noDigit : c.isDigit = false := (ends c rfl).1
      exact ⟨by simp [noDigit], by simp [noDigit]⟩

/-- The digits of a number are read as its integer part, without zeros in front. -/
theorem readIntegerPart_toDigits (n : Nat) {rest : List Char} (ends : EndsNumber rest) :
    readIntegerPart (Nat.toDigits 10 n ++ rest) = some (Nat.toDigits 10 n, rest) := by
  by_cases zero : n = 0
  · subst zero
    have noDigit : (rest.head?.map Char.isDigit).getD false = false := by
      cases rest with
      | nil => rfl
      | cons c rest => exact (ends c rfl).1
    simp [readIntegerPart, noDigit]
  · have digits : ∀ c ∈ Nat.toDigits 10 n, c.isDigit = true := Digits.isDigit_of_mem_toDigits
    have taken : (Nat.toDigits 10 n ++ rest).takeWhile Char.isDigit = Nat.toDigits 10 n := by
      rw [List.takeWhile_append_of_pos digits, ends.takeWhile.1, List.append_nil]
    have left : (Nat.toDigits 10 n ++ rest).dropWhile Char.isDigit = rest := by
      rw [List.dropWhile_append_of_pos digits, ends.takeWhile.2]
    rw [readIntegerPart]
    · simp only [taken, left, Nat.toDigits_ne_nil, if_false]
    · intro more same
      have first := congrArg List.head? same
      rw [List.head?_append_of_ne_nil _ Nat.toDigits_ne_nil] at first
      exact Digits.head?_toDigits_ne zero first

/-- Behind a number no fraction follows. -/
theorem EndsNumber.readFraction {rest : List Char} (ends : EndsNumber rest) :
    readFraction rest = some (none, rest) := by
  cases rest with
  | nil => rfl
  | cons c rest =>
      have noPoint : c ≠ '.' := (ends c rfl).2.1
      simp [Json.readFraction, noPoint]

/-- Behind a number no exponent follows. -/
theorem EndsNumber.readExponent {rest : List Char} (ends : EndsNumber rest) :
    readExponent rest = some (none, rest) := by
  cases rest with
  | nil => rfl
  | cons c rest =>
      have noLetter : ¬ (c = 'e' ∨ c = 'E') := not_or.2 (ends c rfl).2.2
      simp only [Json.readExponent, noLetter, if_false]

/-- The digits of a number are read as an integer literal of that magnitude. -/
theorem readNumber_toDigits (negative : Bool) (n : Nat) {rest : List Char} (ends : EndsNumber rest) :
    readNumber negative (Nat.toDigits 10 n ++ rest)
      = (integerNumber? negative n).map fun number => (number, rest) := by
  simp only [readNumber, readIntegerPart_toDigits n ends, ends.readFraction, ends.readExponent,
    Digits.number_toDigits, Option.bind_eq_bind, Option.bind_some, Option.pure_def]
  cases integerNumber? negative n <;> rfl

/-! ### Integers within 64 bits -/

/-- The range of the integers that are kept exactly. -/
def FitsWord (value : Int) : Prop :=
  -0x8000000000000000 ≤ value ∧ value < 0x10000000000000000

instance (value : Int) : Decidable (FitsWord value) :=
  inferInstanceAs (Decidable (_ ∧ _))

/-- An integer is written as its magnitude behind a sign, if it has one. -/
theorem text_integer (value : Int) :
    Number.text (.integer value)
      = if value < 0 then '-' :: Nat.toDigits 10 value.natAbs else Nat.toDigits 10 value.natAbs := by
  rw [Number.text, Int.toString_eq_repr, Int.repr_eq_if]
  by_cases negative : value < 0
  · have magnitude : (-value).toNat = value.natAbs := by omega
    rw [if_neg (Int.not_le.2 negative), if_pos negative, String.toList_append, Nat.toList_repr,
      magnitude]
    rfl
  · have magnitude : value.toNat = value.natAbs := by omega
    rw [if_pos (Int.not_lt.1 negative), if_neg negative, Nat.toList_repr, magnitude]

/-- An integer that fits into a word is kept as it is. Words are signed or unsigned, whichever the sign
asks for; a larger number would be read as one with a fraction. -/
theorem integerNumber?_of_fitsWord {value : Int} (fits : FitsWord value) :
    integerNumber? (decide (value < 0)) value.natAbs = some (.integer value) := by
  obtain ⟨low, high⟩ := fits
  by_cases negative : value < 0
  · have range : 0 < value.natAbs ∧ value.natAbs ≤ 0x8000000000000000 := by omega
    have same : -(value.natAbs : Int) = value := by omega
    simp only [integerNumber?, negative, decide_true, if_true, range, and_self, same]
  · have range : value.natAbs < 0x10000000000000000 := by omega
    have same : (value.natAbs : Int) = value := by omega
    simp only [integerNumber?, negative, decide_false, Bool.false_eq_true, if_false, range, if_true,
      same]

end EnvInventory.Json
