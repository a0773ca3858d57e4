/-!
# Digits and numbers of double precision

Digits of the bases up to sixteen, where letters may be of either case, stand for natural numbers.

A finite number of double precision is a sign and `mantissa · 2 ^ exponent`.  Decimal notation is
read by rounding the exact quotient to the nearest such number, a half going to the even neighbour,
and written with the fewest digits that read back, the nearest of those.  All of it is exact
arithmetic on natural numbers.
-/

namespace EnvInventory.Digits

def value? (c : Char) : Option Nat :=
  if '0' ≤ c ∧ c ≤ '9' then some (c.toNat - 48)
  else if 'a' ≤ c ∧ c ≤ 'f' then some (c.toNat - 87)
  else if 'A' ≤ c ∧ c ≤ 'F' then some (c.toNat - 55)
  else none

/-- Whether a character is a digit of a base. -/
def isDigit (base : Nat) (c : Char) : Bool :=
  match value? c with
  | some digit => digit < base
  | none => false

/-- The number that digits of a base stand for. -/
def number (base : Nat) (digits : List Char) : Nat :=
  digits.foldl (fun number c => number * base + (value? c).getD 0) 0

/-- The number that characters stand for, if all are digits of the base. -/
def number? (base : Nat) (digits : List Char) : Option Nat :=
  if digits.all (isDigit base) then some (number base digits) else none

/-- Decimal digits of a number, with zeros in front up to a width. -/
def padded (width number : Nat) : List Char :=
  let digits := Nat.toDigits 10 number
  List.replicate (width - digits.length) '0' ++ digits

end EnvInventory.Digits

namespace EnvInventory

/-- A finite number of double precision.  The mantissa has 53 binary digits unless the exponent is
the least one. -/
structure Binary64 where
  negative : Bool
  mantissa : Nat
  exponent : Int
deriving Repr, DecidableEq, Inhabited

namespace Binary64

def minExponent : Int := -1074

def maxExponent : Int := 971

/-- Zero of either sign. -/
def zero (negative : Bool) : Binary64 :=
  ⟨negative, 0, minExponent⟩

/-- `base ^ exponent` as a quotient. -/
def powRatio (base : Nat) (exponent : Int) : Nat × Nat :=
  (Nat.pow base exponent.toNat, Nat.pow base (-exponent).toNat)

/-- The nearest integer of a quotient; a half goes to the even neighbour. -/
def roundHalfEven (num den : Nat) : Nat :=
  let quotient := num / den
  let twice := 2 * (num % den)
  if twice < den then quotient
  else if den < twice then quotient + 1
  else if quotient % 2 = 0 then quotient else quotient + 1

/-! ### Reading decimals -/

/-- The greatest power of two that is not above a positive quotient. -/
def binaryOrder (num den : Nat) : Int :=
  let guess : Int := (Nat.log2 num : Int) - Nat.log2 den
  let (scaleNum, scaleDen) := powRatio 2 guess
  if den * scaleNum ≤ num * scaleDen then guess else guess - 1

/-- The nearest number to a quotient; none when it is too large. -/
def ofRatio? (negative : Bool) (num den : Nat) : Option Binary64 :=
  if num = 0 then some (zero negative)
  else
    let exponent := max minExponent (binaryOrder num den - 52)
    let (scaleNum, scaleDen) := powRatio 2 exponent
    let mantissa := roundHalfEven (num * scaleDen) (den * scaleNum)
    let (mantissa, exponent) :=
      if mantissa = 0x20000000000000 then (0x10000000000000, exponent + 1) else (mantissa, exponent)
    if maxExponent < exponent then none else some ⟨negative, mantissa, exponent⟩

def digitCount (n : Nat) : Nat :=
  (Nat.toDigits 10 n).length

/-- The nearest number to `digits · 10 ^ exponent`; none when it is too large.  Exponents far outside
the range are decided without computing the power. -/
def ofDecimal? (negative : Bool) (digits : Nat) (exponent : Int) : Option Binary64 :=
  let order : Int := digitCount digits + exponent
  if digits = 0 ∨ order < -400 then some (zero negative)
  else if 400 < order then none
  else
    let (num, den) := powRatio 10 exponent
    ofRatio? negative (digits * num) den

/-! ### Writing decimals -/

/-- The absolute value as a quotient. -/
def ratio (x : Binary64) : Nat × Nat :=
  let (num, den) := powRatio 2 x.exponent
  (x.mantissa * num, den)

/-- Whether a quotient rounds to the absolute value of a number: it is nearer to it than to its
neighbours, or half way and the mantissa is even.  All quantities are in quarter units of the last
place. -/
def readsBack (x : Binary64) (num den : Nat) : Bool :=
  let (unitNum, unitDen) := powRatio 2 x.exponent
  let scaled := 4 * num * unitDen
  let unit := den * unitNum
  let low :=
    if x.mantissa = 0x10000000000000 ∧ minExponent < x.exponent then 4 * x.mantissa - 1
    else 4 * x.mantissa - 2
  let high := 4 * x.mantissa + 2
  if x.mantissa % 2 = 0 then low * unit ≤ scaled && scaled ≤ high * unit
  else low * unit < scaled && scaled < high * unit

/-- The greatest power of ten that is not above a positive quotient. -/
def decimalOrder (num den : Nat) : Int :=
  if den ≤ num then (digitCount (num / den) : Int) - 1
  else
    let quotient := den / num
    let guess := digitCount quotient
    if den ≤ num * Nat.pow 10 (guess - 1) then 1 - (guess : Int) else -(guess : Int)

/-- The shortest decimal from a number of digits on: the two neighbours of the value among the
decimals with that many digits are tried, the nearer one first. -/
def shortestFrom (x : Binary64) (num den : Nat) (order : Int) : Nat → Nat → Nat × Int
  | 0, _ => (0, 0)
  | tries + 1, count =>
      let exponent := order - count + 1
      let (scaleNum, scaleDen) := powRatio 10 exponent
      let scaled := num * scaleDen
      let unit := den * scaleNum
      let below := scaled / unit
      let nearest := roundHalfEven scaled unit
      let other := if nearest = below then below + 1 else below
      let good digits := readsBack x (digits * scaleNum) scaleDen
      if good nearest then (nearest, exponent)
      else if good other then (other, exponent)
      else shortestFrom x num den order tries (count + 1)

/-- Drop the zeros at the end of a decimal. -/
def dropZeros : Nat → Nat → Int → Nat × Int
  | 0, digits, exponent => (digits, exponent)
  | fuel + 1, digits, exponent =>
      if digits ≠ 0 ∧ digits % 10 = 0 then dropZeros fuel (digits / 10) (exponent + 1)
      else (digits, exponent)

/-- The shortest decimal that reads back, as digits and a power of ten.  Seventeen digits always
suffice. -/
def shortest (x : Binary64) : Nat × Int :=
  if x.mantissa = 0 then (0, 0)
  else
    let (num, den) := x.ratio
    let (digits, exponent) := shortestFrom x num den (decimalOrder num den) 17 1
    dropZeros 17 digits exponent

/-- The sign of a number in front of its text. -/
def signed (x : Binary64) (text : List Char) : String :=
  String.ofList (if x.negative then '-' :: text else text)

/-- A number of zeros; none when it is negative. -/
def zeros (count : Int) : List Char :=
  List.replicate count.toNat '0'

/-- Decimal text: positional when the decimal point falls within sixteen digits or at most five
places before the first one, and always with a fractional part; otherwise with an exponent. -/
def decimalText (x : Binary64) : String :=
  if x.mantissa = 0 then x.signed ['0', '.', '0']
  else
    let (digits, exponent) := x.shortest
    let text := Nat.toDigits 10 digits
    let point : Int := text.length + exponent
    x.signed <|
      if 0 ≤ exponent ∧ point ≤ 16 then text ++ zeros exponent ++ ['.', '0']
      else if 0 < point ∧ point ≤ 16 then text.take point.toNat ++ '.' :: text.drop point.toNat
      else if -5 < point ∧ point ≤ 0 then '0' :: '.' :: zeros (-point) ++ text
      else
        let mark := 'e' :: (toString (point - 1)).toList
        match text with
        | [digit] => digit :: mark
        | digit :: rest => digit :: '.' :: rest ++ mark
        | [] => mark

/-- Decimal text without an exponent, and without a fractional part for a whole number. -/
def plainText (x : Binary64) : String :=
  if x.mantissa = 0 then x.signed ['0']
  else
    let (digits, exponent) := x.shortest
    let text := Nat.toDigits 10 digits
    let point : Int := text.length + exponent
    x.signed <|
      if 0 ≤ exponent then text ++ zeros exponent
      else if 0 < point then text.take point.toNat ++ '.' :: text.drop point.toNat
      else '0' :: '.' :: zeros (-point) ++ text

end Binary64

end EnvInventory
