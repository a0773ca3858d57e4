import EnvInventory.Date.Calendar
import EnvInventory.Settings.Value
import EnvInventory.Toml.Text

/-!
# Numbers, truth values and dates of TOML

A scalar without quotes is a word: a truth value, an integer of 64 bits in one of four bases, a
number with a fraction or an exponent, or a date.  Underscores may stand between digits.

Dates have no type of their own among settings.  They are read as texts, in one form: a capital `T`
between date and time, seconds always given, and fractions of a second without zeros at the end.
-/

namespace EnvInventory.Toml

open Settings (Value Fractional)

/-! ### Numbers -/

/-- Digits with the underscores between them dropped. -/
def plainDigits? (isDigit : Char → Bool) : List Char → Option (List Char)
  | [] => none
  | [c] => if isDigit c then some [c] else none
  | c :: '_' :: rest =>
      if isDigit c then (plainDigits? isDigit rest).map (c :: ·) else none
  | c :: rest => if isDigit c then (plainDigits? isDigit rest).map (c :: ·) else none

/-- Decimal digits that do not start with a needless zero. -/
def wholeDigits? (text : List Char) : Option (List Char) :=
  match plainDigits? (Digits.isDigit 10) text with
  | some ('0' :: _ :: _) => none
  | result => result

/-- Split off a sign; the flag says whether it is negative. -/
def splitSign : List Char → Bool × List Char
  | '-' :: rest => (true, rest)
  | '+' :: rest => (false, rest)
  | text => (false, text)

def within64? (value : Int) : Option Int :=
  if -0x8000000000000000 ≤ value ∧ value < 0x8000000000000000 then some value else none

/-- Digits of a base behind its mark. -/
def basedInteger? (base : Nat) (text : List Char) : Option Int :=
  match plainDigits? (Digits.isDigit base) text with
  | some digits => within64? (Digits.number base digits)
  | none => none

def integer? : List Char → Option Int
  | '0' :: 'x' :: rest => basedInteger? 16 rest
  | '0' :: 'o' :: rest => basedInteger? 8 rest
  | '0' :: 'b' :: rest => basedInteger? 2 rest
  | text =>
      let (negative, text) := splitSign text
      match wholeDigits? text with
      | some digits =>
          let magnitude : Int := Digits.number 10 digits
          within64? (if negative then -magnitude else magnitude)
      | none => none

def exponent? (text : List Char) : Option Int :=
  let (negative, text) := splitSign text
  match plainDigits? (Digits.isDigit 10) text with
  | some digits =>
      let magnitude : Int := Digits.number 10 digits
      some (if negative then -magnitude else magnitude)
  | none => none

def isExponentMark (c : Char) : Bool :=
  c == 'e' || c == 'E'

/-- The digits of a number and the power of ten behind them. -/
def mantissa? (text : List Char) : Option (List Char × Int) :=
  let before := text.takeWhile (· != '.')
  match text.dropWhile (· != '.') with
  | '.' :: after =>
      match wholeDigits? before, plainDigits? (Digits.isDigit 10) after with
      | some whole, some fraction => some (whole ++ fraction, -(fraction.length : Int))
      | _, _ => none
  | _ => (wholeDigits? before).map fun whole => (whole, 0)

/-- A number with a fraction or an exponent, or a special value. -/
def real? (text : List Char) : Option Fractional :=
  let (negative, text) := splitSign text
  if text = ['i', 'n', 'f'] then some (.infinity negative)
  else if text = ['n', 'a', 'n'] then some .notANumber
  else
    let before := text.takeWhile fun c => !isExponentMark c
    let scale :=
      match text.dropWhile fun c => !isExponentMark c with
      | _ :: rest => exponent? rest
      | [] => if before.contains '.' then some 0 else none
    match mantissa? before, scale with
    | some (digits, shift), some scale =>
        (Binary64.ofDecimal? negative (Digits.number 10 digits) (shift + scale)).map .finite
    | _, _ => none

/-! ### Dates -/

def takeNumber? (count : Nat) (text : List Char) : Option (Nat × List Char) :=
  let digits := text.take count
  if digits.length = count ∧ digits.all (Digits.isDigit 10) then
    some (Digits.number 10 digits, text.drop count)
  else none

def takeDate? (text : List Char) : Option (List Char × List Char) := do
  let (year, rest) ← takeNumber? 4 text
  let rest ← if rest.head? = some '-' then some rest.tail else none
  let (month, rest) ← takeNumber? 2 rest
  let rest ← if rest.head? = some '-' then some rest.tail else none
  let (day, rest) ← takeNumber? 2 rest
  if 1 ≤ month ∧ month ≤ 12 ∧ 1 ≤ day ∧ day ≤ Date.daysOfMonth year month then
    some (Digits.padded 4 year ++ '-' :: Digits.padded 2 month ++ '-' :: Digits.padded 2 day, rest)
  else none

def dropZerosAtEnd (digits : List Char) : List Char :=
  (digits.reverse.dropWhile (· == '0')).reverse

/-- Fractions of a second, to the nanosecond. -/
def takeFraction? : List Char → Option (List Char × List Char)
  | '.' :: rest =>
      let digits := rest.takeWhile (Digits.isDigit 10)
      if digits = [] then none
      else
        let kept := dropZerosAtEnd (digits.take 9)
        some (if kept = [] then [] else '.' :: kept, rest.dropWhile (Digits.isDigit 10))
  | text => some ([], text)

/-- Seconds with their fractions, which may be left out. -/
def takeSeconds? : List Char → Option (List Char × List Char)
  | ':' :: rest => do
      let (second, rest) ← takeNumber? 2 rest
      let (fraction, rest) ← takeFraction? rest
      if second ≤ 60 then some (Digits.padded 2 second ++ fraction, rest) else none
  | text => some (['0', '0'], text)

def takeTime? (text : List Char) : Option (List Char × List Char) := do
  let (hour, rest) ← takeNumber? 2 text
  let rest ← if rest.head? = some ':' then some rest.tail else none
  let (minute, rest) ← takeNumber? 2 rest
  let (seconds, rest) ← takeSeconds? rest
  if hour ≤ 23 ∧ minute ≤ 59 then
    some (Digits.padded 2 hour ++ ':' :: Digits.padded 2 minute ++ ':' :: seconds, rest)
  else none

/-- Distance from universal time, which may be left out. -/
def takeOffset? : List Char → Option (List Char × List Char)
  | [] => some ([], [])
  | c :: rest =>
      if c = 'Z' ∨ c = 'z' then some (['Z'], rest)
      else if c = '+' ∨ c = '-' then do
        let (hour, rest) ← takeNumber? 2 rest
        let rest ← if rest.head? = some ':' then some rest.tail else none
        let (minute, rest) ← takeNumber? 2 rest
        let sign := if hour = 0 ∧ minute = 0 then '+' else c
        if hour ≤ 23 ∧ minute ≤ 59 then
          some (sign :: Digits.padded 2 hour ++ ':' :: Digits.padded 2 minute, rest)
        else none
      else none

def date? (text : List Char) : Option String :=
  match takeDate? text with
  | some (date, []) => some (String.ofList date)
  | some (date, mark :: rest) =>
      if mark = 'T' ∨ mark = 't' ∨ mark = ' ' then
        match takeTime? rest with
        | some (time, rest) =>
            match takeOffset? rest with
            | some (offset, []) => some (String.ofList (date ++ 'T' :: time ++ offset))
            | _ => none
        | none => none
      else none
  | none =>
      match takeTime? text with
      | some (time, []) => some (String.ofList time)
      | _ => none

/-! ### Words -/

def isWordChar (c : Char) : Bool :=
  c.isAlphanum || c == '_' || c == '-' || c == '+' || c == '.' || c == ':'

/-- The word at the start of a text, and what follows it.  A date is followed by a blank and a time
as part of the same word. -/
def takeWord (text : List Char) : List Char × List Char :=
  let word := text.takeWhile isWordChar
  match takeDate? word, text.dropWhile isWordChar with
  | some (_, []), ' ' :: rest =>
      match takeTime? (rest.takeWhile isWordChar) with
      | some _ => (word ++ ' ' :: rest.takeWhile isWordChar, rest.dropWhile isWordChar)
      | none => (word, ' ' :: rest)
  | _, rest => (word, rest)

def word? (word : List Char) : Option Value :=
  if word = ['t', 'r', 'u', 'e'] then some (.boolean true)
  else if word = ['f', 'a', 'l', 's', 'e'] then some (.boolean false)
  else
    match integer? word with
    | some value => some (.integer value)
    | none =>
        match real? word with
        | some value => some (.real value)
        | none => (date? word).map .text

end EnvInventory.Toml
