import EnvInventory.Date.Calendar

/-!
# Date formats

A date format is a text in which a percent sign introduces a field.  `DateFormat.read?` divides it
into items and refuses fields that do not exist; `DateFormat.render` fills in a moment.

The fill in front of a number can be changed by a mark behind the percent sign: `-` for none, `_` for
blanks and `0` for zeros.  Such a mark is only allowed in front of a field that is one number.
-/

namespace EnvInventory

/-- What a number is filled up with. -/
inductive Fill where
  | nothing
  | blanks
  | zeros
deriving Repr, DecidableEq, Inhabited

/-- Numbers that describe a moment. -/
inductive NumberField where
  | year
  | century
  | yearOfCentury
  | isoYear
  | isoYearOfCentury
  | quarter
  | month
  | day
  | ordinal
  | weekFromSunday
  | weekFromMonday
  | isoWeek
  | daysFromSunday
  | dayFromMonday
  | hour
  | hour12
  | minute
  | second
  | nanosecond
  | timestamp
deriving Repr, DecidableEq, Inhabited

/-- The forms of the offset from universal time. -/
inductive OffsetForm where
  | plain
  | colon
  | colonSeconds
  | hours
deriving Repr, DecidableEq, Inhabited

/-- An item of a date format. -/
inductive DateItem where
  | literal (c : Char)
  | number (field : NumberField) (fill : Fill)
  | weekdayName (long : Bool)
  | monthName (long : Bool)
  | dayHalf (upper : Bool)
  /-- Part of the second behind a point, in the fewest groups of three digits. -/
  | shortFraction
  /-- Part of the second in a number of digits. -/
  | fraction (point : Bool) (digits : Nat)
  | zoneName
  | offset (form : OffsetForm)
deriving Repr, DecidableEq, Inhabited

namespace DateFormat

def zeroed (field : NumberField) : DateItem :=
  .number field .zeros

/-- Hours, minutes and seconds with colons between them. -/
def clock : List DateItem :=
  [zeroed .hour, .literal ':', zeroed .minute, .literal ':', zeroed .second]

/-- Year, month and day with hyphens between them. -/
def plainDate : List DateItem :=
  [zeroed .year, .literal '-', zeroed .month, .literal '-', zeroed .day]

/-- Month, day and year with slashes between them. -/
def slashDate : List DateItem :=
  [zeroed .month, .literal '/', zeroed .day, .literal '/', zeroed .yearOfCentury]

/-- The field of a letter that stands for one number. -/
def numberField? : Char → Option DateItem
  | 'C' => some (zeroed .century)
  | 'G' => some (zeroed .isoYear)
  | 'H' => some (zeroed .hour)
  | 'I' => some (zeroed .hour12)
  | 'M' => some (zeroed .minute)
  | 'S' => some (zeroed .second)
  | 'U' => some (zeroed .weekFromSunday)
  | 'V' => some (zeroed .isoWeek)
  | 'W' => some (zeroed .weekFromMonday)
  | 'Y' => some (zeroed .year)
  | 'd' => some (zeroed .day)
  | 'e' => some (.number .day .blanks)
  | 'f' => some (zeroed .nanosecond)
  | 'g' => some (zeroed .isoYearOfCentury)
  | 'j' => some (zeroed .ordinal)
  | 'k' => some (.number .hour .blanks)
  | 'l' => some (.number .hour12 .blanks)
  | 'm' => some (zeroed .month)
  | 'q' => some (.number .quarter .nothing)
  | 's' => some (.number .timestamp .nothing)
  | 'u' => some (.number .dayFromMonday .nothing)
  | 'w' => some (.number .daysFromSunday .nothing)
  | 'y' => some (zeroed .yearOfCentury)
  | _ => none

/-- The items of a letter that stands for a name, a character or several fields. -/
def otherField? : Char → Option (List DateItem)
  | 'A' => some [.weekdayName true]
  | 'a' => some [.weekdayName false]
  | 'B' => some [.monthName true]
  | 'b' => some [.monthName false]
  | 'h' => some [.monthName false]
  | 'D' => some slashDate
  | 'x' => some slashDate
  | 'F' => some plainDate
  | 'P' => some [.dayHalf false]
  | 'p' => some [.dayHalf true]
  | 'R' => some [zeroed .hour, .literal ':', zeroed .minute]
  | 'T' => some clock
  | 'X' => some clock
  | 'Z' => some [.zoneName]
  | 'c' =>
      some ([.weekdayName false, .literal ' ', .monthName false, .literal ' ',
        .number .day .blanks, .literal ' '] ++ clock ++ [.literal ' ', zeroed .year])
  | 'n' => some [.literal '\n']
  | 'r' =>
      some [zeroed .hour12, .literal ':', zeroed .minute, .literal ':', zeroed .second,
        .literal ' ', .dayHalf true]
  | 't' => some [.literal '\t']
  | 'v' =>
      some [.number .day .blanks, .literal '-', .monthName false, .literal '-', zeroed .year]
  | 'z' => some [.offset .plain]
  | '+' => some (plainDate ++ [.literal 'T'] ++ clock ++ [.shortFraction, .offset .colon])
  | '%' => some [.literal '%']
  | _ => none

def fillMark? : Char → Option Fill
  | '-' => some .nothing
  | '_' => some .blanks
  | '0' => some .zeros
  | _ => none

def refill (fill : Fill) : DateItem → DateItem
  | .number field _ => .number field fill
  | item => item

/-- A field behind a mark for its fill, and the number of characters it takes with the mark. -/
def filledField? (fill : Fill) : List Char → Option (List DateItem × Nat)
  | c :: _ => (numberField? c).map fun item => ([refill fill item], 2)
  | [] => none

/-- The field behind a percent sign, and the number of characters it takes. -/
def fieldAt? : List Char → Option (List DateItem × Nat)
  | ':' :: ':' :: ':' :: 'z' :: _ => some ([.offset .hours], 4)
  | ':' :: ':' :: 'z' :: _ => some ([.offset .colonSeconds], 3)
  | ':' :: 'z' :: _ => some ([.offset .colon], 2)
  | '#' :: 'z' :: _ => some ([.offset .plain], 2)
  | '.' :: 'f' :: _ => some ([.shortFraction], 2)
  | '.' :: '3' :: 'f' :: _ => some ([.fraction true 3], 3)
  | '.' :: '6' :: 'f' :: _ => some ([.fraction true 6], 3)
  | '.' :: '9' :: 'f' :: _ => some ([.fraction true 9], 3)
  | '3' :: 'f' :: _ => some ([.fraction false 3], 2)
  | '6' :: 'f' :: _ => some ([.fraction false 6], 2)
  | '9' :: 'f' :: _ => some ([.fraction false 9], 2)
  | c :: rest =>
      match fillMark? c with
      | some fill => filledField? fill rest
      | none =>
          match numberField? c with
          | some item => some ([item], 1)
          | none => (otherField? c).map fun items => (items, 1)
  | [] => none

/-- The items of a text, after the given number of characters has been stepped over. -/
def readFrom : Nat → List Char → Option (List DateItem)
  | _, [] => some []
  | skipped + 1, _ :: rest => readFrom skipped rest
  | 0, c :: rest =>
      if c = '%' then
        match fieldAt? rest with
        | some (items, width) => (readFrom width rest).map (items ++ ·)
        | none => none
      else (readFrom 0 rest).map (.literal c :: ·)

/-- The items of a date format; none if it has a field that does not exist. -/
def read? (format : String) : Option (List DateItem) :=
  readFrom 0 format.toList

/-! ### Filling in a moment -/

/-- Names of the days from Sunday on. -/
def weekdayNames : List String :=
  ["Sunday", "Monday", "Tuesday", "Wednesday", "Thursday", "Friday", "Saturday"]

def monthNames : List String :=
  ["January", "February", "March", "April", "May", "June", "July", "August", "September",
    "October", "November", "December"]

/-- A name from a list, whole or cut to three letters. -/
def nameFrom (names : List String) (index : Nat) (long : Bool) : String :=
  let name := names[index]?.getD ""
  if long then name else String.ofList (name.toList.take 3)

/-- The least number of digits of a field. -/
def fieldWidth : NumberField → Nat
  | .year => 4
  | .isoYear => 4
  | .ordinal => 3
  | .nanosecond => 9
  | .timestamp => 9
  | .quarter => 1
  | .daysFromSunday => 1
  | .dayFromMonday => 1
  | _ => 2

def fieldValue (moment : Moment) (field : NumberField) : Int :=
  let date := moment.date
  match field with
  | .year => date.year
  | .century => Int.fdiv date.year 100
  | .yearOfCentury => Int.fmod date.year 100
  | .isoYear => date.isoWeek.1
  | .isoYearOfCentury => Int.fmod date.isoWeek.1 100
  | .quarter => ((date.month + 2) / 3 : Nat)
  | .month => date.month
  | .day => date.day
  | .ordinal => date.ordinal
  | .weekFromSunday => date.weekFromSunday
  | .weekFromMonday => date.weekFromMonday
  | .isoWeek => date.isoWeek.2
  | .daysFromSunday => date.weekday
  | .dayFromMonday => (date.weekdayFromMonday + 1 : Nat)
  | .hour => moment.hour
  | .hour12 => moment.hour12
  | .minute => moment.minute
  | .second => moment.second
  | .nanosecond => moment.nanoseconds
  | .timestamp => moment.seconds

/-- Digits behind as many fill characters as bring them to a width. -/
def filled (width : Nat) (c : Char) (digits : String) : String :=
  String.ofList (List.replicate (width - digits.length) c) ++ digits

/-- The text of a number.  Years beyond four digits carry a plus sign. -/
def numberText (field : NumberField) (fill : Fill) (value : Int) : String :=
  let width := fieldWidth field
  let digits := toString value.natAbs
  let sign :=
    if value < 0 then "-"
    else if width = 4 ∧ 9999 < value then "+"
    else ""
  match fill with
  | .nothing => sign ++ digits
  | .blanks => filled (width + sign.length) ' ' (sign ++ digits)
  | .zeros => sign ++ filled width '0' digits

/-- Part of a second in a number of digits. -/
def fractionText (nanoseconds digits : Nat) : String :=
  String.ofList ((filled 9 '0' (toString nanoseconds)).toList.take digits)

/-- Part of a second behind a point, in the fewest groups of three digits. -/
def shortFractionText (nanoseconds : Nat) : String :=
  if nanoseconds = 0 then ""
  else if nanoseconds % 1000000 = 0 then "." ++ fractionText nanoseconds 3
  else if nanoseconds % 1000 = 0 then "." ++ fractionText nanoseconds 6
  else "." ++ fractionText nanoseconds 9

def offsetText : OffsetForm → String
  | .plain => "+0000"
  | .colon => "+00:00"
  | .colonSeconds => "+00:00:00"
  | .hours => "+00"

def itemText (moment : Moment) : DateItem → String
  | .literal c => c.toString
  | .number field fill => numberText field fill (fieldValue moment field)
  | .weekdayName long => nameFrom weekdayNames moment.date.weekday long
  | .monthName long => nameFrom monthNames (moment.date.month - 1) long
  | .dayHalf upper =>
      if moment.hour < 12 then (if upper then "AM" else "am")
      else (if upper then "PM" else "pm")
  | .shortFraction => shortFractionText moment.nanoseconds
  | .fraction point digits =>
      (if point then "." else "") ++ fractionText moment.nanoseconds digits
  | .zoneName => "UTC"
  | .offset form => offsetText form

def render (format : String) (moment : Moment) : String :=
  String.join (((read? format).getD []).map (itemText moment))

end DateFormat

end EnvInventory
