/-!
# Calendar

A moment is a count of seconds since the start of the year 1970 in universal time.  From it follow
the date in the Gregorian calendar, the time of day, and the weeks of the year.

Days are counted from the start of March of the year zero, so that the leap day comes last in a year
and every month begins at a day given by one formula.
-/

namespace EnvInventory

/-- A moment in universal time. -/
structure Moment where
  /-- Seconds since the start of 1970. -/
  seconds : Int
  /-- Part of the second that has passed. -/
  nanoseconds : Nat
deriving Repr, DecidableEq, Inhabited

/-- A date of the Gregorian calendar. -/
structure Date where
  year : Int
  /-- Month from 1 on. -/
  month : Nat
  /-- Day of the month from 1 on. -/
  day : Nat
  /-- Day of the year from 1 on. -/
  ordinal : Nat
  /-- Days since the last Sunday. -/
  weekday : Nat
deriving Repr, DecidableEq, Inhabited

namespace Date

def isLeap (year : Int) : Bool :=
  year % 4 == 0 && (year % 100 != 0 || year % 400 == 0)

def daysOf (year : Int) : Nat :=
  if isLeap year then 366 else 365

def daysOfMonth (year : Int) (month : Nat) : Nat :=
  if month = 2 then if isLeap year then 29 else 28
  else if month = 4 ∨ month = 6 ∨ month = 9 ∨ month = 11 then 30 else 31

/-- Days from the first of March of the year zero to the start of 1970. -/
def epochDay : Int := 719468

/-- Years, within a span of 400 years from March to February, before the given day of the span. -/
def yearsBefore (day : Nat) : Nat :=
  (day - day / 1460 + day / 36524 - day / 146096) / 365

/-- The date of the day with the given number, where the start of 1970 has number zero. -/
def ofDayNumber (number : Int) : Date :=
  let shifted := number + epochDay
  let span := Int.fdiv shifted 146097
  let dayOfSpan := (shifted - span * 146097).toNat
  let years := yearsBefore dayOfSpan
  let dayFromMarch := dayOfSpan - (365 * years + years / 4 - years / 100)
  let monthFromMarch := (5 * dayFromMarch + 2) / 153
  let day := dayFromMarch - (153 * monthFromMarch + 2) / 5 + 1
  let month := if monthFromMarch < 10 then monthFromMarch + 3 else monthFromMarch - 9
  let year : Int := span * 400 + years + (if month ≤ 2 then 1 else 0)
  let ordinal :=
    if month ≤ 2 then dayFromMarch - 305
    else dayFromMarch + (if isLeap year then 61 else 60)
  { year := year
    month := month
    day := day
    ordinal := ordinal
    weekday := (Int.fmod (number + 4) 7).toNat }

/-- Days since the last Monday. -/
def weekdayFromMonday (date : Date) : Nat :=
  (date.weekday + 6) % 7

/-- Number of the week that starts on a Sunday, the days before the first Sunday being week zero. -/
def weekFromSunday (date : Date) : Nat :=
  (date.ordinal + 6 - date.weekday) / 7

/-- Number of the week that starts on a Monday, the days before the first Monday being week zero. -/
def weekFromMonday (date : Date) : Nat :=
  (date.ordinal + 6 - date.weekdayFromMonday) / 7

/-- Number of weeks of a year, when a week belongs to the year that holds its Thursday; `thursday` is
the weekday of the first day of the year, counted from Thursday. -/
def weeksOf (year : Int) (thursday : Nat) : Nat :=
  if thursday = 0 ∨ (isLeap year ∧ thursday = 6) then 53 else 52

/-- Weekday, counted from Thursday, of the first day of the year of a date. -/
def firstFromThursday (date : Date) : Nat :=
  (date.weekday + 3 + 7 * 53 - (date.ordinal - 1)) % 7

/-- Year and number of the week of a date, when a week belongs to the year that holds its
Thursday. -/
def isoWeek (date : Date) : Int × Nat :=
  let week := (date.ordinal + 9 - date.weekdayFromMonday) / 7
  if week = 0 then
    let before := date.year - 1
    let first := (date.firstFromThursday + 7 * 53 - daysOf before) % 7
    (before, weeksOf before first)
  else if week = 53 ∧ weeksOf date.year date.firstFromThursday = 52 then (date.year + 1, 1)
  else (date.year, week)

end Date

namespace Moment

def date (moment : Moment) : Date :=
  Date.ofDayNumber (Int.fdiv moment.seconds 86400)

/-- Seconds since midnight. -/
def secondOfDay (moment : Moment) : Nat :=
  (Int.fmod moment.seconds 86400).toNat

def hour (moment : Moment) : Nat :=
  moment.secondOfDay / 3600

/-- Hour on the face of a clock. -/
def hour12 (moment : Moment) : Nat :=
  (moment.hour + 11) % 12 + 1

def minute (moment : Moment) : Nat :=
  moment.secondOfDay / 60 % 60

def second (moment : Moment) : Nat :=
  moment.secondOfDay % 60

end Moment

end EnvInventory
