/-!
# The Gregorian calendar

Dates of the Gregorian calendar, extended without end in both directions, and their day numbers
counted from the first of January 1970. For counting, a year begins in March, so that the leap day
is its last one.
-/

namespace EntitySearch

/-- A date by year, month and day. -/
structure Date where
  /-- Year; the year before year 1 is year 0. -/
  year : Int
  /-- Month, from 1 to 12. -/
  month : Nat
  /-- Day of the month, from 1. -/
  day : Nat
  deriving DecidableEq

namespace Date

/-- The year has a leap day. -/
def isLeapYear (year : Int) : Bool :=
  year % 4 == 0 && (year % 100 != 0 || year % 400 == 0)

def daysInMonth (year : Int) (month : Nat) : Nat :=
  if month = 2 then if isLeapYear year then 29 else 28
  else if month = 4 || month = 6 || month = 9 || month = 11 then 30
  else 31

/-- The first year that dates are kept for. -/
def firstYear : Int := -262143

def lastYear : Int := 262142

/-- The date exists and lies within the years that are kept. -/
def isValid (date : Date) : Bool :=
  firstYear ≤ date.year && date.year ≤ lastYear && 1 ≤ date.month && date.month ≤ 12 &&
    1 ≤ date.day && date.day ≤ daysInMonth date.year date.month

/-- Days from the first of March of year 0 to the first of March of a year. -/
def daysBeforeYear (year : Int) : Int :=
  365 * year + year / 4 - year / 100 + year / 400

/-- Days from the first of March to the first of the month that follows it by `months` months. -/
def daysBeforeMonth (months : Int) : Int :=
  (153 * months + 2) / 5

/-- Days from the first of January 1970 to a date. -/
def dayNumber (date : Date) : Int :=
  let year := if date.month ≤ 2 then date.year - 1 else date.year
  let months : Int := (date.month + 9) % 12
  daysBeforeYear year + daysBeforeMonth months + date.day - 1 - 719468

/-- The date that lies a number of days after the first of January 1970. -/
def ofDayNumber (number : Int) : Date :=
  let days := number + 719468
  let era := days / 146097
  let dayOfEra := days % 146097
  let yearOfEra := (dayOfEra - dayOfEra / 1460 + dayOfEra / 36524 - dayOfEra / 146096) / 365
  let dayOfYear := dayOfEra - (365 * yearOfEra + yearOfEra / 4 - yearOfEra / 100)
  let months := (5 * dayOfYear + 2) / 153
  let day := dayOfYear - daysBeforeMonth months + 1
  let month := if months < 10 then months + 3 else months - 9
  let year := yearOfEra + 400 * era
  ⟨if month ≤ 2 then year + 1 else year, month.toNat, day.toNat⟩

end Date

end EntitySearch
