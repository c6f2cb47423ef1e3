import EntitySearch.Time.Calendar
import EntitySearch.Text.Numerals

/-!
# Clock readings and time zones

A clock reading counts the seconds that a clock shows since the start of 1970. A time zone says
which instants make its local clocks show a given reading: one, none where clocks were put forward,
or two where they were put back.
-/

namespace EntitySearch

/-- What a clock shows, to the millisecond. -/
structure ClockReading where
  /-- Seconds shown since the start of 1970, a leap second not counted. -/
  seconds : Int
  /-- Milliseconds of the second. -/
  millis : Nat
  /-- The second shown is the leap second after the counted one. -/
  leap : Bool
  deriving DecidableEq

namespace ClockReading

/-- Seconds of a day. -/
def secondsPerDay : Int := 86400

/-- The date shown. -/
def date (reading : ClockReading) : Date :=
  Date.ofDayNumber (reading.seconds / secondsPerDay)

/-- The date shown lies within the years that are kept. -/
def inRange (reading : ClockReading) : Bool :=
  Date.firstYear ≤ reading.date.year && reading.date.year ≤ Date.lastYear

/-- The year with four digits, outside the years 0 to 9999 with a sign as well. -/
def yearText (year : Int) : List Char :=
  if 0 ≤ year && year ≤ 9999 then Text.paddedDigits 4 year.toNat
  else
    let digits := Text.natDigits year.natAbs
    (if year < 0 then '-' else '+') :: List.replicate (4 - digits.length) '0' ++ digits

/-- The reading of a universal clock in the form `2024-01-15T00:00:00.000Z`. -/
def timestamp (reading : ClockReading) : List Char :=
  let date := reading.date
  let time := (reading.seconds % secondsPerDay).toNat
  let second := time % 60 + if reading.leap then 1 else 0
  yearText date.year ++ '-' :: Text.paddedDigits 2 date.month ++
    '-' :: Text.paddedDigits 2 date.day ++
    'T' :: Text.paddedDigits 2 (time / 3600) ++ ':' :: Text.paddedDigits 2 (time / 60 % 60) ++
    ':' :: Text.paddedDigits 2 second ++ '.' :: Text.paddedDigits 3 reading.millis ++ ['Z']

end ClockReading

/-- A time zone by its offsets from universal time, in seconds to the east.

Clocks may show the same seconds at several instants, each under an offset of its own. -/
structure TimeZone where
  /-- The offsets under which local clocks show a number of seconds, in the order of the instants. -/
  offsets : Int → List Int

namespace TimeZone

/-- One offset at all times. -/
def fixed (offset : Int) : TimeZone :=
  ⟨fun _ => [offset]⟩

/-- One offset before an instant and another from then on. -/
def changing (before after change : Int) : TimeZone :=
  ⟨fun shown =>
    (if shown - before < change then [before] else []) ++
      if change ≤ shown - after then [after] else []⟩

/-- Universal time itself. -/
def utc : TimeZone := .fixed 0

/-- The instants at which local clocks show a number of seconds, the earliest first. -/
def instants (zone : TimeZone) (shown : Int) : List Int :=
  (zone.offsets shown).map (shown - ·)

/-- The universal reading of the first instant at which local clocks show a reading.

There is none if no instant shows it, or if one that does lies outside the years kept. -/
def earliest? (zone : TimeZone) (shown : ClockReading) : Option ClockReading :=
  let readings := (zone.instants shown.seconds).map fun seconds => { shown with seconds }
  if readings.all ClockReading.inRange then readings.head? else none

end TimeZone

end EntitySearch
