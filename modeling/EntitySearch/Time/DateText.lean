import EntitySearch.Time.Clock
import EntitySearch.Text.Blank

/-!
# Dates and times as users write them

Three kinds of text are understood: a bare date, which stands for local midnight; a date and time
with an offset from universal time; and a date and time without one, which a local clock shows.
-/

namespace EntitySearch

namespace DateText

/-- A number of at least `least` and at most `most` digits, and the rest of the text. -/
def number? (least most : Nat) (text : List Char) : Option (Nat × List Char) :=
  let digits := (text.take most).takeWhile Char.isDigit
  if digits.length < least then none
  else some (Text.digitsValue digits, text.drop digits.length)

/-- The rest of a text that begins with a given character. -/
def char? (expected : Char) : List Char → Option (List Char)
  | [] => none
  | c :: rest => if c = expected then some rest else none

/-- A number of at most two digits after any white space. -/
def smallNumber? (text : List Char) : Option (Nat × List Char) :=
  number? 1 2 (Text.trimStart text)

/-- A year after any white space: up to four digits, or any number of digits behind a sign. -/
def year? (text : List Char) : Option (Int × List Char) :=
  match Text.trimStart text with
  | '-' :: rest => (number? 1 rest.length rest).map fun (year, rest) => (-year, rest)
  | '+' :: rest => (number? 1 rest.length rest).map fun (year, rest) => (year, rest)
  | rest => (number? 1 4 rest).map fun (year, rest) => (year, rest)

/-- The milliseconds that the digits of a decimal fraction amount to, further digits cut off. -/
def fractionMillis (digits : List Char) : Nat :=
  Text.digitsValue ((digits ++ ['0', '0', '0']).take 3)

/-- An optional fraction of a second: a point and at least one digit. -/
def fraction? : List Char → Option (Nat × List Char)
  | '.' :: rest =>
      let digits := rest.takeWhile Char.isDigit
      if digits.isEmpty then none
      else some (fractionMillis digits, rest.dropWhile Char.isDigit)
  | rest => some (0, rest)

/-- The reading of a clock that shows a valid date and time of day; second 60 is a leap second. -/
def reading? (date : Date) (hour minute second millis : Nat) : Option ClockReading :=
  if date.isValid && hour ≤ 23 && minute ≤ 59 && second ≤ 60 then
    let counted := if second = 60 then 59 else second
    some
      { seconds := date.dayNumber * ClockReading.secondsPerDay + (hour * 3600 + minute * 60 + counted)
        millis
        leap := second == 60 }
  else none

/-- A bare date such as `2024-01-15`: exactly ten characters, digits and two hyphens. -/
def bareDate? : List Char → Option Date
  | [y₁, y₂, y₃, y₄, '-', m₁, m₂, '-', d₁, d₂] =>
      if [y₁, y₂, y₃, y₄, m₁, m₂, d₁, d₂].all Char.isDigit then
        some ⟨Text.digitsValue [y₁, y₂, y₃, y₄], Text.digitsValue [m₁, m₂],
          Text.digitsValue [d₁, d₂]⟩
      else none
  | _ => none

/-- An offset from universal time in seconds: `Z`, or a sign, hours and minutes, and no more. -/
def offset? : List Char → Option Int
  | ['Z'] => some 0
  | ['z'] => some 0
  | [sign, h₁, h₂, ':', m₁, m₂] =>
      let hours := Text.digitsValue [h₁, h₂]
      let minutes := Text.digitsValue [m₁, m₂]
      let offset : Int := hours * 3600 + minutes * 60
      if [h₁, h₂, m₁, m₂].all Char.isDigit && hours ≤ 23 && minutes ≤ 59 then
        if sign = '+' then some offset
        else if sign = '-' || sign = '−' then some (-offset)
        else none
      else none
  | _ => none

/-- A date and time of full width with its offset, such as `2024-01-15T10:30:00+01:00`. -/
def withOffset? (text : List Char) : Option (ClockReading × Int) := do
  let (year, text) ← number? 4 4 text
  let (month, text) ← number? 2 2 (← char? '-' text)
  let (day, text) ← number? 2 2 (← char? '-' text)
  let text ← (char? 'T' text).or ((char? 't' text).or (char? ' ' text))
  let (hour, text) ← number? 2 2 text
  let (minute, text) ← number? 2 2 (← char? ':' text)
  let (second, text) ← number? 2 2 (← char? ':' text)
  let (millis, text) ← fraction? text
  let offset ← offset? text
  let reading ← reading? ⟨year, month, day⟩ hour minute second millis
  some (reading, offset)

/-- What stands between a date and a time of day. -/
inductive Separator where
  | letter
  /-- Any white space, also none. -/
  | space

/-- Cut the separator off. -/
def Separator.cut? : Separator → List Char → Option (List Char)
  | .letter, text => char? 'T' text
  | .space, text => some (Text.trimStart text)

/-- A date and time without an offset; the seconds and their fraction are left out or given. -/
def local? (separator : Separator) (withSeconds : Bool) (text : List Char) :
    Option ClockReading := do
  let (year, text) ← year? text
  let (month, text) ← smallNumber? (← char? '-' text)
  let (day, text) ← smallNumber? (← char? '-' text)
  let text ← separator.cut? text
  let (hour, text) ← smallNumber? text
  let (minute, text) ← smallNumber? (← char? ':' text)
  let (second, text) ← if withSeconds then smallNumber? (← char? ':' text) else some (0, text)
  let (millis, text) ← if withSeconds then fraction? text else some (0, text)
  if text.isEmpty then reading? ⟨year, month, day⟩ hour minute second millis else none

/-- A date and time without an offset in any of the forms understood. -/
def anyLocal? (text : List Char) : Option ClockReading :=
  (local? .letter true text).or <| (local? .letter false text).or <|
    (local? .space true text).or (local? .space false text)

/-- The instant that a text names in a time zone, as a universal clock shows it. -/
def instant? (zone : TimeZone) (text : String) : Option ClockReading :=
  let characters := Text.trimEnds text.toList
  match bareDate? characters with
  | some date => (reading? date 0 0 0 0).bind zone.earliest?
  | none =>
      match withOffset? characters with
      | some (shown, offset) => (TimeZone.fixed offset).earliest? shown
      | none => (anyLocal? characters).bind zone.earliest?

end DateText

end EntitySearch
