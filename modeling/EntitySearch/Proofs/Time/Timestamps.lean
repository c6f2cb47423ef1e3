import EntitySearch.Proofs.Number.Numeral
import EntitySearch.Proofs.OData.Tokens
import EntitySearch.Proofs.Text.Trimming
import EntitySearch.Proofs.Time.Calendar
import EntitySearch.Proofs.Time.DateTexts

/-!
# Timestamps are read back

A timestamp of a year with four digits is a text with an offset, so every time zone reads it alike,
and what it is read as has the same timestamp. A timestamp of any other year is not understood and
stays the text that it is.
-/

namespace EntitySearch

namespace DateText

theorem number?_paddedDigits (width value : Nat) (rest : List Char) :
    number? width width (Text.paddedDigits width value ++ rest) =
      some (value % 10 ^ width, rest) := by
  have front : ((Text.paddedDigits width value ++ rest).take width).takeWhile Char.isDigit =
      Text.paddedDigits width value := by
    rw [List.take_left' (Text.length_paddedDigits width value), List.takeWhile_eq_self_iff]
    exact Text.isDigit_of_mem_paddedDigits
  rw [number?, front]
  simp [Text.digitsValue_paddedDigits]

theorem fraction?_paddedDigits (value : Nat) {next : Char} (other : next.isDigit = false)
    (rest : List Char) :
    fraction? ('.' :: (Text.paddedDigits 3 value ++ next :: rest)) =
      some (value % 10 ^ 3, next :: rest) := by
  have cut : (Text.paddedDigits 3 value ++ next :: rest).takeWhile Char.isDigit =
      Text.paddedDigits 3 value := by
    rw [List.takeWhile_append_of_pos Text.isDigit_of_mem_paddedDigits]
    simp [other]
  have left : (Text.paddedDigits 3 value ++ next :: rest).dropWhile Char.isDigit =
      next :: rest := by
    rw [List.dropWhile_append_of_pos Text.isDigit_of_mem_paddedDigits]
    simp [other]
  have written : (Text.paddedDigits 3 value).isEmpty = false := by
    simp [← List.length_eq_zero_iff]
  rw [fraction?, cut, left, written, fractionMillis,
    List.take_left' (Text.length_paddedDigits 3 value), Text.digitsValue_paddedDigits]
  rfl

theorem char?_cons (c : Char) (rest : List Char) : char? c (c :: rest) = some rest := by
  rw [char?, if_pos rfl]

/-- A date and time with an offset is read part by part. -/
theorem withOffset?_of_parts {text text₁ text₂ text₃ text₄ text₅ text₆ text₇ : List Char}
    {year month day hour minute second millis : Nat} {offset : Int}
    (year_read : number? 4 4 text = some (year, '-' :: text₁))
    (month_read : number? 2 2 text₁ = some (month, '-' :: text₂))
    (day_read : number? 2 2 text₂ = some (day, 'T' :: text₃))
    (hour_read : number? 2 2 text₃ = some (hour, ':' :: text₄))
    (minute_read : number? 2 2 text₄ = some (minute, ':' :: text₅))
    (second_read : number? 2 2 text₅ = some (second, text₆))
    (fraction_read : fraction? text₆ = some (millis, text₇))
    (offset_read : offset? text₇ = some offset) :
    withOffset? text =
      (reading? ⟨year, month, day⟩ hour minute second millis).map (·, offset) := by
  have step {First Second : Type} (first : First) (next : First → Option Second) :
      (some first >>= next) = next first := rfl
  -- Each part is put in before the next step is opened: only then is there a text to go on with.
  rw [withOffset?, year_read, step]
  dsimp only
  rw [char?_cons, step, month_read, step]
  dsimp only
  rw [char?_cons, step, day_read, step]
  dsimp only
  rw [char?_cons, Option.some_or, step, hour_read, step]
  dsimp only
  rw [char?_cons, step, minute_read, step]
  dsimp only
  rw [char?_cons, step, second_read, step]
  dsimp only
  rw [fraction_read, step]
  dsimp only
  rw [offset_read, step, Option.map_eq_bind]
  rfl

/-- A universal date and time of full width is read as its parts. -/
theorem withOffset?_written (year month day hour minute second millis : Nat) :
    withOffset? (Text.paddedDigits 4 year ++ '-' :: Text.paddedDigits 2 month ++
      '-' :: Text.paddedDigits 2 day ++ 'T' :: Text.paddedDigits 2 hour ++
      ':' :: Text.paddedDigits 2 minute ++ ':' :: Text.paddedDigits 2 second ++
      '.' :: Text.paddedDigits 3 millis ++ ['Z']) =
    (reading? ⟨(year % 10 ^ 4 : Nat), month % 10 ^ 2, day % 10 ^ 2⟩ (hour % 10 ^ 2)
      (minute % 10 ^ 2) (second % 10 ^ 2) (millis % 10 ^ 3)).map (·, 0) := by
  simp only [List.append_assoc, List.cons_append]
  exact withOffset?_of_parts (number?_paddedDigits 4 year _) (number?_paddedDigits 2 month _)
    (number?_paddedDigits 2 day _) (number?_paddedDigits 2 hour _)
    (number?_paddedDigits 2 minute _) (number?_paddedDigits 2 second _)
    (fraction?_paddedDigits millis (by decide) []) rfl

end DateText

namespace ClockReading

/-- The reading that a timestamp is read back as: a leap second that does not end a minute is the
second after the counted one. -/
def asWritten (reading : ClockReading) : ClockReading :=
  if reading.leap && reading.seconds % 60 != 59 then
    ⟨reading.seconds + 1, reading.millis % 10 ^ 3, false⟩
  else ⟨reading.seconds, reading.millis % 10 ^ 3, reading.leap⟩

/-- The year is written with four digits and no sign. -/
def HasPlainYear (reading : ClockReading) : Prop :=
  0 ≤ reading.date.year ∧ reading.date.year ≤ 9999

/-- The full seconds of the day that have been counted. -/
def time (reading : ClockReading) : Nat :=
  (reading.seconds % secondsPerDay).toNat

/-- The second that is shown of the minute. -/
def second (reading : ClockReading) : Nat :=
  reading.time % 60 + if reading.leap then 1 else 0

variable (reading : ClockReading)

theorem hasPlainYear_iff :
    reading.HasPlainYear ↔
      (decide (0 ≤ reading.date.year) && decide (reading.date.year ≤ 9999)) = true := by
  simp [HasPlainYear]

theorem timestamp_eq :
    reading.timestamp =
      yearText reading.date.year ++ '-' :: Text.paddedDigits 2 reading.date.month ++
        '-' :: Text.paddedDigits 2 reading.date.day ++
        'T' :: Text.paddedDigits 2 (reading.time / 3600) ++
        ':' :: Text.paddedDigits 2 (reading.time / 60 % 60) ++
        ':' :: Text.paddedDigits 2 reading.second ++
        '.' :: Text.paddedDigits 3 reading.millis ++ ['Z'] := rfl

theorem seconds_eq :
    reading.seconds = reading.seconds / secondsPerDay * secondsPerDay + reading.time := by
  rw [time, secondsPerDay]
  omega

theorem time_lt : reading.time < 86400 := by
  rw [time, secondsPerDay]
  omega

theorem date_asWritten : reading.asWritten.date = reading.date := by
  rw [asWritten]
  split_ifs with inner
  · rw [Bool.and_eq_true, bne_iff_ne] at inner
    have same_day : (reading.seconds + 1) / secondsPerDay = reading.seconds / secondsPerDay := by
      rw [secondsPerDay]
      omega
    rw [date, date, same_day]
  · rfl

theorem millis_asWritten : reading.asWritten.millis = reading.millis % 10 ^ 3 := by
  rw [asWritten]
  split_ifs <;> rfl

theorem time_asWritten :
    reading.asWritten.time / 60 = reading.time / 60 ∧
      reading.asWritten.second = reading.second := by
  rw [asWritten]
  split_ifs with inner
  · rw [Bool.and_eq_true, bne_iff_ne] at inner
    have counted :
        time ⟨reading.seconds + 1, reading.millis % 10 ^ 3, false⟩ = reading.time + 1 := by
      rw [time, time, secondsPerDay]
      dsimp only
      omega
    have unfinished : reading.time % 60 ≠ 59 := by
      have same := reading.seconds_eq
      rw [secondsPerDay] at same
      omega
    rw [second, second, counted, inner.1, if_pos rfl, if_neg Bool.false_ne_true]
    omega
  · exact ⟨rfl, rfl⟩

theorem timestamp_asWritten : reading.asWritten.timestamp = reading.timestamp := by
  obtain ⟨minutes_eq, second_eq⟩ := reading.time_asWritten
  have hour_eq : reading.asWritten.time / 3600 = reading.time / 3600 := by omega
  rw [timestamp_eq, timestamp_eq, date_asWritten, hour_eq, minutes_eq, second_eq, millis_asWritten,
    Text.paddedDigits_mod 3]

theorem dayNumber_date : reading.date.dayNumber = reading.seconds / secondsPerDay :=
  Date.dayNumber_ofDayNumber _

/-- The parts of a timestamp are those of the reading that it is read back as. -/
theorem reading?_parts (valid : reading.date.isValid = true) :
    DateText.reading? reading.date (reading.time / 3600) (reading.time / 60 % 60) reading.second
      (reading.millis % 10 ^ 3) = some reading.asWritten := by
  have time_lt := reading.time_lt
  have second_le : reading.second ≤ 60 := by
    rw [second]
    split_ifs <;> omega
  have counted := reading.seconds_eq
  have guard : (reading.date.isValid && decide (reading.time / 3600 ≤ 23) &&
      decide (reading.time / 60 % 60 ≤ 59) && decide (reading.second ≤ 60)) = true := by
    simp only [valid, second_le, Bool.true_and, decide_true, Bool.and_true, Bool.and_eq_true,
      decide_eq_true_eq]
    omega
  have minute_iff : reading.seconds % 60 = 59 ↔ reading.time % 60 = 59 := by
    rw [secondsPerDay] at counted
    omega
  rw [DateText.reading?, if_pos guard, dayNumber_date, asWritten]
  dsimp only
  rw [Option.some.injEq]
  -- Only a leap second at the end of a minute is written as second 60 and read as a leap second.
  cases leap : reading.leap with
  | false =>
      have second_eq : reading.second = reading.time % 60 := by rw [second, leap]; rfl
      have other : reading.second ≠ 60 := by omega
      rw [if_neg other, Bool.false_and, if_neg Bool.false_ne_true, mk.injEq]
      exact ⟨by omega, rfl, by simpa using other⟩
  | true =>
      have second_eq : reading.second = reading.time % 60 + 1 := by rw [second, leap]; rfl
      by_cases ending : reading.seconds % 60 = 59
      · have last : reading.second = 60 := by omega
        rw [if_pos last, last, ending, Bool.true_and, bne_self_eq_false,
          if_neg Bool.false_ne_true, mk.injEq]
        exact ⟨by omega, rfl, rfl⟩
      · have other : reading.second ≠ 60 := by omega
        rw [if_neg other, Bool.true_and, if_pos (by simpa using ending), mk.injEq]
        exact ⟨by omega, rfl, by simpa using other⟩

/-- A timestamp of a year with four digits is read back as a universal date and time. -/
theorem withOffset?_timestamp (plain : reading.HasPlainYear) :
    DateText.withOffset? reading.timestamp = some (reading.asWritten, 0) := by
  have valid : reading.date.isValid = true :=
    Date.isValid_ofDayNumber (Int.le_trans (by decide) plain.1) (Int.le_trans plain.2 (by decide))
  obtain ⟨month_le, day_le⟩ := Date.bounds_of_isValid valid
  have year_eq : ((reading.date.year.toNat % 10 ^ 4 : Nat) : Int) = reading.date.year := by
    obtain ⟨year_nonneg, year_le⟩ := plain
    omega
  have second_lt : reading.second < 10 ^ 2 := by
    rw [second]
    split_ifs <;> omega
  have hour_lt : reading.time / 3600 < 10 ^ 2 := by
    have time_lt := reading.time_lt
    omega
  rw [timestamp_eq, yearText, if_pos (reading.hasPlainYear_iff.mp plain), DateText.withOffset?_written, year_eq,
    Nat.mod_eq_of_lt (show reading.date.month < 10 ^ 2 by omega),
    Nat.mod_eq_of_lt (show reading.date.day < 10 ^ 2 by omega), Nat.mod_eq_of_lt hour_lt,
    Nat.mod_eq_of_lt (show reading.time / 60 % 60 < 10 ^ 2 by omega),
    Nat.mod_eq_of_lt second_lt, reading.reading?_parts valid]
  rfl

/-- The character stands in timestamps. -/
def isStamp (c : Char) : Bool :=
  c.isDigit || ['-', '+', 'T', ':', '.', 'Z'].contains c

theorem all_isStamp_of_isDigit {digits : List Char} (all_digits : ∀ c ∈ digits, c.isDigit = true) :
    digits.all isStamp = true :=
  List.all_eq_true.mpr fun c member => by rw [isStamp, all_digits c member, Bool.true_or]

theorem all_isStamp_yearText (year : Int) : (yearText year).all isStamp = true := by
  rw [yearText]
  split_ifs with plain before
  · exact all_isStamp_of_isDigit Text.isDigit_of_mem_paddedDigits
  all_goals
    have digits := all_isStamp_of_isDigit ((Text.isDigits_iff _).mp
      (Text.isDigits_natDigits year.natAbs)).2
    have zeros (count : Nat) : (List.replicate count '0').all isStamp = true :=
      List.all_eq_true.mpr fun c member => by rw [List.eq_of_mem_replicate member]; decide
    rw [List.all_append, List.all_cons, zeros, digits]
    decide

theorem all_isStamp_timestamp : reading.timestamp.all isStamp = true := by
  have digits (width value : Nat) : (Text.paddedDigits width value).all isStamp = true :=
    all_isStamp_of_isDigit Text.isDigit_of_mem_paddedDigits
  rw [timestamp_eq]
  simp only [List.all_append, List.all_cons, all_isStamp_yearText, digits]
  decide

theorem zulu_mem_timestamp : 'Z' ∈ reading.timestamp := by
  rw [timestamp_eq]
  simp

theorem solid_of_isStamp {c : Char} (stamp : isStamp c = true) :
    Text.isSpace c = false ∧ OData.isMark c = false := by
  rw [isStamp, Bool.or_eq_true, List.contains_iff_mem] at stamp
  rcases stamp with digit | sign
  · exact ⟨Text.isSpace_of_isDigit digit,
      OData.isMark_of_isAlphanum (by rw [Char.isAlphanum, digit, Bool.or_true, Bool.true_or])⟩
  · have signs : ['-', '+', 'T', ':', '.', 'Z'].all
        (fun c => ! Text.isSpace c && ! OData.isMark c) = true := by decide
    simpa using List.all_eq_true.mp signs c sign

theorem isTrimmed_timestamp : Text.IsTrimmed reading.timestamp :=
  .of_forall fun c member =>
    (solid_of_isStamp (List.all_eq_true.mp reading.all_isStamp_timestamp c member)).1

theorem doubleQuotes_timestamp : Text.doubleQuotes reading.timestamp = reading.timestamp := by
  refine OData.doubleQuotes_of_isWord ((OData.isWord_iff _).mpr ⟨?_, ?_⟩)
  · exact List.ne_nil_of_mem reading.zulu_mem_timestamp
  · exact fun c member =>
      (solid_of_isStamp (List.all_eq_true.mp reading.all_isStamp_timestamp c member)).2

theorem bareDate?_timestamp : DateText.bareDate? reading.timestamp = none := by
  by_contra read
  obtain ⟨date, read⟩ := Option.ne_none_iff_exists'.mp read
  have shape := (DateText.shape_of_bareDate? read).2 'Z' reading.zulu_mem_timestamp
  revert shape
  decide

theorem anyLocal?_timestamp : DateText.anyLocal? reading.timestamp = none := by
  by_contra read
  obtain ⟨shown, read⟩ := Option.ne_none_iff_exists'.mp read
  obtain ⟨rest, ⟨front, timestamp_eq, parts⟩, fraction_read⟩ :=
    DateText.exists_parts_of_anyLocal? read
  have member := reading.zulu_mem_timestamp
  rw [timestamp_eq, List.mem_append] at member
  rcases member with in_front | in_rest
  · exact absurd (parts 'Z' in_front) (by decide)
  · rcases DateText.shape_of_fraction? fraction_read with ⟨rfl, -⟩ | ⟨digits, rfl, all_digits, -⟩
    · cases in_rest
    · rcases List.mem_cons.mp in_rest with point | digit
      · exact absurd point (by decide)
      · exact absurd (all_digits 'Z' digit) (by decide)

/-- A year with a sign is not understood in front of an offset. -/
theorem withOffset?_timestamp_of_sign (signed : ¬ reading.HasPlainYear) :
    DateText.withOffset? reading.timestamp = none := by
  have unread (rest : List Char) :
      DateText.number? 4 4 (yearText reading.date.year ++ rest) = none := by
    rw [yearText, if_neg (mt reading.hasPlainYear_iff.mpr signed)]
    split_ifs <;> rfl
  rw [DateText.withOffset?, timestamp_eq]
  simp only [List.append_assoc, unread]
  rfl

end ClockReading

open ClockReading

/-- Every time zone reads a timestamp as the text that it is, or as what has the same timestamp. -/
theorem odataLiteral_timestamp (zone : TimeZone) (reading : ClockReading) :
    odataLiteral zone .dateTime (.text (String.ofList reading.timestamp)) =
      quotedLiteral reading.timestamp := by
  have trimmed : Text.trimEnds (String.ofList reading.timestamp).toList = reading.timestamp := by
    rw [String.toList_ofList, reading.isTrimmed_timestamp.trimEnds_eq]
  rw [odataLiteral, FilterValue.instant?, DateText.instant?, trimmed, reading.bareDate?_timestamp]
  dsimp only
  by_cases plain : reading.HasPlainYear
  · have inRange : reading.asWritten.inRange = true := by
      rw [HasPlainYear, ← date_asWritten] at plain
      rw [ClockReading.inRange, Bool.and_eq_true, decide_eq_true_eq, decide_eq_true_eq]
      exact ⟨Int.le_trans (by decide) plain.1, Int.le_trans plain.2 (by decide)⟩
    have same : (TimeZone.fixed 0).earliest? reading.asWritten = some reading.asWritten := by
      simp [TimeZone.earliest?, TimeZone.instants, TimeZone.fixed, inRange]
    rw [reading.withOffset?_timestamp plain]
    dsimp only
    rw [same]
    dsimp only
    rw [timestamp_asWritten]
  · rw [reading.withOffset?_timestamp_of_sign plain, reading.anyLocal?_timestamp]
    dsimp only [Option.bind_none]
    rw [FilterValue.display, String.toList_ofList]

/-- Literals of dates are canonical: the timestamp that an understood text becomes in one time zone
stays as it is in every time zone when it is read once more. -/
theorem odataLiteral_canonical {zone : TimeZone} {text : String} {instant : ClockReading}
    (understood : DateText.instant? zone text = some instant) :
    ∃ content, content.toList = instant.timestamp ∧
      odataLiteral zone .dateTime (.text text) = "'" ++ content ++ "'" ∧
      ∀ other, odataLiteral other .dateTime (.text content) = "'" ++ content ++ "'" := by
  have quoted :
      quotedLiteral instant.timestamp = "'" ++ String.ofList instant.timestamp ++ "'" := by
    rw [quotedLiteral, instant.doubleQuotes_timestamp, ← String.toList_inj]
    simp
  refine ⟨String.ofList instant.timestamp, String.toList_ofList, ?_, fun other => ?_⟩
  · rw [odataLiteral, FilterValue.instant?, understood, ← quoted]
  · rw [odataLiteral_timestamp, quoted]

/-- A leap second in a zone that is half a minute ahead. -/
theorem odataLiteral_leap_second :
    DateText.instant? (.fixed 30) "2016-12-31T23:59:60.98765" = some ⟨1483228769, 987, true⟩ ∧
      odataLiteral (.fixed 30) .dateTime (.text "2016-12-31T23:59:60.98765") =
        "'2016-12-31T23:59:30.987Z'" ∧
      ∀ other, odataLiteral other .dateTime (.text "2016-12-31T23:59:30.987Z") =
        "'2016-12-31T23:59:30.987Z'" := by
  have understood : DateText.instant? (.fixed 30) "2016-12-31T23:59:60.98765" =
      some ⟨1483228769, 987, true⟩ := by decide +kernel
  have shown : ClockReading.timestamp ⟨1483228769, 987, true⟩ =
      "2016-12-31T23:59:30.987Z".toList := by decide +kernel
  obtain ⟨content, content_eq, first, again⟩ := odataLiteral_canonical understood
  rw [shown] at content_eq
  obtain rfl := String.toList_inj.mp content_eq
  exact ⟨understood, first, again⟩

end EntitySearch
