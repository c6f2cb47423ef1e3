import EntitySearch.Time.Calendar
import Mathlib.Tactic.SplitIfs

/-!
# Dates and their day numbers

The date of a day number exists, and it has that day number. A date is found in three steps: the
span of 400 years, the year in it, and the month in that, years being counted from March. Of each
step it is enough to know that the day lies between the first day of what is found and the first
day of what follows.
-/

namespace EntitySearch

namespace Date

/-- The year of a day within a span of 400 years, both counted from its start. -/
def yearOfSpan (day : Int) : Int :=
  (day - day / 1460 + day / 36524 - day / 146096) / 365

/-- The month of a day within a year, both counted from its start. -/
def monthOfYear (day : Int) : Int :=
  (5 * day + 2) / 153

section Spans

variable {day : Int} (nonneg : 0 ≤ day) (within : day < 146097)
include nonneg within

theorem yearOfSpan_mem : 0 ≤ yearOfSpan day ∧ yearOfSpan day < 400 := by
  rw [yearOfSpan]
  omega

theorem century_cases :
    day / 36524 = 0 ∨ day / 36524 = 1 ∨ day / 36524 = 2 ∨ day / 36524 = 3 ∨ day = 146096 := by
  omega

theorem daysBeforeYear_yearOfSpan_le : daysBeforeYear (yearOfSpan day) ≤ day := by
  obtain ⟨year_nonneg, year_lt⟩ := yearOfSpan_mem nonneg within
  have whole : yearOfSpan day / 400 = 0 := by omega
  have century : yearOfSpan day / 100 = day / 36524 - day / 146096 := by
    rw [yearOfSpan]
    rcases century_cases nonneg within with first | second | third | fourth | last <;> omega
  rw [daysBeforeYear, whole, century, yearOfSpan]
  rcases century_cases nonneg within with first | second | third | fourth | last <;> omega

theorem lt_daysBeforeYear_yearOfSpan_succ : day < daysBeforeYear (yearOfSpan day + 1) := by
  obtain ⟨year_nonneg, year_lt⟩ := yearOfSpan_mem nonneg within
  rw [daysBeforeYear]
  by_cases closing : (yearOfSpan day + 1) % 100 = 0
  · -- The last year of a century ends with the century.
    have year_cases : yearOfSpan day = 99 ∨ yearOfSpan day = 199 ∨ yearOfSpan day = 299 ∨
        yearOfSpan day = 399 := by omega
    have year_eq := yearOfSpan.eq_def day
    rcases year_cases with year | year | year | year <;> rw [year] at year_eq ⊢ <;> omega
  · -- Any other year ends after as many leap days as days of four years before it.
    have century : (yearOfSpan day + 1) / 100 = yearOfSpan day / 100 := by omega
    have whole : (yearOfSpan day + 1) / 400 = 0 := by omega
    rw [century, whole]
    rw [yearOfSpan] at *
    rcases century_cases nonneg within with first | second | third | fourth | last
    all_goals
      have leaps : day / 1460 ≤
        ((day - day / 1460 + day / 36524 - day / 146096) / 365 + 1) / 4 := by omega
      omega

end Spans

/-- A year that is counted from March ends with the leap day of the next one. -/
theorem daysBeforeYear_succ (year : Int) :
    daysBeforeYear (year + 1) =
      daysBeforeYear year + if isLeapYear (year + 1) then 366 else 365 := by
  simp only [daysBeforeYear, isLeapYear, Bool.and_eq_true, Bool.or_eq_true, beq_iff_eq, bne_iff_ne]
  split_ifs <;> omega

theorem daysBeforeYear_add_span (year span : Int) :
    daysBeforeYear (year + 400 * span) = daysBeforeYear year + 146097 * span := by
  simp only [daysBeforeYear]
  omega

theorem monthOfYear_mem {day : Int} (nonneg : 0 ≤ day) (within : day ≤ 365) :
    0 ≤ monthOfYear day ∧ monthOfYear day ≤ 11 := by
  rw [monthOfYear]
  omega

theorem daysBeforeMonth_monthOfYear_le (day : Int) : daysBeforeMonth (monthOfYear day) ≤ day := by
  rw [daysBeforeMonth, monthOfYear]
  omega

theorem lt_daysBeforeMonth_monthOfYear_succ (day : Int) :
    day < daysBeforeMonth (monthOfYear day + 1) := by
  rw [daysBeforeMonth, monthOfYear]
  omega

/-! ## Dates counted from March -/

/-- The date of a day of a month, where years begin in March and months count from 0. -/
def ofMarch (year month day : Int) : Date :=
  ⟨if month < 10 then year else year + 1, (if month < 10 then month + 3 else month - 9).toNat,
    day.toNat⟩

section Months

variable {month : Int} (nonneg : 0 ≤ month) (within : month ≤ 11)
include nonneg within

theorem dayNumber_ofMarch (year : Int) {day : Int} (positive : 1 ≤ day) :
    dayNumber (ofMarch year month day) =
      daysBeforeYear year + daysBeforeMonth month + day - 1 - 719468 := by
  have months_eq : (((ofMarch year month day).month : Int) + 9) % 12 = month := by
    simp only [ofMarch]
    split_ifs <;> omega
  have year_eq : (if (ofMarch year month day).month ≤ 2 then (ofMarch year month day).year - 1
      else (ofMarch year month day).year) = year := by
    simp only [ofMarch]
    split_ifs <;> omega
  have day_eq : ((ofMarch year month day).day : Int) = day := Int.toNat_of_nonneg (by omega)
  simp only [dayNumber]
  rw [months_eq, year_eq, day_eq]

/-- A month that is counted from March has the days up to the next one; the last month has the days
up to the next year. -/
theorem daysInMonth_ofMarch (year day : Int) :
    (daysInMonth (ofMarch year month day).year (ofMarch year month day).month : Int) =
      min (daysBeforeMonth (month + 1)) (daysBeforeYear (year + 1) - daysBeforeYear year) -
        daysBeforeMonth month := by
  have month_cases : month = 0 ∨ month = 1 ∨ month = 2 ∨ month = 3 ∨ month = 4 ∨ month = 5 ∨
      month = 6 ∨ month = 7 ∨ month = 8 ∨ month = 9 ∨ month = 10 ∨ month = 11 := by omega
  have year_length : daysBeforeYear (year + 1) - daysBeforeYear year =
      if isLeapYear (year + 1) then 366 else 365 := by
    rw [daysBeforeYear_succ]
    omega
  rw [year_length]
  rcases month_cases with rfl | rfl | rfl | rfl | rfl | rfl | rfl | rfl | rfl | rfl | rfl | rfl <;>
    simp [ofMarch, daysInMonth, daysBeforeMonth] <;> split_ifs <;> decide

end Months

/-! ## Day numbers -/

section DayNumbers

variable (number : Int)

/-- The day that a day number falls on within its span of 400 years. -/
def dayOfSpan : Int :=
  (number + 719468) % 146097

/-- The day that a day number falls on within its year. -/
def dayOfYear : Int :=
  dayOfSpan number - daysBeforeYear (yearOfSpan (dayOfSpan number))

/-- The year that a day number falls in. -/
def marchYear : Int :=
  yearOfSpan (dayOfSpan number) + 400 * ((number + 719468) / 146097)

theorem dayOfSpan_mem : 0 ≤ dayOfSpan number ∧ dayOfSpan number < 146097 := by
  rw [dayOfSpan]
  omega

theorem dayOfYear_nonneg : 0 ≤ dayOfYear number := by
  obtain ⟨nonneg, within⟩ := dayOfSpan_mem number
  have started := daysBeforeYear_yearOfSpan_le nonneg within
  rw [dayOfYear]
  omega

theorem dayOfYear_lt :
    dayOfYear number <
      daysBeforeYear (marchYear number + 1) - daysBeforeYear (marchYear number) := by
  obtain ⟨nonneg, within⟩ := dayOfSpan_mem number
  have unfinished := lt_daysBeforeYear_yearOfSpan_succ nonneg within
  have later : marchYear number + 1 =
      yearOfSpan (dayOfSpan number) + 1 + 400 * ((number + 719468) / 146097) := by
    rw [marchYear]
    omega
  rw [later, marchYear, daysBeforeYear_add_span, daysBeforeYear_add_span, dayOfYear]
  omega

theorem dayOfYear_le : dayOfYear number ≤ 365 := by
  have unfinished := dayOfYear_lt number
  rw [daysBeforeYear_succ] at unfinished
  split_ifs at unfinished <;> omega

theorem daysBeforeYear_marchYear :
    daysBeforeYear (marchYear number) + dayOfYear number = number + 719468 := by
  rw [marchYear, daysBeforeYear_add_span, dayOfYear, dayOfSpan]
  omega

theorem ofDayNumber_eq_ofMarch :
    ofDayNumber number =
      ofMarch (marchYear number) (monthOfYear (dayOfYear number))
        (dayOfYear number - daysBeforeMonth (monthOfYear (dayOfYear number)) + 1) := by
  obtain ⟨nonneg, within⟩ := dayOfSpan_mem number
  obtain ⟨year_nonneg, year_lt⟩ := yearOfSpan_mem nonneg within
  have day_eq : dayOfYear number = dayOfSpan number - (365 * yearOfSpan (dayOfSpan number) +
      yearOfSpan (dayOfSpan number) / 4 - yearOfSpan (dayOfSpan number) / 100) := by
    rw [dayOfYear, daysBeforeYear]
    omega
  obtain ⟨month_nonneg, month_le⟩ := monthOfYear_mem (dayOfYear_nonneg number) (dayOfYear_le number)
  have early_iff : (if monthOfYear (dayOfYear number) < 10 then monthOfYear (dayOfYear number) + 3
      else monthOfYear (dayOfYear number) - 9) ≤ 2 ↔ ¬ monthOfYear (dayOfYear number) < 10 := by
    split_ifs <;> omega
  rw [ofMarch, marchYear]
  simp only [ofDayNumber]
  rw [← dayOfSpan, ← yearOfSpan, ← day_eq, ← monthOfYear]
  simp only [early_iff, ite_not]

end DayNumbers

theorem dayNumber_ofDayNumber (number : Int) : dayNumber (ofDayNumber number) = number := by
  obtain ⟨month_nonneg, month_le⟩ := monthOfYear_mem (dayOfYear_nonneg number) (dayOfYear_le number)
  have started := daysBeforeMonth_monthOfYear_le (dayOfYear number)
  have counted := daysBeforeYear_marchYear number
  rw [ofDayNumber_eq_ofMarch, dayNumber_ofMarch month_nonneg month_le _ (by omega)]
  omega

example : ofDayNumber 0 = ⟨1970, 1, 1⟩ := by decide

/-- The date of a day number exists. -/
theorem isValid_ofDayNumber {number : Int} (first : firstYear ≤ (ofDayNumber number).year)
    (last : (ofDayNumber number).year ≤ lastYear) : (ofDayNumber number).isValid = true := by
  obtain ⟨month_nonneg, month_le⟩ := monthOfYear_mem (dayOfYear_nonneg number) (dayOfYear_le number)
  have started := daysBeforeMonth_monthOfYear_le (dayOfYear number)
  have month_unfinished := lt_daysBeforeMonth_monthOfYear_succ (dayOfYear number)
  have year_unfinished := dayOfYear_lt number
  have days := daysInMonth_ofMarch month_nonneg month_le (marchYear number)
    (dayOfYear number - daysBeforeMonth (monthOfYear (dayOfYear number)) + 1)
  have month_mem : 1 ≤ (ofDayNumber number).month ∧ (ofDayNumber number).month ≤ 12 := by
    rw [ofDayNumber_eq_ofMarch]
    simp only [ofMarch]
    split_ifs <;> omega
  have day_mem : 1 ≤ (ofDayNumber number).day ∧ (ofDayNumber number).day ≤
      daysInMonth (ofDayNumber number).year (ofDayNumber number).month := by
    rw [ofDayNumber_eq_ofMarch]
    generalize daysInMonth _ _ = count at days ⊢
    simp only [ofMarch]
    omega
  simp [isValid, first, last, month_mem, day_mem]

/-- A month and a day that exist are written with two digits. -/
theorem bounds_of_isValid {date : Date} (valid : date.isValid = true) :
    date.month ≤ 12 ∧ date.day ≤ 31 := by
  simp only [isValid, Bool.and_eq_true, decide_eq_true_eq] at valid
  have days_le : daysInMonth date.year date.month ≤ 31 := by
    rw [daysInMonth]
    split_ifs <;> decide
  omega

end Date

end EntitySearch
