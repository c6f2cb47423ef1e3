import EntitySearch.Time.DateText
import EntitySearch.Proofs.Text.Digits
import Mathlib.Data.List.TakeWhile
import Mathlib.Tactic.SplitIfs

/-!
# The shape of date texts

Every part of a date text is cut off its front, so a text that is understood consists of the
characters of its parts. A date and time without an offset has such characters only, up to the
fraction of a second, which is all that may follow.
-/

namespace EntitySearch

namespace DateText

/-- The character stands in a date and time without an offset, before the fraction of a second. -/
def isPart (c : Char) : Bool :=
  c.isDigit || Text.isSpace c || c == '-' || c == '+' || c == ':' || c == 'T'

/-- What is left of a text once some parts are cut off its front. -/
def Leaves (text rest : List Char) : Prop :=
  ∃ front, text = front ++ rest ∧ ∀ c ∈ front, isPart c = true

namespace Leaves

theorem refl (text : List Char) : Leaves text text :=
  ⟨[], rfl, by simp⟩

theorem trans {text middle rest : List Char} (first : Leaves text middle)
    (second : Leaves middle rest) : Leaves text rest := by
  obtain ⟨front, rfl, front_parts⟩ := first
  obtain ⟨back, rfl, back_parts⟩ := second
  refine ⟨front ++ back, (List.append_assoc front back rest).symm, ?_⟩
  intro c member
  rcases List.mem_append.mp member with in_front | in_back
  · exact front_parts c in_front
  · exact back_parts c in_back

theorem cons {c : Char} (part : isPart c = true) (rest : List Char) : Leaves (c :: rest) rest :=
  ⟨[c], rfl, by simp [part]⟩

theorem takeWhile {part : Char → Bool} (parts : ∀ c, part c = true → isPart c = true)
    (text : List Char) : Leaves text (text.dropWhile part) :=
  ⟨text.takeWhile part, List.takeWhile_append_dropWhile.symm,
    fun c member => parts c (List.mem_takeWhile_imp member)⟩

end Leaves

theorem isPart_of_isDigit {c : Char} (digit : c.isDigit = true) : isPart c = true := by
  simp [isPart, digit]

theorem isPart_of_isSpace {c : Char} (space : Text.isSpace c = true) : isPart c = true := by
  simp [isPart, space]

section Readers

variable {text rest : List Char}

theorem leaves_number? {least most value : Nat}
    (read : number? least most text = some (value, rest)) : Leaves text rest := by
  rw [number?] at read
  split_ifs at read
  obtain ⟨rfl, rfl⟩ := Prod.mk.inj (Option.some.inj read)
  have front : (text.take most).takeWhile Char.isDigit <+: text :=
    (List.takeWhile_prefix Char.isDigit).trans (List.take_prefix most text)
  refine ⟨_, (List.prefix_iff_eq_append.mp front).symm, ?_⟩
  exact fun c member => isPart_of_isDigit (List.mem_takeWhile_imp member)

theorem length_of_number? {width value : Nat}
    (read : number? width width text = some (value, rest)) : rest.length + width = text.length := by
  rw [number?] at read
  split_ifs at read with short
  obtain ⟨rfl, rfl⟩ := Prod.mk.inj (Option.some.inj read)
  have cut_le := (List.takeWhile_prefix (l := text.take width) Char.isDigit).length_le
  rw [List.length_take] at cut_le
  rw [List.length_drop]
  omega

theorem eq_cons_of_char? {expected : Char} (read : char? expected text = some rest) :
    text = expected :: rest := by
  cases text with
  | nil => cases read
  | cons c others =>
      rw [char?] at read
      split_ifs at read with same
      rw [same, Option.some.inj read]

theorem leaves_char? {expected : Char} (part : isPart expected = true)
    (read : char? expected text = some rest) : Leaves text rest := by
  rw [eq_cons_of_char? read]
  exact .cons part rest

theorem leaves_trimStart (text : List Char) : Leaves text (Text.trimStart text) :=
  .takeWhile (fun _ => isPart_of_isSpace) text

theorem leaves_smallNumber? {value : Nat} (read : smallNumber? text = some (value, rest)) :
    Leaves text rest :=
  (leaves_trimStart text).trans (leaves_number? read)

theorem leaves_year? {year : Int} (read : year? text = some (year, rest)) : Leaves text rest := by
  refine (leaves_trimStart text).trans ?_
  rw [year?.eq_def] at read
  split at read
  all_goals
    obtain ⟨⟨value, others⟩, digits, same⟩ := Option.map_eq_some_iff.mp read
    obtain ⟨-, rfl⟩ := Prod.mk.inj same
  · rename_i signed
    rw [signed]
    exact (Leaves.cons (by decide) _).trans (leaves_number? digits)
  · rename_i signed
    rw [signed]
    exact (Leaves.cons (by decide) _).trans (leaves_number? digits)
  · exact leaves_number? digits

theorem leaves_cut? {separator : Separator} (read : separator.cut? text = some rest) :
    Leaves text rest := by
  cases separator with
  | letter => exact leaves_char? (by decide) read
  | space =>
      obtain rfl := Option.some.inj read
      exact leaves_trimStart text

end Readers

/-- What is understood as a fraction of a second to the end is nothing, or a point and digits. -/
theorem shape_of_fraction? {text : List Char} {millis : Nat}
    (read : fraction? text = some (millis, [])) :
    text = [] ∧ millis = 0 ∨
      ∃ digits, text = '.' :: digits ∧ (∀ c ∈ digits, c.isDigit = true) ∧
        millis = fractionMillis digits := by
  rw [fraction?.eq_def] at read
  split at read
  · rename_i digits
    dsimp only at read
    split_ifs at read
    obtain ⟨millis_eq, rest_eq⟩ := Prod.mk.inj (Option.some.inj read)
    have all_digits := List.dropWhile_eq_nil_iff.mp rest_eq
    rw [List.takeWhile_eq_self_iff.mpr all_digits] at millis_eq
    exact .inr ⟨digits, rfl, all_digits, millis_eq.symm⟩
  · obtain ⟨millis_eq, rfl⟩ := Prod.mk.inj (Option.some.inj read)
    exact .inl ⟨rfl, millis_eq.symm⟩

theorem millis_of_reading? {date : Date} {hour minute second millis : Nat} {reading : ClockReading}
    (read : reading? date hour minute second millis = some reading) : reading.millis = millis := by
  rw [reading?] at read
  split_ifs at read <;> rw [← Option.some.inj read]

/-- A date and time without an offset ends with its fraction of a second, if it has one. -/
theorem exists_parts_of_local? {separator : Separator} {withSeconds : Bool} {text : List Char}
    {reading : ClockReading} (read : local? separator withSeconds text = some reading) :
    ∃ rest, Leaves text rest ∧ fraction? rest = some (reading.millis, []) := by
  rw [local?] at read
  obtain ⟨⟨year, text₁⟩, year_read, read⟩ := Option.bind_eq_some_iff.mp read
  obtain ⟨text₂, hyphen_read, read⟩ := Option.bind_eq_some_iff.mp read
  obtain ⟨⟨month, text₃⟩, month_read, read⟩ := Option.bind_eq_some_iff.mp read
  obtain ⟨text₄, other_hyphen_read, read⟩ := Option.bind_eq_some_iff.mp read
  obtain ⟨⟨day, text₅⟩, day_read, read⟩ := Option.bind_eq_some_iff.mp read
  obtain ⟨text₆, separator_read, read⟩ := Option.bind_eq_some_iff.mp read
  obtain ⟨⟨hour, text₇⟩, hour_read, read⟩ := Option.bind_eq_some_iff.mp read
  obtain ⟨text₈, colon_read, read⟩ := Option.bind_eq_some_iff.mp read
  obtain ⟨⟨minute, text₉⟩, minute_read, read⟩ := Option.bind_eq_some_iff.mp read
  have leaves_seconds : Leaves text text₉ :=
    (leaves_year? year_read).trans <| (leaves_char? (by decide) hyphen_read).trans <|
      (leaves_smallNumber? month_read).trans <|
      (leaves_char? (by decide) other_hyphen_read).trans <|
      (leaves_smallNumber? day_read).trans <| (leaves_cut? separator_read).trans <|
      (leaves_smallNumber? hour_read).trans <| (leaves_char? (by decide) colon_read).trans
      (leaves_smallNumber? minute_read)
  cases withSeconds with
  | false =>
      change (if text₉.isEmpty then reading? ⟨year, month, day⟩ hour minute 0 0 else none) =
        some reading at read
      split_ifs at read with ended
      rw [List.isEmpty_iff.mp ended] at leaves_seconds
      exact ⟨[], leaves_seconds, by rw [millis_of_reading? read]; rfl⟩
  | true =>
      obtain ⟨text₁₀, other_colon_read, read⟩ := Option.bind_eq_some_iff.mp read
      obtain ⟨⟨second, text₁₁⟩, second_read, read⟩ := Option.bind_eq_some_iff.mp read
      obtain ⟨⟨millis, rest⟩, fraction_read, read⟩ := Option.bind_eq_some_iff.mp read
      refine ⟨text₁₁, leaves_seconds.trans <| (leaves_char? (by decide) other_colon_read).trans
        (leaves_smallNumber? second_read), ?_⟩
      dsimp only at read
      split_ifs at read with ended
      rw [millis_of_reading? read, fraction_read, List.isEmpty_iff.mp ended]

theorem exists_parts_of_anyLocal? {text : List Char} {reading : ClockReading}
    (read : anyLocal? text = some reading) :
    ∃ rest, Leaves text rest ∧ fraction? rest = some (reading.millis, []) := by
  rw [anyLocal?] at read
  rcases Option.or_eq_some_iff.mp read with first | ⟨-, read⟩
  · exact exists_parts_of_local? first
  rcases Option.or_eq_some_iff.mp read with second | ⟨-, read⟩
  · exact exists_parts_of_local? second
  rcases Option.or_eq_some_iff.mp read with third | ⟨-, fourth⟩
  · exact exists_parts_of_local? third
  · exact exists_parts_of_local? fourth

theorem shape_of_bareDate? {text : List Char} {date : Date} (read : bareDate? text = some date) :
    text.length = 10 ∧ ∀ c ∈ text, c.isDigit = true ∨ c = '-' := by
  rw [bareDate?.eq_def] at read
  split at read
  · split_ifs at read with all_digits
    simp only [List.all_cons, List.all_nil, Bool.and_true, Bool.and_eq_true] at all_digits
    simp [all_digits]
  · cases read

/-- A time of day follows the date of a text with an offset. -/
theorem lt_length_of_withOffset? {text : List Char} {shown : ClockReading × Int}
    (read : withOffset? text = some shown) : 10 < text.length := by
  rw [withOffset?] at read
  obtain ⟨⟨year, text₁⟩, year_read, read⟩ := Option.bind_eq_some_iff.mp read
  obtain ⟨text₂, hyphen_read, read⟩ := Option.bind_eq_some_iff.mp read
  obtain ⟨⟨month, text₃⟩, month_read, read⟩ := Option.bind_eq_some_iff.mp read
  obtain ⟨text₄, other_hyphen_read, read⟩ := Option.bind_eq_some_iff.mp read
  obtain ⟨⟨day, text₅⟩, day_read, read⟩ := Option.bind_eq_some_iff.mp read
  obtain ⟨text₆, separator_read, read⟩ := Option.bind_eq_some_iff.mp read
  have onward : text₅ ≠ [] := by
    rintro rfl
    cases separator_read
  have year_length := length_of_number? year_read
  have month_length := length_of_number? month_read
  have day_length := length_of_number? day_read
  have onward_length := List.length_pos_iff.mpr onward
  rw [eq_cons_of_char? hyphen_read, List.length_cons] at year_length
  rw [eq_cons_of_char? other_hyphen_read, List.length_cons] at month_length
  omega

end DateText

end EntitySearch
