import EntitySearch.Proofs.Number.Reading
import EntitySearch.Proofs.Text.Digits

/-!
# Numerals read back

Positional notation is read as a decimal of the same magnitude, so a double that is written with the
sign of its zero is read back as it was. Different doubles are therefore written differently.
-/

namespace EntitySearch

namespace Text

theorem digitsValue_zeros (count : Nat) : digitsValue (List.replicate count '0') = 0 := by
  induction count with
  | zero => rfl
  | succ count ih =>
      rw [List.replicate_succ', digitsValue_append_singleton, ih]
      rfl

/-- Zeros in front do not count. -/
theorem digitsValue_zeros_append (count : Nat) (digits : List Char) :
    digitsValue (List.replicate count '0' ++ digits) = digitsValue digits := by
  rw [digitsValue_append, digitsValue_zeros, Nat.zero_mul, Nat.zero_add]

end Text

namespace Decimal

theorem isDigit_of_mem_zeros {count : Nat} : ∀ c ∈ List.replicate count '0', c.isDigit = true := by
  intro c member
  rw [List.eq_of_mem_replicate member]
  rfl

/-- Digits around a point are read together, those behind it as a fraction. -/
theorem ofText?_append_point {whole fraction : List Char}
    (whole_digits : Text.isDigits whole = true) (fraction_digits : ∀ c ∈ fraction, c.isDigit = true) :
    ofText? (whole ++ '.' :: fraction) =
      some ⟨Text.digitsValue (whole ++ fraction), -fraction.length⟩ := by
  obtain ⟨some_digit, all_digits⟩ := (Text.isDigits_iff whole).mp whole_digits
  have whole_eq : (whole ++ '.' :: fraction).takeWhile Char.isDigit = whole := by
    rw [List.takeWhile_append_of_pos all_digits, List.takeWhile_cons_of_neg (by decide),
      List.append_nil]
  have rest_eq : (whole ++ '.' :: fraction).dropWhile Char.isDigit = '.' :: fraction := by
    rw [List.dropWhile_append_of_pos all_digits, List.dropWhile_cons_of_neg (by decide)]
  have fraction_eq : fraction.takeWhile Char.isDigit = fraction :=
    List.takeWhile_eq_self_iff.mpr fraction_digits
  have nothing_left : fraction.dropWhile Char.isDigit = [] :=
    List.dropWhile_eq_nil_iff.mpr fraction_digits
  have solid : whole.isEmpty = false := List.isEmpty_eq_false_iff.mpr some_digit
  simp [ofText?, whole_eq, rest_eq, takeFraction, fraction_eq, nothing_left, exponent?, solid]

/-- A run of digits with a point in it is read as the digits, less the places behind the point. -/
theorem ofText?_point_inside {digits : List Char} (all_digits : ∀ c ∈ digits, c.isDigit = true)
    {places : Nat} (inside : places < digits.length) :
    ofText? (digits.take (digits.length - places) ++ '.' :: digits.drop (digits.length - places)) =
      some ⟨Text.digitsValue digits, -places⟩ := by
  have front_digits : Text.isDigits (digits.take (digits.length - places)) = true := by
    rw [Text.isDigits_iff]
    refine ⟨?_, fun c member => all_digits c (List.mem_of_mem_take member)⟩
    rw [← List.length_pos_iff, List.length_take]
    omega
  have back_length : (digits.drop (digits.length - places)).length = places := by
    rw [List.length_drop]
    omega
  rw [ofText?_append_point front_digits fun c member => all_digits c (List.mem_of_mem_drop member),
    List.take_append_drop, back_length]

/-- A run of digits behind a point and zeros is read as the digits, less all places. -/
theorem ofText?_point_before {digits : List Char} (all_digits : ∀ c ∈ digits, c.isDigit = true)
    {places : Nat} (before : digits.length ≤ places) :
    ofText? ('0' :: '.' :: List.replicate (places - digits.length) '0' ++ digits) =
      some ⟨Text.digitsValue digits, -places⟩ := by
  have fraction_digits : ∀ c ∈ List.replicate (places - digits.length) '0' ++ digits,
      c.isDigit = true := fun c member =>
    (List.mem_append.mp member).elim (isDigit_of_mem_zeros c) (all_digits c)
  have fraction_length : (List.replicate (places - digits.length) '0' ++ digits).length =
      places := by
    rw [List.length_append, List.length_replicate, Nat.sub_add_cancel before]
  have leading_zero : Text.isDigits ['0'] = true := by decide
  have read := ofText?_append_point leading_zero fraction_digits
  rw [fraction_length, ← List.append_assoc, ← List.replicate_one, List.replicate_append_replicate,
    Text.digitsValue_zeros_append] at read
  exact read

/-- Positional notation is read as a decimal of the same magnitude. -/
theorem exists_ofText?_positional (decimal : Decimal) :
    ∃ read, ofText? decimal.positional = some read ∧
      ∀ negative, read.toDouble negative = decimal.toDouble negative := by
  have digits := Text.isDigits_natDigits decimal.digits
  have all_digits := ((Text.isDigits_iff _).mp digits).2
  rw [positional]
  split_ifs with whole inside
  · refine ⟨_, ofText?_of_isDigits (Text.isDigits_append digits isDigit_of_mem_zeros), ?_⟩
    intro negative
    rw [Text.digitsValue_append, Text.digitsValue_zeros, Text.digitsValue_natDigits,
      List.length_replicate, Nat.add_zero, toDouble_eq_nearest, toDouble_eq_nearest,
      numerator_of_nonpos (Int.le_refl 0), denominator_of_nonneg (Int.le_refl 0),
      denominator_of_nonneg whole]
    rfl
  · have exponent_eq : -((-decimal.exponent).toNat : Int) = decimal.exponent := by omega
    refine ⟨_, ofText?_point_inside all_digits inside, fun negative => ?_⟩
    rw [Text.digitsValue_natDigits, exponent_eq]
  · have exponent_eq : -((-decimal.exponent).toNat : Int) = decimal.exponent := by omega
    refine ⟨_, ofText?_point_before all_digits (Nat.le_of_not_lt inside), fun negative => ?_⟩
    rw [Text.digitsValue_natDigits, exponent_eq]

end Decimal

namespace Double

/-- A double other than zero is read back from its numeral. -/
theorem ofText?_numeral {value : Finite} (nonzero : value.isZero = false) :
    ofText? (Double.finite value).numeral = some (.finite value) := by
  obtain ⟨read, read_eq, same⟩ := Decimal.exists_ofText?_positional (Decimal.shortest .up value)
  have signed : Decimal.takeSign (signText value.negative ++
      (Decimal.shortest .up value).positional) =
        (value.negative, (Decimal.shortest .up value).positional) := by
    cases value.negative with
    | true => rfl
    | false => exact Decimal.takeSign_of_isMagnitude (Decimal.isMagnitude_positional _)
  rw [numeral, Finite.numeral, nonzero, if_neg Bool.false_ne_true, ofText?, String.toList_ofList,
    signed]
  dsimp only
  rw [read_eq]
  dsimp only
  rw [same, Decimal.toDouble_shortest]

/-- A double that is written with the sign of its zero is read back. -/
theorem ofText?_signedNumeral (value : Double) : ofText? value.signedNumeral = some value := by
  cases value with
  | nan => decide +kernel
  | infinite negative => cases negative <;> decide +kernel
  | finite value =>
      rw [signedNumeral]
      cases zero : value.isZero with
      | false => exact ofText?_numeral zero
      | true =>
          rw [value.eq_zero_of_isZero zero]
          cases value.negative <;> decide +kernel

/-- Different doubles are written differently. -/
theorem signedNumeral_injective : Function.Injective signedNumeral := by
  intro first second same
  have read := ofText?_signedNumeral first
  rw [same, ofText?_signedNumeral] at read
  exact (Option.some.inj read).symm

end Double

end EntitySearch
