import EntitySearch.Literal
import EntitySearch.Proofs.Number.Numeral
import EntitySearch.Proofs.Number.Shortest
import EntitySearch.Proofs.Text.Trimming

/-!
# Reading decimals

A decimal is read as the double nearest to it; the powers of ten that are not computed are far
from every finite double. The shortest decimal of a double is read as the double, and the digits of
an integer as the double nearest to the integer.
-/

namespace EntitySearch

namespace Double.Finite

/-- The doubles end below `2 ^ 1024`, where the next one would follow. -/
theorem Covers.le {value : Finite} {numerator denominator : Nat}
    (covers : value.Covers numerator denominator) : numerator ≤ 2 ^ 1024 * denominator := by
  have above := covers.above
  have center_le := value.significand_mul_add_le (spacing denominator value.scale)
  have scale_le : 2 ^ 53 * spacing denominator value.scale ≤ 2 ^ 53 * spacing denominator 2045 :=
    Nat.mul_le_mul_left _ (spacing_le_spacing denominator value.scale_le)
  have greatest_eq :
      2 ^ 53 * spacing denominator 2045 = 2 ^ 1024 * spacing denominator unitScale := by
    have exponent_eq : 53 + 2045 = 1024 + unitScale := by rw [unitScale_eq]
    rw [two_pow_mul_spacing, two_pow_mul_spacing, exponent_eq]
  apply Nat.le_of_mul_le_mul_right _ unitsOfOne_pos
  calc
    numerator * unitsOfOne ≤ 2 ^ 53 * spacing denominator 2045 := by omega
    _ = 2 ^ 1024 * denominator * unitsOfOne := greatest_eq.trans (Nat.mul_assoc ..).symm

theorem eq_zero_of_isZero (value : Finite) (is_zero : value.isZero = true) :
    value = .zero value.negative := by
  have significand_eq : value.significand = 0 := by simpa [isZero] using is_zero
  have scale_eq : value.scale = 0 := by
    refine value.normal.resolve_right fun normal => ?_
    rw [significand_eq] at normal
    exact absurd normal (by decide)
  obtain ⟨negative, significand, scale, _, _, _⟩ := value
  subst significand_eq scale_eq
  rfl

theorem covers_zero_iff (negative : Bool) (numerator denominator : Nat) :
    (zero negative).Covers numerator denominator ↔ 2 * (numerator * unitsOfOne) ≤ denominator := by
  have spacing_eq : spacing denominator (zero negative).scale = denominator := Nat.mul_one _
  have significand_eq : (zero negative).significand = 0 := rfl
  constructor
  · rintro ⟨-, above, -⟩
    rw [spacing_eq, significand_eq] at above
    omega
  · intro small
    refine ⟨?_, ?_, ?_⟩ <;> rw [spacing_eq, significand_eq] <;> omega

end Double.Finite

namespace Decimal

theorem lt_pow_width (value : Nat) : value < 10 ^ width value :=
  (width_le_iff value (width_pos value)).mp (Nat.le_refl _)

theorem covers_zero_of_tiny {decimal : Decimal} (negative : Bool)
    (tiny : decimal.digits = 0 ∨ (width decimal.digits : Int) + decimal.exponent < -400) :
    (Double.Finite.zero negative).Covers decimal.numerator decimal.denominator := by
  rw [Double.Finite.covers_zero_iff]
  rcases tiny with none | tiny
  · rw [numerator, none, Nat.zero_mul, Nat.zero_mul]
    exact Nat.zero_le _
  · have unit_le : 2 * Double.unitsOfOne ≤ 10 ^ 400 := by decide +kernel
    calc
      2 * (decimal.numerator * Double.unitsOfOne) = decimal.digits * (2 * Double.unitsOfOne) := by
        rw [numerator_of_nonpos (by omega), Nat.mul_left_comm]
      _ ≤ 10 ^ width decimal.digits * 10 ^ 400 :=
        Nat.mul_le_mul (Nat.le_of_lt (lt_pow_width _)) unit_le
      _ = 10 ^ (width decimal.digits + 400) := by rw [Nat.pow_add]
      _ ≤ decimal.denominator := Nat.pow_le_pow_right (by omega) (by omega)

theorem pow_mul_denominator_le {decimal : Decimal} (some_digit : decimal.digits ≠ 0)
    (huge : 310 < (width decimal.digits : Int) + decimal.exponent) :
    10 ^ 310 * decimal.denominator ≤ decimal.numerator := by
  calc
    10 ^ 310 * decimal.denominator = 10 ^ (310 + (-decimal.exponent).toNat) := by
      rw [Nat.pow_add, denominator, Nat.pow_eq]
    _ ≤ 10 ^ (width decimal.digits - 1 + decimal.exponent.toNat) :=
      Nat.pow_le_pow_right (by omega) (by omega)
    _ = 10 ^ (width decimal.digits - 1) * 10 ^ decimal.exponent.toNat := Nat.pow_add ..
    _ ≤ decimal.numerator :=
      Nat.mul_le_mul_right _ (pow_width_pred_le (Nat.pos_of_ne_zero some_digit))

/-- A decimal is read as the double nearest to it, also where its power of ten is not computed. -/
theorem toDouble_eq_nearest (negative : Bool) (decimal : Decimal) :
    decimal.toDouble negative =
      .nearest negative decimal.numerator decimal.denominator := by
  simp only [toDouble, Bool.or_eq_true, decide_eq_true_eq]
  split_ifs with tiny huge whole
  · symm
    rw [Double.nearest_eq_finite_iff negative _ decimal.denominator_pos]
    exact ⟨rfl, covers_zero_of_tiny negative tiny⟩
  · symm
    apply Double.nearest_eq_infinite decimal.denominator_pos
    intro value covers
    have far := pow_mul_denominator_le (by tauto) huge
    have powers := Nat.le_of_mul_le_mul_right (Nat.le_trans far covers.le) decimal.denominator_pos
    exact absurd powers (by decide +kernel)
  · rw [denominator_of_nonneg whole]
    rfl
  · rw [numerator_of_nonpos (by omega)]
    rfl

/-- The shortest decimal of a double is read as the double. -/
theorem toDouble_shortest (tie : Tie) (value : Double.Finite) :
    (shortest tie value).toDouble value.negative = .finite value := by
  rw [toDouble_eq_nearest, Double.nearest_eq_finite_iff _ _ (denominator_pos _)]
  refine ⟨rfl, ?_⟩
  cases zero : value.isZero with
  | false => exact covers_shortest zero tie
  | true =>
      rw [shortest, if_pos zero, value.eq_zero_of_isZero zero]
      exact covers_zero_of_tiny _ (.inl rfl)

/-- A magnitude, such as a run of digits, starts with no sign. -/
theorem takeSign_of_isMagnitude {characters : List Char}
    (magnitude : Text.isMagnitude characters = true) :
    takeSign characters = (false, characters) := by
  have shape := Text.mem_magnitude magnitude
  unfold takeSign
  split
  · exact absurd (shape '-' List.mem_cons_self) (by decide)
  · exact absurd (shape '+' List.mem_cons_self) (by decide)
  · rfl

/-- A run of digits is read as the whole number that it denotes. -/
theorem ofText?_of_isDigits {characters : List Char} (digits : Text.isDigits characters = true) :
    ofText? characters = some ⟨Text.digitsValue characters, 0⟩ := by
  obtain ⟨some_digit, all_digits⟩ := (Text.isDigits_iff characters).mp digits
  have whole_eq : characters.takeWhile Char.isDigit = characters :=
    List.takeWhile_eq_self_iff.mpr all_digits
  have rest_eq : characters.dropWhile Char.isDigit = [] :=
    List.dropWhile_eq_nil_iff.mpr all_digits
  have solid : characters.isEmpty = false := List.isEmpty_eq_false_iff.mpr some_digit
  simp [ofText?, whole_eq, rest_eq, takeFraction, exponent?, solid]

/-- The digits of a whole number are read as the double nearest to it. -/
theorem toDouble_natural (negative : Bool) (value : Nat) :
    (Decimal.mk value 0).toDouble negative = .nearest negative value 1 := by
  rw [toDouble_eq_nearest, numerator_of_nonpos (Int.le_refl 0), denominator_of_nonneg (Int.le_refl 0)]

end Decimal

@[simp]
theorem Text.toList_natText (value : Nat) : (natText value).toList = natDigits value :=
  String.toList_ofList

namespace Double

theorem ofText?_of_isDigits {text : String} {negative : Bool} {characters : List Char}
    (signed : Decimal.takeSign text.toList = (negative, characters))
    (digits : Text.isDigits characters = true) :
    ofText? text = some (nearest negative (Text.digitsValue characters) 1) := by
  rw [ofText?, signed]
  simp only [Decimal.ofText?_of_isDigits digits, Decimal.toDouble_natural]

theorem ofInt_ofNat (magnitude : Nat) : ofInt (.ofNat magnitude) = nearest false magnitude 1 := by
  have sign_eq : decide (Int.ofNat magnitude < 0) = false :=
    decide_eq_false (Int.not_lt.mpr (Int.natCast_nonneg magnitude))
  rw [ofInt, sign_eq, Int.natAbs_ofNat']

theorem ofInt_negSucc (smaller : Nat) :
    ofInt (.negSucc smaller) = nearest true (smaller + 1) 1 := by
  have sign_eq : decide (Int.negSucc smaller < 0) = true :=
    decide_eq_true (Int.negSucc_lt_zero smaller)
  rw [ofInt, sign_eq, Int.natAbs_negSucc]

/-- An integer in decimal is read as the double nearest to it. -/
theorem ofText?_intText (value : Int) : ofText? (Text.intText value) = some (ofInt value) := by
  cases value with
  | ofNat magnitude =>
      have digits := Text.isDigits_natDigits magnitude
      have signed : Decimal.takeSign (Text.intText (.ofNat magnitude)).toList =
          (false, Text.natDigits magnitude) := by
        rw [Text.intText, Text.toList_natText,
          Decimal.takeSign_of_isMagnitude (Text.isMagnitude_of_isDigits digits)]
      rw [ofText?_of_isDigits signed digits, Text.digitsValue_natDigits, ofInt_ofNat]
  | negSucc smaller =>
      have signed : Decimal.takeSign (Text.intText (.negSucc smaller)).toList =
          (true, Text.natDigits (smaller + 1)) := by
        rw [Text.intText, String.toList_append, Text.toList_natText]
        rfl
      rw [ofText?_of_isDigits signed (Text.isDigits_natDigits _), Text.digitsValue_natDigits,
        ofInt_negSucc]

end Double

namespace Text

theorem isTrimmed_intText (value : Int) : IsTrimmed (intText value).toList := by
  have digit_solid (magnitude : Nat) : ∀ c ∈ natDigits magnitude, isSpace c = false :=
    fun c member =>
      isSpace_of_isDigit (((isDigits_iff _).mp (isDigits_natDigits magnitude)).2 c member)
  apply IsTrimmed.of_forall
  cases value with
  | ofNat magnitude =>
      rw [intText, toList_natText]
      exact digit_solid magnitude
  | negSucc smaller =>
      rw [intText, String.toList_append, toList_natText]
      intro c member
      rcases List.mem_append.mp member with sign | digit
      · rw [List.mem_singleton.mp sign]
        rfl
      · exact digit_solid _ c digit

end Text

/-- The text of an integer denotes the double nearest to the integer. -/
theorem FilterValue.number?_intText {value : Int} (finite : (Double.ofInt value).isFinite = true) :
    (FilterValue.text (Text.intText value)).number? = some (Double.ofInt value) := by
  have trim_eq : Text.trim (Text.intText value) = Text.intText value := by
    rw [Text.trim, (Text.isTrimmed_intText value).trimEnds_eq, String.ofList_toList]
  rw [number?, trim_eq, Double.ofText?_intText, Option.filter_some, if_pos finite]

end EntitySearch
