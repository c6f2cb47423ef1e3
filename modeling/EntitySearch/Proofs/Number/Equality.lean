import EntitySearch.Proofs.Number.Rounding

/-!
# Equal numbers

Numbers are equal exactly if they are the same double, but for the zeros, which are equal whatever
their signs, and for the value that is not a number, which is not equal to itself. Equal numbers are
written alike.
-/

namespace EntitySearch

namespace Double

namespace Finite

theorem isScale_units (value : Finite) : IsScale value.units 1 value.scale := by
  have units_eq : value.units = value.significand * spacing 1 value.scale := by
    rw [units, spacing, Nat.one_mul]
  rw [units_eq]
  constructor
  · exact Nat.mul_lt_mul_of_pos_right value.significand_lt (spacing_pos Nat.one_pos _)
  · exact value.normal.imp_right fun full => Nat.mul_le_mul_right _ full

/-- A double is told by its sign and its magnitude. -/
theorem eq_of_units_eq {left right : Finite} (signs : left.negative = right.negative)
    (magnitudes : left.units = right.units) : left = right := by
  have scales : left.scale = right.scale := by
    have scaled := left.isScale_units
    rw [magnitudes] at scaled
    exact scaled.unique right.isScale_units
  have significands : left.significand = right.significand := by
    rw [units, units, scales] at magnitudes
    exact Nat.eq_of_mul_eq_mul_right (pow_two_pos right.scale) magnitudes
  obtain ⟨negative, significand, scale, _, _, _⟩ := left
  obtain rfl : negative = _ := signs
  obtain rfl : significand = _ := significands
  obtain rfl : scale = _ := scales
  rfl

theorem isZero_iff_units_eq_zero (value : Finite) : value.isZero = true ↔ value.units = 0 := by
  rw [isZero, beq_iff_eq, units, Nat.mul_eq_zero, or_iff_left]
  exact Nat.ne_of_gt (pow_two_pos value.scale)

theorem numeral_eq_of_same {left right : Finite} (same : left.same right = true) :
    left.numeral = right.numeral := by
  rw [Finite.same, Bool.and_eq_true, Bool.or_eq_true, beq_iff_eq, beq_iff_eq] at same
  obtain ⟨magnitudes, signs | zero⟩ := same
  · rw [eq_of_units_eq signs magnitudes]
  · have other_zero : right.isZero = true := by
      rw [isZero_iff_units_eq_zero, ← magnitudes, ← isZero_iff_units_eq_zero]
      exact zero
    rw [numeral, numeral, zero, other_zero]
    rfl

end Finite

/-- A number is equal to itself, if it is one. -/
theorem same_self {value : Double} (number : value ≠ .nan) : value.same value = true := by
  cases value with
  | nan => exact absurd rfl number
  | infinite negative => simp [same]
  | finite value => exact value.same_refl

/-- Equal numbers are written alike. -/
theorem numeral_eq_of_same {left right : Double} (equal : left.same right = true) :
    left.numeral = right.numeral := by
  cases left with
  | nan => cases equal
  | infinite negative =>
      cases right with
      | infinite other => rw [beq_iff_eq.mp equal]
      | nan => cases equal
      | finite value => cases equal
  | finite value =>
      cases right with
      | finite other => rw [numeral, numeral, Finite.numeral_eq_of_same equal]
      | nan => cases equal
      | infinite negative => cases equal

end Double

end EntitySearch
