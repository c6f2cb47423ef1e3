import EntitySearch.Proofs.Number.Integers

/-!
# Doubles without their fractions

The whole part of a double is a double, so cutting the fraction off is exact. What is left is below
one exactly for numbers with a minus sign and those without a whole part, and it counts as the whole
part, or as the greatest word beyond that.
-/

namespace EntitySearch

namespace Double

/-- The whole part of a number that is finite and not negative, at most the greatest word. -/
def cappedPart? : Double → Option Nat
  | .finite value => if value.negative then none else some (min value.wholePart (Nat.pow 2 64 - 1))
  | .nan | .infinite _ => none

namespace Finite

theorem wholePart_of_units_eq {value : Finite} {whole : Nat}
    (units_eq : value.units = whole * unitsOfOne) : value.wholePart = whole := by
  rw [wholePart, units_eq, Nat.mul_div_cancel _ unitsOfOne_pos]

/-- Up to the scale at which doubles are one apart, the whole part has no more bits than a
significand. -/
theorem wholePart_lt_of_scale_le {value : Finite} (fine : value.scale ≤ unitScale) :
    value.wholePart < 2 ^ 53 := by
  have spacing_le : spacing 1 value.scale ≤ unitsOfOne := by
    rw [← spacing_eq_unit]
    exact spacing_le_spacing 1 fine
  rw [wholePart, Nat.div_lt_iff_lt_mul unitsOfOne_pos]
  calc
    value.units = value.significand * spacing 1 value.scale := by
      rw [← Nat.mul_one value.units, units_mul_eq]
    _ < 2 ^ 53 * spacing 1 value.scale :=
      Nat.mul_lt_mul_of_pos_right value.significand_lt (spacing_pos Nat.one_pos value.scale)
    _ ≤ 2 ^ 53 * unitsOfOne := Nat.mul_le_mul_left _ spacing_le

/-- Beyond that scale there are no fractions. -/
theorem units_eq_of_scale_ge {value : Finite} (coarse : unitScale ≤ value.scale) :
    value.units = value.wholePart * unitsOfOne := by
  have spacing_eq : spacing 1 value.scale = 2 ^ (value.scale - unitScale) * unitsOfOne := by
    rw [← spacing_eq_unit, two_pow_mul_spacing, Nat.sub_add_cancel coarse, spacing, Nat.one_mul,
      Nat.mul_one]
    rfl
  have units_eq : value.units =
      value.significand * 2 ^ (value.scale - unitScale) * unitsOfOne := by
    rw [← Nat.mul_one value.units, units_mul_eq, spacing_eq, Nat.mul_assoc]
  rw [wholePart_of_units_eq units_eq, units_eq]

/-- The whole part of a double is a double. -/
theorem exists_nearest_wholePart (value : Finite) :
    ∃ whole, nearest value.negative value.wholePart 1 = .finite whole ∧
      whole.negative = value.negative ∧ whole.units = value.wholePart * unitsOfOne := by
  rcases Nat.le_total value.scale unitScale with fine | coarse
  · have small := wholePart_lt_of_scale_le fine
    have bound : value.wholePart < 2 ^ 200 * 1 := by omega
    obtain ⟨whole, rounded⟩ := exists_nearest_eq_finite Nat.one_pos value.negative bound
    obtain ⟨sign, covers⟩ := (nearest_eq_finite_iff _ _ Nat.one_pos whole).mp rounded
    exact ⟨whole, rounded, sign, covers.units_eq_of_le (Nat.le_of_lt small)⟩
  · have units_eq := units_eq_of_scale_ge coarse
    have rounded := (nearest_eq_finite_iff value.negative _ Nat.one_pos value).mpr
      ⟨rfl, covers_of_units_eq units_eq⟩
    exact ⟨value, rounded, rfl, units_eq⟩

end Finite

theorem finite_isBelow_one (value : Finite) :
    (finite value).isBelow one = decide (value.signedUnits < unitsOfOne) := by
  obtain ⟨unit, unit_eq, sign, units_eq⟩ :
      ∃ unit : Finite, one = .finite unit ∧ unit.negative = false ∧ unit.units = unitsOfOne :=
    ⟨_, rfl, rfl, by decide +kernel⟩
  have signed : unit.signedUnits = unitsOfOne := by
    rw [Finite.signedUnits, sign, if_neg Bool.false_ne_true, units_eq]
  rw [unit_eq, isBelow, signed]

/-- A number without its fraction is below one if it has a minus sign or no whole part. -/
theorem truncated_isBelow_one (value : Finite) :
    (truncated (.finite value)).isBelow one = (value.negative || value.wholePart == 0) := by
  obtain ⟨whole, rounded, sign, units_eq⟩ := value.exists_nearest_wholePart
  have unit_pos : 0 < unitsOfOne := unitsOfOne_pos
  rw [truncated, rounded, finite_isBelow_one, Finite.signedUnits, sign]
  cases value.negative with
  | true =>
      rw [if_pos rfl, Bool.true_or, decide_eq_true_eq]
      omega
  | false =>
      rw [if_neg Bool.false_ne_true, Bool.false_or, units_eq]
      rcases Nat.eq_zero_or_pos value.wholePart with none | positive
      · have below : ((0 : Nat) : Int) < unitsOfOne := by omega
        rw [none, Nat.zero_mul, decide_eq_true below]
        rfl
      · have unit_le : 1 * unitsOfOne ≤ value.wholePart * unitsOfOne :=
          Nat.mul_le_mul_right _ positive
        have beyond : ¬ ((value.wholePart * unitsOfOne : Nat) : Int) < unitsOfOne := by omega
        rw [decide_eq_false beyond, beq_false_of_ne (Nat.ne_of_gt positive)]

theorem truncated_toWord (value : Finite) :
    (truncated (.finite value)).toWord =
      if value.negative then 0 else min value.wholePart (Nat.pow 2 64 - 1) := by
  obtain ⟨whole, rounded, sign, units_eq⟩ := value.exists_nearest_wholePart
  rw [truncated, rounded, toWord, sign, Finite.wholePart_of_units_eq units_eq]

/-- A number is finite and one at least without its fraction exactly if its capped whole part is. -/
theorem not_isFinite_or_isBelow_one_eq (size : Double) :
    (! size.isFinite || size.truncated.isBelow one) = ! size.cappedPart?.any (1 ≤ ·) := by
  cases size with
  | nan => rfl
  | infinite negative => rfl
  | finite value =>
      rw [truncated_isBelow_one, cappedPart?]
      cases value.negative with
      | true => rfl
      | false =>
          rcases Nat.eq_zero_or_pos value.wholePart with none | positive
          · rw [none]
            rfl
          · have capped : 1 ≤ min value.wholePart (Nat.pow 2 64 - 1) :=
              Nat.le_min.mpr ⟨positive, by decide⟩
            simp [isFinite, capped, Nat.ne_of_gt positive]

/-- The word that a number counts as without its fraction is its capped whole part. -/
theorem toWord_of_cappedPart? {size : Double} {part : Nat} (capped : size.cappedPart? = some part) :
    size.truncated.toWord = part := by
  cases size with
  | nan => cases capped
  | infinite negative => cases capped
  | finite value =>
      rw [cappedPart?] at capped
      rw [truncated_toWord]
      split_ifs at capped ⊢
      exact Option.some.inj capped

end Double

end EntitySearch
