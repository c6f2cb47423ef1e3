import EntitySearch.Number.Shortest
import Mathlib.Algebra.Group.Nat.Defs
import Mathlib.Tactic.Ring
import Mathlib.Tactic.SplitIfs

/-!
# The rounding interval of a double

The exact magnitudes that round to a double are those between the midpoints to its two neighbours.
The midpoints themselves are among them exactly if its significand is even. A magnitude is given as
a quotient of whole numbers and compared in units of the least positive double, multiplied by the
denominator.
-/

namespace EntitySearch

namespace Double

/-- Multiples of a step are a step apart. -/
theorem mul_add_le_mul_of_lt {first second : Nat} (less : first < second) (step : Nat) :
    first * step + step ≤ second * step := by
  rw [← Nat.succ_mul]
  exact Nat.mul_le_mul_right step (Nat.succ_le_of_lt less)

/-- A rounded quotient is within half of the exact one; just half off it is even. -/
theorem roundQuotient_eq_iff {numerator denominator : Nat} (positive : 0 < denominator)
    (quotient : Nat) :
    roundQuotient numerator denominator = quotient ↔
      2 * (quotient * denominator) ≤ 2 * numerator + denominator ∧
        2 * numerator ≤ 2 * (quotient * denominator) + denominator ∧
          (quotient % 2 = 1 → 2 * (quotient * denominator) ≠ 2 * numerator + denominator ∧
            2 * numerator ≠ 2 * (quotient * denominator) + denominator) := by
  have divided := Nat.div_add_mod numerator denominator
  have remainder_lt := Nat.mod_lt numerator positive
  rw [Nat.mul_comm] at divided
  generalize floor_eq : numerator / denominator = floor at divided
  generalize remainder_eq : numerator % denominator = remainder at divided remainder_lt
  have succ_mul : (floor + 1) * denominator = floor * denominator + denominator :=
    Nat.succ_mul floor denominator
  rw [roundQuotient, floor_eq, remainder_eq]
  constructor
  · split_ifs with below above
    · rintro rfl
      omega
    · rintro rfl
      omega
    · rcases Nat.mod_two_eq_zero_or_one floor with even | odd
      · rw [even]
        rintro rfl
        rw [Nat.add_zero]
        omega
      · rw [odd]
        rintro rfl
        omega
  · rintro ⟨least, greatest, inside⟩
    have candidates : quotient = floor ∨ quotient = floor + 1 := by
      rcases Nat.lt_trichotomy quotient floor with less | same | more
      · have far := mul_add_le_mul_of_lt less denominator
        omega
      · exact .inl same
      · rcases Nat.eq_or_lt_of_le (Nat.succ_le_of_lt more) with next | further
        · exact .inr next.symm
        · have far := mul_add_le_mul_of_lt further denominator
          rw [Nat.succ_mul] at far
          omega
    rcases candidates with rfl | rfl <;> split_ifs <;> omega

theorem pow_two_pos (exponent : Nat) : 0 < Nat.pow 2 exponent :=
  Nat.pow_pos Nat.two_pos

theorem unitsOfOne_pos : 0 < unitsOfOne :=
  pow_two_pos unitScale

/-- The distance between neighbouring doubles of a scale. -/
def spacing (denominator scale : Nat) : Nat :=
  denominator * Nat.pow 2 scale

theorem spacing_pos {denominator : Nat} (positive : 0 < denominator) (scale : Nat) :
    0 < spacing denominator scale :=
  Nat.mul_pos positive (pow_two_pos scale)

theorem spacing_succ (denominator scale : Nat) :
    spacing denominator (scale + 1) = 2 * spacing denominator scale := by
  rw [spacing, spacing, Nat.mul_left_comm]
  exact congrArg (denominator * ·) Nat.pow_succ'

theorem spacing_le_spacing (denominator : Nat) {scale other : Nat} (le : scale ≤ other) :
    spacing denominator scale ≤ spacing denominator other :=
  Nat.mul_le_mul_left denominator (Nat.pow_le_pow_right Nat.two_pos le)

theorem two_pow_mul_spacing (bits denominator scale : Nat) :
    2 ^ bits * spacing denominator scale = 2 ^ (bits + scale) * denominator := by
  rw [spacing, Nat.pow_add, Nat.mul_assoc, Nat.mul_comm denominator]
  rfl

/-- The scale at which a magnitude has a significand of at most 53 bits, and of all 53 bits unless
it is the least scale. -/
structure IsScale (units denominator scale : Nat) : Prop where
  lt : units < 2 ^ 53 * spacing denominator scale
  le : scale = 0 ∨ 2 ^ 52 * spacing denominator scale ≤ units

theorem isScale_log2 (units : Nat) {denominator : Nat} (positive : 0 < denominator) :
    IsScale units denominator (Nat.log2 (units / denominator) - 52) := by
  generalize scale_eq : Nat.log2 (units / denominator) - 52 = scale
  constructor
  · have floor_lt : units / denominator < 2 ^ (53 + scale) :=
      Nat.lt_of_lt_of_le Nat.lt_log2_self (Nat.pow_le_pow_right Nat.two_pos (by omega))
    rw [two_pow_mul_spacing]
    exact (Nat.div_lt_iff_lt_mul positive).mp floor_lt
  · rcases Nat.eq_zero_or_pos scale with least | above
    · exact .inl least
    · right
      have log_eq : Nat.log2 (units / denominator) = 52 + scale := by omega
      have floor_ne : units / denominator ≠ 0 := by
        intro zero
        rw [zero, Nat.log2_zero] at log_eq
        omega
      have le_floor := Nat.log2_self_le floor_ne
      rw [log_eq] at le_floor
      rw [two_pow_mul_spacing]
      exact (Nat.le_div_iff_mul_le positive).mp le_floor

theorem IsScale.le_of_isScale {units denominator scale other : Nat}
    (first : IsScale units denominator scale) (second : IsScale units denominator other) :
    scale ≤ other := by
  rcases first.le with least | reached
  · rw [least]
    exact Nat.zero_le other
  · apply Nat.le_of_not_lt
    intro above
    have doubled := spacing_le_spacing denominator (Nat.succ_le_of_lt above)
    rw [spacing_succ] at doubled
    have overlapping := Nat.lt_of_le_of_lt reached second.lt
    omega

/-- A magnitude has one scale. -/
theorem IsScale.unique {units denominator scale other : Nat}
    (first : IsScale units denominator scale) (second : IsScale units denominator other) :
    scale = other :=
  Nat.le_antisymm (first.le_of_isScale second) (second.le_of_isScale first)

namespace Finite

theorem gapBelow_eq_one {value : Finite} (power : value.significand = 2 ^ 52)
    (above : 0 < value.scale) : value.gapBelow = 1 := by
  rw [gapBelow, if_pos ⟨power, above⟩]

theorem gapBelow_eq_two {value : Finite} (usual : value.significand ≠ 2 ^ 52 ∨ value.scale = 0) :
    value.gapBelow = 2 := by
  rw [gapBelow, if_neg]
  rintro ⟨power, above⟩
  exact usual.elim (fun other => other power) (Nat.ne_of_gt above)

theorem gapBelow_le_two (value : Finite) : value.gapBelow ≤ 2 := by
  rw [gapBelow]
  split_ifs <;> omega

theorem significand_mul_add_le (value : Finite) (step : Nat) :
    value.significand * step + step ≤ 2 ^ 53 * step :=
  mul_add_le_mul_of_lt value.significand_lt step

/-- A magnitude is in the rounding interval of a double: not beyond the midpoints to its neighbours,
and not at them if its significand is odd. -/
structure Covers (value : Finite) (numerator denominator : Nat) : Prop where
  below : 4 * (value.significand * spacing denominator value.scale) ≤
    4 * (numerator * unitsOfOne) + value.gapBelow * spacing denominator value.scale
  above : 4 * (numerator * unitsOfOne) ≤
    4 * (value.significand * spacing denominator value.scale) +
      2 * spacing denominator value.scale
  inside : value.significand % 2 = 1 →
    4 * (value.significand * spacing denominator value.scale) ≠
        4 * (numerator * unitsOfOne) + value.gapBelow * spacing denominator value.scale ∧
      4 * (numerator * unitsOfOne) ≠
        4 * (value.significand * spacing denominator value.scale) +
          2 * spacing denominator value.scale

theorem covers_mul_iff (value : Finite) (numerator denominator : Nat) {factor : Nat}
    (positive : 0 < factor) :
    value.Covers (factor * numerator) (factor * denominator) ↔
      value.Covers numerator denominator := by
  have spacing_eq : spacing (factor * denominator) value.scale =
      factor * spacing denominator value.scale := Nat.mul_assoc ..
  have center_eq : 4 * (value.significand * spacing (factor * denominator) value.scale) =
      factor * (4 * (value.significand * spacing denominator value.scale)) := by
    rw [spacing_eq]
    ring
  have magnitude_eq : 4 * (factor * numerator * unitsOfOne) =
      factor * (4 * (numerator * unitsOfOne)) := by ring
  have lower_eq : factor * (4 * (numerator * unitsOfOne)) +
      value.gapBelow * spacing (factor * denominator) value.scale =
        factor * (4 * (numerator * unitsOfOne) +
          value.gapBelow * spacing denominator value.scale) := by
    rw [spacing_eq]
    ring
  have upper_eq : factor * (4 * (value.significand * spacing denominator value.scale)) +
      2 * spacing (factor * denominator) value.scale =
        factor * (4 * (value.significand * spacing denominator value.scale) +
          2 * spacing denominator value.scale) := by
    rw [spacing_eq]
    ring
  constructor
  · rintro ⟨below, above, inside⟩
    rw [center_eq, magnitude_eq, lower_eq] at below
    rw [center_eq, magnitude_eq, upper_eq] at above
    rw [center_eq, magnitude_eq, lower_eq, upper_eq] at inside
    exact ⟨Nat.le_of_mul_le_mul_left below positive, Nat.le_of_mul_le_mul_left above positive,
      fun odd => (inside odd).imp (mt (congrArg (factor * ·))) (mt (congrArg (factor * ·)))⟩
  · rintro ⟨below, above, inside⟩
    constructor
    · rw [center_eq, magnitude_eq, lower_eq]
      exact Nat.mul_le_mul_left factor below
    · rw [center_eq, magnitude_eq, upper_eq]
      exact Nat.mul_le_mul_left factor above
    · rw [center_eq, magnitude_eq, lower_eq, upper_eq]
      exact fun odd => (inside odd).imp (mt (Nat.eq_of_mul_eq_mul_left positive))
        (mt (Nat.eq_of_mul_eq_mul_left positive))

end Finite

theorem ofParts_eq_finite_iff (negative : Bool) (significand scale : Nat) (value : Finite) :
    ofParts negative significand scale = .finite value ↔
      value.negative = negative ∧ value.significand = significand ∧ value.scale = scale := by
  rw [ofParts]
  constructor
  · split_ifs with fits
    · rintro ⟨⟩
      exact ⟨rfl, rfl, rfl⟩
    · rintro ⟨⟩
  · rintro ⟨rfl, rfl, rfl⟩
    rw [dif_pos ⟨value.significand_lt, value.scale_le, value.normal⟩]

section Scales

variable {numerator denominator scale : Nat} {value : Finite} (positive : 0 < denominator)
  (scaled : IsScale (numerator * unitsOfOne) denominator scale)

include positive scaled

/-- At its own scale a magnitude is covered by the double with the rounded significand. -/
theorem covers_iff_of_scale_eq (same : value.scale = scale) :
    value.Covers numerator denominator ↔
      roundQuotient (numerator * unitsOfOne) (spacing denominator scale) =
        value.significand := by
  rw [roundQuotient_eq_iff (spacing_pos positive scale)]
  -- Below a power of two the interval is narrower, but no magnitude of this scale lies there.
  have gap : value.gapBelow = 2 ∨ value.significand = 2 ^ 52 ∧ value.gapBelow = 1 ∧
      2 ^ 52 * spacing denominator scale ≤ numerator * unitsOfOne := by
    by_cases narrow : value.significand = 2 ^ 52 ∧ 0 < value.scale
    · exact .inr ⟨narrow.1, Finite.gapBelow_eq_one narrow.1 narrow.2,
        scaled.le.resolve_left (by omega)⟩
    · exact .inl (Finite.gapBelow_eq_two (by omega))
  subst same
  constructor
  · rintro ⟨below, above, inside⟩
    rcases gap with gap | ⟨significand_eq, gap, reached⟩
    · rw [gap] at below inside
      omega
    · rw [gap] at below
      rw [significand_eq] at below above inside ⊢
      omega
  · rintro ⟨least, greatest, inside⟩
    constructor
    · rcases gap with gap | ⟨significand_eq, gap, reached⟩
      · rw [gap]
        omega
      · rw [gap, significand_eq]
        omega
    · omega
    · rcases gap with gap | ⟨significand_eq, gap, reached⟩
      · rw [gap]
        omega
      · omega

/-- A magnitude that is rounded beyond the significands of its scale is covered by the next power of
two, and by no other double of the next scale. -/
theorem covers_iff_of_scale_eq_succ (next : value.scale = scale + 1) :
    value.Covers numerator denominator ↔
      value.significand = 2 ^ 52 ∧
        roundQuotient (numerator * unitsOfOne) (spacing denominator scale) = 2 ^ 53 := by
  have above_least : 0 < value.scale := by omega
  have spacing_eq : spacing denominator value.scale = 2 * spacing denominator scale := by
    rw [next, spacing_succ]
  have fits := scaled.lt
  rw [roundQuotient_eq_iff (spacing_pos positive scale)]
  constructor
  · rintro ⟨below, above, inside⟩
    have significand_eq : value.significand = 2 ^ 52 := by
      have normal : 2 ^ 52 ≤ value.significand := value.normal.resolve_left (by omega)
      apply Nat.le_antisymm (Nat.le_of_not_lt _) normal
      intro greater
      have gap_le := Nat.mul_le_mul_right (spacing denominator value.scale) value.gapBelow_le_two
      have far := mul_add_le_mul_of_lt greater (spacing denominator value.scale)
      rw [spacing_eq] at below gap_le far
      omega
    rw [Finite.gapBelow_eq_one significand_eq above_least, significand_eq, spacing_eq] at below
    omega
  · rintro ⟨significand_eq, least, greatest, inside⟩
    constructor
    · rw [Finite.gapBelow_eq_one significand_eq above_least, significand_eq, spacing_eq]
      omega
    · rw [significand_eq, spacing_eq]
      omega
    · rw [significand_eq]
      omega

/-- A double that covers a magnitude has the scale of the magnitude or the next one. -/
theorem scale_eq_or_of_covers (covers : value.Covers numerator denominator) :
    value.scale = scale ∨ value.scale = scale + 1 := by
  obtain ⟨below, above, -⟩ := covers
  have spacing_positive := spacing_pos positive value.scale
  have lt : numerator * unitsOfOne < 2 ^ 53 * spacing denominator value.scale := by
    have center_le := value.significand_mul_add_le (spacing denominator value.scale)
    omega
  by_cases reached : value.scale = 0 ∨
      2 ^ 52 * spacing denominator value.scale ≤ numerator * unitsOfOne
  · exact .inl (IsScale.unique ⟨lt, reached⟩ scaled)
  · right
    obtain ⟨previous, next⟩ : ∃ previous, value.scale = previous + 1 :=
      Nat.exists_eq_add_one_of_ne_zero fun least => reached (.inl least)
    have normal : 2 ^ 52 ≤ value.significand := value.normal.resolve_left (by omega)
    have center_ge := Nat.mul_le_mul_right (spacing denominator value.scale) normal
    have gap_le := Nat.mul_le_mul_right (spacing denominator value.scale) value.gapBelow_le_two
    rw [next, spacing_succ] at below lt reached center_ge gap_le
    have previous_scaled : IsScale (numerator * unitsOfOne) denominator previous :=
      ⟨by omega, .inr (by omega)⟩
    rw [next, IsScale.unique previous_scaled scaled]

end Scales

/-- Rounding takes the significand at the scale of a magnitude, and the next scale for a significand
that needs one more bit. -/
theorem exists_isScale_nearest_eq (negative : Bool) (numerator : Nat) {denominator : Nat}
    (positive : 0 < denominator) :
    ∃ scale, IsScale (numerator * unitsOfOne) denominator scale ∧
      nearest negative numerator denominator =
        if roundQuotient (numerator * unitsOfOne) (spacing denominator scale) = 2 ^ 53 then
          ofParts negative (2 ^ 52) (scale + 1)
        else ofParts negative
          (roundQuotient (numerator * unitsOfOne) (spacing denominator scale)) scale :=
  ⟨_, isScale_log2 (numerator * unitsOfOne) positive, rfl⟩

/-- The doubles to which a magnitude is rounded are those that cover it. -/
theorem nearest_eq_finite_iff (negative : Bool) (numerator : Nat) {denominator : Nat}
    (positive : 0 < denominator) (value : Finite) :
    nearest negative numerator denominator = .finite value ↔
      value.negative = negative ∧ value.Covers numerator denominator := by
  obtain ⟨scale, scaled, nearest_eq⟩ := exists_isScale_nearest_eq negative numerator positive
  rw [nearest_eq]
  constructor
  · intro rounded
    split_ifs at rounded with carried
    · obtain ⟨sign, significand_eq, scale_eq⟩ := (ofParts_eq_finite_iff _ _ _ _).mp rounded
      exact ⟨sign, (covers_iff_of_scale_eq_succ positive scaled scale_eq).mpr
        ⟨significand_eq, carried⟩⟩
    · obtain ⟨sign, significand_eq, scale_eq⟩ := (ofParts_eq_finite_iff _ _ _ _).mp rounded
      exact ⟨sign, (covers_iff_of_scale_eq positive scaled scale_eq).mpr significand_eq.symm⟩
  · rintro ⟨sign, covers⟩
    rcases scale_eq_or_of_covers positive scaled covers with same | next
    · have rounded := (covers_iff_of_scale_eq positive scaled same).mp covers
      have fits : value.significand ≠ 2 ^ 53 := Nat.ne_of_lt value.significand_lt
      rw [rounded, if_neg fits, ofParts_eq_finite_iff]
      exact ⟨sign, rfl, same⟩
    · obtain ⟨significand_eq, carried⟩ :=
        (covers_iff_of_scale_eq_succ positive scaled next).mp covers
      rw [if_pos carried, ofParts_eq_finite_iff]
      exact ⟨sign, significand_eq, next⟩

theorem ofParts_eq_infinite_or_finite (negative : Bool) (significand scale : Nat) :
    ofParts negative significand scale = .infinite negative ∨
      ∃ value, ofParts negative significand scale = .finite value := by
  rw [ofParts]
  split_ifs
  · exact .inr ⟨_, rfl⟩
  · exact .inl rfl

/-- A magnitude that no double covers is rounded to an infinity. -/
theorem nearest_eq_infinite {numerator denominator : Nat} (positive : 0 < denominator)
    (negative : Bool) (uncovered : ∀ value : Finite, ¬ value.Covers numerator denominator) :
    nearest negative numerator denominator = .infinite negative := by
  have infinite_or_finite : nearest negative numerator denominator = .infinite negative ∨
      ∃ value, nearest negative numerator denominator = .finite value := by
    obtain ⟨scale, -, nearest_eq⟩ := exists_isScale_nearest_eq negative numerator positive
    rw [nearest_eq]
    split_ifs <;> exact ofParts_eq_infinite_or_finite ..
  refine infinite_or_finite.resolve_right ?_
  rintro ⟨value, finite⟩
  exact uncovered value ((nearest_eq_finite_iff negative numerator positive value).mp finite).2

/-- The significand at the scale of a magnitude has all 53 bits unless the scale is the least one,
and needs one more bit at most. -/
theorem IsScale.roundQuotient_mem {units denominator scale : Nat} (positive : 0 < denominator)
    (scaled : IsScale units denominator scale) :
    (scale = 0 ∨ 2 ^ 52 ≤ roundQuotient units (spacing denominator scale)) ∧
      roundQuotient units (spacing denominator scale) ≤ 2 ^ 53 := by
  obtain ⟨least, greatest, -⟩ := (roundQuotient_eq_iff (spacing_pos positive scale) _).mp rfl
  generalize roundQuotient units (spacing denominator scale) = quotient at least greatest
  have fits := scaled.lt
  have spacing_positive := spacing_pos positive scale
  constructor
  · refine scaled.le.imp_right fun reached => Nat.le_of_not_lt fun less => ?_
    have far := mul_add_le_mul_of_lt less (spacing denominator scale)
    omega
  · apply Nat.le_of_not_lt
    intro greater
    have far := mul_add_le_mul_of_lt greater (spacing denominator scale)
    omega

/-- Magnitudes far from the greatest double are rounded to a finite one. -/
theorem exists_nearest_eq_finite {numerator denominator : Nat} (positive : 0 < denominator)
    (negative : Bool) (bound : numerator < 2 ^ 200 * denominator) :
    ∃ value, nearest negative numerator denominator = .finite value := by
  obtain ⟨scale, scaled, nearest_eq⟩ := exists_isScale_nearest_eq negative numerator positive
  have scale_lt : scale < 2045 := by
    have unit_at := unitScale_eq
    rcases scaled.le with least | reached
    · omega
    · rw [two_pow_mul_spacing] at reached
      have magnitude_lt : numerator * unitsOfOne < 2 ^ (200 + unitScale) * denominator := by
        calc
          numerator * unitsOfOne < 2 ^ 200 * denominator * unitsOfOne :=
            Nat.mul_lt_mul_of_pos_right bound unitsOfOne_pos
          _ = 2 ^ 200 * spacing denominator unitScale := Nat.mul_assoc ..
          _ = 2 ^ (200 + unitScale) * denominator := two_pow_mul_spacing ..
      have powers := Nat.lt_of_mul_lt_mul_right (Nat.lt_of_le_of_lt reached magnitude_lt)
      have := (Nat.pow_lt_pow_iff_right Nat.one_lt_two).mp powers
      omega
  obtain ⟨normal, fits⟩ := scaled.roundQuotient_mem positive
  rw [nearest_eq]
  split_ifs with carried
  · rw [ofParts, dif_pos ⟨by decide, by omega, .inr (Nat.le_refl _)⟩]
    exact ⟨_, rfl⟩
  · rw [ofParts, dif_pos ⟨Nat.lt_of_le_of_ne fits carried, by omega, normal⟩]
    exact ⟨_, rfl⟩

end Double

end EntitySearch
