import EntitySearch.Proofs.Number.Rounding
import Mathlib.Tactic.Ring

/-!
# The shortest decimal is read back

Every decimal that is found for a double is in its rounding interval. One of at most seventeen
digits is found, since doubles are further apart than the decimals of that width.
-/

namespace EntitySearch

namespace Decimal

/-- Numerator of a decimal as a quotient of whole numbers. -/
def numerator (decimal : Decimal) : Nat :=
  decimal.digits * Nat.pow 10 decimal.exponent.toNat

/-- Denominator of a decimal as a quotient of whole numbers. -/
def denominator (decimal : Decimal) : Nat :=
  Nat.pow 10 (-decimal.exponent).toNat

theorem pow_ten_pos (exponent : Nat) : 0 < Nat.pow 10 exponent :=
  Nat.pow_pos (by omega)

theorem denominator_pos (decimal : Decimal) : 0 < decimal.denominator :=
  pow_ten_pos _

theorem numerator_of_nonpos {decimal : Decimal} (fraction : decimal.exponent ≤ 0) :
    decimal.numerator = decimal.digits := by
  rw [numerator, Int.toNat_of_nonpos fraction]
  exact Nat.mul_one _

theorem denominator_of_nonneg {decimal : Decimal} (whole : 0 ≤ decimal.exponent) :
    decimal.denominator = 1 := by
  rw [denominator, Int.toNat_of_nonpos (Int.neg_nonpos_of_nonneg whole)]

/-- A bound on a magnitude, given at one place, moves to any other place. -/
theorem pow_mul_le_of_pow_mul_le {least units places shift digits up down : Nat}
    (bound : Nat.pow 10 places * least ≤ units * Nat.pow 10 shift)
    (exponents : shift + digits + up = places + down) :
    Nat.pow 10 digits * (least * Nat.pow 10 up) ≤ units * Nat.pow 10 down := by
  simp only [Nat.pow_eq] at bound ⊢
  refine Nat.le_of_mul_le_mul_left ?_ (pow_ten_pos shift)
  calc
    10 ^ shift * (10 ^ digits * (least * 10 ^ up)) = 10 ^ (shift + digits + up) * least := by
      rw [Nat.pow_add, Nat.pow_add]
      ring
    _ = 10 ^ places * least * 10 ^ down := by
      rw [exponents, Nat.pow_add]
      ring
    _ ≤ units * 10 ^ shift * 10 ^ down := Nat.mul_le_mul_right _ bound
    _ = 10 ^ shift * (units * 10 ^ down) := by ring

theorem width_pos (value : Nat) : 0 < width value :=
  Nat.length_toDigits_pos

theorem width_le_iff (value : Nat) {places : Nat} (some_place : 0 < places) :
    width value ≤ places ↔ value < 10 ^ places :=
  Nat.length_toDigits_le_iff (by omega) some_place

theorem pow_width_pred_le {value : Nat} (positive : 0 < value) :
    10 ^ (width value - 1) ≤ value := by
  rcases Nat.eq_or_lt_of_le (Nat.succ_le_of_lt (width_pos value)) with single | longer
  · rw [← single]
    exact positive
  · apply Nat.le_of_not_lt
    intro less
    have short := (width_le_iff value (by omega)).mpr less
    omega

theorem pow_width_div_le {magnitude least : Nat} (positive : 0 < least) (le : least ≤ magnitude) :
    Nat.pow 10 (width (magnitude / least) - 1) * least ≤ magnitude :=
  (Nat.le_div_iff_mul_le positive).mp (pow_width_pred_le (Nat.div_pos le positive))

end Decimal

namespace Double.Finite

/-- The digits of the last decimal at a place that is not above a double. -/
def digitsBelow (value : Finite) (place : Int) : Nat :=
  4 * value.units * Nat.pow 10 (-place).toNat / (4 * unitsOfOne * Nat.pow 10 place.toNat)

/-- The decimal with these digits at a place is read as the double. -/
def readsAt (value : Finite) (place : Int) (digits : Nat) : Bool :=
  if value.significand % 2 = 0 then
    (4 * value.significand - value.gapBelow) * Nat.pow 2 value.scale * Nat.pow 10 (-place).toNat ≤
        digits * (4 * unitsOfOne * Nat.pow 10 place.toNat) &&
      digits * (4 * unitsOfOne * Nat.pow 10 place.toNat) ≤
        (4 * value.significand + 2) * Nat.pow 2 value.scale * Nat.pow 10 (-place).toNat
  else
    (4 * value.significand - value.gapBelow) * Nat.pow 2 value.scale * Nat.pow 10 (-place).toNat <
        digits * (4 * unitsOfOne * Nat.pow 10 place.toNat) &&
      digits * (4 * unitsOfOne * Nat.pow 10 place.toNat) <
        (4 * value.significand + 2) * Nat.pow 2 value.scale * Nat.pow 10 (-place).toNat

theorem unitsOfOne_le : unitsOfOne ≤ Nat.pow 10 330 := by decide +kernel

/-- What is read as a double is what rounds to it. -/
theorem readsAt_iff (value : Finite) (decimal : Decimal) :
    value.readsAt decimal.exponent decimal.digits = true ↔
      value.Covers decimal.numerator decimal.denominator := by
  have exact_eq : decimal.digits * (4 * unitsOfOne * Nat.pow 10 decimal.exponent.toNat) =
      4 * (decimal.numerator * unitsOfOne) := by
    rw [Decimal.numerator]
    ring
  have least_eq : (4 * value.significand - value.gapBelow) * Nat.pow 2 value.scale *
      Nat.pow 10 (-decimal.exponent).toNat =
        4 * (value.significand * spacing decimal.denominator value.scale) -
          value.gapBelow * spacing decimal.denominator value.scale := by
    rw [Nat.sub_mul, Nat.sub_mul, spacing, Decimal.denominator]
    ring_nf
  have greatest_eq : (4 * value.significand + 2) * Nat.pow 2 value.scale *
      Nat.pow 10 (-decimal.exponent).toNat =
        4 * (value.significand * spacing decimal.denominator value.scale) +
          2 * spacing decimal.denominator value.scale := by
    rw [spacing, Decimal.denominator]
    ring
  rw [readsAt, exact_eq, least_eq, greatest_eq]
  rcases Nat.mod_two_eq_zero_or_one value.significand with even | odd
  · rw [if_pos even, Bool.and_eq_true, decide_eq_true_iff, decide_eq_true_iff]
    constructor
    · rintro ⟨least, greatest⟩
      exact ⟨by omega, greatest, by omega⟩
    · rintro ⟨below, above, -⟩
      exact ⟨by omega, above⟩
  · have gap_le := Nat.mul_le_mul_right (spacing decimal.denominator value.scale)
      value.gapBelow_le_two
    have unit_le : 1 * spacing decimal.denominator value.scale ≤
        value.significand * spacing decimal.denominator value.scale :=
      Nat.mul_le_mul_right _ (by omega)
    rw [if_neg (by omega), Bool.and_eq_true, decide_eq_true_iff, decide_eq_true_iff]
    constructor
    · rintro ⟨least, greatest⟩
      exact ⟨by omega, by omega, fun _ => ⟨by omega, by omega⟩⟩
    · rintro ⟨below, above, inside⟩
      have apart := inside odd
      exact ⟨by omega, by omega⟩

/-- Of a width no decimal is found, or one next to the double that is read as it; a double that is
itself a decimal of the width is found. -/
theorem decimalOfWidth?_cases (tie : Tie) (value : Finite) {count : Nat} {place : Int}
    (placed : value.leadingPlace + 1 - count = place) :
    value.readsAt place (value.digitsBelow place) = false ∧
        value.readsAt place (value.digitsBelow place + 1) = false ∧
          value.decimalOfWidth? tie count = none ∨
      ∃ digits, value.readsAt place digits = true ∧
        (value.readsAt place (value.digitsBelow place) = true →
          4 * value.units * Nat.pow 10 (-place).toNat %
            (4 * unitsOfOne * Nat.pow 10 place.toNat) = 0 → digits = value.digitsBelow place) ∧
          value.decimalOfWidth? tie count = some ⟨digits, place⟩ := by
  subst placed
  rw [decimalOfWidth?]
  split
  · rename_i lower upper
    exact .inl ⟨lower, upper, rfl⟩
  · rename_i lower upper
    exact .inr ⟨_, lower, fun _ _ => rfl, rfl⟩
  · rename_i lower upper
    exact .inr ⟨_, upper, fun reads => absurd (lower.symm.trans reads) Bool.false_ne_true, rfl⟩
  · rename_i lower upper
    split
    · exact .inr ⟨_, lower, fun _ _ => rfl, rfl⟩
    · rename_i prefers_upper
      refine .inr ⟨_, upper, fun _ exact_decimal => absurd ?_ prefers_upper, rfl⟩
      rw [exact_decimal, Nat.mul_zero, Bool.or_eq_true, decide_eq_true_iff]
      exact .inl (Nat.mul_pos (Nat.mul_pos (by omega) unitsOfOne_pos) (Decimal.pow_ten_pos _))

theorem units_mul_eq (value : Finite) (factor : Nat) :
    value.units * factor = value.significand * spacing factor value.scale := by
  rw [units, spacing, Nat.mul_assoc, Nat.mul_comm factor]

theorem units_pos {value : Finite} (nonzero : value.isZero = false) : 0 < value.units := by
  have significand_ne : value.significand ≠ 0 := by simpa [isZero] using nonzero
  exact Nat.mul_pos (Nat.pos_of_ne_zero significand_ne) (pow_two_pos _)

/-- A double is no less than a one at its leading place. -/
theorem pow_leadingPlace_le {value : Finite} (nonzero : value.isZero = false) :
    ∃ places : Nat, value.leadingPlace = places - 330 ∧
      Nat.pow 10 places * unitsOfOne ≤ value.units * Nat.pow 10 330 := by
  have least_le : unitsOfOne ≤ value.units * Nat.pow 10 330 :=
    Nat.le_trans unitsOfOne_le (Nat.le_mul_of_pos_left _ (units_pos nonzero))
  refine ⟨_, ?_, Decimal.pow_width_div_le unitsOfOne_pos least_le⟩
  have some_digit := Decimal.width_pos (value.units * Nat.pow 10 330 / unitsOfOne)
  rw [leadingPlace]
  omega

/-- Decimals with sixteen places behind the leading one of a double are finer than the double. -/
theorem pow_mul_step_le {value : Finite} (nonzero : value.isZero = false) {place : Int}
    (placed : value.leadingPlace - 16 = place) :
    Nat.pow 10 16 * (unitsOfOne * Nat.pow 10 place.toNat) ≤
      value.significand * spacing (Nat.pow 10 (-place).toNat) value.scale := by
  obtain ⟨places, leading, bound⟩ := pow_leadingPlace_le nonzero
  rw [← units_mul_eq]
  exact Decimal.pow_mul_le_of_pow_mul_le bound (by omega)

/-- A step of decimals is smaller than the distance of a double to its neighbours, both ways. -/
theorem step_lt_spacing {value : Finite} {denominator step : Nat} (positive : 0 < step)
    (fine : Nat.pow 10 16 * step ≤ value.significand * spacing denominator value.scale) :
    step < spacing denominator value.scale ∧
      2 * step < value.gapBelow * spacing denominator value.scale := by
  have significand_le := Nat.mul_le_mul_right (spacing denominator value.scale)
    (Nat.le_of_lt value.significand_lt)
  change _ ≤ 2 ^ 53 * spacing denominator value.scale at significand_le
  change 10 ^ 16 * step ≤ _ at fine
  by_cases narrow : value.significand = 2 ^ 52 ∧ 0 < value.scale
  · rw [gapBelow_eq_one narrow.1 narrow.2]
    rw [narrow.1] at fine
    omega
  · rw [gapBelow_eq_two (by omega)]
    omega

/-- The lower of the two decimals that enclose a double, as a quotient. -/
theorem digitsBelow_eq (value : Finite) (place : Int) :
    value.digitsBelow place =
      value.significand * spacing (Nat.pow 10 (-place).toNat) value.scale /
        (unitsOfOne * Nat.pow 10 place.toNat) := by
  rw [digitsBelow, Nat.mul_assoc 4, Nat.mul_assoc 4, units_mul_eq,
    Nat.mul_div_mul_left _ _ (by omega)]

theorem readsAt_of_near {value : Finite} {place : Int} {digits : Nat}
    (below : 4 * (value.significand * spacing (Nat.pow 10 (-place).toNat) value.scale) <
      4 * (digits * (unitsOfOne * Nat.pow 10 place.toNat)) +
        value.gapBelow * spacing (Nat.pow 10 (-place).toNat) value.scale)
    (above : 4 * (digits * (unitsOfOne * Nat.pow 10 place.toNat)) <
      4 * (value.significand * spacing (Nat.pow 10 (-place).toNat) value.scale) +
        2 * spacing (Nat.pow 10 (-place).toNat) value.scale) :
    value.readsAt place digits = true := by
  have magnitude_eq : (Decimal.mk digits place).numerator * unitsOfOne =
      digits * (unitsOfOne * Nat.pow 10 place.toNat) := by
    rw [Decimal.numerator, Nat.mul_assoc, Nat.mul_comm unitsOfOne]
  apply (readsAt_iff value ⟨digits, place⟩).mpr
  rw [← magnitude_eq] at below above
  exact ⟨Nat.le_of_lt below, Nat.le_of_lt above, fun _ => ⟨Nat.ne_of_lt below, Nat.ne_of_lt above⟩⟩

/-- If decimals are finer than a double, one of the two that enclose it is read as it. -/
theorem exists_readsAt {value : Finite} {place : Int}
    (fine : Nat.pow 10 16 * (unitsOfOne * Nat.pow 10 place.toNat) ≤
      value.significand * spacing (Nat.pow 10 (-place).toNat) value.scale) :
    value.readsAt place (value.digitsBelow place) = true ∨
      value.readsAt place (value.digitsBelow place + 1) = true := by
  have step_pos : 0 < unitsOfOne * Nat.pow 10 place.toNat :=
    Nat.mul_pos unitsOfOne_pos (Decimal.pow_ten_pos _)
  obtain ⟨finer, half⟩ := step_lt_spacing step_pos fine
  have divided := Nat.div_add_mod
    (value.significand * spacing (Nat.pow 10 (-place).toNat) value.scale)
    (unitsOfOne * Nat.pow 10 place.toNat)
  have remainder_lt := Nat.mod_lt
    (value.significand * spacing (Nat.pow 10 (-place).toNat) value.scale) step_pos
  rw [← digitsBelow_eq, Nat.mul_comm] at divided
  generalize value.significand * spacing (Nat.pow 10 (-place).toNat) value.scale %
    (unitsOfOne * Nat.pow 10 place.toNat) = remainder at divided remainder_lt
  rcases Nat.lt_or_ge (unitsOfOne * Nat.pow 10 place.toNat) (2 * remainder) with more | less
  · right
    have next_eq := Nat.add_one_mul (value.digitsBelow place) (unitsOfOne * Nat.pow 10 place.toNat)
    apply readsAt_of_near <;> omega
  · left
    apply readsAt_of_near <;> omega

/-- Seventeen digits suffice. -/
theorem decimalOfWidth?_seventeen {value : Finite} (nonzero : value.isZero = false) (tie : Tie) :
    value.decimalOfWidth? tie 17 ≠ none := by
  have placed : value.leadingPlace + 1 - (17 : Nat) = value.leadingPlace - 16 := by omega
  have reads := exists_readsAt (pow_mul_step_le nonzero rfl)
  rcases decimalOfWidth?_cases tie value placed with ⟨lower, upper, -⟩ | ⟨digits, -, -, found⟩
  · rw [lower, upper] at reads
    simp at reads
  · rw [found]
    exact Option.some_ne_none _

/-- What is found of a width is read as the double. -/
theorem covers_of_decimalOfWidth? {tie : Tie} {value : Finite} {count : Nat} {decimal : Decimal}
    (found : value.decimalOfWidth? tie count = some decimal) :
    value.Covers decimal.numerator decimal.denominator ∧
      decimal.exponent = value.leadingPlace + 1 - count := by
  rcases decimalOfWidth?_cases tie value rfl with ⟨-, -, missing⟩ | ⟨digits, reads, -, present⟩
  · cases found.symm.trans missing
  · cases found.symm.trans present
    exact ⟨(readsAt_iff value ⟨digits, _⟩).mp reads, rfl⟩

theorem not_covers_zero {value : Finite} (nonzero : value.isZero = false) {denominator : Nat}
    (positive : 0 < denominator) : ¬ value.Covers 0 denominator := by
  intro covers
  have below := covers.below
  have significand_ne : value.significand ≠ 0 := by simpa [isZero] using nonzero
  have spacing_positive := spacing_pos positive value.scale
  have gap_le := Nat.mul_le_mul_right (spacing denominator value.scale) value.gapBelow_le_two
  have unit_le := Nat.mul_le_mul_right (spacing denominator value.scale)
    (Nat.pos_of_ne_zero significand_ne)
  rw [Nat.zero_mul] at below
  omega

end Double.Finite

namespace Decimal

section Zeros

variable {decimal : Decimal} (zero : decimal.digits % 10 = 0)

include zero

theorem numerator_shift (whole : 0 ≤ decimal.exponent) :
    (Decimal.mk (decimal.digits / 10) (decimal.exponent + 1)).numerator = decimal.numerator := by
  have power_eq : Nat.pow 10 (decimal.exponent + 1).toNat =
      Nat.pow 10 decimal.exponent.toNat * 10 := by
    rw [Int.toNat_add whole (by omega)]
    rfl
  have digits_eq : decimal.digits / 10 * 10 = decimal.digits := by omega
  rw [numerator, numerator, power_eq, Nat.mul_comm (Nat.pow 10 _), ← Nat.mul_assoc, digits_eq]

/-- A zero cut off the end of the digits leaves a decimal the same number. -/
theorem covers_shift_iff (value : Double.Finite) :
    value.Covers (Decimal.mk (decimal.digits / 10) (decimal.exponent + 1)).numerator
        (Decimal.mk (decimal.digits / 10) (decimal.exponent + 1)).denominator ↔
      value.Covers decimal.numerator decimal.denominator := by
  rcases Int.lt_or_le decimal.exponent 0 with fraction | whole
  · have numerator_eq : decimal.numerator =
        10 * (Decimal.mk (decimal.digits / 10) (decimal.exponent + 1)).numerator := by
      rw [numerator_of_nonpos (by omega), numerator_of_nonpos (by simp only; omega)]
      simp only
      omega
    have denominator_eq : decimal.denominator =
        10 * (Decimal.mk (decimal.digits / 10) (decimal.exponent + 1)).denominator := by
      have places_eq : (-decimal.exponent).toNat = (-(decimal.exponent + 1)).toNat + 1 := by omega
      rw [denominator, denominator, places_eq]
      exact Nat.pow_succ'
    rw [numerator_eq, denominator_eq]
    exact (value.covers_mul_iff _ _ (by omega)).symm
  · rw [numerator_shift zero whole, denominator_of_nonneg whole,
      denominator_of_nonneg (by simp only; omega)]

end Zeros

theorem covers_dropZeros_iff (value : Double.Finite) (count : Nat) (decimal : Decimal) :
    value.Covers (dropZeros count decimal).numerator (dropZeros count decimal).denominator ↔
      value.Covers decimal.numerator decimal.denominator := by
  induction count generalizing decimal with
  | zero => rfl
  | succ count fewer =>
      rw [dropZeros]
      split_ifs with zero
      · exact (fewer _).trans (covers_shift_iff zero value)
      · rfl

/-- Cutting off zeros keeps a whole number whole and the same. -/
theorem dropZeros_of_whole (count : Nat) {decimal : Decimal} (whole : 0 ≤ decimal.exponent) :
    0 ≤ (dropZeros count decimal).exponent ∧
      (dropZeros count decimal).numerator = decimal.numerator := by
  induction count generalizing decimal with
  | zero => exact ⟨whole, rfl⟩
  | succ count fewer =>
      rw [dropZeros]
      split_ifs with zero
      · rw [← numerator_shift zero whole]
        exact fewer (by simp only; omega)
      · exact ⟨whole, rfl⟩

theorem exists_first_of_findSome? {Found : Type} {search : Nat → Option Found} {bound : Nat}
    {found : Found} (hit : (List.range bound).findSome? search = some found) :
    ∃ first < bound, search first = some found ∧ ∀ earlier < first, search earlier = none := by
  induction bound with
  | zero => cases hit
  | succ bound shorter =>
      rw [List.range_succ, List.findSome?_append] at hit
      cases before : (List.range bound).findSome? search with
      | some other =>
          rw [before, Option.some_or] at hit
          obtain ⟨first, first_lt, found_first, missing⟩ := shorter (before.trans hit)
          exact ⟨first, Nat.lt_succ_of_lt first_lt, found_first, missing⟩
      | none =>
          rw [before, Option.none_or, List.findSome?_singleton] at hit
          exact ⟨bound, Nat.lt_succ_self bound, hit, fun earlier earlier_lt =>
            List.findSome?_eq_none_iff.mp before earlier (List.mem_range.mpr earlier_lt)⟩

/-- The shortest decimal is the one of the least width of which one is found, without its zeros. -/
theorem exists_shortest_eq {value : Double.Finite} (nonzero : value.isZero = false) (tie : Tie) :
    ∃ shorter < 17, ∃ decimal, value.decimalOfWidth? tie (shorter + 1) = some decimal ∧
      (∀ less < shorter, value.decimalOfWidth? tie (less + 1) = none) ∧
        shortest tie value = dropZeros 17 decimal := by
  rw [shortest, if_neg (by rw [nonzero]; exact Bool.false_ne_true)]
  cases hit : (List.range 17).findSome? fun shorter => value.decimalOfWidth? tie (shorter + 1) with
  | none =>
      exact absurd (List.findSome?_eq_none_iff.mp hit 16 (List.mem_range.mpr (by omega)))
        (Double.Finite.decimalOfWidth?_seventeen nonzero tie)
  | some decimal =>
      obtain ⟨shorter, shorter_lt, found, missing⟩ := exists_first_of_findSome? hit
      exact ⟨shorter, shorter_lt, decimal, found, missing, rfl⟩

theorem covers_shortest {value : Double.Finite} (nonzero : value.isZero = false) (tie : Tie) :
    value.Covers (shortest tie value).numerator (shortest tie value).denominator := by
  obtain ⟨shorter, -, decimal, found, -, shortest_eq⟩ := exists_shortest_eq nonzero tie
  rw [shortest_eq, covers_dropZeros_iff]
  exact (Double.Finite.covers_of_decimalOfWidth? found).1

end Decimal

end EntitySearch
