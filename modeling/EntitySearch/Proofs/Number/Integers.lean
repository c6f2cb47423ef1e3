import EntitySearch.Proofs.Number.Reading

/-!
# Integers as doubles

Every integer up to `2 ^ 53` is a double. Of the integers beyond that are rounded to one double, the
numeral of the double shows one, which is rounded to it as well.
-/

namespace EntitySearch

namespace Text

theorem natDigits_mul_ten {value : Nat} (positive : 0 < value) :
    natDigits (value * 10) = natDigits value ++ ['0'] := by
  have appended := Nat.toDigits_append_toDigits (b := 10) (d := 0) (by omega) positive (by omega)
  rw [Nat.add_zero, Nat.mul_comm] at appended
  exact appended.symm

theorem natDigits_mul_pow {value : Nat} (positive : 0 < value) (zeros : Nat) :
    natDigits (value * Nat.pow 10 zeros) = natDigits value ++ List.replicate zeros '0' := by
  induction zeros with
  | zero =>
      rw [List.replicate_zero, List.append_nil]
      exact congrArg natDigits (Nat.mul_one value)
  | succ zeros ih =>
      have power_eq : value * Nat.pow 10 (zeros + 1) = value * Nat.pow 10 zeros * 10 := by
        rw [Nat.mul_assoc]
        rfl
      rw [power_eq, natDigits_mul_ten (Nat.mul_pos positive (Decimal.pow_ten_pos zeros)), ih,
        List.append_assoc, List.replicate_succ']

end Text

namespace Decimal

theorem width_mul_pow {value : Nat} (positive : 0 < value) (zeros : Nat) :
    width (value * Nat.pow 10 zeros) = width value + zeros := by
  rw [width, Text.natDigits_mul_pow positive, List.length_append, List.length_replicate, width]

/-- A whole number in positional notation is a run of digits. -/
theorem positional_of_whole {decimal : Decimal} (whole : 0 ≤ decimal.exponent)
    (positive : 0 < decimal.digits) : decimal.positional = Text.natDigits decimal.numerator := by
  rw [positional, if_pos whole, numerator, Text.natDigits_mul_pow positive]

end Decimal

namespace Double

namespace Finite

/-- Multiples less than a step apart are one. -/
theorem eq_of_mul_lt_add {first second step : Nat} (below : first * step < second * step + step)
    (above : second * step < first * step + step) : first = second := by
  rw [← Nat.succ_mul] at below above
  have first_lt := Nat.lt_of_mul_lt_mul_right below
  have second_lt := Nat.lt_of_mul_lt_mul_right above
  omega

/-- Up to the scale at which doubles are one apart, a whole number is rounded to itself. -/
theorem Covers.units_eq_of_scale_le {value : Finite} {whole : Nat} (covers : value.Covers whole 1)
    (fine : value.scale ≤ unitScale) : value.units = whole * unitsOfOne := by
  obtain ⟨below, above, -⟩ := covers
  have spacing_positive := spacing_pos Nat.one_pos value.scale
  have unit_eq : unitsOfOne = 2 ^ (unitScale - value.scale) * spacing 1 value.scale := by
    rw [two_pow_mul_spacing, Nat.sub_add_cancel fine, Nat.mul_one, unitsOfOne]
    rfl
  have magnitude_eq : whole * unitsOfOne =
      whole * 2 ^ (unitScale - value.scale) * spacing 1 value.scale := by
    rw [unit_eq, Nat.mul_assoc]
  have gap_le := Nat.mul_le_mul_right (spacing 1 value.scale) value.gapBelow_le_two
  rw [magnitude_eq] at below above ⊢
  have significand_eq : value.significand = whole * 2 ^ (unitScale - value.scale) := by
    apply @eq_of_mul_lt_add _ _ (spacing 1 value.scale) <;> omega
  rw [← Nat.mul_one value.units, units_mul_eq, significand_eq]

theorem spacing_eq_unit : spacing 1 unitScale = unitsOfOne :=
  Nat.one_mul _

/-- At the scale beyond `2 ^ 53` doubles are two apart. -/
theorem spacing_eq_two_units : spacing 1 (unitScale + 1) = 2 * unitsOfOne := by
  rw [← spacing_eq_unit]
  exact spacing_succ 1 unitScale

/-- Of the whole numbers up to `2 ^ 53` only this power is rounded to a double of a scale at which
doubles are further apart than one. -/
theorem Covers.scale_cases {value : Finite} {whole : Nat} (covers : value.Covers whole 1)
    (small : whole ≤ 2 ^ 53) :
    value.scale ≤ unitScale ∨
      whole = 2 ^ 53 ∧ value.significand = 2 ^ 52 ∧ value.scale = unitScale + 1 := by
  rcases Nat.lt_or_ge unitScale value.scale with coarse | fine
  · right
    have below := covers.below
    have normal : 2 ^ 52 ≤ value.significand := value.normal.resolve_left (by omega)
    have unit_pos := unitsOfOne_pos
    have unit_le : spacing 1 (unitScale + 1) ≤ spacing 1 value.scale := spacing_le_spacing 1 coarse
    have small_le := Nat.mul_le_mul_right unitsOfOne small
    rw [spacing_eq_two_units] at unit_le
    have significand_eq : value.significand = 2 ^ 52 := by
      apply Nat.le_antisymm (Nat.le_of_not_lt fun greater => ?_) normal
      have far := mul_add_le_mul_of_lt greater (spacing 1 value.scale)
      have gap_le := Nat.mul_le_mul_right (spacing 1 value.scale) value.gapBelow_le_two
      omega
    rw [gapBelow_eq_one significand_eq (by omega), significand_eq] at below
    have scale_eq : value.scale = unitScale + 1 := by
      apply Nat.le_antisymm (Nat.le_of_not_lt fun coarser => ?_) coarse
      have double_unit_le : spacing 1 (unitScale + 2) ≤ spacing 1 value.scale :=
        spacing_le_spacing 1 coarser
      have double_unit_eq : spacing 1 (unitScale + 2) = 2 * spacing 1 (unitScale + 1) :=
        spacing_succ 1 (unitScale + 1)
      rw [spacing_eq_two_units] at double_unit_eq
      omega
    rw [scale_eq, spacing_eq_two_units] at below
    refine ⟨Nat.le_antisymm small (Nat.le_of_not_lt fun less => ?_), significand_eq, scale_eq⟩
    have far := mul_add_le_mul_of_lt less unitsOfOne
    omega
  · exact .inl fine

theorem covers_of_units_eq {value : Finite} {whole : Nat}
    (units_eq : value.units = whole * unitsOfOne) : value.Covers whole 1 := by
  have center_eq : value.significand * spacing 1 value.scale = whole * unitsOfOne := by
    rw [← units_mul_eq, units_eq, Nat.mul_one]
  have spacing_positive := spacing_pos Nat.one_pos value.scale
  have gap_pos : 0 < value.gapBelow * spacing 1 value.scale :=
    Nat.mul_pos (by rw [gapBelow]; split_ifs <;> omega) spacing_positive
  exact ⟨by omega, by omega, fun _ => ⟨by omega, by omega⟩⟩

/-- A whole number up to `2 ^ 53` is rounded to itself. -/
theorem Covers.units_eq_of_le {value : Finite} {whole : Nat} (covers : value.Covers whole 1)
    (small : whole ≤ 2 ^ 53) : value.units = whole * unitsOfOne := by
  rcases covers.scale_cases small with fine | ⟨rfl, significand_eq, scale_eq⟩
  · exact covers.units_eq_of_scale_le fine
  · rw [← Nat.mul_one value.units, units_mul_eq, significand_eq, scale_eq, spacing_eq_two_units]
    omega

/-- What a whole number is rounded to is whole, and the number itself up to `2 ^ 53`. -/
theorem Covers.exists_units_eq {value : Finite} {whole : Nat} (covers : value.Covers whole 1) :
    ∃ exact, value.units = exact * unitsOfOne ∧ (whole ≤ 2 ^ 53 → exact = whole) := by
  rcases Nat.lt_or_ge (2 ^ 53) whole with large | small
  · rcases Nat.lt_or_ge unitScale value.scale with coarse | fine
    · refine ⟨value.significand * 2 ^ (value.scale - unitScale), ?_, by omega⟩
      rw [Nat.mul_assoc, ← spacing_eq_unit, two_pow_mul_spacing, Nat.sub_add_cancel (by omega),
        Nat.mul_one, units]
      rfl
    · exact ⟨whole, covers.units_eq_of_scale_le fine, fun _ => rfl⟩
  · exact ⟨whole, covers.units_eq_of_le small, fun _ => rfl⟩

theorem leadingPlace_of_units_eq {value : Finite} {exact : Nat}
    (units_eq : value.units = exact * unitsOfOne) (positive : 0 < exact) :
    value.leadingPlace = Decimal.width exact - 1 := by
  have quotient_eq : value.units * Nat.pow 10 330 / unitsOfOne = exact * Nat.pow 10 330 := by
    rw [units_eq, Nat.mul_right_comm, Nat.mul_div_cancel _ unitsOfOne_pos]
  simp only [leadingPlace, quotient_eq, Decimal.width_mul_pow positive]
  omega

/-- A whole number is the decimal of its own width. -/
theorem decimalOfWidth?_of_units_eq {value : Finite} {exact : Nat}
    (units_eq : value.units = exact * unitsOfOne) (positive : 0 < exact) (tie : Tie) :
    value.decimalOfWidth? tie (Decimal.width exact) = some ⟨exact, 0⟩ := by
  have placed : value.leadingPlace + 1 - (Decimal.width exact : Int) = 0 := by
    rw [leadingPlace_of_units_eq units_eq positive]
    omega
  have center_eq : 4 * value.units * Nat.pow 10 (-0 : Int).toNat =
      exact * (4 * unitsOfOne * Nat.pow 10 (0 : Int).toNat) := by
    have power_eq : Nat.pow 10 (0 : Int).toNat = 1 := rfl
    rw [units_eq, Int.neg_zero, power_eq]
    ring
  have step_pos : 0 < 4 * unitsOfOne * Nat.pow 10 (0 : Int).toNat :=
    Nat.mul_pos (Nat.mul_pos (by omega) unitsOfOne_pos) (Decimal.pow_ten_pos _)
  have below_eq : value.digitsBelow 0 = exact := by
    rw [digitsBelow, center_eq, Nat.mul_div_cancel _ step_pos]
  have reads : value.readsAt 0 (value.digitsBelow 0) = true := by
    rw [below_eq]
    apply (readsAt_iff value ⟨exact, 0⟩).mpr
    rw [Decimal.numerator_of_nonpos (Int.le_refl 0), Decimal.denominator_of_nonneg (Int.le_refl 0)]
    exact covers_of_units_eq units_eq
  rcases decimalOfWidth?_cases tie value placed with ⟨lower, -, -⟩ | ⟨digits, -, taken, found⟩
  · exact absurd (lower.symm.trans reads) Bool.false_ne_true
  · have remainder_eq := congrArg (· % (4 * unitsOfOne * Nat.pow 10 (0 : Int).toNat)) center_eq
    have digits_eq := taken reads (remainder_eq.trans (Nat.mul_mod_left ..))
    rw [found, digits_eq, below_eq]

/-- The shortest decimal of a whole number is whole: the number itself, or one that ends in zero. -/
theorem shortest_of_units_eq {value : Finite} {exact : Nat}
    (units_eq : value.units = exact * unitsOfOne) (positive : 0 < exact)
    (nonzero : value.isZero = false) (tie : Tie) :
    0 ≤ (Decimal.shortest tie value).exponent ∧
      ((Decimal.shortest tie value).numerator = exact ∨
        10 ∣ (Decimal.shortest tie value).numerator) := by
  obtain ⟨shorter, -, decimal, found, missing, shortest_eq⟩ :=
    Decimal.exists_shortest_eq nonzero tie
  have exact_found := decimalOfWidth?_of_units_eq units_eq positive tie
  have placed := (covers_of_decimalOfWidth? found).2
  rw [leadingPlace_of_units_eq units_eq positive] at placed
  rw [shortest_eq]
  -- At its own width the number is found as it is, so the search ends there at the latest.
  rcases Nat.lt_trichotomy (shorter + 1) (Decimal.width exact) with fewer | same | more
  · have placed_whole : 0 ≤ decimal.exponent := by omega
    obtain ⟨whole, numerator_eq⟩ := Decimal.dropZeros_of_whole 17 placed_whole
    refine ⟨whole, .inr ?_⟩
    obtain ⟨places, places_eq⟩ : ∃ places, decimal.exponent.toNat = places + 1 :=
      Nat.exists_eq_add_one_of_ne_zero (by omega)
    rw [numerator_eq, Decimal.numerator, places_eq]
    exact Dvd.dvd.mul_left (Dvd.intro_left (Nat.pow 10 places) rfl) _
  · rw [same, exact_found, Option.some.injEq] at found
    have placed_whole : 0 ≤ decimal.exponent := by omega
    obtain ⟨whole, numerator_eq⟩ := Decimal.dropZeros_of_whole 17 placed_whole
    refine ⟨whole, .inl ?_⟩
    rw [numerator_eq, ← found, Decimal.numerator_of_nonpos (Int.le_refl 0)]
  · have width_pos := Decimal.width_pos exact
    have none_found := missing (Decimal.width exact - 1) (by omega)
    rw [Nat.sub_add_cancel width_pos, exact_found] at none_found
    cases none_found

/-- To `2 ^ 53` the next whole number is rounded as well, as it is halfway to the next double. -/
theorem Covers.eq_or_eq_of_power {value : Finite} {shown : Nat} (covers : value.Covers shown 1)
    (significand_eq : value.significand = 2 ^ 52) (scale_eq : value.scale = unitScale + 1) :
    shown = 2 ^ 53 ∨ shown = 2 ^ 53 + 1 := by
  obtain ⟨below, above, -⟩ := covers
  have unit_pos := unitsOfOne_pos
  rw [gapBelow_eq_one significand_eq (by omega)] at below
  rw [significand_eq, scale_eq, spacing_eq_two_units] at below above
  rcases Nat.lt_or_ge shown (2 ^ 53) with less | least
  · have far := mul_add_le_mul_of_lt less unitsOfOne
    omega
  · rcases Nat.lt_or_ge (2 ^ 53 + 1) shown with more | greatest
    · have far := mul_add_le_mul_of_lt more unitsOfOne
      omega
    · omega

/-- A number that ends in zero is rounded to no whole number up to `2 ^ 53` but itself. -/
theorem Covers.eq_of_dvd {value : Finite} {whole shown : Nat} (covers : value.Covers whole 1)
    (small : whole ≤ 2 ^ 53) (shown_covers : value.Covers shown 1) (ends_in_zero : 10 ∣ shown) :
    shown = whole := by
  rcases covers.scale_cases small with fine | ⟨rfl, significand_eq, scale_eq⟩
  · have units_eq := covers.units_eq_of_scale_le fine
    rw [shown_covers.units_eq_of_scale_le fine] at units_eq
    exact Nat.eq_of_mul_eq_mul_right unitsOfOne_pos units_eq
  · -- Of the power and the next number, neither ends in zero.
    rcases shown_covers.eq_or_eq_of_power significand_eq scale_eq with same | next <;> omega

theorem Covers.isZero_eq_false {value : Finite} {whole : Nat} (covers : value.Covers whole 1)
    (positive : 0 < whole) : value.isZero = false := by
  refine eq_false_of_ne_true fun is_zero => ?_
  rw [value.eq_zero_of_isZero is_zero, covers_zero_iff] at covers
  have magnitude_pos := Nat.mul_pos positive unitsOfOne_pos
  omega

/-- The numeral of a double to which a whole number is rounded shows such a number, and up to
`2 ^ 53` the number itself. -/
theorem Covers.exists_numeral_eq {value : Finite} {whole : Nat} (covers : value.Covers whole 1)
    (positive : 0 < whole) :
    ∃ shown, 0 < shown ∧ value.Covers shown 1 ∧ (whole ≤ 2 ^ 53 → shown = whole) ∧
      value.numeral = signText value.negative ++ Text.natDigits shown := by
  have nonzero := covers.isZero_eq_false positive
  obtain ⟨exact, units_eq, exact_eq⟩ := covers.exists_units_eq
  have exact_pos : 0 < exact := by
    refine Nat.pos_of_ne_zero fun none => ?_
    have units_pos := units_pos nonzero
    rw [units_eq, none, Nat.zero_mul] at units_pos
    exact Nat.lt_irrefl 0 units_pos
  obtain ⟨is_whole, shown_cases⟩ := shortest_of_units_eq units_eq exact_pos nonzero .up
  have shown_covers := Decimal.covers_shortest nonzero .up
  rw [Decimal.denominator_of_nonneg is_whole] at shown_covers
  have shown_pos : 0 < (Decimal.shortest .up value).numerator := by
    refine Nat.pos_of_ne_zero fun none => ?_
    rw [none] at shown_covers
    exact not_covers_zero nonzero Nat.one_pos shown_covers
  refine ⟨_, shown_pos, shown_covers, fun small => ?_, ?_⟩
  · rcases shown_cases with same | ends_in_zero
    · rw [same, exact_eq small]
    · exact covers.eq_of_dvd small shown_covers ends_in_zero
  · rw [numeral, if_neg (by rw [nonzero]; exact Bool.false_ne_true),
      Decimal.positional_of_whole is_whole (Nat.pos_of_mul_pos_right shown_pos)]

end Finite

theorem exists_ofInt_eq_finite {value : Int} (bound : value.natAbs < 2 ^ 200) :
    ∃ rounded, ofInt value = .finite rounded :=
  exists_nearest_eq_finite Nat.one_pos _ (by rwa [Nat.mul_one])

example : ofInt 1 = one := by decide +kernel

theorem numeral_ofInt_zero : (ofInt 0).numeral = Text.intText 0 := by
  have rounded : ofInt 0 = .finite (.zero false) := by
    rw [ofInt, Int.natAbs_zero, nearest_eq_finite_iff _ _ Nat.one_pos, Finite.covers_zero_iff]
    exact ⟨rfl, by omega⟩
  rw [rounded]
  rfl

/-- The numeral of the double nearest to an integer shows an integer with the same nearest double,
and up to `2 ^ 53` the integer itself. -/
theorem exists_numeral_ofInt {value : Int} (bound : value.natAbs < 2 ^ 200) :
    ∃ shown : Int, ofInt shown = ofInt value ∧ (value.natAbs ≤ 2 ^ 53 → shown = value) ∧
      (ofInt value).numeral = Text.intText shown := by
  obtain ⟨rounded, rounded_eq⟩ := exists_ofInt_eq_finite bound
  cases value with
  | ofNat magnitude =>
      rcases Nat.eq_zero_or_pos magnitude with rfl | positive
      · exact ⟨0, rfl, fun _ => rfl, numeral_ofInt_zero⟩
      · rw [ofInt_ofNat] at rounded_eq ⊢
        obtain ⟨sign, covers⟩ := (nearest_eq_finite_iff _ _ Nat.one_pos _).mp rounded_eq
        obtain ⟨shown, -, shown_covers, exact_eq, numeral_eq⟩ := covers.exists_numeral_eq positive
        refine ⟨.ofNat shown, ?_, fun small => congrArg _ (exact_eq small), ?_⟩
        · rw [ofInt_ofNat, rounded_eq, nearest_eq_finite_iff _ _ Nat.one_pos]
          exact ⟨sign, shown_covers⟩
        · rw [rounded_eq, numeral, numeral_eq, sign]
          rfl
  | negSucc smaller =>
      rw [ofInt_negSucc] at rounded_eq ⊢
      obtain ⟨sign, covers⟩ := (nearest_eq_finite_iff _ _ Nat.one_pos _).mp rounded_eq
      obtain ⟨shown, shown_pos, shown_covers, exact_eq, numeral_eq⟩ :=
        covers.exists_numeral_eq (Nat.succ_pos smaller)
      obtain ⟨shown_smaller, rfl⟩ := Nat.exists_eq_add_one_of_ne_zero (Nat.ne_of_gt shown_pos)
      refine ⟨.negSucc shown_smaller, ?_, fun small => ?_, ?_⟩
      · rw [ofInt_negSucc, rounded_eq, nearest_eq_finite_iff _ _ Nat.one_pos]
        exact ⟨sign, shown_covers⟩
      · rw [Nat.succ.inj (exact_eq small)]
      · rw [rounded_eq, numeral, numeral_eq, sign, Text.intText, Text.natText, ← String.toList_inj]
        simp [signText]

end Double

end EntitySearch
