import EntitySearch.Proofs.Number.Integers

/-!
# Literals of integers

The text of an integer is compiled for an integral attribute by way of the double nearest to it. The
literal is an integer again: the given one up to `2 ^ 53`, and beyond that the one that stands for
all integers with the same nearest double.
-/

namespace EntitySearch

/-- The attribute holds integers. -/
def AttributeKind.IsIntegral (tag : String) : Prop :=
  Text.lowerAscii tag = "integer" ∨ Text.lowerAscii tag = "bigint"

theorem AttributeKind.ofTag_of_isIntegral {tag : String} (integral : IsIntegral tag) :
    ofTag (some tag) = .number := by
  rw [ofTag]
  rcases integral with lower_eq | lower_eq <;> rw [lower_eq] <;> rfl

section Numbers

variable {value : FilterValue} {number : Double} (denoted : value.number? = some number)

include denoted

theorem odataLiteral_of_number? (zone : TimeZone) :
    odataLiteral zone .number value = number.numeral := by
  rw [odataLiteral, denoted]

theorem fetchLiteral_of_number? : fetchLiteral .number value = number.numeral := by
  rw [fetchLiteral, denoted]

end Numbers

/-- An integer up to `2 ^ 53` is compiled to itself. Of the integers with one nearest double, one is
compiled to itself and the others to that one. -/
theorem exists_literal_intText (zone : TimeZone) {tag : String}
    (integral : AttributeKind.IsIntegral tag) (value : Int64) :
    ∃ shown : Int, Double.ofInt shown = Double.ofInt value.toInt ∧
      (value.toInt.natAbs ≤ 2 ^ 53 → shown = value.toInt) ∧
      ∀ other : Int, Double.ofInt other = Double.ofInt value.toInt →
        odataLiteral zone (.ofTag (some tag)) (.text (Text.intText other)) =
            Text.intText shown ∧
          fetchLiteral (.ofTag (some tag)) (.text (Text.intText other)) = Text.intText shown := by
  have bound : value.toInt.natAbs < 2 ^ 200 := by
    have least := value.le_toInt
    have greatest := value.toInt_lt
    have word_le : 2 ^ 63 < 2 ^ 200 := Nat.pow_lt_pow_right (by omega) (by omega)
    omega
  obtain ⟨shown, same, exact_eq, numeral_eq⟩ := Double.exists_numeral_ofInt bound
  obtain ⟨rounded, rounded_eq⟩ := Double.exists_ofInt_eq_finite bound
  refine ⟨shown, same, exact_eq, fun other other_eq => ?_⟩
  have denoted : (FilterValue.text (Text.intText other)).number? =
      some (Double.ofInt value.toInt) := by
    rw [← other_eq]
    exact FilterValue.number?_intText (by rw [other_eq, rounded_eq]; rfl)
  rw [AttributeKind.ofTag_of_isIntegral integral, odataLiteral_of_number? denoted,
    fetchLiteral_of_number? denoted, numeral_eq]
  exact ⟨rfl, rfl⟩

/-- The power of two up to which every integer is a double, as a literal of both languages. -/
theorem exists_literal_intText_power :
    AttributeKind.IsIntegral "BigInt" ∧ (9007199254740992 : Int64).toInt.natAbs ≤ 2 ^ 53 ∧
      odataLiteral .utc (.ofTag (some "BigInt"))
          (.text (Text.intText (9007199254740992 : Int64).toInt)) =
        Text.intText (9007199254740992 : Int64).toInt ∧
      fetchLiteral (.ofTag (some "BigInt"))
          (.text (Text.intText (9007199254740992 : Int64).toInt)) =
        Text.intText (9007199254740992 : Int64).toInt := by
  have integral : AttributeKind.IsIntegral "BigInt" := .inr (by decide)
  have small : (9007199254740992 : Int64).toInt.natAbs ≤ 2 ^ 53 := by decide
  obtain ⟨shown, -, exact_eq, compiled⟩ := exists_literal_intText .utc integral 9007199254740992
  rw [exact_eq small] at compiled
  exact ⟨integral, small, compiled _ rfl⟩

/-- The first integer beyond `2 ^ 53` is compiled to the power. -/
theorem not_literal_intText :
    ¬ ∀ value : Int64,
      odataLiteral .utc (.ofTag (some "BigInt")) (.text (Text.intText value.toInt)) =
          Text.intText value.toInt ∧
        fetchLiteral (.ofTag (some "BigInt")) (.text (Text.intText value.toInt)) =
          Text.intText value.toInt := by
  intro exact_for_all
  have exact_here := (exact_for_all 9007199254740993).1
  have compiled : odataLiteral .utc (.ofTag (some "BigInt"))
      (.text (Text.intText (9007199254740993 : Int64).toInt)) = "9007199254740992" := by
    decide +kernel
  rw [compiled] at exact_here
  exact absurd exact_here (by decide +kernel)

end EntitySearch
