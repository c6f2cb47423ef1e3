/-!
# Double-precision numbers

A double is held exactly: sign, significand and scale of a finite one, the two infinities, and the
value that is not a number. Every operation rounds an exact quotient once, to the nearest double,
a half going to the even neighbour.
-/

namespace EntitySearch

/-- A finite double, `±significand · 2 ^ (scale - 1074)`, in the one normal form of its value. -/
structure Double.Finite where
  /-- The sign is a minus; zero has both signs. -/
  negative : Bool
  /-- Significand, of at most 53 bits. -/
  significand : Nat
  /-- Exponent of two above the least one. -/
  scale : Nat
  significand_lt : significand < Nat.pow 2 53
  scale_le : scale ≤ 2045
  /-- Above the least exponent all 53 bits are in use. -/
  normal : scale = 0 ∨ Nat.pow 2 52 ≤ significand
  deriving DecidableEq

/-- A double-precision number. -/
inductive Double where
  /-- The result of an undefined operation, equal to no number. -/
  | nan
  | infinite (negative : Bool)
  | finite (value : Double.Finite)
  deriving DecidableEq

namespace Double

/-- The scale at which doubles are one apart. -/
@[irreducible]
def unitScale : Nat := 1074

theorem unitScale_eq : unitScale = 1074 := by
  rw [unitScale]

/-- The number one in units of the least positive double. -/
def unitsOfOne : Nat :=
  Nat.pow 2 unitScale

namespace Finite

/-- Magnitude in units of the least positive double. -/
def units (value : Finite) : Nat :=
  value.significand * Nat.pow 2 value.scale

/-- Magnitude without its fraction. -/
def wholePart (value : Finite) : Nat :=
  value.units / unitsOfOne

/-- The positive or the negative zero. -/
def zero (negative : Bool) : Finite :=
  ⟨negative, 0, 0, by decide, by decide, .inl rfl⟩

/-- The value in units of the least positive double. -/
def signedUnits (value : Finite) : Int :=
  if value.negative then -value.units else value.units

/-- The value is zero, of either sign. -/
def isZero (value : Finite) : Bool :=
  value.significand == 0

/-- Both stand for the same number: the two zeros are one number. -/
def same (left right : Finite) : Bool :=
  left.units == right.units && (left.negative == right.negative || left.isZero)

theorem same_refl (value : Finite) : value.same value = true := by
  simp [same]

end Finite

/-- The number is neither infinite nor undefined. -/
def isFinite : Double → Bool
  | .finite _ => true
  | .nan | .infinite _ => false

/-- Equality of numbers: `nan` differs from itself, and the two zeros are equal. -/
def same : Double → Double → Bool
  | .finite left, .finite right => left.same right
  | .infinite left, .infinite right => left == right
  | _, _ => false

/-- Strict order of numbers: `nan` is in no order, and no zero is below the other. -/
def isBelow : Double → Double → Bool
  | .finite left, .finite right => left.signedUnits < right.signedUnits
  | .finite _, .infinite negative => ! negative
  | .infinite negative, .finite _ => negative
  | .infinite left, .infinite right => left && ! right
  | .nan, _ | _, .nan => false

/-- The quotient of two whole numbers rounded to the nearest one, a half to the even one. -/
def roundQuotient (numerator denominator : Nat) : Nat :=
  let quotient := numerator / denominator
  let remainder := numerator % denominator
  if 2 * remainder < denominator then quotient
  else if denominator < 2 * remainder then quotient + 1
  else quotient + quotient % 2

/-- The double with the given parts, an infinity once the scale passes the greatest one. -/
def ofParts (negative : Bool) (significand scale : Nat) : Double :=
  if fits : significand < Nat.pow 2 53 ∧ scale ≤ 2045 ∧
      (scale = 0 ∨ Nat.pow 2 52 ≤ significand) then
    .finite ⟨negative, significand, scale, fits.1, fits.2.1, fits.2.2⟩
  else .infinite negative

/-- The double nearest to a quotient of whole numbers, of two equally near ones the even one. -/
def nearest (negative : Bool) (numerator denominator : Nat) : Double :=
  let units := numerator * unitsOfOne
  let scale := Nat.log2 (units / denominator) - 52
  let significand := roundQuotient units (denominator * Nat.pow 2 scale)
  if significand = Nat.pow 2 53 then ofParts negative (Nat.pow 2 52) (scale + 1)
  else ofParts negative significand scale

/-- The double nearest to an integer. -/
def ofInt (value : Int) : Double :=
  nearest (value < 0) value.natAbs 1

/-- The number without its fraction. -/
def truncated : Double → Double
  | .finite value => nearest value.negative value.wholePart 1
  | other => other

/-- The 64-bit word that a number stands for: its whole part, but zero for `nan` and all below zero,
and the greatest word for all beyond it. -/
def toWord : Double → Nat
  | .nan => 0
  | .infinite negative => if negative then 0 else Nat.pow 2 64 - 1
  | .finite value => if value.negative then 0 else min value.wholePart (Nat.pow 2 64 - 1)

/-- The number one. -/
def one : Double :=
  .finite ⟨false, Nat.pow 2 52, 1022, by decide, by decide, .inr (by decide)⟩

end Double

end EntitySearch
