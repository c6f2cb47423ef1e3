import EntitySearch.Json.Basic

/-!
# Numbers in JSON text

A number without fraction and exponent is an integer as long as it fits 64 bits. Any other number
is read as a significand of 64 bits, further digits dropped, that is rounded to a double and then
scaled by a power of ten that is a double itself. The result can differ in its last bit from the
double nearest to the text.
-/

namespace EntitySearch

namespace Json

/-- A number as it is spelled in a document. -/
structure NumberSpelling where
  /-- A minus sign stands in front. -/
  negative : Bool
  /-- Digits before the point. -/
  whole : List Char
  /-- Digits behind the point, none if there is no point. -/
  fraction : List Char
  /-- The power of ten behind the mark `e`, if there is one. -/
  exponent : Option Int

namespace NumberSpelling

/-- Significands stay below this bound. -/
def significandBound : Nat := Nat.pow 2 64

/-- Add digits before the point to a significand; the digits that no longer fit are counted. -/
def takeWhole (significand : Nat) : List Char → Nat × Nat
  | [] => (significand, 0)
  | digit :: rest =>
      let longer := 10 * significand + Text.digitValue digit
      if longer < significandBound then takeWhole longer rest else (significand, rest.length + 1)

/-- Add digits behind the point to a significand; the digits taken in are counted. -/
def takeFraction (significand taken : Nat) : List Char → Nat × Nat
  | [] => (significand, taken)
  | digit :: rest =>
      let longer := 10 * significand + Text.digitValue digit
      if longer < significandBound then takeFraction longer (taken + 1) rest
      else (significand, taken)

/-- The greatest power of ten that a double is scaled by in one step. -/
def greatestPower : Nat := 308

/-- The finite double in units of the least positive one, `none` for the others. -/
def finite? : Double → Option Double.Finite
  | .finite value => some value
  | .nan | .infinite _ => none

/-- The double nearest to a product with a power of ten that is rounded to a double first. -/
def timesPower? (value : Double.Finite) (power : Nat) : Option Double.Finite := do
  let ten ← finite? (.nearest false (Nat.pow 10 power) 1)
  let one := Double.unitsOfOne
  finite? (.nearest value.negative (value.units * ten.units) (one * one))

/-- The double nearest to a quotient by a power of ten that is rounded to a double first. -/
def overPower? (value : Double.Finite) (power : Nat) : Option Double.Finite := do
  let ten ← finite? (.nearest false (Nat.pow 10 power) 1)
  finite? (.nearest value.negative value.units ten.units)

/-- Divide a double by the greatest power of ten a number of times, or until nothing is left. -/
def reduce? : Nat → Double.Finite → Option Double.Finite
  | 0, value => some value
  | steps + 1, value =>
      if value.isZero then some value else (overPower? value greatestPower).bind (reduce? steps)

/-- Divide a double by a power of ten, in steps of the greatest one and a last step by the rest. -/
def scaleDown? (value : Double.Finite) (power : Nat) : Option Double.Finite :=
  let steps := (power - 1) / greatestPower
  (reduce? steps value).bind (overPower? · (power - steps * greatestPower))

/-- Scale a double by a power of ten; there is no result beyond the greatest double. -/
def scale? (value : Double.Finite) (power : Int) : Option Double.Finite :=
  if power < 0 then scaleDown? value power.natAbs
  else if power ≤ greatestPower then timesPower? value power.natAbs
  else if value.isZero then some value
  else none

/-- The double that a spelling denotes. -/
def double? (spelling : NumberSpelling) : Option Double.Finite := do
  let (significand, dropped) := takeWhole 0 spelling.whole
  let (significand, taken) := takeFraction significand 0 spelling.fraction
  let start ← finite? (.nearest spelling.negative significand 1)
  scale? start (dropped - taken + spelling.exponent.getD 0)

/-- The integer of a spelling that has neither fraction nor exponent and fits 64 bits. -/
def integer? (spelling : NumberSpelling) : Option Int :=
  let value := Text.digitsValue spelling.whole
  if ! spelling.fraction.isEmpty || spelling.exponent.isSome then none
  else if spelling.negative then if 0 < value && value ≤ Nat.pow 2 63 then some (-value) else none
  else if value < Nat.pow 2 64 then some value
  else none

/-- The document that a spelling denotes, unreadable beyond the greatest double. -/
def document (spelling : NumberSpelling) : Json :=
  match spelling.integer? with
  | some value => .number (.integer value)
  | none =>
      match spelling.double? with
      | some value => .number (.double value)
      | none => .unreadable

end NumberSpelling

end Json

end EntitySearch
