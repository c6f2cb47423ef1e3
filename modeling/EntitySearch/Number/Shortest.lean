import EntitySearch.Number.Decimal

/-!
# The shortest decimal of a double

Of all decimals that are read back as a given double, the one with the fewest digits is written,
and of those the one nearest to the double. Two decimals can be equally near; which of them is
taken is part of the notation.
-/

namespace EntitySearch

/-- The choice between two decimals that are equally near. -/
inductive Tie where
  /-- Take the one with the even last digit. -/
  | even
  /-- Take the greater one. -/
  | up
  deriving DecidableEq

namespace Double.Finite

/-- Exponent of the leading decimal digit. -/
def leadingPlace (value : Finite) : Int :=
  Decimal.width (value.units * Nat.pow 10 330 / unitsOfOne) - 331

/-- Distance to the next lower double, in quarters of a unit in the last place.

Below a power of two doubles lie twice as close as above it. -/
def gapBelow (value : Finite) : Nat :=
  if value.significand = Nat.pow 2 52 ∧ 0 < value.scale then 1 else 2

/-- The decimal of `count` digits that is read back as the value and nearest to it, if any. -/
def decimalOfWidth? (tie : Tie) (value : Finite) (count : Nat) : Option Decimal :=
  let place : Int := value.leadingPlace + 1 - count
  let stretch := Nat.pow 10 (-place).toNat
  let step := 4 * unitsOfOne * Nat.pow 10 place.toNat
  let center := 4 * value.units * stretch
  let least := (4 * value.significand - value.gapBelow) * Nat.pow 2 value.scale * stretch
  let greatest := (4 * value.significand + 2) * Nat.pow 2 value.scale * stretch
  let reads (digits : Nat) : Bool :=
    if value.significand % 2 = 0 then least ≤ digits * step && digits * step ≤ greatest
    else least < digits * step && digits * step < greatest
  let lower := center / step
  let remainder := center % step
  let takeLower : Bool :=
    2 * remainder < step || (2 * remainder == step && tie == .even && lower % 2 == 0)
  match reads lower, reads (lower + 1) with
  | false, false => none
  | true, false => some ⟨lower, place⟩
  | false, true => some ⟨lower + 1, place⟩
  | true, true => some ⟨if takeLower then lower else lower + 1, place⟩

end Double.Finite

namespace Decimal

/-- The decimal without up to `count` zeros at the end of its digits. -/
def dropZeros : Nat → Decimal → Decimal
  | 0, decimal => decimal
  | count + 1, decimal =>
      if decimal.digits % 10 = 0 then dropZeros count ⟨decimal.digits / 10, decimal.exponent + 1⟩
      else decimal

/-- The shortest decimal that is read back as a positive magnitude.

Seventeen digits tell all doubles apart, so the search ends at the latest there. -/
def shortest (tie : Tie) (value : Double.Finite) : Decimal :=
  if value.isZero then ⟨0, 0⟩
  else
    match (List.range 17).findSome? fun shorter => value.decimalOfWidth? tie (shorter + 1) with
    | some decimal => dropZeros 17 decimal
    | none => ⟨value.wholePart, 0⟩

/-- Positional notation: the digits with a point or zeros where the exponent asks for them. -/
def positional (decimal : Decimal) : List Char :=
  let digits := Text.natDigits decimal.digits
  let places := (-decimal.exponent).toNat
  if 0 ≤ decimal.exponent then digits ++ List.replicate decimal.exponent.toNat '0'
  else if places < digits.length then
    digits.take (digits.length - places) ++ '.' :: digits.drop (digits.length - places)
  else '0' :: '.' :: List.replicate (places - digits.length) '0' ++ digits

/-- Positional notation that shows a fraction, also of a whole number. -/
def positionalWithFraction (decimal : Decimal) : List Char :=
  decimal.positional ++ if 0 ≤ decimal.exponent then ['.', '0'] else []

/-- Scientific notation: one digit, a point and the others if there are any, the signed exponent. -/
def scientific (decimal : Decimal) : List Char :=
  let digits := Text.natDigits decimal.digits
  let power : Int := decimal.exponent + digits.length - 1
  let mantissa :=
    match digits with
    | first :: second :: rest => first :: '.' :: second :: rest
    | short => short
  mantissa ++ 'e' :: (if power < 0 then '-' else '+') :: Text.natDigits power.natAbs

end Decimal

namespace Double

/-- The sign in front of a number. -/
def signText (negative : Bool) : List Char :=
  if negative then ['-'] else []

/-- A finite number as a numeral: positional, of the fewest digits, ties upwards, zero unsigned. -/
def Finite.numeral (value : Finite) : List Char :=
  if value.isZero then ['0']
  else signText value.negative ++ (Decimal.shortest .up value).positional

/-- A number in plain decimal notation, never with an exponent or a needless fraction. -/
def numeral : Double → String
  | .nan => "NaN"
  | .infinite negative => String.ofList (signText negative ++ ['i', 'n', 'f'])
  | .finite value => String.ofList value.numeral

/-- A number in plain decimal notation in which a negative zero shows its sign. -/
def signedNumeral : Double → String
  | .finite value =>
      if value.isZero then String.ofList (signText value.negative ++ ['0'])
      else (Double.finite value).numeral
  | other => other.numeral

end Double

end EntitySearch
