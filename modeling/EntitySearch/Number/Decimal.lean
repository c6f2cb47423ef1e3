import EntitySearch.Number.Double
import EntitySearch.Text.Numerals

/-!
# Decimal notation

A decimal is a whole number of some power of ten. The double that a decimal text denotes is the one
nearest to it.
-/

namespace EntitySearch

/-- A magnitude `digits · 10 ^ exponent`. -/
structure Decimal where
  /-- The digits, read as one whole number. -/
  digits : Nat
  /-- Power of ten that the last digit counts. -/
  exponent : Int
  deriving DecidableEq

namespace Decimal

/-- Number of decimal digits of a whole number. -/
def width (value : Nat) : Nat :=
  (Text.natDigits value).length

/-- The double nearest to a decimal.

Decimals from `10 ^ 310` on exceed every double, and those below `10 ^ (-400)` are nearest to zero,
so powers of ten outside these bounds need not be computed. -/
def toDouble (negative : Bool) (decimal : Decimal) : Double :=
  let places : Int := width decimal.digits + decimal.exponent
  if decimal.digits = 0 || places < -400 then .finite (.zero negative)
  else if 310 < places then .infinite negative
  else if 0 ≤ decimal.exponent then
    .nearest negative (decimal.digits * Nat.pow 10 decimal.exponent.toNat) 1
  else .nearest negative decimal.digits (Nat.pow 10 (-decimal.exponent).toNat)

/-- Cut a sign off the front; the flag tells a minus. -/
def takeSign : List Char → Bool × List Char
  | '-' :: rest => (true, rest)
  | '+' :: rest => (false, rest)
  | rest => (false, rest)

/-- The exponent part of a decimal text: nothing, or `e`, an optional sign and digits. -/
def exponent? : List Char → Option Int
  | [] => some 0
  | mark :: rest =>
      if mark = 'e' || mark = 'E' then
        let (negative, digits) := takeSign rest
        if digits.isEmpty || ! digits.all Char.isDigit then none
        else
          let value : Int := Text.digitsValue digits
          some (if negative then -value else value)
      else none

/-- The digits after a decimal point, and what follows them. -/
def takeFraction : List Char → List Char × List Char
  | '.' :: rest => (rest.takeWhile Char.isDigit, rest.dropWhile Char.isDigit)
  | rest => ([], rest)

/-- Read an unsigned decimal: digits with an optional point among, before or after them, and an
optional exponent. -/
def ofText? (text : List Char) : Option Decimal :=
  let whole := text.takeWhile Char.isDigit
  let (fraction, rest) := takeFraction (text.dropWhile Char.isDigit)
  if whole.isEmpty && fraction.isEmpty then none
  else
    (exponent? rest).map fun exponent =>
      ⟨Text.digitsValue (whole ++ fraction), exponent - fraction.length⟩

end Decimal

namespace Double

/-- Read a number: an optional sign, then a decimal or one of the words `inf`, `infinity` and `nan`
in any letter case. -/
def ofText? (text : String) : Option Double :=
  let (negative, magnitude) := Decimal.takeSign text.toList
  match Decimal.ofText? magnitude with
  | some decimal => some (decimal.toDouble negative)
  | none =>
      let word := String.ofList (magnitude.map Char.toLower)
      if word = "inf" || word = "infinity" then some (.infinite negative)
      else if word = "nan" then some .nan
      else none

end Double

end EntitySearch
