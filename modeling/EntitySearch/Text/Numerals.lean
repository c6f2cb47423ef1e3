/-!
# Whole numbers as decimal text

The value of a run of digits, and the digits of a whole number.
-/

namespace EntitySearch

namespace Text

/-- The value of one decimal digit. -/
def digitValue (c : Char) : Nat :=
  c.toNat - '0'.toNat

/-- The whole number that a run of decimal digits denotes. -/
def digitsValue (digits : List Char) : Nat :=
  digits.foldl (fun value c => 10 * value + digitValue c) 0

/-- The whole number that a run of decimal digits denotes, if it is a 64-bit word. -/
def word? (digits : List Char) : Option Nat :=
  if digitsValue digits < Nat.pow 2 64 then some (digitsValue digits) else none

/-- The decimal digits of a whole number, without leading zeros. -/
def natDigits (value : Nat) : List Char :=
  Nat.toDigits 10 value

/-- A whole number in decimal. -/
def natText (value : Nat) : String :=
  String.ofList (natDigits value)

/-- An integer in decimal, a minus sign in front of a negative one. -/
def intText : Int → String
  | .ofNat value => natText value
  | .negSucc value => "-" ++ natText (value + 1)

/-- The last `width` digits of a number, filled up with zeros from the left. -/
def paddedDigits : Nat → Nat → List Char
  | 0, _ => []
  | width + 1, value => paddedDigits width (value / 10) ++ [Nat.digitChar (value % 10)]

@[simp]
theorem length_paddedDigits (width value : Nat) : (paddedDigits width value).length = width := by
  induction width generalizing value with
  | zero => rfl
  | succ width shorter => simp [paddedDigits, shorter]

end Text

end EntitySearch
