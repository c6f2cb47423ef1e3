import EntitySearch.Json.Basic
import EntitySearch.Operator
import EntitySearch.Text.Pieces

/-!
# Values of filter rows

A value is a number picked from an option set or a text typed in. What an operator is applied to
follows from the values of its row: nothing, the first value that is not blank, or all of them.
-/

namespace EntitySearch

/-- A value entered by a user. -/
inductive FilterValue where
  | number (value : Double)
  | text (value : String)
  deriving DecidableEq

namespace FilterValue

/-- The value is a text of nothing but white space. -/
def isBlank : FilterValue → Bool
  | number _ => false
  | text value => Text.isBlank value

/-- The value as shown to users. -/
def display : FilterValue → String
  | number value => value.numeral
  | text value => value

/-- Equality of values; numbers are equal as numbers. -/
def same : FilterValue → FilterValue → Bool
  | number left, number right => left.same right
  | text left, text right => left == right
  | _, _ => false

def document : FilterValue → Json
  | number value => .ofDouble value
  | text value => .text value

def ofDocument? : Json → Option FilterValue
  | .number value => some (number value.toDouble)
  | .text value => some (text value)
  | _ => none

end FilterValue

/-- A test that an operator and its values amount to. -/
inductive Test (Value : Type) where
  /-- A test that needs no value. -/
  | state (test : StateTest)
  | compare (comparison : Comparison) (value : Value)
  | among (first : Value) (rest : List Value)
  deriving DecidableEq

namespace Test

/-- The test with every value replaced. -/
def map {Value Other : Type} (f : Value → Other) : Test Value → Test Other
  | state test => .state test
  | compare comparison value => .compare comparison (f value)
  | among first rest => .among (f first) (rest.map f)

end Test

namespace Operator

/-- The values that an operator sees: a single text to search among is a list between commas. -/
def expand : Operator → List FilterValue → List FilterValue
  | .among, [.text text] => (Text.commaSeparated text).map .text
  | _, values => values

/-- The test that an operator makes of its values, unless it lacks a value. -/
def test? (operator : Operator) (values : List FilterValue) : Option (Test FilterValue) :=
  match operator, (operator.expand values).filter (! ·.isBlank) with
  | .state test, _ => some (.state test)
  | .compare comparison, value :: _ => some (.compare comparison value)
  | .among, first :: rest => some (.among first rest)
  | _, [] => none

end Operator

end EntitySearch
