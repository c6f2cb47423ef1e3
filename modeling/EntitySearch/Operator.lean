/-!
# Comparison operators

The vocabulary of filter rows. An operator tests the state of an attribute and needs no value,
compares it with one value, or looks for it among several.
-/

namespace EntitySearch

/-- A test that needs no value. -/
inductive StateTest where
  | null
  | notNull
  | today
  | tomorrow
  | yesterday
  deriving DecidableEq

/-- A comparison by order. -/
inductive Relation where
  | eq
  | ne
  | ge
  | gt
  | le
  | lt
  deriving DecidableEq

/-- The place of a text within another one. -/
inductive Placement where
  | start
  | ending
  | anywhere
  deriving DecidableEq

/-- A comparison with one value. -/
inductive Comparison where
  | relation (order : Relation)
  /-- By a part of the text, or by its absence. -/
  | part (placement : Placement) (negated : Bool)
  deriving DecidableEq

/-- An operator of a filter row. -/
inductive Operator where
  /-- A test that needs no value. -/
  | state (test : StateTest)
  | compare (comparison : Comparison)
  | among
  deriving DecidableEq

namespace StateTest

/-- The token of a test. -/
def token : StateTest → String
  | null => "null"
  | notNull => "not-null"
  | today => "today"
  | tomorrow => "tomorrow"
  | yesterday => "yesterday"

end StateTest

namespace Relation

/-- The token of a comparison by order. -/
def token : Relation → String
  | eq => "eq"
  | ne => "ne"
  | ge => "ge"
  | gt => "gt"
  | le => "le"
  | lt => "lt"

end Relation

namespace Comparison

/-- The token of a comparison. -/
def token : Comparison → String
  | .relation order => order.token
  | .part .start false => "begins-with"
  | .part .start true => "not-begin-with"
  | .part .ending false => "ends-with"
  | .part .ending true => "not-end-with"
  | .part .anywhere false => "like"
  | .part .anywhere true => "not-like"

end Comparison

namespace Operator

/-- The token of an operator, the same in both query languages. -/
def token : Operator → String
  | state test => test.token
  | compare comparison => comparison.token
  | among => "in"

/-- An order comparison as an operator. -/
def ofRelation (order : Relation) : Operator := .compare (.relation order)

/-- The operators that compare parts of texts. -/
def parts : List Operator :=
  [.compare (.part .start false), .compare (.part .start true), .compare (.part .ending false),
    .compare (.part .ending true), .compare (.part .anywhere false),
    .compare (.part .anywhere true)]

/-- The whole vocabulary. -/
def all : List Operator :=
  [ofRelation .eq, ofRelation .ne, ofRelation .ge, ofRelation .gt, ofRelation .le, ofRelation .lt,
    .among] ++ parts ++
    [.state .null, .state .notNull, .state .today, .state .tomorrow, .state .yesterday]

/-- The operator of a token, letter case included. -/
def ofToken? (token : String) : Option Operator :=
  all.find? (·.token == token)

/-- The operator ignores values. -/
def takesNoValue : Operator → Bool
  | state _ => true
  | compare _ | among => false

@[simp]
theorem ofToken?_token (operator : Operator) : ofToken? operator.token = some operator := by
  cases operator with
  | state test => cases test <;> decide
  | compare comparison =>
      cases comparison with
      | relation order => cases order <;> decide
      | part placement negated => cases placement <;> cases negated <;> decide
  | among => decide

theorem token_of_ofToken? {token : String} {operator : Operator}
    (known : ofToken? token = some operator) : operator.token = token := by
  simpa using List.find?_some known

end Operator

end EntitySearch
