import EntitySearch.Scheme.FilterOption

/-!
# Filter rows

A filter row is an option, an operator and values, as a user composed them. A row that is complete
amounts to a condition on an attribute; any other row is skipped for a reason. Which reason counts
when there are several is decided here once for both query languages.
-/

namespace EntitySearch

/-- One row of the filter. -/
structure FilterRow where
  option : Option FilterOption
  condition : Option Operator
  values : List FilterValue
  /-- The row is switched off. -/
  disabled : Bool
  deriving DecidableEq

/-- Why a row contributes nothing to a query. -/
inductive SkipReason where
  | noOption
  | noOperator
  | noAttribute
  | disabled
  | noValue
  /-- The row filters by an entity that the query cannot join. -/
  | needsJoin
  /-- A join on the way to the attribute is incomplete. -/
  | incompleteJoin
  deriving DecidableEq

/-- What a row asks of an attribute. -/
structure Condition where
  option : FilterOption
  attributeName : String
  test : Test FilterValue
  deriving DecidableEq

namespace SkipReason

def message : SkipReason → String
  | noOption => "no filter option selected"
  | noOperator => "no condition selected"
  | noAttribute => "filter option has no attribute name"
  | disabled => "condition is disabled"
  | noValue => "condition has no value"
  | needsJoin => "condition targets a related entity"
  | incompleteJoin => "join path is incomplete"

end SkipReason

namespace Condition

def kind (condition : Condition) : AttributeKind :=
  condition.option.target.kind

/-- The condition concerns another entity than the one searched. -/
def isRelated (entity : String) (condition : Condition) : Bool :=
  1 < condition.option.length ||
    match Text.nonBlank? condition.option.target.entityName with
    | some target => target != entity
    | none => false

end Condition

namespace FilterRow

/-- A row of an option with an operator and values. -/
def ofParts (option : FilterOption) (condition : Operator) (values : List FilterValue) :
    FilterRow :=
  ⟨some option, some condition, values, false⟩

/-- The row that an option starts with. -/
def ofDefaults (option : FilterOption) : FilterRow :=
  let defaults := option.root.default.getD .none
  ⟨some option, defaults.condition, defaults.values.getD [], defaults.isDisabled.getD false⟩

/-- The row switched off. -/
def switchedOff (row : FilterRow) : FilterRow :=
  { row with disabled := true }

/-- The row holds enough to be listed among the applied filters. -/
def hasConditionValue (row : FilterRow) : Bool :=
  row.condition.any Operator.takesNoValue || row.values.any (! ·.isBlank)

/-- The condition that a row amounts to. -/
def condition? (row : FilterRow) : Except SkipReason Condition :=
  match row.option, row.condition with
  | none, _ => .error .noOption
  | some _, none => .error .noOperator
  | some option, some operator =>
      match Text.nonBlank? option.target.attributeName with
      | none => .error .noAttribute
      | some attributeName =>
          if row.disabled then .error .disabled
          else
            match operator.test? row.values with
            | none => .error .noValue
            | some test => .ok { option, attributeName, test }

def fieldNames : List String := ["filterOption", "condition", "values", "isDisabled"]

def ofDocument? (document : Json) : Option FilterRow := do
  let record ← document.record? fieldNames
  let option ← record.optional FilterOption.ofDocument? "filterOption"
  let condition ← record.defaulted Operator.read? none "condition"
  let values ← record.defaulted (Json.list? FilterValue.ofDocument?) [] "values"
  let disabled ← record.defaulted Json.boolean? false "isDisabled"
  some { option, condition, values, disabled }

def document (row : FilterRow) : Json :=
  .object
    [("filterOption", Json.ofOption FilterOption.document row.option),
      ("condition", Json.ofOption Operator.document row.condition),
      ("values", .array (row.values.map FilterValue.document)),
      ("isDisabled", .boolean row.disabled)]

end FilterRow

/-- A row that was skipped. -/
structure SkippedRow where
  index : Nat
  reason : SkipReason
  deriving DecidableEq

/-- What became of a list of rows. -/
structure Sifted (Kept : Type) where
  /-- What the accepted rows amount to, in their order. -/
  kept : List Kept
  /-- The other rows, in their order. -/
  skipped : List SkippedRow

namespace Sifted

/-- Sift rows of which the first has a given position. -/
def rowsFrom {Kept : Type} (check : FilterRow → Except SkipReason Kept) (index : Nat) :
    List FilterRow → Sifted Kept
  | [] => ⟨[], []⟩
  | row :: rest =>
      let others := rowsFrom check (index + 1) rest
      match check row with
      | .ok kept => { others with kept := kept :: others.kept }
      | .error reason => { others with skipped := ⟨index, reason⟩ :: others.skipped }

/-- Sift rows into those that pass a check and those that are skipped. -/
def rows {Kept : Type} (check : FilterRow → Except SkipReason Kept) (given : List FilterRow) :
    Sifted Kept :=
  rowsFrom check 0 given

theorem length_rowsFrom {Kept : Type} (check : FilterRow → Except SkipReason Kept) (index : Nat)
    (given : List FilterRow) :
    (rowsFrom check index given).kept.length + (rowsFrom check index given).skipped.length =
      given.length := by
  induction given generalizing index with
  | nil => rfl
  | cons row rest later =>
      have counted := later (index + 1)
      simp only [rowsFrom]
      split <;> simp <;> omega

end Sifted

end EntitySearch
