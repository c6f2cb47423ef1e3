import EntitySearch.FilterRow

/-!
# Descriptions of applied filters

Each row that is complete is described by the name of its attribute, its operator and its values.
-/

namespace EntitySearch

namespace FilterRow

/-- The values of a row as its description shows them. -/
def describedValues (operator : Operator) (values : List FilterValue) : String :=
  if operator.takesNoValue then operator.token else Text.join ", " (values.map FilterValue.display)

/-- The description of a row that holds a value or needs none. -/
def description? (row : FilterRow) : Option String := do
  let target := (← row.option).target
  let attributeName ← Text.nonBlank? target.attributeName
  let operator ← row.condition
  let name := target.displayName.getD attributeName
  some (name ++ " " ++ operator.token ++ " " ++ describedValues operator row.values)

/-- The descriptions of the rows that apply. -/
def descriptions (rows : List FilterRow) : List String :=
  (rows.filter hasConditionValue).filterMap description?

end FilterRow

/-- An operator offered for an attribute. -/
structure OperatorOption where
  operator : Operator
  label : String
  deriving DecidableEq

namespace OperatorOption

/-- The operators of a kind of attribute beside those that all kinds share. -/
def special (multiple : Bool) : AttributeKind → List Operator
  | .string | .memo | .uniqueIdentifier => .among :: Operator.parts
  | .picklist | .lookup => if multiple then [.among] else []
  | .number =>
      [.among, .ofRelation .ge, .ofRelation .gt, .ofRelation .le, .ofRelation .lt]
  | .dateTime =>
      [.ofRelation .ge, .ofRelation .gt, .ofRelation .le, .ofRelation .lt, .state .today,
        .state .tomorrow, .state .yesterday]
  | .boolean | .other => []

/-- The operators of a kind of attribute. -/
def operators (multiple : Bool) (kind : AttributeKind) : List Operator :=
  [.ofRelation .eq, .ofRelation .ne, .state .null, .state .notNull] ++ special multiple kind

/-- The operators of a kind of attribute with their labels, the token where there is none. -/
def ofKind (kind : AttributeKind) (labels : Dictionary String) (multiple : Bool) :
    List OperatorOption :=
  (operators multiple kind).map fun operator =>
    ⟨operator, (labels.find? operator.token).getD operator.token⟩

def document (option : OperatorOption) : Json :=
  .object [("value", option.operator.document), ("displayName", .text option.label)]

end OperatorOption

end EntitySearch
