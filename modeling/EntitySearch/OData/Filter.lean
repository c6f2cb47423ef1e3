import EntitySearch.FilterRow
import EntitySearch.Literal

/-!
# OData filters

A filter is a conjunction of expressions on attributes of the searched entity. It cannot reach other
entities, so rows on them are skipped.
-/

namespace EntitySearch

namespace OData

/-- One expression of a filter: what is asked of an attribute, with literals for values. -/
structure Expression where
  attributeName : String
  test : Test String
  deriving DecidableEq

/-- The function that tests for a part of a text. -/
def partFunction : Placement → String
  | .start => "startswith"
  | .ending => "endswith"
  | .anywhere => "contains"

namespace Expression

/-- The text of a test for a state. -/
def stateText (attributeName : String) : StateTest → String
  | .null => attributeName ++ " eq null"
  | .notNull => attributeName ++ " ne null"
  | .today => "Microsoft.Dynamics.CRM.Today(PropertyName='" ++ attributeName ++ "')"
  | .tomorrow => "Microsoft.Dynamics.CRM.Tomorrow(PropertyName='" ++ attributeName ++ "')"
  | .yesterday => "Microsoft.Dynamics.CRM.Yesterday(PropertyName='" ++ attributeName ++ "')"

/-- The text of a comparison with a literal. -/
def comparisonText (attributeName literal : String) : Comparison → String
  | .relation order => attributeName ++ " " ++ order.token ++ " " ++ literal
  | .part placement negated =>
      (if negated then "not " else "") ++ partFunction placement ++ "(" ++ attributeName ++ "," ++
        literal ++ ")"

/-- The text of an expression. -/
def text (expression : Expression) : String :=
  match expression.test with
  | .state test => stateText expression.attributeName test
  | .compare comparison literal => comparisonText expression.attributeName literal comparison
  | .among first rest => expression.attributeName ++ " in (" ++ Text.join "," (first :: rest) ++ ")"

/-- The expression of a condition, local times taken in a time zone. -/
def ofCondition (zone : TimeZone) (condition : Condition) : Expression :=
  ⟨condition.attributeName, condition.test.map (odataLiteral zone condition.kind)⟩

end Expression

/-- The text of a filter: every expression in parentheses, all of them joined. -/
def filterText (expressions : List Expression) : String :=
  Text.join " and " (expressions.map fun expression => "(" ++ expression.text ++ ")")

/-- A filter and the rows that it leaves out. -/
structure Filter where
  /-- The text of the filter; there is none without an expression. -/
  text : Option String
  skipped : List SkippedRow
  deriving DecidableEq

/-- The expression that a row amounts to. -/
def expression? (zone : TimeZone) (entity : String) (row : FilterRow) :
    Except SkipReason Expression :=
  match row.condition? with
  | .error reason => .error reason
  | .ok condition =>
      if condition.isRelated entity then .error .needsJoin
      else .ok (.ofCondition zone condition)

/-- The filter of rows on an entity. -/
def Filter.ofRows (zone : TimeZone) (entity : String) (rows : List FilterRow) : Filter :=
  let sifted := Sifted.rows (expression? zone entity) rows
  ⟨if sifted.kept.isEmpty then none else some (filterText sifted.kept), sifted.skipped⟩

end OData

end EntitySearch
