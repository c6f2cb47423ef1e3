import EntitySearch.Column
import EntitySearch.FetchXml.Document
import EntitySearch.FilterRow
import EntitySearch.Literal

/-!
# FetchXML queries of rows and columns

Columns and conditions are placed at the ends of their join paths, so that all of them which share a
path share its links. Only a row whose join path is incomplete cannot be placed.
-/

namespace EntitySearch

namespace FetchXml

/-- The pattern that matches texts with a literal at a place. -/
def pattern (literal : String) : Placement → String
  | .start => literal ++ "%"
  | .ending => "%" ++ literal
  | .anywhere => "%" ++ literal ++ "%"

namespace Criterion

/-- The comparison of an attribute with a literal.

The language has no negated tests for the start and the end of a text, so patterns stand in. -/
def ofComparison (attributeName literal : String) : Comparison → Criterion
  | .relation order => ⟨attributeName, order.token, .value literal⟩
  | .part .start false => ⟨attributeName, "begins-with", .value literal⟩
  | .part .ending false => ⟨attributeName, "ends-with", .value literal⟩
  | .part .anywhere false => ⟨attributeName, "like", .value (pattern literal .anywhere)⟩
  | .part placement true => ⟨attributeName, "not-like", .value (pattern literal placement)⟩

/-- The condition on an attribute that a test amounts to. -/
def ofTest (attributeName : String) : Test String → Criterion
  | .state test => ⟨attributeName, test.token, .none⟩
  | .compare comparison literal => ofComparison attributeName literal comparison
  | .among first rest => ⟨attributeName, Operator.among.token, .list first rest⟩

/-- The condition that a row asks for. -/
def ofCondition (condition : Condition) : Criterion :=
  ofTest condition.attributeName (condition.test.map (fetchLiteral condition.kind))

end Criterion

/-- A condition and the path to the entity that it is on. -/
structure PlacedCriterion where
  path : List Hop
  criterion : Criterion
  deriving DecidableEq

/-- The placed condition that a row amounts to. -/
def placedCriterion? (row : FilterRow) : Except SkipReason PlacedCriterion :=
  match row.condition? with
  | .error reason => .error reason
  | .ok condition =>
      match condition.option.joinPath? with
      | some path => .ok ⟨path, .ofCondition condition⟩
      | none => .error .incompleteJoin

namespace Scope

/-- The scope of the searched entity with one more column.

A column elsewhere needs a path; without one it is passed over. -/
def addColumn (scope : Scope) (column : Column) : Scope :=
  if column.isRoot then scope.project ⟨column.attributeName, none⟩
  else if column.joinPath.isEmpty then scope
  else modifyAt (project ⟨column.attributeName, some column.valueKey⟩) column.joinPath scope

/-- The scope of the searched entity with one more condition. -/
def addCriterion (scope : Scope) (placed : PlacedCriterion) : Scope :=
  modifyAt (require placed.criterion) placed.path scope

end Scope

/-- A query and the rows that it leaves out. -/
structure Query where
  document : Document
  skipped : List SkippedRow

/-- The query of rows and columns on an entity, or of one page of them. -/
def Query.ofRows (entity : String) (rows : List FilterRow) (columns : List Column)
    (page : Option Page) : Query :=
  let sifted := Sifted.rows placedCriterion? rows
  let projected := columns.foldl Scope.addColumn .blank
  ⟨⟨page, entity, sifted.kept.foldl Scope.addCriterion projected⟩, sifted.skipped⟩

def Query.text (query : Query) : String :=
  query.document.text

end FetchXml

end EntitySearch
