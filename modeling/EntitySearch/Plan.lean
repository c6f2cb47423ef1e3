import EntitySearch.EntityQuery
import EntitySearch.FetchXml.Query
import EntitySearch.OData.Filter
import EntitySearch.Scheme.Settings

/-!
# Search plans

A plain OData request serves as long as every column and every row stay on the searched entity.
Otherwise the whole search is one FetchXML query.
-/

namespace EntitySearch

/-- What a search asks the service for. -/
inductive PlannedQuery where
  /-- Attributes to select and a filter. -/
  | odata (select : List String) (filter : Option String)
  | fetchXml (text : String)
  deriving DecidableEq

/-- A compiled search. -/
structure SearchPlan where
  entity : String
  columns : List Column
  query : PlannedQuery
  skipped : List SkippedRow
  deriving DecidableEq

namespace SearchPlan

/-- The row amounts to a condition on another entity. -/
def isRelatedRow (entity : String) (row : FilterRow) : Bool :=
  match row.condition? with
  | .ok condition => condition.isRelated entity
  | .error _ => false

/-- A column or a row reaches another entity. -/
def needsJoin (entity : String) (columns : List Column) (rows : List FilterRow) : Bool :=
  columns.any (! ·.isRoot) || rows.any (isRelatedRow entity)

/-- The plan of a search, local times taken in a time zone. -/
def build (zone : TimeZone) (scheme : EntityScheme) (rows : List FilterRow) : SearchPlan :=
  let entity := scheme.logicalName
  let columns := Column.ofTableColumns entity scheme.resultView.columns
  if needsJoin entity columns rows then
    let query := FetchXml.Query.ofRows entity rows columns none
    ⟨entity, columns, .fetchXml query.text, query.skipped⟩
  else
    let filter := OData.Filter.ofRows zone entity rows
    ⟨entity, columns, .odata (Column.selected columns) filter.text, filter.skipped⟩

def usesFetchXml (plan : SearchPlan) : Bool :=
  match plan.query with
  | .fetchXml _ => true
  | .odata _ _ => false

/-- The attributes selected beside the query. -/
def select (plan : SearchPlan) : List String :=
  match plan.query with
  | .odata select _ => select
  | .fetchXml _ => []

/-- The query for the records. -/
def entityQuery (plan : SearchPlan) : EntityQuery :=
  match plan.query with
  | .odata _ (some filter) => .filter filter
  | .odata _ none => .all
  | .fetchXml text => .fetchXml text

end SearchPlan

end EntitySearch
