import EntitySearch.Grid
import EntitySearch.Metadata.Repository
import EntitySearch.Plan

/-!
# Running a search

A search is planned, the name of the entity's set of records is asked for, and then the records.
-/

namespace EntitySearch

namespace SearchPlan

variable {State : Type}

/-- Ask for the records of a plan. -/
def execute (plan : SearchPlan) (repository : Repository State) (set : String) :
    Session State (List Row) := do
  let response ← repository.records set plan.select plan.entityQuery
  pure (Row.ofResponse response)

/-- Ask for the name of the set of an entity's records. -/
def setName (repository : Repository State) (entity : String) : Session State String := do
  let entities ← repository.entities [entity]
  match entities.findSome? Metadata.Entity.collectionName? with
  | some name => pure name
  | none => throw (.notFound "entity set" (some entity))

/-- Plan a search and run it. -/
def search (repository : Repository State) (zone : TimeZone) (scheme : EntityScheme)
    (rows : List FilterRow) : Session State (SearchPlan × List Row) := do
  let plan := build zone scheme rows
  let set ← setName repository scheme.logicalName
  let found ← plan.execute repository set
  pure (plan, found)

end SearchPlan

end EntitySearch
