/-!
# Queries for records

How the records of an entity set are selected.
-/

namespace EntitySearch

/-- Which records of an entity set are asked for. -/
inductive EntityQuery where
  | all
  | filter (text : String)
  | fetchXml (text : String)
  deriving DecidableEq

end EntitySearch
