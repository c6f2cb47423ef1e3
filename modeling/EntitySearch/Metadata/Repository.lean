import EntitySearch.EntityQuery
import EntitySearch.Metadata.Basic
import EntitySearch.SearchError

/-!
# Repositories

A repository answers five kinds of requests. Every request may fail, and it moves the state of what
is behind the repository on. A logged repository keeps the requests made beside that state.
-/

namespace EntitySearch

/-- A computation that asks a repository; it may fail, and the state moves on in either case. -/
abbrev Session (State : Type) := ExceptT SearchError (StateM State)

/-- A source of metadata and records. -/
structure Repository (State : Type) where
  /-- The entities of given names. -/
  entities : List String → Session State (List Metadata.Entity)
  /-- The attributes of an entity that have given names. -/
  attributes : String → List String → Session State (List Metadata.Attribute)
  /-- The targets of an attribute that refers to other records. -/
  lookup : String → String → Session State Metadata.Lookup
  /-- The option set of an attribute. -/
  picklist : String → String → Session State Metadata.Picklist
  /-- The records of a set, with selected attributes. -/
  records : String → List String → EntityQuery → Session State Json

/-- A request to a repository. -/
inductive Request where
  | entities (names : List String)
  | attributes (entity : String) (names : List String)
  | lookup (entity attributeName : String)
  | picklist (entity attributeName : String)
  | records (set : String) (select : List String) (query : EntityQuery)
  deriving DecidableEq

namespace Repository

variable {State : Type}

/-- Make a request and note it. -/
def note {Answer : Type} (request : Request) (ask : Session State Answer) :
    Session (State × List Request) Answer :=
  fun (state, requests) =>
    let (answer, state) := ask state
    (answer, (state, requests ++ [request]))

/-- The repository that keeps the requests made, in their order. -/
def logged (repository : Repository State) : Repository (State × List Request) where
  entities names := note (.entities names) (repository.entities names)
  attributes entity names := note (.attributes entity names) (repository.attributes entity names)
  lookup entity name := note (.lookup entity name) (repository.lookup entity name)
  picklist entity name := note (.picklist entity name) (repository.picklist entity name)
  records set select query := note (.records set select query) (repository.records set select query)

end Repository

end EntitySearch
