import EntitySearch.Text.Numerals

/-!
# Errors of a search

What can go wrong while settings are read and the service is asked. Compiling never fails: rows and
columns that are incomplete are left out and reported instead.
-/

namespace EntitySearch

/-- An error with what there is to say about it. -/
inductive SearchError where
  | notFound (resource : String) (id : Option String)
  | config (message : String)
  | file (path : String)
  | json (context : String)
  | xml (context : String)
  | http (operation : String)
  | status (code : Nat) (url body : String)
  deriving DecidableEq

namespace SearchError

/-- Characters of a refused response that are kept. -/
def bodyLimit : Nat := 200

/-- A refusal with the start of its body. -/
def refused (code : Nat) (url body : String) : SearchError :=
  .status code url (String.ofList (body.toList.take bodyLimit))

/-- An error while a document without further context is read. -/
def unreadableDocument : SearchError := .json "failed to parse JSON"

/-- A request without further context that got no response. -/
def failedRequest : SearchError := .http "request"

def message : SearchError → String
  | notFound resource (some id) => resource ++ " '" ++ id ++ "' not found"
  | notFound resource none => resource ++ " not found"
  | config message => message
  | file path => "Could not read '" ++ path ++ "'"
  | json context => "Invalid data: " ++ context
  | xml context => "Could not build query: " ++ context
  | http operation => "Request failed: " ++ operation
  | status code _ _ => "The CRM returned status " ++ Text.natText code

/-- The error was caused by another one. -/
def hasCause : SearchError → Bool
  | file _ | json _ | xml _ | http _ => true
  | notFound _ _ | config _ | status _ _ _ => false

end SearchError

end EntitySearch
