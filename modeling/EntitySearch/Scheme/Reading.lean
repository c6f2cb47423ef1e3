import EntitySearch.FilterRow
import EntitySearch.Json.Reader
import EntitySearch.Scheme.Settings
import EntitySearch.SearchError

/-!
# Reading settings and rows

Settings and filter rows are read from JSON text; settings may come from a file.
-/

namespace EntitySearch

namespace Settings

/-- Read settings from their text. -/
def ofText (text : String) : Except SearchError Settings :=
  match (Json.read? text).bind ofDocument? with
  | some settings => .ok settings
  | none => .error (.json "invalid search configuration")

/-- Read settings from the file at a path; its content is missing if it cannot be read as text. -/
def ofFile (path : String) : Option String → Except SearchError Settings
  | some content => ofText content
  | none => .error (.file path)

end Settings

namespace FilterRow

/-- Read filter rows from their text. -/
def listOfText (text : String) : Except SearchError (List FilterRow) :=
  match (Json.read? text).bind (Json.list? ofDocument?) with
  | some rows => .ok rows
  | none => .error .unreadableDocument

end FilterRow

end EntitySearch
