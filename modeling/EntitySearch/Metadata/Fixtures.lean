import EntitySearch.Json.Reader
import EntitySearch.Metadata.Repository

/-!
# Fixture directories

A directory holds one JSON file for every request, in the form in which the service answers it.
Records are given as they are stored; no query is applied to them.
-/

namespace EntitySearch

/-- What is found under a file name. -/
inductive FileContent where
  | text (value : String)
  /-- Something that cannot be read as text. -/
  | unreadable
  deriving DecidableEq

/-- A directory of fixtures. -/
structure Fixtures where
  location : String
  files : List (String × FileContent)

namespace Fixtures

/-- Put a file into the directory. -/
def write (fixtures : Fixtures) (name : String) (content : FileContent) : Fixtures :=
  { fixtures with files := Entries.insert name content fixtures.files }

/-- Take a file out of the directory. -/
def remove (fixtures : Fixtures) (name : String) : Fixtures :=
  { fixtures with files := fixtures.files.filter (·.1 != name) }

/-- Path of a file. -/
def path (fixtures : Fixtures) (name : String) : String :=
  fixtures.location ++ "/" ++ name

/-- A file may have this name. A name holds no zero character, and its part before the first slash
takes up at most 255 bytes. -/
def isFileName (name : String) : Bool :=
  !name.toList.contains '\x00' &&
    (String.ofList (name.toList.takeWhile (· != '/'))).utf8ByteSize ≤ 255

/-- What is found under a name: nothing that can be read, if no file may have it. -/
def find? (fixtures : Fixtures) (name : String) : Option FileContent :=
  if isFileName name then Entries.find? name fixtures.files else some .unreadable

/-- The error of a file that does not hold what it should. -/
def malformed (name : String) : SearchError :=
  .json ("invalid fixture '" ++ name ++ "'")

/-- Read the document in a file. -/
def read {Answer : Type} (decode : Json → Option Answer) (name : String) :
    Session Fixtures Answer :=
  fun fixtures =>
    match fixtures.find? name with
    | none => (.error (.notFound "fixture" (some name)), fixtures)
    | some .unreadable => (.error (.file (fixtures.path name)), fixtures)
    | some (.text content) =>
        match (Json.read? content).bind decode with
        | some answer => (.ok answer, fixtures)
        | none => (.error (malformed name), fixtures)

/-- The repository over a directory. -/
def repository : Repository Fixtures where
  entities names := do
    let all ← read (Metadata.collection? Metadata.Entity.ofDocument?) "entities-md.json"
    pure (Metadata.Entity.named names all)
  attributes entity names := do
    let all ← read (Metadata.collection? Metadata.Attribute.ofDocument?)
      (entity ++ "-attributes-md.json")
    pure (Metadata.Attribute.named names all)
  lookup entity name :=
    read Metadata.Lookup.ofDocument? (entity ++ "-" ++ name ++ "-lookup-md.json")
  picklist entity name :=
    read Metadata.Picklist.ofDocument? (entity ++ "-" ++ name ++ "-picklist-md.json")
  records set _ _ := read Json.normalize? (set ++ ".json")

end Fixtures

end EntitySearch
