import EntitySearch.Gathered
import EntitySearch.Grid
import EntitySearch.Metadata.Repository
import EntitySearch.Scheme.FilterOption

/-!
# Value pickers

Option sets offer their options, references the records that they may lead to. A picked value stays
as long as it is offered.
-/

namespace EntitySearch

/-- A value offered by a picker. -/
structure ValueOption where
  value : FilterValue
  label : String
  deriving DecidableEq

namespace ValueOption

/-- An option of an option set. -/
def ofChoice (choice : Metadata.Choice) : ValueOption :=
  ⟨.number (.ofInt choice.value), choice.label.text.getD (Text.intText choice.value)⟩

/-- The label of a record: the template over the named attributes with white space collapsed, else
the values that are not blank, else the fallback. -/
def recordLabel (row : Row) (names : List String) (format : Option String) (fallback : String) :
    String :=
  let values := names.map fun name => Text.trim (Row.valueText (row.value? name))
  let formatted :=
    match format with
    | some format => Text.join " " (Text.words (Template.fill format values))
    | none => ""
  if formatted.isEmpty then
    let joined := Text.join " " (values.filter (! ·.isEmpty))
    if joined.isEmpty then fallback else joined
  else formatted

/-- A record that a reference may lead to, if it has an identifier. -/
def ofRecord? (idName : String) (names : List String) (format : Option String) (row : Row) :
    Option ValueOption :=
  match row.value? idName with
  | none => none
  | some .null => none
  | some id =>
      let text := Row.valueText (some id)
      some ⟨.text text, recordLabel row names format text⟩

variable {State : Type}

/-- The records that a reference may lead to. -/
def ofLookup (repository : Repository State) (target : FilterLink) (entity name : String) :
    Session State (List ValueOption) := do
  let lookup ← repository.lookup entity name
  match lookup.targets with
  | [] => pure []
  | first :: _ =>
      let entities ← repository.entities [first]
      match entities.head?.bind Metadata.Entity.collectionName? with
      | none => pure []
      | some set =>
          let idName := first ++ "id"
          let selection := target.selection.getD .none
          let names := selection.relatedNames.getD []
          let response ← repository.records set (Gathered.ofList (idName :: names)) .all
          pure ((Row.ofResponse response).filterMap (ofRecord? idName names selection.relatedFormat))

/-- The values that an option lets users pick from. -/
def ofOption (repository : Repository State) (option : FilterOption) :
    Session State (List ValueOption) :=
  let target := option.target
  match Text.nonBlank? target.entityName, Text.nonBlank? target.attributeName with
  | some entity, some name =>
      match target.kind with
      | .picklist => do
          let picklist ← repository.picklist entity name
          pure ((picklist.options.getD []).map ofChoice)
      | .lookup => ofLookup repository target entity name
      | _ => pure []
  | _, _ => pure []

/-- The first option that is shown as a text. -/
def displayed? (text : String) (options : List ValueOption) : Option ValueOption :=
  options.find? (·.value.display == text)

/-- The offered values among those chosen, each once, in the order chosen. -/
def offered (options : List ValueOption) (chosen : List FilterValue) : List FilterValue :=
  chosen.foldl
    (fun kept value =>
      match displayed? value.display options with
      | some option => if kept.any (·.same option.value) then kept else kept ++ [option.value]
      | none => kept)
    []

/-- The offered values among those chosen, no more than a limit that is not zero. -/
def sanitize (chosen : List FilterValue) (options : List ValueOption) (limit : Option Nat) :
    List FilterValue :=
  match limit.filter (0 < ·) with
  | some limit => (offered options chosen).take limit
  | none => offered options chosen

def document (option : ValueOption) : Json :=
  .object [("value", option.value.document), ("displayName", .text option.label)]

end ValueOption

end EntitySearch
