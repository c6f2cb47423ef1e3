import EntitySearch.Scheme.FilterOption
import EntitySearch.Scheme.TableColumn

/-!
# Search schemes

A scheme lists the entities that can be searched, each with the options to filter it by and the view
of its results, and the labels of the operators. The settings document holds one scheme or none.
-/

namespace EntitySearch

/-- Paging of the result view. -/
structure PagingScheme where
  sizes : Option (List Double)
  /-- Label of the page size that shows every row. -/
  allLabel : Option String
  /-- Template of the line that counts the rows shown. -/
  summary : Option String
  deriving DecidableEq

/-- The view of an entity's search results. -/
structure ResultView where
  columns : List TableColumn
  /-- Paging, if results are paged. -/
  paging : Option PagingScheme
  deriving DecidableEq

/-- An entity that can be searched. -/
structure EntityScheme where
  logicalName : String
  filterOptions : List FilterOption
  resultView : ResultView
  deriving DecidableEq

/-- The entities that can be searched and the labels of operators. -/
structure SearchScheme where
  /-- The entities, of which the first one with a name counts. -/
  entities : List EntityScheme
  /-- Labels by operator token. -/
  operatorLabels : Dictionary String
  deriving DecidableEq

/-- The settings of the search. -/
structure Settings where
  scheme : Option SearchScheme
  deriving DecidableEq

namespace ResultView

/-- A view without columns and paging. -/
def empty : ResultView := ⟨[], none⟩

end ResultView

namespace Settings

def entities (settings : Settings) : List EntityScheme :=
  match settings.scheme with
  | some scheme => scheme.entities
  | none => []

/-- The first entity of a name. -/
def entity? (settings : Settings) (name : String) : Option EntityScheme :=
  settings.entities.find? (·.logicalName == name)

/-- Change the first entity of a name. -/
def modifyFirst (name : String) (change : EntityScheme → EntityScheme) :
    List EntityScheme → List EntityScheme
  | [] => []
  | entity :: rest =>
      if entity.logicalName = name then change entity :: rest
      else entity :: modifyFirst name change rest

/-- The settings with the first entity of a name changed. -/
def modifyEntity (settings : Settings) (name : String) (change : EntityScheme → EntityScheme) :
    Settings :=
  { scheme := settings.scheme.map fun scheme =>
      { scheme with entities := modifyFirst name change scheme.entities } }

def operatorLabels (settings : Settings) : Dictionary String :=
  match settings.scheme with
  | some scheme => scheme.operatorLabels
  | none => .empty

end Settings

/-! ## Documents -/

namespace PagingScheme

def fieldNames : List String := ["List", "ListItemAll", "DisplaySummary"]

def ofDocument? (document : Json) : Option PagingScheme := do
  let record ← document.record? fieldNames
  let sizes ← record.optional (Json.list? Json.double?) "List"
  let allLabel ← record.optional Json.text? "ListItemAll"
  let summary ← record.optional Json.text? "DisplaySummary"
  some { sizes, allLabel, summary }

def document (paging : PagingScheme) : Json :=
  .object <|
    Json.member "List" (fun sizes => .array (sizes.map Json.ofDouble)) paging.sizes ++
    Json.member "ListItemAll" .text paging.allLabel ++
    Json.member "DisplaySummary" .text paging.summary

end PagingScheme

namespace ResultView

def fieldNames : List String := ["TableColumns", "Pagination"]

def ofDocument? (document : Json) : Option ResultView := do
  let record ← document.record? fieldNames
  let columns ← record.defaulted (Json.list? TableColumn.ofDocument?) [] "TableColumns"
  let paging ← record.optional PagingScheme.ofDocument? "Pagination"
  some { columns, paging }

def document (view : ResultView) : Json :=
  .object <|
    ("TableColumns", .array (view.columns.map TableColumn.document)) ::
      Json.member "Pagination" PagingScheme.document view.paging

end ResultView

namespace EntityScheme

def fieldNames : List String := ["LogicalName", "FilterOptions", "ResultView"]

def ofDocument? (document : Json) : Option EntityScheme := do
  let record ← document.record? fieldNames
  let logicalName ← record.required Json.text? "LogicalName"
  let filterOptions ← record.defaulted (Json.list? FilterOption.ofDocument?) [] "FilterOptions"
  let resultView ← record.defaulted ResultView.ofDocument? .empty "ResultView"
  some { logicalName, filterOptions, resultView }

def document (entity : EntityScheme) : Json :=
  .object
    [("LogicalName", .text entity.logicalName),
      ("FilterOptions", .array (entity.filterOptions.map FilterOption.document)),
      ("ResultView", entity.resultView.document)]

end EntityScheme

namespace SearchScheme

def labelsDocument (labels : Dictionary String) : Json :=
  .object (labels.entries.map fun entry => (entry.1, .text entry.2))

/-- Read the labels of operators from the localization. -/
def labelsOfDocument? (document : Json) : Option (Dictionary String) := do
  let record ← document.record? ["CrmFilterConditions"]
  record.defaulted (Json.dictionary? Json.text?) .empty "CrmFilterConditions"

def fieldNames : List String := ["Entities", "Localization"]

def ofDocument? (document : Json) : Option SearchScheme := do
  let record ← document.record? fieldNames
  let entities ← record.defaulted (Json.list? EntityScheme.ofDocument?) [] "Entities"
  let operatorLabels ← record.defaulted labelsOfDocument? .empty "Localization"
  some { entities, operatorLabels }

def document (scheme : SearchScheme) : Json :=
  .object
    [("Entities", .array (scheme.entities.map EntityScheme.document)),
      ("Localization", .object [("CrmFilterConditions", labelsDocument scheme.operatorLabels)])]

end SearchScheme

namespace Settings

def fieldNames : List String := ["SearchScheme"]

def ofDocument? (document : Json) : Option Settings := do
  let record ← document.record? fieldNames
  let scheme ← record.optional SearchScheme.ofDocument? "SearchScheme"
  some { scheme }

def document (settings : Settings) : Json :=
  .object (Json.member "SearchScheme" SearchScheme.document settings.scheme)

end Settings

end EntitySearch
