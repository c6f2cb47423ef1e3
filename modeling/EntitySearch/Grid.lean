import EntitySearch.Column
import EntitySearch.Json.Printer
import EntitySearch.Template

/-!
# The result grid

Rows of a result are objects. Columns are put together again as they were configured; each has a
heading, and for every row a cell made of the values of its attributes.
-/

namespace EntitySearch

/-- A row of a result: values by key. -/
abbrev Row := List (String × Json)

namespace Row

/-- The rows of a list, passing over what is not an object. -/
def ofItems (items : List Json) : List Row :=
  items.filterMap fun
    | .object members => some members
    | _ => none

/-- The rows of a response: a list, or an object that holds one as its member `value`. -/
def ofResponse : Json → List Row
  | .array items => ofItems items
  | .object members =>
      match Entries.find? "value" members with
      | some (.array items) => ofItems items
      | _ => []
  | _ => []

/-- The value under a key. -/
def value? (row : Row) (key : String) : Option Json :=
  Entries.find? key row

/-- The text of a value: nothing for none, texts as they are, doubles as plain numerals. -/
def valueText : Option Json → String
  | none => ""
  | some .null => ""
  | some (.text value) => value
  | some (.number (.double value)) => (Double.finite value).numeral
  | some other => other.compact

end Row

/-- The attributes that one configured column shows. -/
structure GridColumn where
  first : Column
  rest : List Column
  deriving DecidableEq

namespace GridColumn

/-- All attributes of the column. -/
def columns (column : GridColumn) : List Column :=
  column.first :: column.rest

/-- Put neighbouring attributes of one configured column together. -/
def group : List Column → List GridColumn
  | [] => []
  | column :: rest =>
      match group rest with
      | next :: others =>
          if column.sourceColumn = next.first.sourceColumn then ⟨column, next.columns⟩ :: others
          else ⟨column, []⟩ :: next :: others
      | [] => [⟨column, []⟩]

/-- Key of the column. -/
def key (column : GridColumn) : String :=
  "col_" ++ Text.natText column.first.sourceColumn

/-- Heading of the column: its display name, else a localized name, else its attributes. -/
def heading (localized : Option (Dictionary String)) (column : GridColumn) : String :=
  match column.first.displayName with
  | some name => name
  | none =>
      match localized.bind (·.find? column.key) with
      | some name => name
      | none => Text.join " | " (column.columns.map (·.attributeName))

/-- What an empty cell shows. -/
def emptyCell : String := "-"

/-- The cell of a row: the values in the column's template, or one after the other. -/
def cell (column : GridColumn) (row : Row) : String :=
  let values := column.columns.map fun part => Row.valueText (row.value? part.valueKey)
  if values.all (·.isEmpty) then emptyCell
  else
    let text :=
      match Text.nonBlank? column.first.format with
      | some format => Template.fill format values
      | none => Text.join " " (values.filter (! ·.isEmpty))
    if Text.isBlank text then emptyCell else text

end GridColumn

end EntitySearch
