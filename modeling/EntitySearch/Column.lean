import EntitySearch.Gathered
import EntitySearch.Scheme.TableColumn
import EntitySearch.Text.Numerals

/-!
# Projected columns

Every attribute that a table column shows is projected on its own and found in a result row under a
key of its own: the attribute's name on the searched entity, a made-up alias elsewhere.
-/

namespace EntitySearch

/-- One attribute shown by a table column. -/
structure Column where
  sourceColumn : Nat
  /-- Position of the attribute within the table column. -/
  attributeIndex : Nat
  /-- Joins from the searched entity to the attribute's one. -/
  joinPath : List Hop
  attributeName : String
  entity : String
  /-- Heading of the table column. -/
  displayName : Option String
  /-- Template over the attributes of the table column. -/
  format : Option String
  /-- Key of the value in a result row. -/
  valueKey : String
  /-- The attribute belongs to the searched entity. -/
  isRoot : Bool
  deriving DecidableEq

namespace Column

/-- The character may stand in an alias. -/
def isAliasChar (c : Char) : Bool :=
  c.isAlphanum || c == '_'

/-- The alias of an attribute of another entity: its column's position and its name, with an
underscore for every character that may not stand in an alias. -/
def relatedKey (sourceColumn : Nat) (attributeName : String) : String :=
  String.ofList <|
    'c' :: 'o' :: 'l' :: '_' :: Text.natDigits sourceColumn ++
      '_' :: attributeName.toList.map fun c => if isAliasChar c then c else '_'

/-- The first text that is not blank, looking from the target outwards. -/
def innermost? (texts : List (Option String)) : Option String :=
  texts.reverse.findSome? Text.nonBlank?

/-- The path to a column: none for attributes of the searched entity. A column elsewhere is dropped
if its path is incomplete or empty. -/
def path? (isRoot : Bool) (column : TableColumn) : Option (List Hop) :=
  if isRoot then some []
  else
    match column.joinPath? with
    | some (hop :: hops) => some (hop :: hops)
    | _ => none

/-- The column belongs to the searched entity. -/
def standsOnRoot (entity : String) (column : TableColumn) : Bool :=
  column.length ≤ 1 &&
    match Text.nonBlank? column.target.entityName with
    | some target => target == entity
    | none => true

/-- The attributes that one table column shows. -/
def ofTableColumn (entity : String) (sourceColumn : Nat) (column : TableColumn) : List Column :=
  let isRoot := standsOnRoot entity column
  match path? isRoot column with
  | none => []
  | some joinPath =>
      column.target.shownAttributes.mapIdx fun attributeIndex attributeName =>
        { sourceColumn
          attributeIndex
          joinPath
          attributeName
          entity := (Text.nonBlank? column.target.entityName).getD entity
          displayName := innermost? (column.links.map (·.displayName))
          format := innermost? (column.links.map (·.attributesFormat))
          valueKey := if isRoot then attributeName else relatedKey sourceColumn attributeName
          isRoot }

/-- The attributes that the table columns of an entity show, in their order. -/
def ofTableColumns (entity : String) (columns : List TableColumn) : List Column :=
  (columns.mapIdx (ofTableColumn entity)).flatten

/-- The attributes of the searched entity that the columns show, each once. -/
def selected (columns : List Column) : List String :=
  Gathered.ofList ((columns.filter (·.isRoot)).map (·.attributeName))

def document (column : Column) : Json :=
  .object
    [("sourceColumn", .ofNat column.sourceColumn),
      ("attributeIndex", .ofNat column.attributeIndex),
      ("joinPath", .array (column.joinPath.map Hop.document)),
      ("attributeName", .text column.attributeName),
      ("entityName", .text column.entity),
      ("displayName", Json.ofOption .text column.displayName),
      ("attributesFormat", Json.ofOption .text column.format),
      ("valueKey", .text column.valueKey),
      ("isRootColumn", .boolean column.isRoot)]

end Column

end EntitySearch
