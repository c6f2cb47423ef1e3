import EntitySearch.Chain

/-!
# Table columns

A table column shows one or more attributes of an entity, the searched one or one behind a chain of
joins, in one cell.
-/

namespace EntitySearch

/-- One link of a table column. -/
structure ColumnLink extends Link where
  /-- Several attributes that are shown together. -/
  attributeNames : Option (List String)
  attributesFormat : Option String
  deriving DecidableEq

/-- A column of the result table. -/
abbrev TableColumn := Chain ColumnLink

namespace ColumnLink

def none : ColumnLink :=
  { displayName := .none, attributeName := .none, entityName := .none, fromAttribute := .none,
    toAttribute := .none, attributeNames := .none, attributesFormat := .none }

/-- A link to one attribute. -/
def ofAttribute (name : String) : ColumnLink :=
  { none with attributeName := some name }

/-- The attributes shown: those listed that are not blank, else the single one. -/
def shownAttributes (link : ColumnLink) : List String :=
  match ((link.attributeNames.getD []).map Text.trim).filter (! Text.isBlank ·) with
  | [] => (Text.nonBlank? link.attributeName).toList
  | names => names

def fieldNames : List String :=
  ["DisplayName", "AttributeName", "AttributeNames", "AttributesFormat", "EntityName",
    "FromAttribute", "ToAttribute", Chain.nextField]

def ofRecord? (record : Json.Record) : Option ColumnLink := do
  let displayName ← record.optional Json.text? "DisplayName"
  let attributeName ← record.optional Json.text? "AttributeName"
  let attributeNames ← record.optional (Json.list? Json.text?) "AttributeNames"
  let attributesFormat ← record.optional Json.text? "AttributesFormat"
  let entityName ← record.optional Json.text? "EntityName"
  let fromAttribute ← record.optional Json.text? "FromAttribute"
  let toAttribute ← record.optional Json.text? "ToAttribute"
  some
    { displayName, attributeName, entityName, fromAttribute, toAttribute, attributeNames,
      attributesFormat }

/-- The members of a link's document, without those that are not set. -/
def members (link : ColumnLink) : Json.Members :=
  Json.member "DisplayName" .text link.displayName ++
  Json.member "AttributeName" .text link.attributeName ++
  Json.member "AttributeNames" (fun names => .array (names.map .text)) link.attributeNames ++
  Json.member "AttributesFormat" .text link.attributesFormat ++
  Json.member "EntityName" .text link.entityName ++
  Json.member "FromAttribute" .text link.fromAttribute ++
  Json.member "ToAttribute" .text link.toAttribute

end ColumnLink

namespace TableColumn

/-- The links as far as joins are concerned. -/
def joins (column : TableColumn) : Chain Link :=
  column.map ColumnLink.toLink

/-- The joins from the searched entity to the target. -/
def joinPath? (column : TableColumn) : Option (List Hop) :=
  column.joins.joinPath?

/-- Exactly the columns of one link need no join. -/
theorem joinPath?_eq_nil_iff (column : TableColumn) :
    column.joinPath? = some [] ↔ column.length ≤ 1 :=
  Chain.joinPath?_map_eq_nil_iff ColumnLink.toLink column

def ofDocument? (document : Json) : Option TableColumn :=
  Chain.ofDocument? ColumnLink.fieldNames ColumnLink.ofRecord? document

def document (column : TableColumn) : Json :=
  Chain.document ColumnLink.members column

end TableColumn

end EntitySearch
