import EntitySearch.Json.Record

/-!
# Metadata of entities and attributes

What the service says about entities, attributes, option sets and references, and how it writes it.
-/

namespace EntitySearch

namespace Metadata

/-- A label; there is none if the user's language has none. -/
structure Label where
  text : Option String
  deriving DecidableEq

/-- An attribute of an entity. -/
structure Attribute where
  logicalName : String
  type : Option String
  displayName : Option Label
  deriving DecidableEq

/-- An entity. -/
structure Entity where
  logicalName : String
  /-- Name of the set of its records. -/
  setName : Option String
  /-- Another name of the set. -/
  collection : Option String
  /-- Label of one record. -/
  displayName : Option Label
  /-- Label of several records. -/
  displayCollectionName : Option Label
  deriving DecidableEq

/-- The entities that a reference may lead to. -/
structure Lookup where
  targets : List String
  deriving DecidableEq

/-- An option of an option set. -/
structure Choice where
  value : Int
  label : Label
  deriving DecidableEq

/-- The option set of an attribute. -/
structure Picklist where
  /-- The options, if the attribute has a set. -/
  options : Option (List Choice)
  deriving DecidableEq

namespace Label

/-- A label without a text. -/
def none : Label := ⟨.none⟩

/-- Read the text of a label. -/
def localizedOfDocument? (document : Json) : Option String := do
  let record ← document.record? ["Label"]
  record.required Json.text? "Label"

def ofDocument? (document : Json) : Option Label := do
  let record ← document.record? ["UserLocalizedLabel"]
  let text ← record.defaulted (Json.Record.nullable localizedOfDocument?) .none "UserLocalizedLabel"
  some ⟨text⟩

def document (label : Label) : Json :=
  .object
    [("UserLocalizedLabel", Json.ofOption (fun text => .object [("Label", .text text)]) label.text)]

end Label

namespace Attribute

/-- The text of the attribute's label. -/
def label (source : Attribute) : Option String :=
  source.displayName.bind (·.text)

def ofDocument? (document : Json) : Option Attribute := do
  let record ← document.record? ["LogicalName", "AttributeType", "DisplayName"]
  let logicalName ← record.required Json.text? "LogicalName"
  let type ← record.defaulted (Json.Record.nullable Json.text?) none "AttributeType"
  let displayName ← record.defaulted (Json.Record.nullable Label.ofDocument?) none "DisplayName"
  some { logicalName, type, displayName }

def document (source : Attribute) : Json :=
  .object
    [("LogicalName", .text source.logicalName),
      ("AttributeType", Json.ofOption .text source.type),
      ("DisplayName", Json.ofOption Label.document source.displayName)]

/-- The attributes of given names, in the order of the names; unknown names are passed over. -/
def named (names : List String) (source : List Attribute) : List Attribute :=
  names.filterMap fun name => source.find? (·.logicalName == name)

end Attribute

namespace Entity

/-- The name of the set of records, unless it is empty. -/
def collectionName? (entity : Entity) : Option String :=
  (entity.setName.or entity.collection).filter (! ·.isEmpty)

def ofDocument? (document : Json) : Option Entity := do
  let record ← document.record?
    ["LogicalName", "EntitySetName", "LogicalCollectionName", "DisplayName", "DisplayCollectionName"]
  let logicalName ← record.required Json.text? "LogicalName"
  let setName ← record.defaulted (Json.Record.nullable Json.text?) none "EntitySetName"
  let collection ← record.defaulted (Json.Record.nullable Json.text?) none "LogicalCollectionName"
  let displayName ← record.defaulted (Json.Record.nullable Label.ofDocument?) none "DisplayName"
  let displayCollectionName ←
    record.defaulted (Json.Record.nullable Label.ofDocument?) none "DisplayCollectionName"
  some { logicalName, setName, collection, displayName, displayCollectionName }

def document (entity : Entity) : Json :=
  .object
    [("LogicalName", .text entity.logicalName),
      ("EntitySetName", Json.ofOption .text entity.setName),
      ("LogicalCollectionName", Json.ofOption .text entity.collection),
      ("DisplayName", Json.ofOption Label.document entity.displayName),
      ("DisplayCollectionName", Json.ofOption Label.document entity.displayCollectionName)]

/-- The entities of given names, in their own order. -/
def named (names : List String) (source : List Entity) : List Entity :=
  source.filter fun entity => names.contains entity.logicalName

end Entity

namespace Lookup

def ofDocument? (document : Json) : Option Lookup := do
  let record ← document.record? ["Targets"]
  let targets ← record.defaulted (Json.list? Json.text?) [] "Targets"
  some { targets }

def document (lookup : Lookup) : Json :=
  .object [("Targets", .array (lookup.targets.map .text))]

end Lookup

namespace Choice

def ofDocument? (document : Json) : Option Choice := do
  let record ← document.record? ["Value", "Label"]
  let value ← record.required (Json.integer? Int64.minValue.toInt Int64.maxValue.toInt) "Value"
  let label ← record.defaulted Label.ofDocument? .none "Label"
  some { value, label }

def document (choice : Choice) : Json :=
  .object [("Value", .number (.integer choice.value)), ("Label", choice.label.document)]

end Choice

namespace Picklist

def choicesOfDocument? (document : Json) : Option (List Choice) := do
  let record ← document.record? ["Options"]
  record.defaulted (Json.list? Choice.ofDocument?) [] "Options"

def ofDocument? (document : Json) : Option Picklist := do
  let record ← document.record? ["OptionSet"]
  let options ← record.defaulted (Json.Record.nullable choicesOfDocument?) none "OptionSet"
  some { options }

def document (picklist : Picklist) : Json :=
  .object
    [("OptionSet",
      Json.ofOption (fun options => .object [("Options", .array (options.map Choice.document))])
        picklist.options)]

end Picklist

/-- Read the list that a response wraps. -/
def collection? {Item : Type} (read : Json → Option Item) (document : Json) :
    Option (List Item) := do
  let record ← document.record? ["value"]
  record.defaulted (Json.list? read) [] "value"

end Metadata

end EntitySearch
