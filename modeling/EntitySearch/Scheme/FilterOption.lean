import EntitySearch.Chain
import EntitySearch.AttributeKind
import EntitySearch.FilterValue

/-!
# Filter options

A filter option offers one attribute for filtering, on the searched entity or behind a chain of
joins. Each link of the chain may carry defaults for new filter rows and limits for picked values.
-/

namespace EntitySearch

/-- The state in which a filter row of an option starts. -/
structure RowDefaults where
  cannotBeRemoved : Option Bool
  condition : Option Operator
  orderedBy : Option Int
  isDisabled : Option Bool
  isShowed : Option Bool
  values : Option (List FilterValue)
  deriving DecidableEq

/-- Limits on picked values, and how a referenced record is named in the picker. -/
structure Selection where
  /-- Most values that may be picked. -/
  maxItems : Option Nat
  /-- Fewest values that may be picked. -/
  minItems : Option Nat
  multiple : Option Bool
  /-- Attributes of a referenced record that name it. -/
  relatedNames : Option (List String)
  /-- Template over these attributes. -/
  relatedFormat : Option String
  deriving DecidableEq

/-- One link of a filter option. -/
structure FilterLink extends Link where
  attributeType : Option String
  /-- Heading, if the option only groups the ones after it. -/
  categoryDisplayName : Option String
  /-- Control to enter values with. -/
  control : Option String
  /-- The state in which a filter row starts. -/
  default : Option RowDefaults
  selection : Option Selection
  deriving DecidableEq

/-- An attribute offered for filtering. -/
abbrev FilterOption := Chain FilterLink

namespace RowDefaults

def none : RowDefaults := ⟨.none, .none, .none, .none, .none, .none⟩

end RowDefaults

namespace Selection

def none : Selection := ⟨.none, .none, .none, .none, .none⟩

/-- The most values that may be picked, if that is a limit at all. -/
def limit? (selection : Selection) : Option Nat :=
  selection.maxItems.filter (0 < ·)

/-- Several values may be picked. -/
def isMultiple (selection : Selection) : Bool :=
  selection.multiple.getD false

end Selection

namespace FilterLink

def none : FilterLink :=
  { displayName := .none, attributeName := .none, entityName := .none, fromAttribute := .none,
    toAttribute := .none, attributeType := .none, categoryDisplayName := .none, control := .none,
    default := .none, selection := .none }

/-- A link to an attribute of a type. -/
def ofAttribute (name type : String) : FilterLink :=
  { none with attributeName := some name, attributeType := some type }

def kind (link : FilterLink) : AttributeKind :=
  AttributeKind.ofTag link.attributeType

end FilterLink

namespace FilterOption

/-- The links as far as joins are concerned. -/
def joins (option : FilterOption) : Chain Link :=
  option.map FilterLink.toLink

/-- The joins from the searched entity to the target. -/
def joinPath? (option : FilterOption) : Option (List Hop) :=
  option.joins.joinPath?

/-- Exactly the options of one link need no join. -/
theorem joinPath?_eq_nil_iff (option : FilterOption) :
    option.joinPath? = some [] ↔ option.length ≤ 1 :=
  Chain.joinPath?_map_eq_nil_iff FilterLink.toLink option

/-- The option is a heading and offers no attribute. -/
def isCategory (option : FilterOption) : Bool :=
  option.root.categoryDisplayName.isSome

end FilterOption

/-! ## Documents -/

/-- The largest number of 64 bits. -/
def wordBound : Nat := Nat.pow 2 64

def Operator.document (operator : Operator) : Json :=
  .text operator.token

/-- The operator that a document names; any other document names none. -/
def Operator.ofDocument (document : Json) : Option Operator :=
  document.text?.bind Operator.ofToken?

/-- Read an operator that may be anything, as long as the document has a value. -/
def Operator.read? (document : Json) : Option (Option Operator) :=
  document.normalize?.map Operator.ofDocument

namespace RowDefaults

def fieldNames : List String :=
  ["CannotBeRemoved", "Condition", "OrderedBy", "IsDisabled", "IsShowed", "Values"]

def ofRecord? (record : Json.Record) : Option RowDefaults := do
  let cannotBeRemoved ← record.optional Json.boolean? "CannotBeRemoved"
  let condition ← record.defaulted Operator.read? .none "Condition"
  let orderedBy ←
    record.optional (Json.integer? Int32.minValue.toInt Int32.maxValue.toInt) "OrderedBy"
  let isDisabled ← record.optional Json.boolean? "IsDisabled"
  let isShowed ← record.optional Json.boolean? "IsShowed"
  let values ← record.optional (Json.list? FilterValue.ofDocument?) "Values"
  some { cannotBeRemoved, condition, orderedBy, isDisabled, isShowed, values }

def ofDocument? (document : Json) : Option RowDefaults :=
  (document.record? fieldNames).bind ofRecord?

def document (defaults : RowDefaults) : Json :=
  .object <|
    Json.member "CannotBeRemoved" .boolean defaults.cannotBeRemoved ++
    Json.member "Condition" Operator.document defaults.condition ++
    Json.member "OrderedBy" (fun value => .number (.integer value)) defaults.orderedBy ++
    Json.member "IsDisabled" .boolean defaults.isDisabled ++
    Json.member "IsShowed" .boolean defaults.isShowed ++
    Json.member "Values" (fun values => .array (values.map FilterValue.document)) defaults.values

end RowDefaults

namespace Selection

def fieldNames : List String :=
  ["MaxItems", "MinItems", "Multiple", "RelatedEntityAttributeNames",
    "RelatedEntityAttributeFormat"]

def ofRecord? (record : Json.Record) : Option Selection := do
  let maxItems ← record.optional (Json.natural? wordBound) "MaxItems"
  let minItems ← record.optional (Json.natural? wordBound) "MinItems"
  let multiple ← record.optional Json.boolean? "Multiple"
  let relatedNames ← record.optional (Json.list? Json.text?) "RelatedEntityAttributeNames"
  let relatedFormat ← record.optional Json.text? "RelatedEntityAttributeFormat"
  some { maxItems, minItems, multiple, relatedNames, relatedFormat }

def ofDocument? (document : Json) : Option Selection :=
  (document.record? fieldNames).bind ofRecord?

def document (selection : Selection) : Json :=
  .object <|
    Json.member "MaxItems" Json.ofNat selection.maxItems ++
    Json.member "MinItems" Json.ofNat selection.minItems ++
    Json.member "Multiple" .boolean selection.multiple ++
    Json.member "RelatedEntityAttributeNames" (fun names => .array (names.map .text))
      selection.relatedNames ++
    Json.member "RelatedEntityAttributeFormat" .text selection.relatedFormat

end Selection

namespace FilterLink

def fieldNames : List String :=
  ["DisplayName", "AttributeName", "FromAttribute", "ToAttribute", "AttributeType",
    "CategoryDisplayName", "Control", "EntityName", "Default", "Selection", Chain.nextField]

def ofRecord? (record : Json.Record) : Option FilterLink := do
  let displayName ← record.optional Json.text? "DisplayName"
  let attributeName ← record.optional Json.text? "AttributeName"
  let fromAttribute ← record.optional Json.text? "FromAttribute"
  let toAttribute ← record.optional Json.text? "ToAttribute"
  let attributeType ← record.optional Json.text? "AttributeType"
  let categoryDisplayName ← record.optional Json.text? "CategoryDisplayName"
  let control ← record.optional Json.text? "Control"
  let entityName ← record.optional Json.text? "EntityName"
  let default ← record.optional RowDefaults.ofDocument? "Default"
  let selection ← record.optional Selection.ofDocument? "Selection"
  some
    { displayName, attributeName, entityName, fromAttribute, toAttribute, attributeType,
      categoryDisplayName, control, default, selection }

/-- The members of a link's document, without those that are not set. -/
def members (link : FilterLink) : Json.Members :=
  Json.member "DisplayName" .text link.displayName ++
  Json.member "AttributeName" .text link.attributeName ++
  Json.member "FromAttribute" .text link.fromAttribute ++
  Json.member "ToAttribute" .text link.toAttribute ++
  Json.member "AttributeType" .text link.attributeType ++
  Json.member "CategoryDisplayName" .text link.categoryDisplayName ++
  Json.member "Control" .text link.control ++
  Json.member "EntityName" .text link.entityName ++
  Json.member "Default" RowDefaults.document link.default ++
  Json.member "Selection" Selection.document link.selection

end FilterLink

namespace FilterOption

def ofDocument? (document : Json) : Option FilterOption :=
  Chain.ofDocument? FilterLink.fieldNames FilterLink.ofRecord? document

def document (option : FilterOption) : Json :=
  Chain.document FilterLink.members option

end FilterOption

end EntitySearch
