import EntitySearch.Gathered
import EntitySearch.Metadata.Repository
import EntitySearch.Scheme.FilterOption

/-!
# Filling options from metadata

Schemes usually only name attributes. Their types and labels are asked for once for every entity,
and filled in where the scheme leaves them open. When a request fails, what earlier answers filled
in stays.
-/

namespace EntitySearch

namespace Metadata

/-- The attributes of one entity that are asked for. -/
structure Inquiry where
  entity : String
  /-- Names of the attributes, each once. -/
  attributes : List String
  deriving DecidableEq

/-- What a repository answers about the attributes of an inquiry. -/
abbrev AttributeSource (State : Type) := String → List String → Session State (List Attribute)

namespace Inquiry

/-- Add an attribute of an entity to a list of inquiries. -/
def add (entity name : String) : List Inquiry → List Inquiry
  | [] => [⟨entity, [name]⟩]
  | inquiry :: rest =>
      if inquiry.entity = entity then
        { inquiry with attributes := Gathered.add inquiry.attributes name } :: rest
      else inquiry :: add entity name rest

/-- The option with the searched entity as its target's entity if it names an attribute only. -/
def withEntity (root : String) (option : FilterOption) : FilterOption :=
  if option.isCategory || (Text.nonBlank? option.target.attributeName).isNone ||
      (Text.nonBlank? option.target.entityName).isSome then option
  else option.withTarget fun target => { target with entityName := some root }

/-- The entity and the attribute that metadata of an option is asked for by. -/
def subject? (option : FilterOption) : Option (String × String) := do
  if option.isCategory then none
  else
    let name ← Text.nonBlank? option.target.attributeName
    let entity ← option.target.entityName
    some (entity, name)

/-- The inquiries about a list of options, entities and attributes in the order of appearance. -/
def ofOptions (options : List FilterOption) : List Inquiry :=
  (options.filterMap subject?).foldl (fun inquiries subject => add subject.1 subject.2 inquiries) []

end Inquiry

/-- The link with the type of an attribute, and with its label unless it has a name of its own. -/
def fillLink (source : Attribute) (link : FilterLink) : FilterLink :=
  { link with
    attributeType := source.type
    displayName := if (Text.nonBlank? link.displayName).isNone then source.label else link.displayName }

/-- Fill an option in from the attributes of an entity. -/
def fillOption (entity : String) (attributes : List Attribute) (option : FilterOption) :
    FilterOption :=
  if option.isCategory || option.target.entityName != some entity then option
  else
    match attributes.find? fun source => some source.logicalName == option.target.attributeName with
    | some source => option.withTarget (fillLink source)
    | none => option

/-- Make inquiries one after the other and fill the options in, up to the first failure. -/
def answerInquiries {State : Type} (ask : AttributeSource State) :
    List Inquiry → List FilterOption → State → (List FilterOption × Option SearchError) × State
  | [], options, state => ((options, none), state)
  | inquiry :: rest, options, state =>
      match ask inquiry.entity inquiry.attributes state with
      | (.ok attributes, state) =>
          answerInquiries ask rest (options.map (fillOption inquiry.entity attributes)) state
      | (.error error, state) => ((options, some error), state)

/-- Fill options of a searched entity in from metadata; the error of a failed request, if any. -/
def fillOptions {State : Type} (ask : AttributeSource State) (root : String)
    (options : List FilterOption) (state : State) :
    (List FilterOption × Option SearchError) × State :=
  let named := options.map (Inquiry.withEntity root)
  answerInquiries ask (Inquiry.ofOptions named) named state

end Metadata

end EntitySearch
