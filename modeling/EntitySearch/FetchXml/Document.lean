import EntitySearch.Chain
import EntitySearch.FetchXml.Markup
import EntitySearch.Operator
import EntitySearch.FilterValue

/-!
# FetchXML documents

A document queries one entity. Every entity of it has a scope: the attributes projected from it, the
conditions on it, and the entities linked to it. A link without any condition below it keeps the
rows that have no partner.
-/

namespace EntitySearch

namespace FetchXml

/-- A page of a result. -/
structure Page where
  count : Nat
  /-- Number of the page, from 1. -/
  number : Nat
  deriving DecidableEq

/-- A projected attribute. -/
structure Projection where
  name : String
  /-- The key of its value in a result row if it is not the name. -/
  valueKey : Option String
  deriving DecidableEq

/-- What a condition compares with. -/
inductive Operand where
  | none
  | value (value : String)
  | list (first : String) (rest : List String)
  deriving DecidableEq

/-- A condition on an attribute. -/
structure Criterion where
  attributeName : String
  /-- Token of the operator. -/
  operator : String
  operand : Operand
  deriving DecidableEq

/-- What a document says about one of its entities. -/
inductive Scope where
  /-- The projections, the conditions, and the linked entities, each with its join. -/
  | mk (projections : List Projection) (criteria : List Criterion) (links : List (Hop × Scope))

/-- A query. -/
structure Document where
  page : Option Page
  entity : String
  scope : Scope

namespace Projection

/-- The key of the value in a result row. -/
def key (projection : Projection) : String :=
  projection.valueKey.getD projection.name

end Projection

namespace Scope

/-- A scope that asks for nothing. -/
def blank : Scope := .mk [] [] []

def projections : Scope → List Projection
  | .mk projections _ _ => projections

def criteria : Scope → List Criterion
  | .mk _ criteria _ => criteria

def links : Scope → List (Hop × Scope)
  | .mk _ _ links => links

/-- Change the scope behind a join, adding the join at the end if it is not there yet. -/
def modifyLink (hop : Hop) (change : Scope → Scope) : List (Hop × Scope) → List (Hop × Scope)
  | [] => [(hop, change blank)]
  | link :: rest =>
      if link.1 = hop then (hop, change link.2) :: rest
      else link :: modifyLink hop change rest

/-- Change the scope at the end of a path, adding the joins that are not there yet. -/
def modifyAt (change : Scope → Scope) : List Hop → Scope → Scope
  | [], scope => change scope
  | hop :: hops, .mk projections criteria links =>
      .mk projections criteria (modifyLink hop (modifyAt change hops) links)

/-- The scope with one more projection, unless its key is projected already. -/
def project (projection : Projection) : Scope → Scope
  | .mk projections criteria links =>
      if projections.any (·.key == projection.key) then .mk projections criteria links
      else .mk (projections ++ [projection]) criteria links

/-- The scope with one more condition. -/
def require (criterion : Criterion) : Scope → Scope
  | .mk projections criteria links => .mk projections (criteria ++ [criterion]) links

mutual

/-- There is a condition in the scope or behind one of its links. -/
def isRestrictive : Scope → Bool
  | .mk _ criteria links => ! criteria.isEmpty || anyRestrictive links

/-- There is a condition behind one of the links. -/
def anyRestrictive : List (Hop × Scope) → Bool
  | [] => false
  | (_, scope) :: rest => isRestrictive scope || anyRestrictive rest

end

end Scope

/-! ## Markup -/

namespace Projection

def markup (projection : Projection) : Markup :=
  .empty "attribute" <|
    ("name", projection.name) ::
      match projection.valueKey with
      | some key => [("alias", key)]
      | none => []

end Projection

namespace Criterion

/-- The element of one value of a list. -/
def valueMarkup (value : String) : Markup :=
  .element "value" [] [.text value]

def markup (criterion : Criterion) : Markup :=
  let attributes := [("attribute", criterion.attributeName), ("operator", criterion.operator)]
  match criterion.operand with
  | .none => .empty "condition" attributes
  | .value value => .empty "condition" (attributes ++ [("value", value)])
  | .list first rest => .element "condition" attributes ((first :: rest).map valueMarkup)

/-- The filter of an entity: nothing without conditions. -/
def filterMarkup : List Criterion → List Markup
  | [] => []
  | first :: rest => [.element "filter" [("type", "and")] ((first :: rest).map markup)]

end Criterion

namespace Scope

mutual

/-- The elements within the element of an entity. -/
def markup : Scope → List Markup
  | .mk projections criteria links =>
      projections.map Projection.markup ++ Criterion.filterMarkup criteria ++ linksMarkup links

/-- The elements of linked entities. -/
def linksMarkup : List (Hop × Scope) → List Markup
  | [] => []
  | (hop, scope) :: rest =>
      .element "link-entity"
          ([("name", hop.entityName), ("from", hop.toAttribute), ("to", hop.fromAttribute)] ++
            if isRestrictive scope then [] else [("link-type", "outer")])
          (markup scope) ::
        linksMarkup rest

end

end Scope

namespace Document

/-- The attributes of the outermost element. -/
def pageAttributes : Option Page → List (String × String)
  | some page => [("count", Text.natText page.count), ("page", Text.natText page.number)]
  | none => []

/-- The markup of a query; an entity from which nothing is projected yields all its attributes. -/
def markup (document : Document) : Markup :=
  let everything := if document.scope.projections.isEmpty then [.empty "all-attributes" []] else []
  .element "fetch" (pageAttributes document.page)
    [.element "entity" [("name", document.entity)] (everything ++ document.scope.markup)]

def text (document : Document) : String :=
  document.markup.render

end Document

end FetchXml

end EntitySearch
