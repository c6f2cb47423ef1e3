import EntitySearch.Proofs.FetchXml.Conditions
import EntitySearch.Proofs.FetchXml.JoinTree

/-!
# What restricts the rows of a query

Projections do not restrict the rows of a query, and neither do outer links. What is left of a
document without them depends on the rows alone, up to the order of links at the same place.
-/

namespace EntitySearch

namespace FetchXml

open Markup

/-! ## The essential part of a document -/

/-- The element of a projection, or of the projection of everything. -/
def isProjection : Markup → Bool
  | .empty name _ => name == "attribute" || name == "all-attributes"
  | _ => false

/-- The element of a link. -/
def isLink (piece : Markup) : Bool :=
  piece.name? == some "link-entity"

/-- The element of a link that keeps the rows without a partner. -/
def isOuterLink (piece : Markup) : Bool :=
  isLink piece && piece.attributes.lookup "link-type" == some "outer"

mutual

/-- A piece of markup without the projections and the outer links within. -/
def essential : Markup → Markup
  | .empty name attributes => .empty name attributes
  | .element name attributes content => .element name attributes (essentialContent content)
  | .text value => .text value

/-- The pieces of markup that are neither projections nor outer links, without those within. -/
def essentialContent : List Markup → List Markup
  | [] => []
  | piece :: rest =>
      if isProjection piece || isOuterLink piece then essentialContent rest
      else essential piece :: essentialContent rest

end

theorem essentialContent_eq (content : List Markup) :
    essentialContent content =
      (content.filter fun piece => ! (isProjection piece || isOuterLink piece)).map essential := by
  induction content with
  | nil => rfl
  | cons piece rest ih =>
      rw [essentialContent, ih, List.filter_cons]
      cases isProjection piece || isOuterLink piece <;> rfl

theorem essentialContent_append (front back : List Markup) :
    essentialContent (front ++ back) = essentialContent front ++ essentialContent back := by
  rw [essentialContent_eq, essentialContent_eq, essentialContent_eq, List.filter_append,
    List.map_append]

theorem essentialContent_projections (projections : List Projection) :
    essentialContent (projections.map Projection.markup) = [] := by
  induction projections with
  | nil => rfl
  | cons projection rest ih => exact ih

theorem essentialContent_values (values : List String) :
    essentialContent (values.map Criterion.valueMarkup) = values.map Criterion.valueMarkup := by
  induction values with
  | nil => rfl
  | cons value rest ih => exact congrArg (Criterion.valueMarkup value :: ·) ih

theorem essential_criterion (criterion : Criterion) :
    essential criterion.markup = criterion.markup := by
  obtain ⟨attributeName, operator, operand⟩ := criterion
  cases operand with
  | none => rfl
  | value value => rfl
  | list first rest =>
      have values := essentialContent_values (first :: rest)
      exact congrArg (Markup.element "condition" _) values

theorem essentialContent_criteria (criteria : List Criterion) :
    essentialContent (criteria.map Criterion.markup) = criteria.map Criterion.markup := by
  induction criteria with
  | nil => rfl
  | cons criterion rest ih =>
      have kept : (isProjection criterion.markup || isOuterLink criterion.markup) = false := by
        obtain ⟨attributeName, operator, operand⟩ := criterion
        cases operand <;> rfl
      rw [List.map_cons, essentialContent, kept, ih, essential_criterion]
      rfl

theorem essentialContent_filterMarkup (criteria : List Criterion) :
    essentialContent (Criterion.filterMarkup criteria) = Criterion.filterMarkup criteria := by
  cases criteria with
  | nil => rfl
  | cons first rest =>
      have inside := essentialContent_criteria (first :: rest)
      exact congrArg (fun content => [Markup.element "filter" [("type", "and")] content]) inside

namespace Scope

/-- A link is outer exactly if there is no condition behind it. -/
theorem isOuterLink_linkMarkup (link : Hop × Scope) :
    isOuterLink (linkMarkup link) = ! link.2.isRestrictive := by
  rw [isOuterLink, linkMarkup]
  cases link.2.isRestrictive <;> rfl

theorem essentialContent_links (links : List (Hop × Scope)) :
    essentialContent (links.map linkMarkup) =
      (links.filter fun link => link.2.isRestrictive).map fun link =>
        essential (linkMarkup link) := by
  induction links with
  | nil => rfl
  | cons link rest ih =>
      have outer := isOuterLink_linkMarkup link
      have projected : isProjection (linkMarkup link) = false := rfl
      rw [List.map_cons, essentialContent, projected, outer, ih, List.filter_cons]
      cases link.2.isRestrictive <;> rfl

/-- Of a scope the conditions and the restrictive links are essential. -/
theorem essentialContent_markup (scope : Scope) :
    essentialContent scope.markup =
      Criterion.filterMarkup scope.criteria ++
        (scope.links.filter fun link => link.2.isRestrictive).map fun link =>
          essential (linkMarkup link) := by
  obtain ⟨projections, criteria, links⟩ := scope
  rw [markup, linksMarkup_eq, essentialContent_append, essentialContent_append,
    essentialContent_projections, essentialContent_filterMarkup, essentialContent_links]
  rfl

/-- The links that are not essential hold no conditions. -/
theorem contentElements_essential_links {links : List (Hop × Scope)}
    (kept : ∀ link ∈ links, (essential (linkMarkup link)).elements "condition" =
      (linkMarkup link).elements "condition") :
    contentElements "condition" ((links.filter fun link => link.2.isRestrictive).map fun link =>
        essential (linkMarkup link)) =
      contentElements "condition" (links.map linkMarkup) := by
  induction links with
  | nil => rfl
  | cons link rest ih =>
      have here := kept link (by simp)
      have later := ih fun other member => kept other (List.mem_cons_of_mem link member)
      rw [List.filter_cons, List.map_cons, contentElements, ← later]
      split_ifs with restrictive
      · rw [List.map_cons, contentElements, here]
      · rw [isRestrictive_iff, not_not] at restrictive
        rw [elements_linkMarkup_condition, contentElements_condition, restrictive, List.map_nil,
          List.nil_append]

/-- No condition is lost with what is not essential. -/
theorem contentElements_essentialContent (scope : Scope) :
    contentElements "condition" (essentialContent scope.markup) =
      contentElements "condition" scope.markup := by
  induction scope with
  | mk projections criteria links ih =>
      have kept : ∀ link ∈ links, (essential (linkMarkup link)).elements "condition" =
          (linkMarkup link).elements "condition" := by
        intro link member
        rw [elements_linkMarkup_condition, ← ih link member, linkMarkup, essential, elements,
          if_neg (by decide)]
      have linked := contentElements_essential_links kept
      rw [essentialContent_markup, contentElements_append, contentElements_filterMarkup]
      rw [markup, linksMarkup_eq, contentElements_append, contentElements_append,
        contentElements_projections (by decide), contentElements_filterMarkup, List.nil_append,
        ← linked]
      rfl

/-! ## Scopes with the same conditions -/

theorem exists_link_of_criteria_ne {scope : Scope} {hop : Hop} {path : List Hop}
    (given : (scope.follow (hop :: path)).criteria ≠ []) : ∃ next, (hop, next) ∈ scope.links := by
  have somewhere : scope.follow (hop :: path) ≠ blank := by
    intro nowhere
    rw [nowhere] at given
    exact given rfl
  exact exists_link_of_follow_ne somewhere

/-- A scope is restrictive exactly if a path leads to a condition. -/
theorem Distinct.isRestrictive_iff_follow {scope : Scope} (distinct : scope.Distinct) :
    scope.isRestrictive = true ↔ ∃ path, (scope.follow path).criteria ≠ [] := by
  induction distinct with
  | @mk scope different behind ih =>
      have linked {link : Hop × Scope} (member : link ∈ scope.links) :
          scope.linked link.1 = link.2 :=
        Distinct.linked_eq (.mk different behind) member
      obtain ⟨projections, criteria, links⟩ := scope
      rw [isRestrictive, anyRestrictive_eq, Bool.or_eq_true, List.any_eq_true]
      constructor
      · rintro (here | ⟨link, member, restrictive⟩)
        · refine ⟨[], ?_⟩
          rwa [Bool.not_eq_true', List.isEmpty_eq_false_iff] at here
        · obtain ⟨path, given⟩ := (ih link member).mp restrictive
          refine ⟨link.1 :: path, ?_⟩
          rw [follow, linked member]
          exact given
      · rintro ⟨path, given⟩
        cases path with
        | nil =>
            left
            rwa [Bool.not_eq_true', List.isEmpty_eq_false_iff]
        | cons hop path =>
            right
            obtain ⟨next, link⟩ := exists_link_of_criteria_ne given
            rw [follow, linked link] at given
            exact ⟨(hop, next), link, (ih (hop, next) link).mpr ⟨path, given⟩⟩

/-- To a restrictive link of one scope there is one of the other scope if the same conditions are
at the same places in both. -/
theorem Distinct.exists_restrictive_link {scope other : Scope} (distinct : scope.Distinct)
    (other_distinct : other.Distinct)
    (same : ∀ path, (scope.follow path).criteria = (other.follow path).criteria)
    {hop : Hop} {next : Scope} (link : (hop, next) ∈ scope.links)
    (restrictive : next.isRestrictive = true) :
    ∃ counterpart, (hop, counterpart) ∈ other.links ∧ counterpart.isRestrictive = true ∧
      ∀ path, (next.follow path).criteria = (counterpart.follow path).criteria := by
  have linked := distinct.linked_eq link
  obtain ⟨_, behind⟩ := distinct
  obtain ⟨path, given⟩ := (behind _ link).isRestrictive_iff_follow.mp restrictive
  have given_there : (other.follow (hop :: path)).criteria ≠ [] := by
    rw [← same, follow, linked]
    exact given
  obtain ⟨counterpart, other_link⟩ := exists_link_of_criteria_ne given_there
  have other_linked := other_distinct.linked_eq other_link
  obtain ⟨_, other_behind⟩ := other_distinct
  have same_behind : ∀ path, (next.follow path).criteria = (counterpart.follow path).criteria := by
    intro path
    have same_there := same (hop :: path)
    rwa [follow, linked, follow, other_linked] at same_there
  refine ⟨counterpart, other_link, ?_, same_behind⟩
  rw [(other_behind _ other_link).isRestrictive_iff_follow]
  exact ⟨path, same_behind path ▸ given⟩

theorem nodup_restrictive_hops {scope : Scope} (different : scope.hops.Nodup) :
    ((scope.links.filter fun link => link.2.isRestrictive).map Prod.fst).Nodup :=
  different.sublist (List.filter_sublist.map Prod.fst)

/-- What is essential of a distinct scope depends on the conditions at the ends of paths only. -/
theorem Distinct.essentialContent_reordered {scope other : Scope} (distinct : scope.Distinct)
    (other_distinct : other.Distinct)
    (same : ∀ path, (scope.follow path).criteria = (other.follow path).criteria) :
    ContentReordered isLink (essentialContent scope.markup) (essentialContent other.markup) := by
  induction distinct generalizing other with
  | @mk scope different behind ih =>
      have whole : scope.Distinct := .mk different behind
      have criteria_same : scope.criteria = other.criteria := same []
      rw [essentialContent_markup, essentialContent_markup, criteria_same]
      apply ContentReordered.append_left
      -- The restrictive links of both sides have the same joins, whatever the others are.
      apply contentReordered_map_of_keys (fun link => rfl)
      · exact nodup_restrictive_hops different
      · obtain ⟨other_different, _⟩ := other_distinct
        exact nodup_restrictive_hops other_different
      · rintro ⟨hop, next⟩ member
        obtain ⟨link, restrictive⟩ := List.mem_filter.mp member
        obtain ⟨counterpart, other_link, other_restrictive, same_behind⟩ :=
          whole.exists_restrictive_link other_distinct same link restrictive
        refine ⟨counterpart, List.mem_filter.mpr ⟨other_link, other_restrictive⟩, ?_⟩
        obtain ⟨_, other_behind⟩ := other_distinct
        have inside := ih _ link (other_behind _ other_link) same_behind
        dsimp only at restrictive
        rw [linkMarkup, linkMarkup, restrictive, other_restrictive, essential, essential]
        exact .element inside
      · rintro ⟨hop, next⟩ member
        obtain ⟨link, restrictive⟩ := List.mem_filter.mp member
        obtain ⟨counterpart, other_link, other_restrictive, _⟩ :=
          other_distinct.exists_restrictive_link whole (fun path => (same path).symm) link
            restrictive
        have kept : (hop, counterpart) ∈ scope.links.filter fun link => link.2.isRestrictive :=
          List.mem_filter.mpr ⟨other_link, other_restrictive⟩
        exact List.mem_map.mpr ⟨(hop, counterpart), kept, rfl⟩

end Scope

namespace Document

/-- What is essential of a document. -/
theorem essential_markup (document : Document) :
    essential document.markup =
      .element "fetch" (pageAttributes document.page)
        [.element "entity" [("name", document.entity)]
          (essentialContent document.scope.markup)] := by
  rw [markup]
  cases document.scope.projections.isEmpty <;> rfl

end Document

/-- The columns shown do not change which rows a query selects. Whatever the columns are, what is
left of the document without projections and outer links is the same up to the order of links at
the same place. A link is outer exactly if there is no condition within it, so no condition is lost
with the outer links. -/
theorem Query.essential_reordered_ofRows (entity : String) (rows : List FilterRow)
    (columns others : List Column) (page : Option Page) :
    let document := (ofRows entity rows columns page).document
    let other := (ofRows entity rows others page).document
    Reordered isLink (essential document.markup) (essential other.markup) ∧
      (∀ link ∈ document.markup.elements "link-entity",
        isOuterLink link = true ↔ link.elements "condition" = []) ∧
      (essential document.markup).elements "condition" =
        document.markup.elements "condition" := by
  intro document other
  refine ⟨?_, ?_, ?_⟩
  · have distinct := distinct_scope_ofRows entity rows columns page
    have other_distinct := distinct_scope_ofRows entity rows others page
    have same (path : List Hop) :
        (document.scope.follow path).criteria = (other.scope.follow path).criteria := by
      rw [criteria_follow_ofRows, criteria_follow_ofRows]
    have inside := distinct.essentialContent_reordered other_distinct same
    rw [Document.essential_markup, Document.essential_markup]
    exact .element (.cons (.element inside) .nil)
  · intro link member
    rw [Document.elements_markup (by decide) (by decide) (by decide)] at member
    obtain ⟨linked, rfl⟩ := Scope.exists_linkMarkup_of_mem document.scope link member
    rw [Scope.isOuterLink_linkMarkup, Scope.elements_linkMarkup_condition,
      Scope.contentElements_condition, Bool.not_eq_true', ← Bool.not_eq_true,
      Scope.isRestrictive_iff, not_not, List.map_eq_nil_iff]
  · have inside := Scope.contentElements_essentialContent document.scope
    rw [Document.elements_markup (by decide) (by decide) (by decide), ← inside,
      Document.essential_markup, elements, if_neg (by decide), contentElements, elements,
      if_neg (by decide)]
    exact List.append_nil _

end FetchXml

end EntitySearch
