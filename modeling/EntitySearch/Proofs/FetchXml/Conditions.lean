import EntitySearch.Proofs.FetchXml.Placement
import EntitySearch.Proofs.Markup.Elements

/-!
# The conditions of a query

The markup of a scope holds the elements of exactly the conditions on the scope and behind its
links, and a scope is restrictive if there are any. In a query these are the conditions of the
accepted rows.
-/

namespace EntitySearch

namespace FetchXml

open Markup

namespace Scope

mutual

/-- The conditions on a scope and behind its links, in the order of the text. -/
def allCriteria : Scope → List Criterion
  | .mk _ criteria links => criteria ++ linksCriteria links

/-- The conditions behind links. -/
def linksCriteria : List (Hop × Scope) → List Criterion
  | [] => []
  | (_, scope) :: rest => allCriteria scope ++ linksCriteria rest

end

theorem linksCriteria_eq (links : List (Hop × Scope)) :
    linksCriteria links = links.flatMap fun link => allCriteria link.2 := by
  induction links with
  | nil => rfl
  | cons link rest ih => rw [linksCriteria, ih, List.flatMap_cons]

/-- A scope is restrictive exactly if there are conditions on it or behind its links. -/
theorem isRestrictive_iff (scope : Scope) :
    scope.isRestrictive = true ↔ scope.allCriteria ≠ [] := by
  induction scope with
  | mk projections criteria links ih =>
      have behind : (links.any fun link => isRestrictive link.2) = true ↔
          linksCriteria links ≠ [] := by
        rw [linksCriteria_eq, List.any_eq_true, ne_eq, List.flatMap_eq_nil_iff]
        constructor
        · rintro ⟨link, member, restrictive⟩ all_empty
          exact (ih link member).mp restrictive (all_empty link member)
        · intro some_given
          by_contra none_restrictive
          apply some_given
          intro link member
          by_contra given
          exact none_restrictive ⟨link, member, (ih link member).mpr given⟩
      have here : (! criteria.isEmpty) = true ↔ criteria ≠ [] := by
        rw [Bool.not_eq_true', List.isEmpty_eq_false_iff]
      rw [isRestrictive, anyRestrictive_eq, Bool.or_eq_true, here, behind, allCriteria]
      simp only [ne_eq, List.append_eq_nil_iff, not_and_or]

end Scope

/-! ## Elements of a name -/

theorem elements_valueMarkup {name : String} (name_ne : "value" ≠ name) (value : String) :
    (Criterion.valueMarkup value).elements name = [] := by
  rw [Criterion.valueMarkup, elements, if_neg name_ne]
  rfl

theorem contentElements_values {name : String} (name_ne : "value" ≠ name) (values : List String) :
    contentElements name (values.map Criterion.valueMarkup) = [] := by
  rw [contentElements_eq, List.flatMap_map, List.flatMap_eq_nil_iff]
  intro value _
  exact elements_valueMarkup name_ne value

theorem contentElements_projections {name : String} (name_ne : "attribute" ≠ name)
    (projections : List Projection) :
    contentElements name (projections.map Projection.markup) = [] := by
  rw [contentElements_eq, List.flatMap_map, List.flatMap_eq_nil_iff]
  intro projection _
  rw [Projection.markup, elements, if_neg name_ne]

theorem elements_criterion (criterion : Criterion) :
    criterion.markup.elements "condition" = [criterion.markup] := by
  obtain ⟨attributeName, operator, operand⟩ := criterion
  cases operand with
  | none => rfl
  | value value => rfl
  | list first rest =>
      have value_ne : "value" ≠ "condition" := by decide
      have no_values := contentElements_values value_ne (first :: rest)
      rw [Criterion.markup]
      dsimp only
      rw [elements, no_values, if_pos rfl]

theorem elements_criterion_of_ne {name : String} (name_ne : "condition" ≠ name)
    (value_ne : "value" ≠ name) (criterion : Criterion) : criterion.markup.elements name = [] := by
  obtain ⟨attributeName, operator, operand⟩ := criterion
  cases operand with
  | none => exact if_neg name_ne
  | value value => exact if_neg name_ne
  | list first rest =>
      rw [Criterion.markup]
      dsimp only
      rw [elements, if_neg name_ne, contentElements_values value_ne]

theorem contentElements_filterMarkup (criteria : List Criterion) :
    contentElements "condition" (Criterion.filterMarkup criteria) =
      criteria.map Criterion.markup := by
  cases criteria with
  | nil => rfl
  | cons first rest =>
      rw [Criterion.filterMarkup, contentElements, elements, if_neg (by decide), contentElements_eq,
        List.flatMap_map]
      simp only [elements_criterion, contentElements, List.append_nil]
      exact (List.map_eq_flatMap).symm

theorem contentElements_filterMarkup_link (criteria : List Criterion) :
    contentElements "link-entity" (Criterion.filterMarkup criteria) = [] := by
  cases criteria with
  | nil => rfl
  | cons first rest =>
      have none_inside : contentElements "link-entity" ((first :: rest).map Criterion.markup) =
          [] := by
        rw [contentElements_eq, List.flatMap_map, List.flatMap_eq_nil_iff]
        intro criterion _
        exact elements_criterion_of_ne (by decide) (by decide) criterion
      rw [Criterion.filterMarkup, contentElements, elements, if_neg (by decide), none_inside]
      rfl

namespace Scope

theorem elements_linkMarkup_condition (link : Hop × Scope) :
    (linkMarkup link).elements "condition" = contentElements "condition" link.2.markup := by
  rw [linkMarkup, elements, if_neg (by decide)]

theorem elements_linkMarkup_link (link : Hop × Scope) :
    (linkMarkup link).elements "link-entity" =
      linkMarkup link :: contentElements "link-entity" link.2.markup := by
  rw [linkMarkup, elements, if_pos rfl]

/-- The conditions within the element of a scope are those on it and behind its links. -/
theorem contentElements_condition (scope : Scope) :
    contentElements "condition" scope.markup = scope.allCriteria.map Criterion.markup := by
  induction scope with
  | mk projections criteria links ih =>
      have behind : contentElements "condition" (links.map linkMarkup) =
          (linksCriteria links).map Criterion.markup := by
        rw [contentElements_eq, List.flatMap_map, linksCriteria_eq, List.map_flatMap]
        apply List.flatMap_congr
        intro link member
        rw [elements_linkMarkup_condition, ih link member]
      rw [markup, linksMarkup_eq, contentElements_append, contentElements_append,
        contentElements_projections (by decide), contentElements_filterMarkup, behind,
        List.nil_append, allCriteria, List.map_append]

/-- Every link in the markup of a scope is the element of a linked scope. -/
theorem exists_linkMarkup_of_mem (scope : Scope) :
    ∀ piece ∈ contentElements "link-entity" scope.markup, ∃ link, piece = linkMarkup link := by
  induction scope with
  | mk projections criteria links ih =>
      intro piece member
      rw [markup, linksMarkup_eq, contentElements_append, contentElements_append,
        contentElements_projections (by decide), contentElements_filterMarkup_link,
        List.nil_append, List.nil_append, contentElements_eq, List.flatMap_map,
        List.mem_flatMap] at member
      obtain ⟨link, link_member, within⟩ := member
      rw [elements_linkMarkup_link, List.mem_cons] at within
      rcases within with here | below
      · exact ⟨link, here⟩
      · exact ih link link_member piece below

end Scope

namespace Document

/-- The elements of a name in a document, unless it is a name of the frame around the scope. -/
theorem elements_markup {name : String} (fetch_ne : "fetch" ≠ name) (entity_ne : "entity" ≠ name)
    (everything_ne : "all-attributes" ≠ name) (document : Document) :
    document.markup.elements name = contentElements name document.scope.markup := by
  have no_more : contentElements name [.empty "all-attributes" []] = [] := by
    rw [contentElements, elements, if_neg everything_ne]
    rfl
  rw [markup, elements, if_neg fetch_ne, contentElements, elements, if_neg entity_ne,
    contentElements_append]
  cases document.scope.projections.isEmpty with
  | false => exact List.append_nil _
  | true =>
      rw [if_pos rfl, no_more]
      exact List.append_nil _

/-- The conditions of a document are those on its scope and behind the links. -/
theorem elements_condition (document : Document) :
    document.markup.elements "condition" = document.scope.allCriteria.map Criterion.markup := by
  rw [document.elements_markup (by decide) (by decide) (by decide),
    Scope.contentElements_condition]

end Document

/-! ## Conditions that were placed -/

namespace Scope

theorem linksCriteria_modifyLink {change : Scope → Scope} {added : List Criterion}
    (adds : ∀ scope, (change scope).allCriteria.Perm (scope.allCriteria ++ added)) (hop : Hop)
    (links : List (Hop × Scope)) :
    (linksCriteria (modifyLink hop change links)).Perm (linksCriteria links ++ added) := by
  induction links with
  | nil =>
      rw [modifyLink, linksCriteria, linksCriteria, linksCriteria, List.append_nil]
      exact adds blank
  | cons link rest ih =>
      obtain ⟨first, scope⟩ := link
      rw [modifyLink]
      split_ifs with here
      · rw [linksCriteria, linksCriteria, List.append_assoc]
        have moved : (scope.allCriteria ++ added ++ linksCriteria rest).Perm
            (scope.allCriteria ++ (linksCriteria rest ++ added)) := by
          rw [List.append_assoc]
          exact List.perm_append_comm.append_left scope.allCriteria
        exact ((adds scope).append_right _).trans moved
      · rw [linksCriteria, linksCriteria, List.append_assoc]
        exact ih.append_left scope.allCriteria

/-- A change that adds conditions to a scope adds the same conditions at the end of a path. -/
theorem allCriteria_modifyAt {change : Scope → Scope} {added : List Criterion}
    (adds : ∀ scope, (change scope).allCriteria.Perm (scope.allCriteria ++ added))
    (path : List Hop) (scope : Scope) :
    (modifyAt change path scope).allCriteria.Perm (scope.allCriteria ++ added) := by
  induction path generalizing scope with
  | nil => exact adds scope
  | cons hop path ih =>
      obtain ⟨projections, criteria, links⟩ := scope
      rw [modifyAt, allCriteria, allCriteria, List.append_assoc]
      exact (linksCriteria_modifyLink ih hop links).append_left criteria

theorem allCriteria_apply (addition : Addition) (scope : Scope) :
    (addition.apply scope).allCriteria.Perm
      (scope.allCriteria ++ addition.criterion?.toList) := by
  have criteria_same := criteria_apply addition scope
  have links_same := links_apply addition scope
  have split (whole : Scope) : whole.allCriteria = whole.criteria ++ linksCriteria whole.links := by
    cases whole with
    | mk projections criteria links => rfl
  rw [split, split, criteria_same, links_same, List.append_assoc, List.append_assoc]
  exact List.perm_append_comm.append_left scope.criteria

/-- The conditions of a scope that was built are those that were placed, wherever they are. -/
theorem allCriteria_foldl_place (placements : List Placement) (scope : Scope) :
    (placements.foldl place scope).allCriteria.Perm
      (scope.allCriteria ++
        placements.filterMap fun placement => placement.addition.criterion?) := by
  induction placements generalizing scope with
  | nil => rw [List.foldl_nil, List.filterMap_nil, List.append_nil]
  | cons placement rest ih =>
      have placed :=
        allCriteria_modifyAt (allCriteria_apply placement.addition) placement.path scope
      rw [List.foldl_cons]
      apply (ih (scope.place placement)).trans
      rw [List.filterMap_cons]
      cases added : placement.addition.criterion? with
      | none =>
          rw [added, Option.toList_none, List.append_nil] at placed
          exact placed.append_right _
      | some criterion =>
          rw [added, Option.toList_some] at placed
          apply (placed.append_right _).trans
          rw [List.append_assoc, List.singleton_append]

end Scope

theorem filterMap_criterion?_placements (rows : List FilterRow) (columns : List Column) :
    (placements rows columns).filterMap (fun placement => placement.addition.criterion?) =
      (rows.filterMap accepted?).map PlacedCriterion.criterion := by
  have of_columns : (columns.filterMap placementOfColumn?).filterMap
      (fun placement => placement.addition.criterion?) = [] := by
    rw [List.filterMap_eq_nil_iff]
    intro placement member
    obtain ⟨column, _, placed⟩ := List.mem_filterMap.mp member
    exact criterion?_of_placementOfColumn? placed
  rw [placements, List.filterMap_append, of_columns, List.nil_append, List.filterMap_map,
    ← List.filterMap_eq_map]
  rfl

/-- The conditions of a query are those of the accepted rows, each once. -/
theorem Query.allCriteria_ofRows (entity : String) (rows : List FilterRow)
    (columns : List Column) (page : Option Page) :
    (ofRows entity rows columns page).document.scope.allCriteria.Perm
      ((rows.filterMap accepted?).map PlacedCriterion.criterion) := by
  have placed := Scope.allCriteria_foldl_place (placements rows columns) .blank
  rwa [filterMap_criterion?_placements, ← scope_ofRows entity rows columns page] at placed

/-- The conditions in the document of a query are those of the accepted rows, each once. -/
theorem Query.elements_condition_ofRows (entity : String) (rows : List FilterRow)
    (columns : List Column) (page : Option Page) :
    ((ofRows entity rows columns page).document.markup.elements "condition").Perm
      ((rows.filterMap accepted?).map fun placed => placed.criterion.markup) := by
  have written := (allCriteria_ofRows entity rows columns page).map Criterion.markup
  rw [Document.elements_condition]
  rw [List.map_map] at written
  exact written

end FetchXml

end EntitySearch
