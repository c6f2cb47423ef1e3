import EntitySearch.FetchXml.Query
import EntitySearch.Proofs.FetchXml.Paths
import EntitySearch.Proofs.Repetition
import EntitySearch.Proofs.Sifting
import Mathlib.Data.List.Induction

/-!
# The joins of a query

A query places projections and conditions at the ends of paths, one after the other. The links that
result form the tree of all paths: at every place there is one link for each hop on the way further,
in the order in which the hops first appeared, and the conditions at a place are those placed there.
-/

namespace EntitySearch

namespace FetchXml

/-- What a query says about an entity at one time. -/
inductive Addition where
  | projection (projection : Projection)
  | criterion (criterion : Criterion)

/-- An addition and the path to its entity. -/
structure Placement where
  path : List Hop
  addition : Addition

namespace Addition

/-- The scope with an addition. -/
def apply : Addition → Scope → Scope
  | .projection added => Scope.project added
  | .criterion added => Scope.require added

/-- The condition of an addition. -/
def criterion? : Addition → Option Criterion
  | .projection _ => none
  | .criterion added => some added

end Addition

/-- The scope of the searched entity with an addition somewhere. -/
def Scope.place (scope : Scope) (placement : Placement) : Scope :=
  modifyAt placement.addition.apply placement.path scope

/-- What a column adds: nothing if it is elsewhere and has no path. -/
def placementOfColumn? (column : Column) : Option Placement :=
  if column.isRoot then some ⟨[], .projection ⟨column.attributeName, none⟩⟩
  else if column.joinPath.isEmpty then none
  else some ⟨column.joinPath, .projection ⟨column.attributeName, some column.valueKey⟩⟩

/-- What a placed condition adds. -/
def PlacedCriterion.placement (placed : PlacedCriterion) : Placement :=
  ⟨placed.path, .criterion placed.criterion⟩

/-- The condition of an accepted row, and its path. -/
def accepted? (row : FilterRow) : Option PlacedCriterion :=
  (placedCriterion? row).toOption

/-- All that a query adds, columns first. -/
def placements (rows : List FilterRow) (columns : List Column) : List Placement :=
  columns.filterMap placementOfColumn? ++ (rows.filterMap accepted?).map PlacedCriterion.placement

theorem criterion?_of_placementOfColumn? {column : Column} {placement : Placement}
    (placed : placementOfColumn? column = some placement) :
    placement.addition.criterion? = none := by
  rw [placementOfColumn?] at placed
  split_ifs at placed <;> (obtain rfl := Option.some.inj placed; rfl)

/-- The scope of a query is built from its placements. -/
theorem Query.scope_ofRows (entity : String) (rows : List FilterRow) (columns : List Column)
    (page : Option Page) :
    (ofRows entity rows columns page).document.scope =
      (placements rows columns).foldl Scope.place .blank := by
  have columns_placed (scope : Scope) :
      columns.foldl Scope.addColumn scope =
        (columns.filterMap placementOfColumn?).foldl Scope.place scope := by
    rw [List.foldl_filterMap]
    congr 1
    funext scope column
    rw [Scope.addColumn, placementOfColumn?]
    split_ifs
    · obtain ⟨projections, criteria, links⟩ := scope
      rfl
    · rfl
    · rfl
  rw [placements, List.foldl_append, List.foldl_map, ← columns_placed]
  rw [ofRows, Sifted.kept_rows]
  rfl

namespace Scope

theorem links_apply (addition : Addition) (scope : Scope) :
    (addition.apply scope).links = scope.links := by
  obtain ⟨projections, criteria, links⟩ := scope
  cases addition with
  | projection added =>
      rw [Addition.apply, project]
      split_ifs <;> rfl
  | criterion added => rfl

theorem criteria_apply (addition : Addition) (scope : Scope) :
    (addition.apply scope).criteria = scope.criteria ++ addition.criterion?.toList := by
  obtain ⟨projections, criteria, links⟩ := scope
  cases addition with
  | projection added =>
      rw [Addition.apply, project]
      split_ifs <;> exact (List.append_nil criteria).symm
  | criterion added => rfl

theorem distinct_apply (addition : Addition) {scope : Scope} (distinct : scope.Distinct) :
    (addition.apply scope).Distinct := by
  have same := links_apply addition scope
  obtain ⟨different, behind⟩ := distinct
  refine .mk ?_ ?_
  · rw [hops, same]
    exact different
  · rw [same]
    exact behind

/-- However additions are placed, no two links at the same place have the same join. -/
theorem distinct_foldl_place (placements : List Placement) {scope : Scope}
    (distinct : scope.Distinct) : (placements.foldl place scope).Distinct := by
  induction placements generalizing scope with
  | nil => exact distinct
  | cons placement rest ih =>
      apply ih
      exact distinct.modifyAt (fun _ inner => distinct_apply placement.addition inner)
        placement.path

/-- The links at a place: the hops on the way to later places, in the order in which they first
appear. -/
theorem hops_follow_foldl_place (placements : List Placement) (path : List Hop) :
    ((placements.foldl place blank).follow path).hops =
      ((placements.map Placement.path).filterMap (nextHop? path)).eraseDups := by
  induction placements using List.reverseRecOn with
  | nil => rw [List.foldl_nil, follow_blank]; rfl
  | append_singleton rest last ih =>
      rw [List.foldl_append, List.foldl_cons, List.foldl_nil, place,
        hops_follow_modifyAt (links_apply last.addition), ih, List.map_append,
        List.filterMap_append]
      cases next : nextHop? path last.path with
      | none => simp [next]
      | some hop => simp [next, eraseDups_append_singleton, Gathered.add_eq]

/-- The condition that a placement adds at a place. -/
def criterionAt? (path : List Hop) (placement : Placement) : Option Criterion :=
  if placement.path = path then placement.addition.criterion? else none

/-- What is seen of a scope apart from its links changes at the end of a placement's path only. -/
theorem seen_follow_place {Seen : Type} (seen : Scope → Seen)
    (links_unseen : ∀ projections criteria links others,
      seen (.mk projections criteria links) = seen (.mk projections criteria others))
    (placement : Placement) (path : List Hop) (scope : Scope) :
    seen ((scope.place placement).follow path) =
      if placement.path = path then seen (placement.addition.apply (scope.follow path))
      else seen (scope.follow path) := by
  rw [place, follow_modifyAt (links_apply placement.addition)]
  cases dropped : placement.path.dropPrefix? path with
  | none =>
      rw [if_neg]
      intro same
      have whole := List.dropPrefix?_append_of_beq [] (beq_self_eq_true path)
      rw [List.append_nil] at whole
      rw [same, whole] at dropped
      cases dropped
  | some rest =>
      obtain ⟨front, split, same⟩ := List.dropPrefix?_eq_some_iff.mp dropped
      obtain rfl := eq_of_beq same
      cases rest with
      | nil =>
          rw [List.append_nil] at split
          rw [if_pos split]
          rfl
      | cons hop others =>
          have elsewhere : placement.path ≠ front := by
            rw [split]
            intro same
            simpa using congrArg List.length same
          rw [if_neg elsewhere]
          obtain ⟨projections, criteria, links⟩ := scope.follow front
          exact links_unseen projections criteria _ links

theorem criteria_follow_place (placement : Placement) (path : List Hop) (scope : Scope) :
    ((scope.place placement).follow path).criteria =
      (scope.follow path).criteria ++ (criterionAt? path placement).toList := by
  rw [seen_follow_place criteria (fun _ _ _ _ => rfl), criterionAt?]
  split_ifs
  · exact criteria_apply placement.addition (scope.follow path)
  · exact (List.append_nil _).symm

/-- The conditions at a place are those placed there, in their order. -/
theorem criteria_follow_foldl_place (placements : List Placement) (path : List Hop) :
    ((placements.foldl place blank).follow path).criteria =
      placements.filterMap (criterionAt? path) := by
  induction placements using List.reverseRecOn with
  | nil => rw [List.foldl_nil, follow_blank]; rfl
  | append_singleton rest last ih =>
      rw [List.foldl_append, List.foldl_cons, List.foldl_nil, criteria_follow_place, ih,
        List.filterMap_append]
      cases placed : criterionAt? path last <;> simp [placed]

end Scope

end FetchXml

end EntitySearch
