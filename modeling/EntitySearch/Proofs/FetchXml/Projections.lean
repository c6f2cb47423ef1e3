import EntitySearch.Proofs.Columns
import EntitySearch.Proofs.FetchXml.JoinTree

/-!
# Projections of a query

An attribute is projected at the end of its column's path, unless its key is projected there
already. The keys at a place are therefore the keys of the columns placed there.
-/

namespace EntitySearch

namespace FetchXml

/-- The projection of an addition. -/
def Addition.projection? : Addition → Option Projection
  | .projection added => some added
  | .criterion _ => none

namespace Scope

/-- Projections with one more, unless its key is among them. -/
def withProjection (projections : List Projection) (added : Projection) : List Projection :=
  if projections.any (·.key == added.key) then projections else projections ++ [added]

/-- The projection that a placement adds at a place. -/
def projectionAt? (path : List Hop) (placement : Placement) : Option Projection :=
  if placement.path = path then placement.addition.projection? else none

theorem projections_apply (addition : Addition) (scope : Scope) :
    (addition.apply scope).projections =
      addition.projection?.toList.foldl withProjection scope.projections := by
  obtain ⟨projections, criteria, links⟩ := scope
  cases addition with
  | projection added =>
      change (project added (.mk projections criteria links)).projections =
        withProjection projections added
      rw [project, withProjection]
      split_ifs <;> rfl
  | criterion added => rfl

theorem projections_follow_place (placement : Placement) (path : List Hop) (scope : Scope) :
    ((scope.place placement).follow path).projections =
      (projectionAt? path placement).toList.foldl withProjection
        (scope.follow path).projections := by
  rw [seen_follow_place projections (fun _ _ _ _ => rfl), projectionAt?]
  split_ifs
  · exact projections_apply placement.addition (scope.follow path)
  · rfl

/-- The projections at a place are those placed there, the first one of each key. -/
theorem projections_follow_foldl_place (placements : List Placement) (path : List Hop) :
    ((placements.foldl place blank).follow path).projections =
      (placements.filterMap (projectionAt? path)).foldl withProjection [] := by
  induction placements using List.reverseRecOn with
  | nil => rw [List.foldl_nil, follow_blank]; rfl
  | append_singleton rest last ih =>
      rw [List.foldl_append, List.foldl_cons, List.foldl_nil, projections_follow_place, ih,
        List.filterMap_append, List.foldl_append]
      cases placed : projectionAt? path last <;> simp [placed]

theorem mem_of_mem_foldl_withProjection {added : List Projection} {projection : Projection}
    (member : projection ∈ added.foldl withProjection []) : projection ∈ added := by
  induction added using List.reverseRecOn with
  | nil => exact member
  | append_singleton rest last ih =>
      rw [List.foldl_append, List.foldl_cons, List.foldl_nil, withProjection] at member
      split_ifs at member
      · exact List.mem_append_left _ (ih member)
      · rcases List.mem_append.mp member with earlier | here
        · exact List.mem_append_left _ (ih earlier)
        · exact List.mem_append_right _ here

/-- No key is lost. -/
theorem exists_key_eq_of_mem {added : List Projection} {projection : Projection}
    (member : projection ∈ added) :
    ∃ kept ∈ added.foldl withProjection [], kept.key = projection.key := by
  induction added using List.reverseRecOn with
  | nil => cases member
  | append_singleton rest last ih =>
      rw [List.foldl_append, List.foldl_cons, List.foldl_nil, withProjection]
      split_ifs with present
      · rcases List.mem_append.mp member with earlier | here
        · exact ih earlier
        · obtain rfl := List.mem_singleton.mp here
          obtain ⟨kept, kept_member, same⟩ := List.any_eq_true.mp present
          exact ⟨kept, kept_member, eq_of_beq same⟩
      · rcases List.mem_append.mp member with earlier | here
        · obtain ⟨kept, kept_member, same⟩ := ih earlier
          exact ⟨kept, List.mem_append_left _ kept_member, same⟩
        · exact ⟨projection, List.mem_append_right _ here, rfl⟩

end Scope

/-- The projection of a column's attribute: under its own name on the searched entity, under its key
elsewhere. -/
def projectionOf (column : Column) : Projection :=
  ⟨column.attributeName, if column.isRoot then none else some column.valueKey⟩

section Columns

variable {entity : String} {sources : List TableColumn}

theorem projectionOf_of_isRoot {column : Column}
    (member : column ∈ Column.ofTableColumns entity sources) (root : column.isRoot = true) :
    projectionOf column = ⟨column.valueKey, none⟩ := by
  rw [projectionOf, if_pos root, Column.valueKey_of_isRoot member root]

theorem projectionOf_of_not_isRoot {column : Column} (related : column.isRoot = false) :
    projectionOf column = ⟨column.attributeName, some column.valueKey⟩ := by
  rw [projectionOf, related]
  rfl

theorem key_projectionOf {column : Column}
    (member : column ∈ Column.ofTableColumns entity sources) :
    (projectionOf column).key = column.valueKey := by
  cases root : column.isRoot with
  | true => rw [projectionOf_of_isRoot member root]; rfl
  | false => rw [projectionOf_of_not_isRoot root]; rfl

theorem placementOfColumn?_eq {column : Column}
    (member : column ∈ Column.ofTableColumns entity sources) :
    placementOfColumn? column = some ⟨column.joinPath, .projection (projectionOf column)⟩ := by
  have at_root := Column.joinPath_eq_nil_iff member
  rw [placementOfColumn?, projectionOf]
  cases root : column.isRoot with
  | true => simp [at_root.mpr root]
  | false =>
      have elsewhere : column.joinPath ≠ [] := by simp [at_root, root]
      simp [elsewhere]

/-- What is placed at the end of a path are the attributes of the columns with this path. -/
theorem filterMap_projectionAt?_placements (rows : List FilterRow) (path : List Hop) :
    (placements rows (Column.ofTableColumns entity sources)).filterMap (Scope.projectionAt? path) =
      ((Column.ofTableColumns entity sources).filter (·.joinPath = path)).map projectionOf := by
  have of_rows : ((rows.filterMap accepted?).map PlacedCriterion.placement).filterMap
      (Scope.projectionAt? path) = [] := by
    rw [List.filterMap_eq_nil_iff]
    intro placement member
    obtain ⟨placed, _, rfl⟩ := List.mem_map.mp member
    exact ite_self _
  have of_columns (columns : List Column)
      (resolved : ∀ column ∈ columns, column ∈ Column.ofTableColumns entity sources) :
      (columns.filterMap placementOfColumn?).filterMap (Scope.projectionAt? path) =
        (columns.filter (·.joinPath = path)).map projectionOf := by
    induction columns with
    | nil => rfl
    | cons column rest ih =>
        have placed := placementOfColumn?_eq (resolved column (by simp))
        have later := ih fun other member => resolved other (List.mem_cons_of_mem column member)
        rw [List.filterMap_cons_some placed, List.filterMap_cons, later]
        by_cases here : column.joinPath = path
        · simp [Scope.projectionAt?, Addition.projection?, here]
        · simp [Scope.projectionAt?, here]
  rw [placements, List.filterMap_append, of_rows, List.append_nil]
  exact of_columns _ fun _ member => member

namespace Query

variable (entity sources) (rows : List FilterRow) (page : Option Page)

theorem projections_follow_ofRows (path : List Hop) :
    ((ofRows entity rows (Column.ofTableColumns entity sources) page).document.scope.follow
        path).projections =
      (((Column.ofTableColumns entity sources).filter (·.joinPath = path)).map projectionOf).foldl
        Scope.withProjection [] := by
  rw [scope_ofRows, Scope.projections_follow_foldl_place, filterMap_projectionAt?_placements]

/-- Every projection at a place is the one of a column with this path. -/
theorem exists_column_of_mem_projections {path : List Hop} {projection : Projection}
    (member : projection ∈ ((ofRows entity rows (Column.ofTableColumns entity sources)
      page).document.scope.follow path).projections) :
    ∃ column ∈ Column.ofTableColumns entity sources, column.joinPath = path ∧
      projection = projectionOf column := by
  rw [projections_follow_ofRows] at member
  obtain ⟨column, inside, rfl⟩ :=
    List.mem_map.mp (Scope.mem_of_mem_foldl_withProjection member)
  obtain ⟨column_member, path_eq⟩ := List.mem_filter.mp inside
  exact ⟨column, column_member, of_decide_eq_true path_eq, rfl⟩

/-- The key of every column is projected at the end of its path, perhaps for another column with the
same path. -/
theorem exists_projectionOf_mem {column : Column}
    (member : column ∈ Column.ofTableColumns entity sources) :
    ∃ other ∈ Column.ofTableColumns entity sources, other.joinPath = column.joinPath ∧
      other.valueKey = column.valueKey ∧
        projectionOf other ∈ ((ofRows entity rows (Column.ofTableColumns entity sources)
          page).document.scope.follow column.joinPath).projections := by
  have added : projectionOf column ∈ ((Column.ofTableColumns entity sources).filter
      (·.joinPath = column.joinPath)).map projectionOf :=
    List.mem_map_of_mem (List.mem_filter.mpr ⟨member, decide_eq_true rfl⟩)
  obtain ⟨kept, projected, key_eq⟩ := Scope.exists_key_eq_of_mem added
  rw [← projections_follow_ofRows entity sources rows page] at projected
  obtain ⟨other, other_member, path_eq, rfl⟩ :=
    exists_column_of_mem_projections entity sources rows page projected
  rw [key_projectionOf member, key_projectionOf other_member] at key_eq
  exact ⟨other, other_member, path_eq, key_eq, projected⟩

end Query

end Columns

/-- A document projects the attributes of columns: each at the end of its path under its key, on the
searched entity without an alias, and nothing else. -/
structure Document.Projects (document : Document) (columns : List Column) : Prop where
  distinct : document.scope.Distinct
  root : ∀ column ∈ columns, column.isRoot = true →
    column.joinPath = [] ∧ ⟨column.valueKey, none⟩ ∈ document.scope.projections
  related : ∀ column ∈ columns, column.isRoot = false →
    column.joinPath ≠ [] ∧ ∃ node, document.scope.Reaches column.joinPath node ∧
      ∃ name, ⟨name, some column.valueKey⟩ ∈ node.projections
  only : ∀ path node, document.scope.Reaches path node → ∀ projection ∈ node.projections,
    ∃ column ∈ columns, column.joinPath = path ∧ projection = projectionOf column ∧
      projection.key = column.valueKey

/-- A query projects the attributes of its columns, whatever its rows are. -/
theorem Query.projects_ofRows (entity : String) (sources : List TableColumn)
    (rows : List FilterRow) (page : Option Page) :
    let columns := Column.ofTableColumns entity sources
    (ofRows entity rows columns page).document.Projects columns := by
  intro columns
  have distinct := distinct_scope_ofRows entity rows columns page
  refine ⟨distinct, ?_, ?_, ?_⟩
  · intro column member is_root
    have path_nil := (Column.joinPath_eq_nil_iff member).mpr is_root
    obtain ⟨other, other_member, path_eq, key_eq, projected⟩ :=
      exists_projectionOf_mem entity sources rows page member
    have other_root : other.isRoot = true := by
      rw [Column.isRoot_eq_of_joinPath_eq member other_member path_eq, is_root]
    rw [projectionOf_of_isRoot other_member other_root, key_eq, path_nil] at projected
    exact ⟨path_nil, projected⟩
  · intro column member is_related
    have path_ne : column.joinPath ≠ [] := by
      rw [Ne, Column.joinPath_eq_nil_iff member, is_related]
      exact Bool.false_ne_true
    obtain ⟨other, other_member, path_eq, key_eq, projected⟩ :=
      exists_projectionOf_mem entity sources rows page member
    have other_related : other.isRoot = false := by
      rw [Column.isRoot_eq_of_joinPath_eq member other_member path_eq, is_related]
    have elsewhere : column ∈ columns.filter (! ·.isRoot) :=
      List.mem_filter.mpr ⟨member, by simp [is_related]⟩
    have walked : column.joinPath ∈ joinPaths rows columns :=
      List.mem_append_left _ (List.mem_map_of_mem elsewhere)
    obtain ⟨node, reaches⟩ :=
      exists_reaches_of_mem_joinPaths entity rows columns page (.inr walked)
    rw [distinct.follow_eq reaches, projectionOf_of_not_isRoot other_related, key_eq] at projected
    exact ⟨path_ne, node, reaches, other.attributeName, projected⟩
  · intro path node reaches projection projected
    rw [← distinct.follow_eq reaches] at projected
    obtain ⟨column, member, path_eq, rfl⟩ :=
      exists_column_of_mem_projections entity sources rows page projected
    exact ⟨column, member, path_eq, rfl, key_projectionOf member⟩

end FetchXml

end EntitySearch
