import EntitySearch.Proofs.FetchXml.Placement

/-!
# Links of a query and join paths of its columns and rows

The links of a query are the tree of the join paths of its columns and rows, each link once. A place
in the tree holds the conditions of exactly the rows whose join path leads there.
-/

namespace EntitySearch

namespace FetchXml

/-- The join path of an accepted row whose option is a chain of several links. -/
def chainedPath? (row : FilterRow) : Option (List Hop) :=
  match row.condition? with
  | .ok condition =>
      if 1 < condition.option.length then condition.option.joinPath? else none
  | .error _ => none

/-- The join paths that a query walks: those of the columns elsewhere, then those of the rows. -/
def joinPaths (rows : List FilterRow) (columns : List Column) : List (List Hop) :=
  (columns.filter (! ·.isRoot)).map Column.joinPath ++ rows.filterMap chainedPath?

/-- The compiled condition of an accepted row whose join path is the given one. -/
def criterionBehind? (path : List Hop) (row : FilterRow) : Option Criterion :=
  match row.condition? with
  | .ok condition =>
      if condition.option.joinPath? = some path then some (.ofCondition condition) else none
  | .error _ => none

/-- The compiled condition of an accepted row whose option is a chain of one link. -/
def directCriterion? (row : FilterRow) : Option Criterion :=
  match row.condition? with
  | .ok condition =>
      if condition.option.length ≤ 1 then some (.ofCondition condition) else none
  | .error _ => none

theorem nextHop?_nil (path : List Hop) : Scope.nextHop? path [] = none := by
  cases path <;> rfl

/-- A column adds the links on its join path, unless it is one of the searched entity. -/
theorem nextHop?_placementOfColumn? (path : List Hop) (column : Column) :
    ((placementOfColumn? column).bind fun placement => Scope.nextHop? path placement.path) =
      if ! column.isRoot then Scope.nextHop? path column.joinPath else none := by
  rw [placementOfColumn?]
  cases root : column.isRoot with
  | true => exact nextHop?_nil path
  | false =>
      cases joinPath : column.joinPath with
      | nil => exact (nextHop?_nil path).symm
      | cons hop others => rfl

/-- A row adds the links on its join path. -/
theorem nextHop?_accepted? (path : List Hop) (row : FilterRow) :
    ((accepted? row).bind fun placed => Scope.nextHop? path placed.path) =
      (chainedPath? row).bind (Scope.nextHop? path) := by
  rw [accepted?, placedCriterion?, chainedPath?]
  cases row.condition? with
  | error reason => rfl
  | ok condition =>
      dsimp only
      by_cases chained : 1 < condition.option.length
      · rw [if_pos chained]
        cases condition.option.joinPath? <;> rfl
      · have direct := (FilterOption.joinPath?_eq_nil_iff condition.option).mpr (by omega)
        rw [if_neg chained, direct]
        exact nextHop?_nil path

/-- The hops on the way to the placements of a query are those on its join paths. -/
theorem filterMap_nextHop?_placements (path : List Hop) (rows : List FilterRow)
    (columns : List Column) :
    ((placements rows columns).map Placement.path).filterMap (Scope.nextHop? path) =
      (joinPaths rows columns).filterMap (Scope.nextHop? path) := by
  have of_columns : ((columns.filterMap placementOfColumn?).map Placement.path).filterMap
      (Scope.nextHop? path) =
        ((columns.filter (! ·.isRoot)).map Column.joinPath).filterMap (Scope.nextHop? path) := by
    rw [List.filterMap_map, List.filterMap_map, List.filterMap_filterMap, List.filterMap_filter]
    exact List.filterMap_congr fun column _ => nextHop?_placementOfColumn? path column
  have of_rows : (((rows.filterMap accepted?).map PlacedCriterion.placement).map
      Placement.path).filterMap (Scope.nextHop? path) =
        (rows.filterMap chainedPath?).filterMap (Scope.nextHop? path) := by
    rw [List.map_map, List.filterMap_map, List.filterMap_filterMap, List.filterMap_filterMap]
    exact List.filterMap_congr fun row _ => nextHop?_accepted? path row
  rw [placements, joinPaths, List.map_append, List.filterMap_append, List.filterMap_append,
    of_columns, of_rows]

/-- The conditions placed at the end of a path are those of the rows with that join path. -/
theorem filterMap_criterionAt?_placements (path : List Hop) (rows : List FilterRow)
    (columns : List Column) :
    (placements rows columns).filterMap (Scope.criterionAt? path) =
      rows.filterMap (criterionBehind? path) := by
  have of_columns : (columns.filterMap placementOfColumn?).filterMap (Scope.criterionAt? path) =
      [] := by
    rw [List.filterMap_eq_nil_iff]
    intro placement member
    obtain ⟨column, _, placed⟩ := List.mem_filterMap.mp member
    rw [Scope.criterionAt?, criterion?_of_placementOfColumn? placed, ite_self]
  have of_row (row : FilterRow) :
      ((accepted? row).bind fun placed => Scope.criterionAt? path placed.placement) =
        criterionBehind? path row := by
    rw [accepted?, placedCriterion?, criterionBehind?]
    cases row.condition? with
    | error reason => rfl
    | ok condition =>
        dsimp only
        cases condition.option.joinPath? with
        | none => rfl
        | some joined =>
            simp only [Option.some.injEq]
            rfl
  rw [placements, List.filterMap_append, of_columns, List.nil_append, List.filterMap_map,
    List.filterMap_filterMap]
  exact List.filterMap_congr fun row _ => of_row row

theorem criterionBehind?_nil (row : FilterRow) :
    criterionBehind? [] row = directCriterion? row := by
  rw [criterionBehind?, directCriterion?]
  cases row.condition? with
  | error reason => rfl
  | ok condition => simp only [FilterOption.joinPath?_eq_nil_iff]

namespace Query

variable (entity : String) (rows : List FilterRow) (columns : List Column) (page : Option Page)

theorem distinct_scope_ofRows : (ofRows entity rows columns page).document.scope.Distinct := by
  rw [scope_ofRows]
  exact Scope.distinct_foldl_place _ Scope.distinct_blank

theorem hops_follow_ofRows (path : List Hop) :
    ((ofRows entity rows columns page).document.scope.follow path).hops =
      ((joinPaths rows columns).filterMap (Scope.nextHop? path)).eraseDups := by
  rw [scope_ofRows, Scope.hops_follow_foldl_place, filterMap_nextHop?_placements]

theorem criteria_follow_ofRows (path : List Hop) :
    ((ofRows entity rows columns page).document.scope.follow path).criteria =
      rows.filterMap (criterionBehind? path) := by
  rw [scope_ofRows, Scope.criteria_follow_foldl_place, filterMap_criterionAt?_placements]

/-- A path leads somewhere exactly if it is the beginning of a join path. -/
theorem exists_reaches_ofRows_iff {path : List Hop} (path_ne : path ≠ []) :
    (∃ node, (ofRows entity rows columns page).document.scope.Reaches path node) ↔
      ∃ joined ∈ joinPaths rows columns, path <+: joined := by
  obtain ⟨front, last, rfl⟩ := (List.eq_nil_or_concat path).resolve_left path_ne
  rw [List.concat_eq_append,
    (distinct_scope_ofRows entity rows columns page).exists_reaches_append_iff,
    hops_follow_ofRows, List.mem_eraseDups, List.mem_filterMap]
  simp only [Scope.nextHop?_eq_some_iff]

/-- Every join path leads somewhere, and so does the empty path. -/
theorem exists_reaches_of_mem_joinPaths {path : List Hop}
    (walked : path = [] ∨ path ∈ joinPaths rows columns) :
    ∃ node, (ofRows entity rows columns page).document.scope.Reaches path node := by
  by_cases path_nil : path = []
  · exact path_nil ▸ ⟨_, .here _⟩
  · have member := walked.resolve_left path_nil
    exact (exists_reaches_ofRows_iff entity rows columns page path_nil).mpr
      ⟨path, member, List.prefix_rfl⟩

/-- The links of a query form the tree of its join paths without repetitions. At no place two links
have the same join; the paths from the root are the beginnings of the join paths; links at the same
place stand in the order in which the join paths first reach them; and the conditions at a place are
those of the rows whose join path leads there, each once and in the order of the rows. The
conditions of the searched entity itself are those of the rows without a join. -/
theorem links_eq_tree_of_joinPaths :
    let scope := (ofRows entity rows columns page).document.scope
    let paths := joinPaths rows columns
    scope.Distinct ∧
      (∀ path, path ≠ [] →
        ((∃ node, scope.Reaches path node) ↔ ∃ joined ∈ paths, path <+: joined)) ∧
      (∀ path node, scope.Reaches path node →
        node.hops = (paths.filterMap (Scope.nextHop? path)).eraseDups ∧
          node.criteria = rows.filterMap (criterionBehind? path)) ∧
      scope.criteria = rows.filterMap directCriterion? := by
  have distinct := distinct_scope_ofRows entity rows columns page
  refine ⟨distinct, ?_, ?_, ?_⟩
  · intro path path_ne
    exact exists_reaches_ofRows_iff entity rows columns page path_ne
  · intro path node reaches
    have followed := distinct.follow_eq reaches
    rw [← followed]
    exact ⟨hops_follow_ofRows entity rows columns page path,
      criteria_follow_ofRows entity rows columns page path⟩
  · have at_root := criteria_follow_ofRows entity rows columns page []
    have same : criterionBehind? [] = directCriterion? := funext criterionBehind?_nil
    rw [same] at at_root
    exact at_root

end Query

end FetchXml

end EntitySearch
