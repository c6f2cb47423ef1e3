import EntitySearch.Grid
import EntitySearch.Proofs.Columns
import EntitySearch.Proofs.Text.Trimming

/-!
# Columns put together again

Table columns are flattened into one projected column for each attribute shown, and those that
cannot be shown are left out. Positions are all that is kept of where a projected column comes from,
and they suffice: putting neighbours of the same position together gives the table columns that are
shown, each with its attributes in their order.
-/

namespace EntitySearch

/-! ## Table columns that are shown -/

/-- The link names an attribute to show, in its list or as the single one. -/
def ColumnLink.NamesAttribute (link : ColumnLink) : Prop :=
  ∃ name, (name ∈ link.attributeNames.getD [] ∨ link.attributeName = some name) ∧
    Text.isBlank name = false

theorem ColumnLink.shownAttributes_ne_nil_iff (link : ColumnLink) :
    link.shownAttributes ≠ [] ↔ link.NamesAttribute := by
  have listed_iff : ((link.attributeNames.getD []).map Text.trim).filter (! Text.isBlank ·) ≠ [] ↔
      ∃ name ∈ link.attributeNames.getD [], Text.isBlank name = false := by
    simp [List.filter_eq_nil_iff, Text.isBlank_trim]
  have single_iff : (Text.nonBlank? link.attributeName).toList ≠ [] ↔
      ∃ name, link.attributeName = some name ∧ Text.isBlank name = false := by
    rw [ne_eq, Option.toList_eq_nil_iff, ← ne_eq, Option.ne_none_iff_exists']
    simp only [Text.nonBlank?_eq_some_iff]
  rw [shownAttributes, NamesAttribute]
  generalize ((link.attributeNames.getD []).map Text.trim).filter (! Text.isBlank ·) = listed
    at listed_iff
  cases listed with
  | nil =>
      dsimp only
      rw [single_iff]
      constructor
      · rintro ⟨name, single, solid⟩
        exact ⟨name, .inr single, solid⟩
      · rintro ⟨name, member | single, solid⟩
        · exact absurd rfl (listed_iff.mpr ⟨name, member, solid⟩)
        · exact ⟨name, single, solid⟩
  | cons first rest =>
      obtain ⟨name, member, solid⟩ := listed_iff.mp (List.cons_ne_nil first rest)
      exact iff_of_true (List.cons_ne_nil first rest) ⟨name, .inl member, solid⟩

/-- A search shows the column: its target names an attribute, and the target is on the searched
entity or behind joins that are all complete. -/
structure TableColumn.IsShown (entity : String) (column : TableColumn) : Prop where
  named : column.target.NamesAttribute
  reached : Column.standsOnRoot entity column = true ∨ 2 ≤ column.length ∧ column.joinPath?.isSome

namespace Column

theorem ofTableColumn_ne_nil_iff (entity : String) (index : Nat) (column : TableColumn) :
    ofTableColumn entity index column ≠ [] ↔ column.IsShown entity := by
  have path_iff := isSome_path?_iff entity column
  have names_iff := column.target.shownAttributes_ne_nil_iff
  rw [ofTableColumn]
  cases found : path? (standsOnRoot entity column) column with
  | none =>
      rw [found] at path_iff
      have unreached : ¬ column.IsShown entity := fun shown => by
        cases path_iff.mpr shown.reached
      simpa using unreached
  | some path =>
      rw [found] at path_iff
      dsimp only
      rw [ne_eq, List.mapIdx_eq_nil_iff, ← ne_eq, names_iff]
      exact ⟨fun named => ⟨named, path_iff.mp rfl⟩, fun shown => shown.named⟩

/-- A table column that is shown is projected to the attributes that its target shows, numbered in
their order. -/
theorem attributes_ofTableColumn {entity : String} {column : TableColumn}
    (shown : column.IsShown entity) (index : Nat) :
    (ofTableColumn entity index column).map (fun part => (part.attributeName, part.attributeIndex)) =
      column.target.shownAttributes.zipIdx := by
  obtain ⟨path, found⟩ := Option.isSome_iff_exists.mp
    ((isSome_path?_iff entity column).mpr shown.reached)
  rw [ofTableColumn, found]
  dsimp only
  rw [List.mapIdx_eq_zipIdx_map, List.map_map]
  exact List.map_id _

/-! ## The order of projected columns -/

/-- The first column comes from an earlier table column, or shows an earlier attribute of the same
one. -/
def Precedes (first second : Column) : Prop :=
  first.sourceColumn < second.sourceColumn ∨
    first.sourceColumn = second.sourceColumn ∧ first.attributeIndex < second.attributeIndex

theorem pairwise_ofTableColumn (entity : String) (index : Nat) (column : TableColumn) :
    (ofTableColumn entity index column).Pairwise Precedes := by
  rw [List.pairwise_iff_getElem, ofTableColumn]
  cases path? (standsOnRoot entity column) column with
  | none =>
      intro first second first_lt
      cases first_lt
  | some path =>
      intro first second first_lt second_lt less
      rw [List.getElem_mapIdx, List.getElem_mapIdx]
      exact .inr ⟨rfl, less⟩

theorem pairwise_ofTableColumns (entity : String) (columns : List TableColumn) :
    (ofTableColumns entity columns).Pairwise Precedes := by
  rw [ofTableColumns, List.pairwise_flatten, List.pairwise_iff_getElem]
  constructor
  · intro block member
    obtain ⟨index, _, rfl⟩ := List.mem_mapIdx.mp member
    exact pairwise_ofTableColumn entity index _
  · intro first second _ _ less left left_mem right right_mem
    rw [List.getElem_mapIdx] at left_mem right_mem
    left
    rwa [(source_of_mem_ofTableColumn left_mem).1, (source_of_mem_ofTableColumn right_mem).1]

/-- Of blocks of columns, the only one from a position is all that comes from there. -/
theorem filter_sourceColumn_flatten {front back : List (List Column)} {block : List Column}
    {source : Nat} (inside : ∀ column ∈ block, column.sourceColumn = source)
    (before : ∀ other ∈ front, ∀ column ∈ other, column.sourceColumn ≠ source)
    (after : ∀ other ∈ back, ∀ column ∈ other, column.sourceColumn ≠ source) :
    (front ++ block :: back).flatten.filter (·.sourceColumn == source) = block := by
  have outside {blocks : List (List Column)}
      (elsewhere : ∀ other ∈ blocks, ∀ column ∈ other, column.sourceColumn ≠ source) :
      blocks.flatten.filter (·.sourceColumn == source) = [] := by
    rw [List.filter_eq_nil_iff]
    intro column member
    obtain ⟨other, other_mem, there⟩ := List.mem_flatten.mp member
    simpa using elsewhere other other_mem column there
  rw [List.flatten_append, List.flatten_cons, List.filter_append, List.filter_append,
    outside before, outside after, List.nil_append, List.append_nil, List.filter_eq_self]
  simpa using inside

/-- What comes from a table column is what it is projected to by itself. -/
theorem filter_sourceColumn_ofTableColumns {entity : String} {columns : List TableColumn}
    {index : Nat} {source : TableColumn} (found : columns[index]? = some source) :
    (ofTableColumns entity columns).filter (·.sourceColumn == index) =
      ofTableColumn entity index source := by
  obtain ⟨bound, rfl⟩ := List.getElem?_eq_some_iff.mp found
  have split : columns = columns.take index ++ columns[index] :: columns.drop (index + 1) := by
    rw [← List.drop_eq_getElem_cons bound, List.take_append_drop]
  have length_front : (columns.take index).length = index := List.length_take_of_le (by omega)
  rw [ofTableColumns]
  nth_rewrite 1 [split]
  rw [List.mapIdx_append, List.mapIdx_cons, length_front, Nat.zero_add]
  apply filter_sourceColumn_flatten
  · exact fun column member => (source_of_mem_ofTableColumn member).1
  · intro other other_mem column member
    obtain ⟨position, position_lt, rfl⟩ := List.mem_mapIdx.mp other_mem
    rw [(source_of_mem_ofTableColumn member).1]
    omega
  · intro other other_mem column member
    obtain ⟨position, position_lt, rfl⟩ := List.mem_mapIdx.mp other_mem
    rw [(source_of_mem_ofTableColumn member).1]
    omega

/-- Exactly the table columns that are shown are projected to something. -/
theorem exists_sourceColumn_eq_iff (entity : String) (columns : List TableColumn) (index : Nat) :
    (∃ column ∈ ofTableColumns entity columns, column.sourceColumn = index) ↔
      ∃ source, columns[index]? = some source ∧ source.IsShown entity := by
  cases found : columns[index]? with
  | none =>
      simp only [reduceCtorEq, false_and, exists_false, iff_false]
      rintro ⟨column, member, rfl⟩
      obtain ⟨source, there, -⟩ := exists_source_of_mem member
      rw [found] at there
      cases there
  | some source =>
      have absent_iff : (∀ column ∈ ofTableColumns entity columns, column.sourceColumn ≠ index) ↔
          ofTableColumn entity index source = [] := forall_sourceColumn_ne_iff found
      have shown_iff := ofTableColumn_ne_nil_iff entity index source
      rw [ne_eq, ← absent_iff] at shown_iff
      simpa using shown_iff

end Column

/-! ## Groups -/

namespace GridColumn

/-- Grouping loses nothing and changes no order. -/
theorem flatten_group (columns : List Column) :
    ((group columns).map GridColumn.columns).flatten = columns := by
  induction columns with
  | nil => rfl
  | cons column rest ih =>
      rw [group]
      cases grouped : group rest with
      | nil =>
          rw [grouped] at ih
          rw [← ih]
          rfl
      | cons next others =>
          rw [grouped] at ih
          rw [← ih]
          dsimp only
          split_ifs <;> rfl

theorem mem_of_mem_group {columns : List Column} {grouped : GridColumn} {column : Column}
    (grouped_mem : grouped ∈ group columns) (member : column ∈ grouped.columns) :
    column ∈ columns := by
  rw [← flatten_group columns]
  exact List.mem_flatten.mpr ⟨_, List.mem_map_of_mem grouped_mem, member⟩

/-- The columns of a group come from the same table column. -/
theorem sourceColumn_of_mem_group (columns : List Column) :
    ∀ grouped ∈ group columns, ∀ column ∈ grouped.columns,
      column.sourceColumn = grouped.first.sourceColumn := by
  induction columns with
  | nil => simp [group]
  | cons column rest ih =>
      rw [group]
      cases later : group rest with
      | nil => simp [GridColumn.columns]
      | cons next others =>
          rw [later, List.forall_mem_cons] at ih
          dsimp only
          split_ifs with same
          · refine List.forall_mem_cons.mpr ⟨List.forall_mem_cons.mpr ⟨rfl, ?_⟩, ih.2⟩
            exact fun part member => (ih.1 part member).trans same.symm
          · exact List.forall_mem_cons.mpr ⟨by simp [GridColumn.columns], List.forall_mem_cons.mpr ih⟩

/-- In a list ordered by table columns, each of them has one group. -/
theorem pairwise_group {columns : List Column}
    (ordered : columns.Pairwise fun first second => first.sourceColumn ≤ second.sourceColumn) :
    (group columns).Pairwise fun first second =>
      first.first.sourceColumn < second.first.sourceColumn := by
  induction columns with
  | nil => exact .nil
  | cons column rest ih =>
      obtain ⟨least, rest_ordered⟩ := List.pairwise_cons.mp ordered
      have rest_grouped := ih rest_ordered
      have above (grouped : GridColumn) (member : grouped ∈ group rest) :
          column.sourceColumn ≤ grouped.first.sourceColumn :=
        least grouped.first (mem_of_mem_group member List.mem_cons_self)
      rw [group]
      cases later : group rest with
      | nil => exact List.pairwise_singleton _ _
      | cons next others =>
          rw [later] at rest_grouped above
          obtain ⟨next_least, others_ordered⟩ := List.pairwise_cons.mp rest_grouped
          dsimp only
          split_ifs with same
          · refine List.pairwise_cons.mpr ⟨fun grouped member => ?_, others_ordered⟩
            rw [same]
            exact next_least grouped member
          · have next_above := Nat.lt_of_le_of_ne (above next List.mem_cons_self) same
            refine List.pairwise_cons.mpr ⟨?_, rest_grouped⟩
            refine List.forall_mem_cons.mpr ⟨next_above, fun grouped member => ?_⟩
            exact Nat.lt_trans next_above (next_least grouped member)

/-- In a list ordered by table columns, a group holds all that comes from its table column. -/
theorem columns_eq_filter {columns : List Column}
    (ordered : columns.Pairwise fun first second => first.sourceColumn ≤ second.sourceColumn)
    {grouped : GridColumn} (member : grouped ∈ group columns) :
    grouped.columns = columns.filter (·.sourceColumn == grouped.first.sourceColumn) := by
  have apart := pairwise_group ordered
  have uniform := sourceColumn_of_mem_group columns
  obtain ⟨front, back, groups_eq⟩ := List.append_of_mem member
  have columns_eq := flatten_group columns
  rw [groups_eq, List.map_append, List.map_cons] at columns_eq
  rw [groups_eq, List.pairwise_append, List.pairwise_cons] at apart
  obtain ⟨-, ⟨before_back, -⟩, front_before⟩ := apart
  rw [groups_eq] at uniform
  rw [← columns_eq, Column.filter_sourceColumn_flatten]
  · exact uniform grouped (by simp)
  · intro block block_mem column column_mem
    obtain ⟨other, other_mem, rfl⟩ := List.mem_map.mp block_mem
    rw [uniform other (by simp [other_mem]) column column_mem]
    exact Nat.ne_of_lt (front_before other other_mem grouped List.mem_cons_self)
  · intro block block_mem column column_mem
    obtain ⟨other, other_mem, rfl⟩ := List.mem_map.mp block_mem
    rw [uniform other (by simp [other_mem]) column column_mem]
    exact Nat.ne_of_gt (before_back other other_mem)

/-- Exactly the table columns that some column comes from have a group. -/
theorem mem_sources_group_iff (columns : List Column) (index : Nat) :
    index ∈ (group columns).map (·.first.sourceColumn) ↔
      ∃ column ∈ columns, column.sourceColumn = index := by
  constructor
  · intro member
    obtain ⟨grouped, grouped_mem, rfl⟩ := List.mem_map.mp member
    exact ⟨grouped.first, mem_of_mem_group grouped_mem List.mem_cons_self, rfl⟩
  · rintro ⟨column, member, rfl⟩
    rw [← flatten_group columns] at member
    obtain ⟨block, block_mem, inside⟩ := List.mem_flatten.mp member
    obtain ⟨grouped, grouped_mem, rfl⟩ := List.mem_map.mp block_mem
    rw [sourceColumn_of_mem_group columns grouped grouped_mem column inside]
    exact List.mem_map_of_mem grouped_mem

end GridColumn

/-- What projected columns and their groups have to do with the table columns of an entity. -/
structure Regroups (entity : String) (columns : List TableColumn) (projected : List Column)
    (groups : List GridColumn) : Prop where
  /-- Columns follow the order of the table columns and, within one, that of its attributes. -/
  ordered : projected.Pairwise Column.Precedes
  /-- Nothing is left of the table columns that are not shown, and something of all others. -/
  kept : ∀ index, (∃ column ∈ projected, column.sourceColumn = index) ↔
    ∃ source, columns[index]? = some source ∧ source.IsShown entity
  /-- A table column that is shown gives all attributes of its target, numbered from zero. -/
  attributes : ∀ (index : Nat) (source : TableColumn), columns[index]? = some source →
    source.IsShown entity →
      (projected.filter (·.sourceColumn == index)).map
          (fun column => (column.attributeName, column.attributeIndex)) =
        source.target.shownAttributes.zipIdx
  /-- Exactly the attributes of the searched entity need no join. -/
  rooted : ∀ column ∈ projected, column.isRoot = true ↔ column.joinPath = []
  /-- There is one group for each table column that is shown, in their order. -/
  sources_ordered : (groups.map (·.first.sourceColumn)).Pairwise (· < ·)
  sources : ∀ index, index ∈ groups.map (·.first.sourceColumn) ↔
    ∃ source, columns[index]? = some source ∧ source.IsShown entity
  /-- All columns of a group come from its table column. -/
  uniform : ∀ group ∈ groups, ∀ column ∈ group.columns,
    column.sourceColumn = group.first.sourceColumn
  /-- The number of an attribute is its position in the group. -/
  numbered : ∀ group ∈ groups, ∀ (position : Nat) (column : Column),
    group.columns[position]? = some column → column.attributeIndex = position
  /-- One after the other, the groups are the projected columns again. -/
  joined : (groups.map (·.columns)).flatten = projected

/-- Numbered attributes stand at their numbers. -/
theorem attributeIndex_of_zipIdx {columns : List Column} {names : List String}
    (attributes : columns.map (fun column => (column.attributeName, column.attributeIndex)) =
      names.zipIdx) {position : Nat} {column : Column}
    (found : columns[position]? = some column) : column.attributeIndex = position := by
  have numbered := congrArg (·[position]?) attributes
  simp only [List.getElem?_map, found, Option.map_some, List.getElem?_zipIdx] at numbered
  cases named : names[position]? with
  | none => rw [named] at numbered; cases numbered
  | some name =>
      rw [named] at numbered
      simpa using congrArg Prod.snd (Option.some.inj numbered)

/-- The table columns that are shown come back, each with its attributes numbered in their order,
when the columns that they are projected to are put together by position. -/
theorem regroups_ofTableColumns (entity : String) (columns : List TableColumn) :
    let projected := Column.ofTableColumns entity columns
    Regroups entity columns projected (GridColumn.group projected) := by
  intro projected
  have ordered := Column.pairwise_ofTableColumns entity columns
  have by_source : projected.Pairwise fun first second =>
      first.sourceColumn ≤ second.sourceColumn :=
    ordered.imp fun precedes => precedes.elim Nat.le_of_lt fun same => Nat.le_of_eq same.1
  have kept := Column.exists_sourceColumn_eq_iff entity columns
  have sources (index : Nat) := (GridColumn.mem_sources_group_iff projected index).trans (kept index)
  have attributes (index : Nat) (source : TableColumn) (found : columns[index]? = some source)
      (shown : source.IsShown entity) :
      (projected.filter (·.sourceColumn == index)).map
          (fun column => (column.attributeName, column.attributeIndex)) =
        source.target.shownAttributes.zipIdx := by
    rw [Column.filter_sourceColumn_ofTableColumns found]
    exact Column.attributes_ofTableColumn shown index
  refine
    { ordered, kept, attributes, sources
      rooted := fun column member => (Column.joinPath_eq_nil_iff member).symm
      sources_ordered := List.pairwise_map.mpr (GridColumn.pairwise_group by_source)
      uniform := GridColumn.sourceColumn_of_mem_group projected
      numbered := fun group member position column found => ?_
      joined := GridColumn.flatten_group projected }
  obtain ⟨source, source_eq, shown⟩ := (sources _).mp (List.mem_map_of_mem member)
  rw [GridColumn.columns_eq_filter by_source member] at found
  exact attributeIndex_of_zipIdx (attributes _ source source_eq shown) found

end EntitySearch
