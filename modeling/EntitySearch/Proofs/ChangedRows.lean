import EntitySearch.Proofs.JoinSides
import EntitySearch.Proofs.Skipping

/-!
# One changed row

A row is compiled on its own: with another row in its place, the queries keep everything that the
other rows amount to. A row without an operator amounts to nothing.
-/

namespace EntitySearch

open FetchXml (PlacedCriterion placedCriterion?)
open OData (Expression expression?)

namespace Sifted

variable {Kept : Type} (check : FilterRow → Except SkipReason Kept) {given : List FilterRow}
  {index : Nat} {row : FilterRow}

/-- What the other rows amount to stays, on both sides of what the row at a position amounts to. -/
theorem exists_kept_set (found : given[index]? = some row) :
    ∃ before after, (rows check given).kept = before ++ (check row).toOption.toList ++ after ∧
      ∀ other, (rows check (given.set index other)).kept =
        before ++ (check other).toOption.toList ++ after := by
  have around (other : FilterRow) :
      (rows check (given.take index ++ other :: given.drop (index + 1))).kept =
        (rows check (given.take index)).kept ++ (check other).toOption.toList ++
          (rows check (given.drop (index + 1))).kept := by
    rw [kept_rows, kept_rows, kept_rows, List.filterMap_append, List.filterMap_cons,
      List.append_assoc]
    cases check other <;> rfl
  refine ⟨(rows check (given.take index)).kept, (rows check (given.drop (index + 1))).kept, ?_, ?_⟩
  · conv_lhs => rw [← take_append_cons_drop found]
    exact around row
  · intro other
    have bound := (List.getElem?_eq_some_iff.mp found).1
    rw [List.set_eq_take_append_cons_drop, if_pos bound]
    exact around other

/-- The reports on the other rows stay. -/
theorem mem_skipped_set (found : given[index]? = some row) (other : FilterRow)
    (skipped : SkippedRow) :
    skipped ∈ (rows check (given.set index other)).skipped ↔
      if skipped.index = index then check other = .error skipped.reason
      else skipped ∈ (rows check given).skipped := by
  have bound := (List.getElem?_eq_some_iff.mp found).1
  rw [mem_skipped_iff, mem_skipped_iff, List.getElem?_set]
  by_cases same : index = skipped.index
  · rw [if_pos same, if_pos bound, if_pos same.symm]
    simp
  · rw [if_neg same, if_neg (Ne.symm same)]

/-- Nothing changes if the row amounts to the same. -/
theorem rowsFrom_set {other : FilterRow} (found : given[index]? = some row)
    (same : check other = check row) (start : Nat) :
    rowsFrom check start (given.set index other) = rowsFrom check start given := by
  induction given generalizing index start with
  | nil => rfl
  | cons first rest ih =>
      cases index with
      | zero =>
          obtain rfl := Option.some.inj found
          rw [List.set_cons_zero, rowsFrom, rowsFrom, same]
      | succ index =>
          rw [List.set_cons_succ, rowsFrom, rowsFrom, ih found]

end Sifted

/-! ## Rows with another option -/

/-- A row filters alike by options of the same length whose targets have the same attribute. -/
theorem OData.expression?_congr (zone : TimeZone) (entity : String) {row : FilterRow}
    {option other : FilterOption} (option_eq : row.option = some option)
    (lengths : other.length = option.length)
    (targets : other.target.toLink = option.target.toLink)
    (types : other.target.attributeType = option.target.attributeType) :
    expression? zone entity { row with option := some other } = expression? zone entity row := by
  rw [expression?, FilterRow.condition?_withOption option_eq (congrArg Link.attributeName targets),
    expression?]
  cases amounts : row.condition? with
  | error reason => rfl
  | ok condition =>
      have own_option := (FilterRow.option_eq_of_condition? amounts).1
      rw [option_eq] at own_option
      obtain rfl := Option.some.inj own_option
      have kinds : other.target.kind = condition.option.target.kind := by
        rw [FilterLink.kind, FilterLink.kind, types]
      simp [Except.map, lengths, targets, kinds, Condition.isRelated, Expression.ofCondition,
        Condition.kind]

/-! ## Rows without an operator -/

/-- Why a row without an operator is skipped. -/
def FilterRow.reasonWithoutOperator (row : FilterRow) : SkipReason :=
  if row.option.isSome then .noOperator else .noOption

theorem FilterRow.condition?_of_condition_eq_none {row : FilterRow} (unset : row.condition = none) :
    row.condition? = .error row.reasonWithoutOperator := by
  obtain ⟨option | option, operator | operator, values, disabled⟩ := row
  · rfl
  · cases unset
  · rfl
  · cases unset

theorem expression?_of_condition_eq_none (zone : TimeZone) (entity : String) {row : FilterRow}
    (unset : row.condition = none) :
    expression? zone entity row = .error row.reasonWithoutOperator := by
  rw [expression?, FilterRow.condition?_of_condition_eq_none unset]

theorem placedCriterion?_of_condition_eq_none {row : FilterRow} (unset : row.condition = none) :
    placedCriterion? row = .error row.reasonWithoutOperator := by
  rw [placedCriterion?, FilterRow.condition?_of_condition_eq_none unset]

/-! ## Queries -/

/-- The text of a filter of expressions; there is none without an expression. -/
def OData.Filter.textOf (expressions : List Expression) : Option String :=
  if expressions.isEmpty then none else some (filterText expressions)

/-- The document of a query of placed conditions and columns. -/
def FetchXml.Query.documentOf (entity : String) (columns : List Column) (page : Option Page)
    (placed : List PlacedCriterion) : Document :=
  ⟨page, entity, placed.foldl Scope.addCriterion (columns.foldl Scope.addColumn .blank)⟩

/-- With another row in the place of one, both queries keep what all the other rows amount to and
the reports on those of them that are skipped. -/
structure OthersStay (zone : TimeZone) (entity : String) (columns : List Column)
    (page : Option FetchXml.Page) (rows : List FilterRow) (index : Nat) (row other : FilterRow) :
    Prop where
  filter : ∃ before after : List Expression,
    (OData.Filter.ofRows zone entity rows).text = OData.Filter.textOf
        (before ++ (expression? zone entity row).toOption.toList ++ after) ∧
      (OData.Filter.ofRows zone entity (rows.set index other)).text = OData.Filter.textOf
        (before ++ (expression? zone entity other).toOption.toList ++ after)
  query : ∃ before after : List PlacedCriterion,
    (FetchXml.Query.ofRows entity rows columns page).document =
        FetchXml.Query.documentOf entity columns page
          (before ++ (placedCriterion? row).toOption.toList ++ after) ∧
      (FetchXml.Query.ofRows entity (rows.set index other) columns page).document =
        FetchXml.Query.documentOf entity columns page
          (before ++ (placedCriterion? other).toOption.toList ++ after)
  filter_skipped : ∀ skipped : SkippedRow, skipped.index ≠ index →
    (skipped ∈ (OData.Filter.ofRows zone entity (rows.set index other)).skipped ↔
      skipped ∈ (OData.Filter.ofRows zone entity rows).skipped)
  query_skipped : ∀ skipped : SkippedRow, skipped.index ≠ index →
    (skipped ∈ (FetchXml.Query.ofRows entity (rows.set index other) columns page).skipped ↔
      skipped ∈ (FetchXml.Query.ofRows entity rows columns page).skipped)

/-- Both queries report the row at a position for a reason and are those of the other rows. -/
structure LeavesOut (zone : TimeZone) (entity : String) (columns : List Column)
    (page : Option FetchXml.Page) (rows : List FilterRow) (index : Nat) (reason : SkipReason) :
    Prop where
  filter_skipped : ⟨index, reason⟩ ∈ (OData.Filter.ofRows zone entity rows).skipped
  query_skipped : ⟨index, reason⟩ ∈ (FetchXml.Query.ofRows entity rows columns page).skipped
  filter : (OData.Filter.ofRows zone entity rows).text =
    (OData.Filter.ofRows zone entity (rows.eraseIdx index)).text
  query : (FetchXml.Query.ofRows entity rows columns page).document =
    (FetchXml.Query.ofRows entity (rows.eraseIdx index) columns page).document

section Queries

variable (zone : TimeZone) (entity : String) (columns : List Column) (page : Option FetchXml.Page)
  {rows : List FilterRow} {index : Nat} {row : FilterRow}

theorem othersStay (found : rows[index]? = some row) (other : FilterRow) :
    OthersStay zone entity columns page rows index row other where
  filter := by
    obtain ⟨before, after, kept_eq, kept_set_eq⟩ :=
      Sifted.exists_kept_set (expression? zone entity) found
    exact ⟨before, after, congrArg OData.Filter.textOf kept_eq,
      congrArg OData.Filter.textOf (kept_set_eq other)⟩
  query := by
    obtain ⟨before, after, kept_eq, kept_set_eq⟩ := Sifted.exists_kept_set placedCriterion? found
    exact ⟨before, after, congrArg (FetchXml.Query.documentOf entity columns page) kept_eq,
      congrArg (FetchXml.Query.documentOf entity columns page) (kept_set_eq other)⟩
  filter_skipped skipped elsewhere := by
    have reported := Sifted.mem_skipped_set (expression? zone entity) found other skipped
    rwa [if_neg elsewhere] at reported
  query_skipped skipped elsewhere := by
    have reported := Sifted.mem_skipped_set placedCriterion? found other skipped
    rwa [if_neg elsewhere] at reported

/-- A row without an operator is left out. -/
theorem leavesOut_of_condition_eq_none (found : rows[index]? = some row) {other : FilterRow}
    (unset : other.condition = none) :
    LeavesOut zone entity columns page (rows.set index other) index
      other.reasonWithoutOperator := by
  have in_filter := (Sifted.mem_skipped_set (expression? zone entity) found other
    ⟨index, other.reasonWithoutOperator⟩).mpr <| by
      rw [if_pos rfl]
      exact expression?_of_condition_eq_none zone entity unset
  have in_query := (Sifted.mem_skipped_set placedCriterion? found other
    ⟨index, other.reasonWithoutOperator⟩).mpr <| by
      rw [if_pos rfl]
      exact placedCriterion?_of_condition_eq_none unset
  exact
    { filter_skipped := in_filter
      query_skipped := in_query
      filter := congrArg OData.Filter.textOf (Sifted.kept_rows_eraseIdx in_filter).symm
      query := congrArg (FetchXml.Query.documentOf entity columns page)
        (Sifted.kept_rows_eraseIdx in_query).symm }

/-- Both queries depend on a row only through what it amounts to in them. -/
theorem ofRows_set_eq (found : rows[index]? = some row) {other : FilterRow}
    (same_expression : expression? zone entity other = expression? zone entity row)
    (same_criterion : placedCriterion? other = placedCriterion? row) :
    OData.Filter.ofRows zone entity (rows.set index other) = OData.Filter.ofRows zone entity rows ∧
      FetchXml.Query.ofRows entity (rows.set index other) columns page =
        FetchXml.Query.ofRows entity rows columns page := by
  constructor
  · rw [OData.Filter.ofRows, OData.Filter.ofRows, Sifted.rows, Sifted.rows,
      Sifted.rowsFrom_set _ found same_expression]
  · rw [FetchXml.Query.ofRows, FetchXml.Query.ofRows, Sifted.rows, Sifted.rows,
      Sifted.rowsFrom_set _ found same_criterion]

end Queries

end EntitySearch
