import EntitySearch.FetchXml.Query
import EntitySearch.Proofs.Columns
import EntitySearch.Proofs.JoinPaths
import EntitySearch.Proofs.Sifting
import EntitySearch.Proofs.Validation.Places

/-!
# Gaps and what is passed over

A report is there to tell beforehand what a search passes over without notice. For filter options
it tells exactly that: the reason to skip the rows of an option is the gap that the report names.
Of the table columns that are dropped it tells all but those of one link on another entity.
-/

namespace EntitySearch

/-- A chain has a gap exactly if its join path is incomplete: chains of one link have none. -/
theorem Fault.hasGap_eq (joins : Chain Link) : hasGap joins = joins.joinPath?.isNone := by
  rw [hasGap]
  by_cases chained : 1 < joins.length
  · simp [chained]
  · have direct : joins.joinPath? = some [] := joins.joinPath?_eq_nil_iff.mpr (by omega)
    simp [chained, direct]

/-! ## Filter options -/

/-- The fault of an option whose rows are skipped for a reason, if the option is to blame. -/
def SkipReason.fault? (index : Nat) : SkipReason → Option Fault
  | noAttribute => some (.optionWithoutAttribute index)
  | incompleteJoin => some (.optionChainGap index)
  | noOption | noOperator | disabled | noValue | needsJoin => none

/-- A row with an operator that needs no value has no gaps but those of its option. -/
theorem FetchXml.placedCriterion?_state (option : FilterOption) (test : StateTest)
    (values : List FilterValue) :
    placedCriterion? (.ofParts option (.state test) values) =
      match Text.nonBlank? option.target.attributeName, option.joinPath? with
      | none, _ => .error .noAttribute
      | some _, none => .error .incompleteJoin
      | some name, some path => .ok ⟨path, ⟨name, test.token, .none⟩⟩ := by
  have tested : (Operator.state test).test? values = some (.state test) := by
    simp [Operator.test?]
  rw [placedCriterion?, FilterRow.condition?, FilterRow.ofParts]
  dsimp only
  cases Text.nonBlank? option.target.attributeName with
  | none => rfl
  | some name =>
      simp only [tested, Bool.false_eq_true, if_false]
      cases option.joinPath? <;> rfl

namespace Fault

/-- The fault of an option is the reason for which its rows are skipped. -/
theorem ofOption?_eq (index : Nat) (option : FilterOption) (test : StateTest)
    (values : List FilterValue) :
    ofOption? index option =
      if option.isCategory then none
      else
        match FetchXml.placedCriterion? (.ofParts option (.state test) values) with
        | .ok _ => none
        | .error reason => reason.fault? index := by
  rw [ofOption?, FetchXml.placedCriterion?_state, hasGap_eq, FilterOption.joinPath?]
  cases option.isCategory
  · cases Text.nonBlank? option.target.attributeName with
    | none => rfl
    | some name => cases option.joins.joinPath? <;> rfl
  · rfl

/-- Exactly the options that are no headings and whose rows are skipped have a fault. -/
theorem isSome_ofOption?_iff (index : Nat) (option : FilterOption) (test : StateTest)
    (values : List FilterValue) :
    (ofOption? index option).isSome ↔
      option.isCategory = false ∧
        (FetchXml.placedCriterion? (.ofParts option (.state test) values)).isOk = false := by
  rw [ofOption?_eq index option test values, FetchXml.placedCriterion?_state]
  cases option.isCategory
  · cases Text.nonBlank? option.target.attributeName with
    | none => simp [SkipReason.fault?, Except.isOk, Except.toBool]
    | some name =>
        cases option.joinPath? <;> simp [SkipReason.fault?, Except.isOk, Except.toBool]
  · simp

end Fault

/-- A report has one problem or none with an option, and one exactly if the option is no heading and
a row of it with an operator that needs no value is skipped, whatever rows stand around it. -/
theorem EntityScheme.report_option_iff_skipped (scheme : EntityScheme)
    (index : Fin scheme.filterOptions.length) (test : StateTest) (values : List FilterValue)
    (entity : String) (front back : List FilterRow) (columns : List Column)
    (page : Option FetchXml.Page) :
    let option := scheme.filterOptions[index]
    let problems := scheme.report.about (Fault.optionField scheme.reportName index)
    let row := FilterRow.ofParts option (.state test) values
    let query := FetchXml.Query.ofRows entity (front ++ row :: back) columns page
    problems.length ≤ 1 ∧
      (problems ≠ [] ↔
        option.isCategory = false ∧ ∃ skipped ∈ query.skipped, skipped.index = front.length) := by
  intro option problems row query
  have problems_eq : problems =
      (Fault.ofOption? index option).toList.map (Fault.problem scheme.reportName) := by
    have about := scheme.about_optionField index
    rwa [List.getElem?_eq_getElem index.isLt, Option.bind_some] at about
  have found : (front ++ row :: back)[front.length]? = some row := by simp
  rw [problems_eq]
  constructor
  · cases Fault.ofOption? index option <;> simp
  · rw [show query.skipped = (Sifted.rows FetchXml.placedCriterion? _).skipped from rfl,
      Sifted.exists_skipped_iff FetchXml.placedCriterion? found,
      ← Fault.isSome_ofOption?_iff index option test values]
    cases Fault.ofOption? index option <;> simp

/-! ## Table columns -/

/-- The column is one link on another entity than the searched one, so no join leads to it. -/
def TableColumn.StandsApart (entity : String) (column : TableColumn) : Prop :=
  column.length ≤ 1 ∧
    ∃ target, Text.nonBlank? column.target.entityName = some target ∧ target ≠ entity

namespace Column

/-- A column has a path unless its chain has a gap or it stands apart. -/
theorem path?_eq_none_iff (entity : String) (column : TableColumn) :
    path? (standsOnRoot entity column) column = none ↔
      Fault.hasGap column.joins = true ∨ column.StandsApart entity := by
  rw [← Option.not_isSome_iff_eq_none, isSome_path?_iff, Fault.hasGap_eq, ← TableColumn.joinPath?,
    TableColumn.StandsApart, standsOnRoot]
  by_cases direct : column.length ≤ 1
  · rw [column.joinPath?_eq_nil_iff.mpr direct]
    have single : ¬ 2 ≤ column.length := by omega
    cases Text.nonBlank? column.target.entityName <;> simp [direct, single]
  · have chained : 2 ≤ column.length := by omega
    simp [direct, chained]

theorem ofTableColumn_eq_nil_iff (entity : String) (index : Nat) (column : TableColumn) :
    ofTableColumn entity index column = [] ↔
      column.target.shownAttributes = [] ∨ Fault.hasGap column.joins = true ∨
        column.StandsApart entity := by
  rw [← path?_eq_none_iff, ofTableColumn]
  cases path? (standsOnRoot entity column) column <;> simp

end Column

namespace Fault

theorem isSome_ofColumn?_iff (index : Nat) (column : TableColumn) :
    (ofColumn? index column).isSome ↔
      column.target.shownAttributes = [] ∨ hasGap column.joins = true := by
  rw [ofColumn?]
  split_ifs <;> simp_all

/-- A column that stands apart has no gap, since it has no joins. -/
theorem hasGap_eq_false_of_standsApart {entity : String} {column : TableColumn}
    (apart : column.StandsApart entity) : hasGap column.joins = false := by
  have direct : column.joins.length ≤ 1 := by
    simpa [TableColumn.joins] using apart.1
  simp [hasGap_eq, column.joins.joinPath?_eq_nil_iff.mpr direct]

end Fault

/-- A report has one problem or none with a table column. The column is dropped exactly if it has
one, or if it shows attributes but stands apart, which no report tells. -/
theorem EntityScheme.report_column_iff_dropped (scheme : EntityScheme)
    (index : Fin scheme.resultView.columns.length) :
    let column := scheme.resultView.columns[index]
    let problems := scheme.report.about (Fault.columnField scheme.reportName index)
    let dropped := ∀ shown ∈ Column.ofTableColumns scheme.logicalName scheme.resultView.columns,
      shown.sourceColumn ≠ index
    let stranded :=
      column.target.shownAttributes ≠ [] ∧ column.StandsApart scheme.logicalName
    problems.length ≤ 1 ∧ (dropped ↔ problems ≠ [] ∨ stranded) ∧
      ¬ (problems ≠ [] ∧ stranded) := by
  intro column problems dropped stranded
  have found : scheme.resultView.columns[index.val]? = some column :=
    List.getElem?_eq_getElem index.isLt
  have problems_eq : problems =
      (Fault.ofColumn? index column).toList.map (Fault.problem scheme.reportName) := by
    have about := scheme.about_columnField index
    rwa [found, Option.bind_some] at about
  have reported_iff : problems ≠ [] ↔
      column.target.shownAttributes = [] ∨ Fault.hasGap column.joins = true := by
    rw [problems_eq, ← Fault.isSome_ofColumn?_iff index column]
    cases Fault.ofColumn? index column <;> simp
  have dropped_iff : dropped ↔
      column.target.shownAttributes = [] ∨ Fault.hasGap column.joins = true ∨
        column.StandsApart scheme.logicalName := by
    rw [← Column.ofTableColumn_eq_nil_iff scheme.logicalName index column]
    exact Column.forall_sourceColumn_ne_iff found
  refine ⟨?_, ?_, ?_⟩
  · rw [problems_eq]
    cases Fault.ofColumn? index column <;> simp
  · rw [dropped_iff, reported_iff]
    constructor
    · rintro (nothing_shown | gap | apart)
      · exact .inl (.inl nothing_shown)
      · exact .inl (.inr gap)
      · by_cases nothing_shown : column.target.shownAttributes = []
        · exact .inl (.inl nothing_shown)
        · exact .inr ⟨nothing_shown, apart⟩
    · rintro ((nothing_shown | gap) | ⟨_, apart⟩)
      · exact .inl nothing_shown
      · exact .inr (.inl gap)
      · exact .inr (.inr apart)
  · rintro ⟨reported, shows, apart⟩
    rcases reported_iff.mp reported with nothing_shown | gap
    · exact shows nothing_shown
    · rw [Fault.hasGap_eq_false_of_standsApart apart] at gap
      cases gap

/-- A report may say nothing about a table column that is dropped. -/
theorem EntityScheme.not_report_column_iff_dropped :
    ¬ ∀ (scheme : EntityScheme) (index : Fin scheme.resultView.columns.length),
      scheme.report.about (Fault.columnField scheme.reportName index) ≠ [] ↔
        ∀ shown ∈ Column.ofTableColumns scheme.logicalName scheme.resultView.columns,
          shown.sourceColumn ≠ index := by
  intro agree
  let column : ColumnLink :=
    { ColumnLink.ofAttribute "fullname" with entityName := some "contact" }
  let scheme : EntityScheme := ⟨"account", [], ⟨[.single column], none⟩⟩
  have dropped : Column.ofTableColumns "account" [.single column] = [] := by decide
  have unreported : scheme.report = [] := by decide
  have reported := (agree scheme ⟨0, by decide⟩).mpr (by simp [scheme, dropped])
  exact reported (by rw [unreported]; rfl)

end EntitySearch
