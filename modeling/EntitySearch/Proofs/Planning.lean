import EntitySearch.Plan
import EntitySearch.Proofs.FetchXml.Conditions
import EntitySearch.Proofs.FetchXml.Transcript
import EntitySearch.Proofs.OData.Conjunction

/-!
# The rows of a planned search

Which rows a search leaves out does not depend on the language of its query. OData leaves out rows
on other entities, but is planned only if there are none, and all the rows that are not reported
are found in the text of the query that is planned.
-/

namespace EntitySearch

open FetchXml (Criterion placedCriterion?)
open OData (NamesPlainly expression? isWord)

/-- A row never amounts to nothing for want of a join. -/
theorem FilterRow.reason_ne_of_condition? {row : FilterRow} {reason : SkipReason}
    (refused : row.condition? = .error reason) :
    reason ≠ .needsJoin ∧ reason ≠ .incompleteJoin := by
  obtain ⟨option, operator, values, disabled⟩ := row
  rw [condition?] at refused
  split at refused
  · cases refused
    decide
  · cases refused
    decide
  · split at refused
    · cases refused
      decide
    · split_ifs at refused
      · cases refused
        decide
      · split at refused
        · cases refused
          decide
        · cases refused

namespace FetchXml

theorem placedCriterion?_ne_needsJoin (row : FilterRow) :
    placedCriterion? row ≠ .error .needsJoin := by
  rw [placedCriterion?]
  cases checked : row.condition? with
  | error reason =>
      intro failed
      cases failed
      exact (FilterRow.reason_ne_of_condition? checked).1 rfl
  | ok condition =>
      dsimp only
      cases condition.option.joinPath? <;> exact nofun

/-- A placed condition is compiled from the condition of its row. -/
theorem exists_condition_of_placedCriterion? (row : FilterRow) (placed : PlacedCriterion)
    (accepted : placedCriterion? row = .ok placed) :
    ∃ condition, row.condition? = .ok condition ∧
      placed.criterion = Criterion.ofCondition condition := by
  rw [placedCriterion?] at accepted
  cases checked : row.condition? with
  | error reason => rw [checked] at accepted; cases accepted
  | ok condition =>
      rw [checked] at accepted
      dsimp only at accepted
      cases joined : condition.option.joinPath? with
      | none => rw [joined] at accepted; cases accepted
      | some path =>
          rw [joined] at accepted
          cases accepted
          exact ⟨condition, rfl, rfl⟩

/-- The text of a query holds conditions: it is read, and the conditions on the entity of the query
and on the linked ones are these, each once. -/
def HoldsConditions (conditions : List Condition) (text : String) : Prop :=
  ∃ transcript, Transcript.read? text = some transcript ∧
    transcript.document.scope.allCriteria.Perm (conditions.map Criterion.ofCondition)

/-- A query holds the conditions of the rows that it does not leave out. -/
theorem Query.exists_holdsConditions (entity : String) (rows : List FilterRow)
    (columns : List Column) (page : Option Page) :
    let query := ofRows entity rows columns page
    ∃ conditions : List Condition,
      (Sifted.unskipped rows query.skipped).map FilterRow.condition? = conditions.map .ok ∧
        HoldsConditions conditions query.text := by
  intro query
  obtain ⟨conditions, amounts, compiled⟩ := Sifted.exists_conditions
    exists_condition_of_placedCriterion? rows
  refine ⟨conditions, amounts, _, Transcript.read?_text query.document, ?_⟩
  rw [Transcript.document_transcript, ← compiled, Sifted.kept_rows]
  exact allCriteria_ofRows entity rows columns page

end FetchXml

namespace PlannedQuery

/-- The text of a query holds each of the given conditions once, compiled to its language, and no
others. -/
def Holds (zone : TimeZone) (conditions : List Condition) : PlannedQuery → Prop
  | .odata _ filter => OData.HoldsConditions zone conditions filter
  | .fetchXml text => FetchXml.HoldsConditions conditions text

/-- A query compiled from rows of which it leaves some out: every other row amounts to a condition,
and the text holds these conditions, as many as there are other rows. -/
def IsCompiledFrom (zone : TimeZone) (rows : List FilterRow) (skipped : List SkippedRow)
    (query : PlannedQuery) : Prop :=
  ∃ conditions : List Condition,
    (Sifted.unskipped rows skipped).map FilterRow.condition? = conditions.map .ok ∧
      conditions.length + skipped.length = rows.length ∧ query.Holds zone conditions

/-- The number of conditions that are read in the text of a query. -/
def count? : PlannedQuery → Option Nat
  | .odata _ none => some 0
  | .odata _ (some text) => (OData.clauses? text).map List.length
  | .fetchXml text =>
      (FetchXml.Transcript.read? text).map fun transcript =>
        transcript.document.scope.allCriteria.length

theorem count?_of_holds_fetchXml {zone : TimeZone} {conditions : List Condition} {text : String}
    (held : (PlannedQuery.fetchXml text).Holds zone conditions) :
    (PlannedQuery.fetchXml text).count? = some conditions.length := by
  obtain ⟨transcript, read, compiled⟩ := held
  rw [count?, read, Option.map_some, compiled.length_eq, List.length_map]

theorem count?_of_holds_odata {zone : TimeZone} {conditions : List Condition}
    {select : List String} {filter : Option String}
    (held : (PlannedQuery.odata select filter).Holds zone conditions)
    (words : ∀ condition ∈ conditions, isWord condition.attributeName.toList = true) :
    (PlannedQuery.odata select filter).count? = some conditions.length := by
  cases filter with
  | none =>
      obtain rfl : conditions = [] := held
      rfl
  | some text =>
      obtain ⟨-, read⟩ := held
      rw [count?, read words, Option.map_some, List.length_map]

theorem isCompiledFrom_ofRows_fetchXml (zone : TimeZone) (entity : String)
    (rows : List FilterRow) (columns : List Column) (page : Option FetchXml.Page) :
    let query := FetchXml.Query.ofRows entity rows columns page
    (PlannedQuery.fetchXml query.text).IsCompiledFrom zone rows query.skipped := by
  intro query
  obtain ⟨conditions, amounts, held⟩ :=
    FetchXml.Query.exists_holdsConditions entity rows columns page
  exact ⟨conditions, amounts, Sifted.length_conditions amounts, held⟩

theorem isCompiledFrom_ofRows_odata (zone : TimeZone) (entity : String) (rows : List FilterRow)
    (select : List String) :
    let filter := OData.Filter.ofRows zone entity rows
    (PlannedQuery.odata select filter.text).IsCompiledFrom zone rows filter.skipped := by
  intro filter
  obtain ⟨conditions, amounts, held⟩ := OData.Filter.exists_holdsConditions zone entity rows
  exact ⟨conditions, amounts, Sifted.length_conditions amounts, held⟩

/-- As many conditions are read in the text of a FetchXML query as rows are not left out. -/
theorem exists_count?_of_isCompiledFrom_fetchXml {zone : TimeZone} {rows : List FilterRow}
    {skipped : List SkippedRow} {text : String}
    (compiled : (PlannedQuery.fetchXml text).IsCompiledFrom zone rows skipped) :
    ∃ count, (PlannedQuery.fetchXml text).count? = some count ∧
      count + skipped.length = rows.length := by
  obtain ⟨conditions, amounts, counted, held⟩ := compiled
  exact ⟨conditions.length, count?_of_holds_fetchXml held, counted⟩

/-- As many conditions are read in the text of a filter as rows are not left out, if the names in it
are words. -/
theorem exists_count?_of_isCompiledFrom_odata {zone : TimeZone} {rows : List FilterRow}
    {skipped : List SkippedRow} {select : List String} {filter : Option String}
    (compiled : (PlannedQuery.odata select filter).IsCompiledFrom zone rows skipped)
    (plain : ∀ row ∈ rows, NamesPlainly row) :
    ∃ count, (PlannedQuery.odata select filter).count? = some count ∧
      count + skipped.length = rows.length := by
  obtain ⟨conditions, amounts, counted, held⟩ := compiled
  have words := OData.forall_isWord_attributeName amounts fun row member =>
    plain row (Sifted.mem_of_mem_unskipped member)
  exact ⟨conditions.length, count?_of_holds_odata held words, counted⟩

end PlannedQuery

namespace SearchPlan

/-- The options of conditions on the searched entity itself need no join. -/
theorem joinPath?_of_not_isRelated {entity : String} {condition : Condition}
    (unrelated : condition.isRelated entity = false) :
    condition.option.joinPath? = some [] := by
  rw [FilterOption.joinPath?_eq_nil_iff]
  rw [Condition.isRelated, Bool.or_eq_false_iff, decide_eq_false_iff_not] at unrelated
  omega

/-- For a row that does not reach another entity both languages have the same rules. -/
theorem expression?_eq_error_iff {entity : String} {row : FilterRow}
    (unrelated : isRelatedRow entity row = false) (zone : TimeZone) (reason : SkipReason) :
    expression? zone entity row = .error reason ↔ placedCriterion? row = .error reason := by
  rw [isRelatedRow] at unrelated
  rw [expression?, placedCriterion?]
  cases checked : row.condition? with
  | error other => rw [Except.error.injEq, Except.error.injEq]
  | ok condition =>
      rw [checked] at unrelated
      dsimp only at unrelated ⊢
      rw [unrelated, joinPath?_of_not_isRelated unrelated]
      constructor
      · intro failed
        cases failed
      · intro failed
        cases failed

theorem isRelatedRow_of_not_needsJoin {entity : String} {columns : List Column}
    {rows : List FilterRow} (plain : needsJoin entity columns rows = false) :
    ∀ row ∈ rows, isRelatedRow entity row = false := by
  rw [needsJoin, Bool.or_eq_false_iff, List.any_eq_false] at plain
  intro row member
  exact Bool.not_eq_true _ ▸ List.any_eq_false.mp plain.2 row member

/-- A plan leaves out the rows that cannot be placed, whatever its language is. -/
theorem skipped_eq (zone : TimeZone) (scheme : EntityScheme) (rows : List FilterRow) :
    (build zone scheme rows).skipped = (Sifted.rows placedCriterion? rows).skipped := by
  rw [build]
  dsimp only
  split_ifs with joined
  · rfl
  · apply Sifted.skipped_rows_congr
    intro row member reason
    rw [Bool.not_eq_true] at joined
    exact expression?_eq_error_iff (isRelatedRow_of_not_needsJoin joined row member) zone reason

/-- No row is lost to the choice of a language. Whatever the columns are, a plan leaves out the rows
that a FetchXML query leaves out, none of them for want of a join, and the text of the planned query
holds the condition of every other row once. -/
theorem build_keeps_rows (zone : TimeZone) (scheme : EntityScheme) (rows : List FilterRow) :
    let plan := build zone scheme rows
    (∀ columns page, plan.skipped =
        (FetchXml.Query.ofRows scheme.logicalName rows columns page).skipped) ∧
      (∀ skipped ∈ plan.skipped, skipped.reason ≠ .needsJoin) ∧
      plan.query.IsCompiledFrom zone rows plan.skipped := by
  intro plan
  have skipped_same : plan.skipped = (Sifted.rows placedCriterion? rows).skipped :=
    skipped_eq zone scheme rows
  refine ⟨?_, ?_, ?_⟩
  · intro columns page
    exact skipped_same
  · intro skipped member
    rw [skipped_same] at member
    obtain ⟨row, _, failed⟩ := Sifted.exists_row_of_mem_skipped member
    intro reason_eq
    rw [reason_eq] at failed
    exact FetchXml.placedCriterion?_ne_needsJoin row failed
  · dsimp only [plan]
    rw [build]
    dsimp only
    split_ifs with joined
    · exact PlannedQuery.isCompiledFrom_ofRows_fetchXml zone scheme.logicalName rows _ none
    · exact PlannedQuery.isCompiledFrom_ofRows_odata zone scheme.logicalName rows _

end SearchPlan

end EntitySearch
