import EntitySearch.FetchXml.Query
import EntitySearch.OData.Filter
import EntitySearch.Proofs.Sifting
import EntitySearch.Proofs.Text.Trimming
import Mathlib.Data.List.Forall2

/-!
# Values that do not matter

A query depends on the values of a row only through the test that its operator makes of them. An
operator reads no values, the first one that is not blank, or all of these; a text that lists values
between commas reads like the list of them. Blanks among the values are passed over, but they keep a
single text from being read as such a list.
-/

namespace EntitySearch

namespace FilterValue

/-- The values hold one text, and it is read otherwise than as typed: as the list of its fragments
between commas. -/
def IsTypedList (values : List FilterValue) : Prop :=
  ∃ text, values = [.text text] ∧ Text.isBlank text = false ∧ Text.commaSeparated text ≠ [text]

/-- The second list is the first one with blank texts inserted anywhere. -/
inductive Padded : List FilterValue → List FilterValue → Prop
  | nil : Padded [] []
  | keep (value : FilterValue) {values padded : List FilterValue} (rest : Padded values padded) :
      Padded (value :: values) (value :: padded)
  | insert {text : String} (blank : Text.isBlank text = true) {values padded : List FilterValue}
      (rest : Padded values padded) : Padded values (.text text :: padded)

namespace Padded

theorem refl : ∀ values : List FilterValue, Padded values values
  | [] => .nil
  | value :: rest => .keep value (refl rest)

theorem filter_eq {values padded : List FilterValue} (inserted : Padded values padded) :
    padded.filter (! ·.isBlank) = values.filter (! ·.isBlank) := by
  induction inserted with
  | nil => rfl
  | keep value rest ih => rw [List.filter_cons, List.filter_cons, ih]
  | insert blank rest ih =>
      rw [List.filter_cons, isBlank, blank, ih]
      rfl

/-- A list between commas that is left alone has nothing inserted beside it. -/
theorem eq_of_isTypedList {values padded : List FilterValue} (inserted : Padded values padded)
    (typed : IsTypedList padded) : padded = values := by
  obtain ⟨text, rfl, solid, -⟩ := typed
  cases inserted with
  | keep value rest =>
      cases rest
      rfl
  | insert blank rest => exact absurd (solid.symm.trans blank) Bool.false_ne_true

end Padded

end FilterValue

namespace Operator

open FilterValue (IsTypedList Padded)

/-- Values that an operator has expanded are not expanded again. -/
@[simp]
theorem expand_expand (operator : Operator) (values : List FilterValue) :
    operator.expand (operator.expand values) = operator.expand values := by
  rw [expand.eq_def operator values]
  split
  · rename_i text
    cases fragments : Text.commaSeparated text with
    | nil => rfl
    | cons fragment others =>
        cases others with
        | nil =>
            have member : fragment ∈ Text.commaSeparated text := by
              rw [fragments]
              exact List.mem_singleton_self fragment
            rw [List.map_singleton, expand, Text.commaSeparated_of_mem member, List.map_singleton]
        | cons other others => rfl
  · rename_i not_list
    rw [expand]
    exact not_list

/-- Unless its values are a list between commas, an operator reads those that are not blank. -/
theorem filter_expand (operator : Operator) {values : List FilterValue}
    (settled : operator = .among → ¬ IsTypedList values) :
    (operator.expand values).filter (! ·.isBlank) = values.filter (! ·.isBlank) := by
  rw [expand.eq_def]
  split
  · rename_i text
    cases blank : Text.isBlank text with
    | true =>
        rw [Text.commaSeparated_of_isBlank blank, List.filter_singleton, FilterValue.isBlank, blank]
        rfl
    | false =>
        have as_typed : Text.commaSeparated text = [text] := by
          by_contra fragments
          exact settled rfl ⟨text, rfl, blank, fragments⟩
        rw [as_typed, List.map_singleton]
  · rfl

theorem test?_congr (operator : Operator) {values others : List FilterValue}
    (same : (operator.expand values).filter (! ·.isBlank) =
      (operator.expand others).filter (! ·.isBlank)) :
    operator.test? values = operator.test? others := by
  rw [test?.eq_def, test?.eq_def operator others, same]

/-- A test without a value reads none. -/
theorem test?_state (test : StateTest) (values : List FilterValue) :
    (Operator.state test).test? values = some (.state test) := rfl

/-- A comparison reads the first value that is not blank. -/
theorem test?_compare (comparison : Comparison) (values : List FilterValue) :
    (Operator.compare comparison).test? values =
      (values.find? (! ·.isBlank)).map (.compare comparison) := by
  rw [← List.head?_filter, test?.eq_def, expand.eq_def]
  cases values.filter (! ·.isBlank) <;> rfl

/-- A list between commas reads like the list of its fragments. -/
theorem test?_expand (operator : Operator) (values : List FilterValue) :
    operator.test? (operator.expand values) = operator.test? values :=
  operator.test?_congr (by rw [expand_expand])

/-- Blanks change nothing, unless they are inserted beside a list between commas. -/
theorem test?_of_padded (operator : Operator) {values padded : List FilterValue}
    (inserted : Padded values padded)
    (settled : operator = .among → IsTypedList values → padded = values) :
    operator.test? padded = operator.test? values := by
  by_cases untouched : padded = values
  · rw [untouched]
  · apply operator.test?_congr
    rw [filter_expand, filter_expand, inserted.filter_eq]
    · exact fun among typed => untouched (settled among typed)
    · exact fun _ typed => untouched (inserted.eq_of_isTypedList typed)

/-- Beside a blank, a list between commas is one value, as typed. -/
theorem test?_among_of_padded {text : String} {padded : List FilterValue}
    (solid : Text.isBlank text = false) (inserted : Padded [.text text] padded)
    (touched : padded ≠ [.text text]) :
    Operator.among.test? padded = some (.among (.text text) []) := by
  have read : (Operator.among.expand padded).filter (! ·.isBlank) = [.text text] := by
    rw [filter_expand, inserted.filter_eq, List.filter_singleton, FilterValue.isBlank, solid]
    · rfl
    · exact fun _ typed => touched (inserted.eq_of_isTypedList typed)
  rw [test?.eq_def, read]

end Operator

namespace FilterRow

/-- Values that a row can be given without a change of its test. -/
inductive Revalued : FilterRow → FilterRow → Prop
  | same (row : FilterRow) : Revalued row row
  | state {row : FilterRow} {test : StateTest} (operator_eq : row.condition = some (.state test))
      (values : List FilterValue) : Revalued row { row with values }
  | first {row : FilterRow} {comparison : Comparison}
      (operator_eq : row.condition = some (.compare comparison)) {value : FilterValue}
      (first_eq : row.values.find? (! ·.isBlank) = some value) :
      Revalued row { row with values := [value] }
  | fragments {row : FilterRow} (operator_eq : row.condition = some .among) {text : String}
      (single : row.values = [.text text]) :
      Revalued row { row with values := (Text.commaSeparated text).map .text }

/-- The second row is the first one with blank texts inserted into its values. -/
structure Padded (row other : FilterRow) : Prop where
  values : FilterValue.Padded row.values other.values
  rest : other = { row with values := other.values }

/-- The row searches for the values of a list between commas. -/
def IsTypedList (row : FilterRow) : Prop :=
  row.condition = some .among ∧ FilterValue.IsTypedList row.values

theorem condition?_congr {row : FilterRow} {values : List FilterValue}
    (same : ∀ operator, row.condition = some operator →
      operator.test? values = operator.test? row.values) :
    { row with values }.condition? = row.condition? := by
  obtain ⟨option | option, operator | operator, given, disabled⟩ := row
  · rfl
  · rfl
  · rfl
  · rw [condition?, condition?]
    dsimp only
    rw [same operator rfl]

theorem condition?_of_test?_eq {row : FilterRow} {operator : Operator}
    (operator_eq : row.condition = some operator) {values : List FilterValue}
    (same : operator.test? values = operator.test? row.values) :
    { row with values }.condition? = row.condition? := by
  apply condition?_congr
  intro other other_eq
  obtain rfl := Option.some.inj (operator_eq.symm.trans other_eq)
  exact same

theorem Revalued.condition?_eq {row other : FilterRow} (revalued : Revalued row other) :
    other.condition? = row.condition? := by
  cases revalued with
  | same => rfl
  | state operator_eq values =>
      apply condition?_of_test?_eq operator_eq
      rw [Operator.test?_state, Operator.test?_state]
  | first operator_eq first_eq =>
      apply condition?_of_test?_eq operator_eq
      rw [Operator.test?_compare, Operator.test?_compare, first_eq, List.find?_singleton,
        if_pos (List.find?_some first_eq)]
  | @fragments operator_eq text single =>
      apply condition?_of_test?_eq operator_eq
      rw [single]
      exact Operator.test?_expand .among [.text text]

theorem Padded.condition?_eq {row other : FilterRow} (padded : Padded row other)
    (settled : row.IsTypedList → other = row) : other.condition? = row.condition? := by
  rw [padded.rest]
  apply condition?_congr
  intro operator operator_eq
  apply operator.test?_of_padded padded.values
  rintro rfl typed
  rw [settled ⟨operator_eq, typed⟩]

end FilterRow

namespace Sifted

/-- Rows on which a check agrees are sifted alike. -/
theorem rowsFrom_congr {Kept : Type} {check : FilterRow → Except SkipReason Kept}
    {rows others : List FilterRow}
    (same : List.Forall₂ (fun row other => check other = check row) rows others) (index : Nat) :
    rowsFrom check index others = rowsFrom check index rows := by
  induction same generalizing index with
  | nil => rfl
  | cons agree rest ih => rw [rowsFrom, rowsFrom, agree, ih]

end Sifted

theorem FetchXml.Query.ofRows_congr (entity : String) {rows others : List FilterRow}
    (same : List.Forall₂ (fun row other => placedCriterion? other = placedCriterion? row) rows
      others) (columns : List Column) (page : Option Page) :
    ofRows entity others columns page = ofRows entity rows columns page := by
  rw [ofRows, ofRows, Sifted.rows, Sifted.rows, Sifted.rowsFrom_congr same]

/-- Queries depend on rows only through the conditions that the rows amount to. -/
theorem ofRows_congr (zone : TimeZone) (entity : String) {rows others : List FilterRow}
    (same : List.Forall₂ (fun row other => other.condition? = row.condition?) rows others)
    (columns : List Column) (page : Option FetchXml.Page) :
    OData.Filter.ofRows zone entity others = OData.Filter.ofRows zone entity rows ∧
      FetchXml.Query.ofRows entity others columns page =
        FetchXml.Query.ofRows entity rows columns page := by
  have same_expression : List.Forall₂ (fun row other =>
      OData.expression? zone entity other = OData.expression? zone entity row) rows others :=
    same.imp fun row other agree => by rw [OData.expression?, OData.expression?, agree]
  have same_criterion : List.Forall₂ (fun row other =>
      FetchXml.placedCriterion? other = FetchXml.placedCriterion? row) rows others :=
    same.imp fun row other agree => by
      rw [FetchXml.placedCriterion?, FetchXml.placedCriterion?, agree]
  constructor
  · rw [OData.Filter.ofRows, OData.Filter.ofRows, Sifted.rows, Sifted.rows,
      Sifted.rowsFrom_congr same_expression]
  · exact FetchXml.Query.ofRows_congr entity same_criterion columns page

/-- Values that an operator does not read can be replaced: those of a test without a value by any,
those of a comparison by the first one that is not blank, and a list between commas by the list of
its fragments. Both queries and what they skip stay the same. -/
theorem ofRows_revalued (zone : TimeZone) (entity : String) {rows others : List FilterRow}
    (revalued : List.Forall₂ FilterRow.Revalued rows others) (columns : List Column)
    (page : Option FetchXml.Page) :
    OData.Filter.ofRows zone entity others = OData.Filter.ofRows zone entity rows ∧
      FetchXml.Query.ofRows entity others columns page =
        FetchXml.Query.ofRows entity rows columns page :=
  ofRows_congr zone entity (revalued.imp fun _ _ => FilterRow.Revalued.condition?_eq) columns page

/-- A row for each way of replacing values. -/
theorem ofRows_revalued_lists :
    let name (operator : Operator) (values : List FilterValue) : FilterRow :=
      .ofParts (.single (.ofAttribute "name" "String")) operator values
    let rows := [name (.state .null) [.text "a"],
      name (.ofRelation .eq) [.text " ", .text "b", .text "c"], name .among [.text "a, b,"]]
    let others := [name (.state .null) [], name (.ofRelation .eq) [.text "b"],
      name .among [.text "a", .text "b"]]
    List.Forall₂ FilterRow.Revalued rows others ∧
      OData.Filter.ofRows .utc "account" others = OData.Filter.ofRows .utc "account" rows := by
  intro name rows others
  have fragments_eq : Text.commaSeparated "a, b," = ["a", "b"] := by decide
  have listed := @FilterRow.Revalued.fragments (name .among [.text "a, b,"]) rfl "a, b," rfl
  rw [fragments_eq] at listed
  have revalued : List.Forall₂ FilterRow.Revalued rows others :=
    .cons (.state rfl []) (.cons (.first rfl rfl) (.cons listed .nil))
  exact ⟨revalued, (ofRows_revalued .utc "account" revalued [] none).1⟩

/-- Blank texts inserted among the values of rows change no query, unless they are inserted beside a
list between commas. Such a list is no longer read as one, but searched for as typed. -/
theorem ofRows_padded (zone : TimeZone) (entity : String) {rows others : List FilterRow}
    (padded : List.Forall₂ FilterRow.Padded rows others) (columns : List Column)
    (page : Option FetchXml.Page) :
    (List.Forall₂ (fun row other => row.IsTypedList → other = row) rows others →
      OData.Filter.ofRows zone entity others = OData.Filter.ofRows zone entity rows ∧
        FetchXml.Query.ofRows entity others columns page =
          FetchXml.Query.ofRows entity rows columns page) ∧
      List.Forall₂ (fun row other => row.IsTypedList → other ≠ row →
        ∃ text, row.values = [.text text] ∧
          Operator.among.test? other.values = some (.among (.text text) [])) rows others := by
  constructor
  · intro settled
    apply ofRows_congr
    induction padded with
    | nil => exact .nil
    | cons inserted rest ih =>
        cases settled with
        | cons here later => exact .cons (inserted.condition?_eq here) (ih later)
  · refine padded.imp fun row other inserted typed touched => ?_
    obtain ⟨-, text, single, solid, -⟩ := typed
    refine ⟨text, single, ?_⟩
    have values_padded := inserted.values
    rw [single] at values_padded
    apply Operator.test?_among_of_padded solid values_padded
    intro untouched
    rw [inserted.rest, untouched, ← single] at touched
    exact touched rfl

/-- A blank within a list of values and an empty text in front of a value. -/
theorem ofRows_padded_blank :
    let name (operator : Operator) (values : List FilterValue) : FilterRow :=
      .ofParts (.single (.ofAttribute "name" "String")) operator values
    let rows := [name .among [.text "a", .text "b,c"], name (.ofRelation .eq) [.text "d"]]
    let others := [name .among [.text "a", .text " ", .text "b,c"],
      name (.ofRelation .eq) [.text "", .text "d"]]
    List.Forall₂ FilterRow.Padded rows others ∧
      OData.Filter.ofRows .utc "account" others = OData.Filter.ofRows .utc "account" rows := by
  intro name rows others
  have padded : List.Forall₂ FilterRow.Padded rows others :=
    .cons ⟨.keep _ (.insert rfl (.refl _)), rfl⟩ (.cons ⟨.insert rfl (.refl _), rfl⟩ .nil)
  have settled : List.Forall₂ (fun row other => row.IsTypedList → other = row) rows others := by
    refine .cons ?_ (.cons ?_ .nil)
    · rintro ⟨-, text, single, -⟩
      cases single
    · rintro ⟨other_operator, -⟩
      cases other_operator
  exact ⟨padded, ((ofRows_padded .utc "account" padded [] none).1 settled).1⟩

/-- A blank beside a list of two texts turns the search for both into one for the list. -/
theorem not_ofRows_padded :
    ¬ ∀ rows others : List FilterRow, List.Forall₂ FilterRow.Padded rows others →
      OData.Filter.ofRows .utc "account" others = OData.Filter.ofRows .utc "account" rows := by
  intro blanks_ignored
  let name (values : List FilterValue) : FilterRow :=
    .ofParts (.single (.ofAttribute "name" "String")) .among values
  have padded : List.Forall₂ FilterRow.Padded [name [.text "a,b"]] [name [.text "a,b", .text ""]] :=
    .cons ⟨.keep _ (.insert rfl .nil), rfl⟩ .nil
  have same := congrArg OData.Filter.text (blanks_ignored _ _ padded)
  have read_as_list : (OData.Filter.ofRows .utc "account" [name [.text "a,b"]]).text =
      some "(name in ('a','b'))" := by decide
  have read_as_typed : (OData.Filter.ofRows .utc "account" [name [.text "a,b", .text ""]]).text =
      some "(name in ('a,b'))" := by decide
  rw [read_as_list, read_as_typed] at same
  exact absurd same (by decide)

end EntitySearch
