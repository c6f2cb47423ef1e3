import EntitySearch.Description
import EntitySearch.Proofs.Values

/-!
# Described rows

The rows that are described and those that are compiled are chosen apart: by the values as they were
entered, and by those that the operator reads. They are the same rows except for the hollow ones,
which search a list of commas only: it is not blank, but lists nothing.
-/

namespace EntitySearch

/-- The members of which a partial function has a value correspond to the values, one by one. -/
theorem forall₂_filterMap {Given Value : Type} (value? : Given → Option Value)
    (members : List Given) :
    List.Forall₂ (fun member value => value? member = some value)
      (members.filter fun member => (value? member).isSome) (members.filterMap value?) := by
  induction members with
  | nil => exact .nil
  | cons member rest ih =>
      rw [List.filter_cons, List.filterMap_cons]
      cases found : value? member with
      | none => exact ih
      | some value => exact .cons found ih

namespace Operator

/-- The values are a list between commas that lists nothing, though they are not blank. -/
def isHollow : Operator → List FilterValue → Bool
  | .among, [.text text] => ! Text.isBlank text && (Text.commaSeparated text).isEmpty
  | _, _ => false

theorem isSome_test? (operator : Operator) (values : List FilterValue) :
    (operator.test? values).isSome =
      (operator.takesNoValue || (operator.expand values).any (! ·.isBlank)) := by
  have any_eq : (operator.expand values).any (! ·.isBlank) =
      ! ((operator.expand values).filter (! ·.isBlank)).isEmpty := by
    rw [Bool.eq_iff_iff]
    simp [List.filter_eq_nil_iff]
  rw [any_eq, test?.eq_def]
  cases operator <;> cases (Operator.expand _ values).filter (! ·.isBlank) <;> rfl

/-- Values as entered are blank exactly if the operator reads none, unless they are hollow. -/
theorem any_values_eq (operator : Operator) (values : List FilterValue) :
    values.any (! ·.isBlank) =
      ((operator.expand values).any (! ·.isBlank) || operator.isHollow values) := by
  rw [expand.eq_def]
  split
  · rename_i text
    rw [isHollow]
    cases blank : Text.isBlank text with
    | true => simp [Text.commaSeparated_of_isBlank blank, FilterValue.isBlank, blank]
    | false =>
        cases fragments : Text.commaSeparated text with
        | nil => simp [FilterValue.isBlank, blank]
        | cons fragment others =>
            have solid : Text.isBlank fragment = false :=
              Text.isBlank_of_mem_commaSeparated (by rw [fragments]; exact List.mem_cons_self)
            simp [FilterValue.isBlank, blank, solid]
  · rename_i not_list
    rw [isHollow, Bool.or_false]
    exact not_list

theorem test?_of_isHollow {operator : Operator} {values : List FilterValue}
    (hollow : operator.isHollow values = true) : operator.test? values = none := by
  rw [isHollow.eq_def] at hollow
  split at hollow
  · rename_i text
    rw [Bool.and_eq_true, List.isEmpty_iff] at hollow
    rw [test?.eq_def, expand, hollow.2]
    rfl
  · cases hollow

end Operator

namespace FilterRow

/-- The attribute that a row is on. -/
def attributeName? (row : FilterRow) : Option String :=
  row.option.bind fun option => Text.nonBlank? option.target.attributeName

/-- The row is on an attribute and searches a list between commas that lists nothing. -/
def isHollow (row : FilterRow) : Bool :=
  row.attributeName?.isSome && row.condition.any (·.isHollow row.values)

/-- The description of a row that is listed. -/
def listed? (row : FilterRow) : Option String :=
  if row.hasConditionValue then row.description? else none

theorem isSome_description? (row : FilterRow) :
    row.description?.isSome = (row.attributeName?.isSome && row.condition.isSome) := by
  obtain ⟨option | option, operator, values, disabled⟩ := row
  · rfl
  · rw [description?, attributeName?]
    dsimp only [Option.bind_eq_bind, Option.bind_some]
    cases Text.nonBlank? option.target.attributeName <;> cases operator <;> rfl

/-- An enabled row amounts to a condition if it is on an attribute and its operator has a test. -/
theorem isOk_condition? {row : FilterRow} (enabled : row.disabled = false) :
    row.condition?.isOk =
      (row.attributeName?.isSome &&
        row.condition.any fun operator => (operator.test? row.values).isSome) := by
  obtain ⟨option | option, operator | operator, values, disabled⟩ := row
  · rfl
  · rfl
  · exact (Bool.and_false _).symm
  · obtain rfl : disabled = false := enabled
    rw [condition?, attributeName?]
    dsimp only [Option.bind_some, Option.any_some]
    cases Text.nonBlank? option.target.attributeName with
    | none => rfl
    | some name =>
        dsimp only
        cases operator.test? values <;> rfl

/-- An enabled row is listed exactly if it amounts to a condition or is hollow. -/
theorem isSome_listed? {row : FilterRow} (enabled : row.disabled = false) :
    row.listed?.isSome = (row.condition?.isOk || row.isHollow) := by
  rw [listed?, apply_ite Option.isSome, isSome_description?, isOk_condition? enabled, isHollow,
    hasConditionValue]
  cases row.condition with
  | none => simp
  | some operator =>
      rw [Option.any_some, Option.any_some, Option.any_some, Operator.isSome_test?,
        operator.any_values_eq, Option.isSome_some, Bool.and_true, ← Bool.and_or_distrib_left,
        Bool.or_assoc]
      split_ifs with chosen <;> simp [chosen]

/-- A hollow row has no value to search for. -/
theorem condition?_of_isHollow {row : FilterRow} (enabled : row.disabled = false)
    (hollow : row.isHollow = true) : row.condition? = .error .noValue := by
  obtain ⟨option | option, operator | operator, values, disabled⟩ := row
  · cases hollow
  · cases hollow
  · rw [isHollow, Option.any_none, Bool.and_false] at hollow
    cases hollow
  · obtain rfl : disabled = false := enabled
    rw [isHollow, Bool.and_eq_true, Option.any_some] at hollow
    obtain ⟨named, hollow⟩ := hollow
    obtain ⟨name, named⟩ := Option.isSome_iff_exists.mp named
    rw [attributeName?, Option.bind_some] at named
    rw [condition?]
    dsimp only
    rw [named, Operator.test?_of_isHollow hollow]
    rfl

theorem description?_of_listed? {row : FilterRow} {line : String}
    (listed : row.listed? = some line) : row.description? = some line := by
  rw [listed?] at listed
  split_ifs at listed
  exact listed

/-- Enabled rows are described, line by line, if they amount to a condition or are hollow. -/
theorem forall₂_descriptions {rows : List FilterRow}
    (enabled : ∀ row ∈ rows, row.disabled = false) :
    List.Forall₂ (fun row line => row.description? = some line)
      (rows.filter fun row => row.condition?.isOk || row.isHollow) (descriptions rows) := by
  have descriptions_eq : descriptions rows = rows.filterMap listed? := List.filterMap_filter
  have chosen_eq : rows.filter (fun row => row.condition?.isOk || row.isHollow) =
      rows.filter fun row => row.listed?.isSome :=
    List.filter_congr fun row member => (isSome_listed? (enabled row member)).symm
  rw [descriptions_eq, chosen_eq]
  exact (forall₂_filterMap listed? rows).imp fun _ _ => description?_of_listed?

/-- Of enabled rows, the hollow ones are described beside those that amount to a condition, though
they have no value. So exactly the conditions are described if no row is hollow, and only then. -/
theorem forall₂_descriptions_iff {rows : List FilterRow}
    (enabled : ∀ row ∈ rows, row.disabled = false) :
    (List.Forall₂ (fun row line => row.description? = some line)
        (rows.filter fun row => row.condition?.isOk || row.isHollow) (descriptions rows)) ∧
      (∀ row ∈ rows, row.isHollow = true → row.condition? = .error .noValue) ∧
      (List.Forall₂ (fun row line => row.description? = some line)
          (rows.filter fun row => row.condition?.isOk) (descriptions rows) ↔
        ∀ row ∈ rows, row.isHollow = false) := by
  have described := forall₂_descriptions enabled
  refine ⟨described, fun row member => condition?_of_isHollow (enabled row member), ?_, ?_⟩
  · intro only_conditions row member
    have kept_sublist : (rows.filter fun row => row.condition?.isOk).Sublist
        (rows.filter fun row => row.condition?.isOk || row.isHollow) :=
      List.monotone_filter_right rows fun _ amounts => Bool.or_eq_true_iff.mpr (.inl amounts)
    have kept_eq := kept_sublist.eq_of_length
      (only_conditions.length_eq.trans described.length_eq.symm)
    cases hollow : row.isHollow with
    | false => rfl
    | true =>
        have kept : row ∈ rows.filter fun row => row.condition?.isOk := by
          rw [kept_eq]
          exact List.mem_filter.mpr ⟨member, by rw [hollow, Bool.or_true]⟩
        have amounts := (List.mem_filter.mp kept).2
        rw [condition?_of_isHollow (enabled row member) hollow] at amounts
        cases amounts
  · intro solid
    have kept_eq : rows.filter (fun row => row.condition?.isOk || row.isHollow) =
        rows.filter fun row => row.condition?.isOk :=
      List.filter_congr fun row member => by rw [solid row member, Bool.or_false]
    rwa [kept_eq] at described

/-- A row with a value, one without and a hollow one. -/
theorem forall₂_descriptions_iff_hollow :
    let name (values : List FilterValue) : FilterRow :=
      .ofParts (.single (.ofAttribute "name" "String")) .among values
    let rows := [name [.text "A,B"], name [.text " "], name [.text " , "]]
    (∀ row ∈ rows, row.disabled = false) ∧
      List.Forall₂ (fun row line => row.description? = some line)
        [name [.text "A,B"], name [.text " , "]] (descriptions rows) ∧
      (name [.text " , "]).condition? = .error .noValue := by
  intro name rows
  have enabled : ∀ row ∈ rows, row.disabled = false := by simp [rows, name, ofParts]
  obtain ⟨described, unvalued, -⟩ := forall₂_descriptions_iff enabled
  exact ⟨enabled, described, unvalued _ (by simp [rows]) (by decide)⟩

/-- A list of nothing but a comma is described, though it amounts to no condition. -/
theorem not_forall₂_descriptions :
    ¬ ∀ rows : List FilterRow, (∀ row ∈ rows, row.disabled = false) →
      List.Forall₂ (fun row line => row.description? = some line)
        (rows.filter fun row => row.condition?.isOk) (descriptions rows) := by
  intro only_conditions
  let hollow : FilterRow := .ofParts (.single (.ofAttribute "name" "String")) .among [.text ","]
  have described := only_conditions [hollow] (by simp [hollow, ofParts])
  exact absurd described.length_eq (by decide)

end FilterRow

end EntitySearch
