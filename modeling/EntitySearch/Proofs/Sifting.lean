import EntitySearch.FilterRow
import Mathlib.Data.List.Basic
import Mathlib.Tactic.SplitIfs

/-!
# Sifted rows

Sifting keeps what every accepted row amounts to, in order, and reports every other row once with
its position. The rows that are not reported are the accepted ones.
-/

namespace EntitySearch

/-- A row that amounts to a condition has an option, and the option names an attribute. -/
theorem FilterRow.option_eq_of_condition? {row : FilterRow} {condition : Condition}
    (amounts : row.condition? = .ok condition) :
    row.option = some condition.option ∧
      Text.nonBlank? condition.option.target.attributeName = some condition.attributeName := by
  obtain ⟨option | option, operator | operator, values, disabled⟩ := row
  · cases amounts
  · cases amounts
  · cases amounts
  · rw [condition?] at amounts
    dsimp only at amounts
    cases named : Text.nonBlank? option.target.attributeName with
    | none => rw [named] at amounts; cases amounts
    | some name =>
        rw [named] at amounts
        dsimp only at amounts
        split_ifs at amounts
        cases tested : operator.test? values with
        | none => rw [tested] at amounts; cases amounts
        | some test =>
            rw [tested] at amounts
            cases amounts
            exact ⟨rfl, named⟩

/-- A row that compares a named attribute with a first value that is not blank amounts to this
comparison. -/
theorem FilterRow.condition?_ofParts_compare {option : FilterOption} {name : String}
    (named : Text.nonBlank? option.target.attributeName = some name) (comparison : Comparison)
    {value : FilterValue} (solid : value.isBlank = false) (more : List FilterValue) :
    (FilterRow.ofParts option (.compare comparison) (value :: more)).condition? =
      .ok ⟨option, name, .compare comparison value⟩ := by
  have tested : (Operator.compare comparison).test? (value :: more) =
      some (.compare comparison value) := by
    simp [Operator.test?, Operator.expand, solid]
  simp only [condition?, ofParts, named, tested, Bool.false_eq_true, if_false]

namespace Sifted

variable {Kept : Type}

/-- The report on a row at a position, unless the row passes the check. -/
def report? (check : FilterRow → Except SkipReason Kept) (position : FilterRow × Nat) :
    Option SkippedRow :=
  match check position.1 with
  | .ok _ => none
  | .error reason => some ⟨position.2, reason⟩

/-- The rows whose positions are not reported. -/
def unskipped (given : List FilterRow) (skipped : List SkippedRow) : List FilterRow :=
  (given.zipIdx.filter fun position => skipped.all (·.index != position.2)).map Prod.fst

theorem mem_of_mem_unskipped {given : List FilterRow} {skipped : List SkippedRow} {row : FilterRow}
    (member : row ∈ unskipped given skipped) : row ∈ given := by
  obtain ⟨position, position_member, rfl⟩ := List.mem_map.mp member
  exact List.fst_mem_of_mem_zipIdx (List.mem_of_mem_filter position_member)

theorem kept_rowsFrom (check : FilterRow → Except SkipReason Kept) (index : Nat)
    (given : List FilterRow) :
    (rowsFrom check index given).kept = given.filterMap fun row => (check row).toOption := by
  induction given generalizing index with
  | nil => rfl
  | cons row rest ih =>
      rw [rowsFrom, List.filterMap_cons, ← ih (index + 1)]
      cases check row <;> rfl

theorem skipped_rowsFrom (check : FilterRow → Except SkipReason Kept) (index : Nat)
    (given : List FilterRow) :
    (rowsFrom check index given).skipped = (given.zipIdx index).filterMap (report? check) := by
  induction given generalizing index with
  | nil => rfl
  | cons row rest ih =>
      rw [rowsFrom, List.zipIdx_cons, List.filterMap_cons, ← ih (index + 1), report?]
      cases check row <;> rfl

/-- What is kept are the results of the accepted rows, in their order. -/
theorem kept_rows (check : FilterRow → Except SkipReason Kept) (given : List FilterRow) :
    (rows check given).kept = given.filterMap fun row => (check row).toOption :=
  kept_rowsFrom check 0 given

/-- What is skipped are the other rows, in their order. -/
theorem skipped_rows (check : FilterRow → Except SkipReason Kept) (given : List FilterRow) :
    (rows check given).skipped = given.zipIdx.filterMap (report? check) :=
  skipped_rowsFrom check 0 given

/-- Checks that refuse the same rows for the same reasons skip the same rows. -/
theorem skipped_rows_congr {Other : Type} {check : FilterRow → Except SkipReason Kept}
    {other : FilterRow → Except SkipReason Other} {given : List FilterRow}
    (same : ∀ row ∈ given, ∀ reason, check row = .error reason ↔ other row = .error reason) :
    (rows check given).skipped = (rows other given).skipped := by
  rw [skipped_rows, skipped_rows]
  apply List.filterMap_congr
  intro position member
  have agree := same position.1 (List.fst_mem_of_mem_zipIdx member)
  rw [report?, report?]
  cases checked : check position.1 with
  | error reason => rw [(agree reason).mp checked]
  | ok kept =>
      cases compared : other position.1 with
      | error reason => rw [(agree reason).mpr compared] at checked; cases checked
      | ok value => rfl

/-- What is reported is a row with the reason for which it fails the check. -/
theorem exists_row_of_mem_skipped {check : FilterRow → Except SkipReason Kept}
    {given : List FilterRow} {skipped : SkippedRow} (member : skipped ∈ (rows check given).skipped) :
    ∃ row, (row, skipped.index) ∈ given.zipIdx ∧ check row = .error skipped.reason := by
  rw [skipped_rows] at member
  obtain ⟨⟨row, index⟩, position_member, reported⟩ := List.mem_filterMap.mp member
  rw [report?] at reported
  cases checked : check row with
  | ok kept => rw [checked] at reported; cases reported
  | error reason =>
      rw [checked] at reported
      obtain rfl := Option.some.inj reported
      exact ⟨row, position_member, checked⟩

/-- What is reported of a position is the reason for which the row there fails the check. -/
theorem mem_skipped_iff (check : FilterRow → Except SkipReason Kept) (given : List FilterRow)
    (skipped : SkippedRow) :
    skipped ∈ (rows check given).skipped ↔
      ∃ row, given[skipped.index]? = some row ∧ check row = .error skipped.reason := by
  constructor
  · intro member
    obtain ⟨row, position_member, failed⟩ := exists_row_of_mem_skipped member
    exact ⟨row, List.mem_zipIdx_iff_getElem?.mp position_member, failed⟩
  · rintro ⟨row, found, failed⟩
    have reported : report? check (row, skipped.index) = some skipped := by
      rw [report?, failed]
    rw [skipped_rows]
    exact List.mem_filterMap.mpr ⟨_, List.mem_zipIdx_iff_getElem?.mpr found, reported⟩

/-- Skipped rows are reported in the order of their positions, each of them once. -/
theorem pairwise_index_skipped (check : FilterRow → Except SkipReason Kept)
    (given : List FilterRow) :
    (rows check given).skipped.Pairwise fun left right => left.index < right.index := by
  have positions : given.zipIdx.Pairwise fun left right => left.2 < right.2 := by
    rw [← List.pairwise_map, List.zipIdx_map_snd]
    exact List.pairwise_lt_range'
  have index_of_report {position : FilterRow × Nat} {skipped : SkippedRow}
      (reported : report? check position = some skipped) : skipped.index = position.2 := by
    rw [report?] at reported
    split at reported
    · cases reported
    · exact (congrArg SkippedRow.index (Option.some.inj reported)).symm
  rw [skipped_rows]
  apply positions.filterMap
  intro left right before first reported later reported_later
  rw [index_of_report reported, index_of_report reported_later]
  exact before

/-- A row is reported exactly if it fails the check. -/
theorem all_index_ne_iff (check : FilterRow → Except SkipReason Kept) {given : List FilterRow}
    {position : FilterRow × Nat} (member : position ∈ given.zipIdx) :
    ((rows check given).skipped.all (·.index != position.2)) = (check position.1).isOk := by
  have found := List.mem_zipIdx_iff_getElem?.mp member
  cases checked : check position.1 with
  | error reason =>
      have reported : report? check position = some ⟨position.2, reason⟩ := by
        rw [report?, checked]
      rw [skipped_rows, Except.isOk, Except.toBool, List.all_eq_false]
      exact ⟨⟨position.2, reason⟩, List.mem_filterMap.mpr ⟨position, member, reported⟩, by simp⟩
  | ok kept =>
      rw [Except.isOk, Except.toBool, List.all_eq_true]
      intro skipped skipped_member
      obtain ⟨row, row_member, failed⟩ := exists_row_of_mem_skipped skipped_member
      have row_found := List.mem_zipIdx_iff_getElem?.mp row_member
      rw [bne_iff_ne]
      intro same_index
      dsimp only at row_found
      rw [same_index, found] at row_found
      rw [← Option.some.inj row_found, checked] at failed
      cases failed

/-- A row is among those skipped exactly if it fails the check. -/
theorem exists_skipped_iff (check : FilterRow → Except SkipReason Kept) {given : List FilterRow}
    {index : Nat} {row : FilterRow} (found : given[index]? = some row) :
    (∃ skipped ∈ (rows check given).skipped, skipped.index = index) ↔
      (check row).isOk = false := by
  have member : (row, index) ∈ given.zipIdx := List.mem_zipIdx_iff_getElem?.mpr found
  rw [← all_index_ne_iff check member, List.all_eq_false]
  simp

/-- The rows that are not reported are the rows that pass the check. -/
theorem unskipped_rows (check : FilterRow → Except SkipReason Kept) (given : List FilterRow) :
    unskipped given (rows check given).skipped = given.filter fun row => (check row).isOk := by
  have filtered : (given.zipIdx.filter fun position =>
      (rows check given).skipped.all (·.index != position.2)) =
        given.zipIdx.filter fun position => (check position.1).isOk :=
    List.filter_congr fun position member => all_index_ne_iff check member
  have firsts : (given.zipIdx.filter fun position => (check position.1).isOk).map Prod.fst =
      (given.zipIdx.map Prod.fst).filter fun row => (check row).isOk := by
    rw [List.filter_map]
    rfl
  rw [unskipped, filtered, firsts, List.zipIdx_map_fst]

/-- A check accepts all the rows that it did not report and keeps the same of them. -/
theorem rows_unskipped (check : FilterRow → Except SkipReason Kept) (given : List FilterRow) :
    rows check (unskipped given (rows check given).skipped) = ⟨(rows check given).kept, []⟩ := by
  have kept_same : (rows check (unskipped given (rows check given).skipped)).kept =
      (rows check given).kept := by
    rw [kept_rows, unskipped_rows, kept_rows, List.filterMap_filter]
    apply List.filterMap_congr
    intro row _
    cases check row <;> rfl
  have none_skipped : (rows check (unskipped given (rows check given).skipped)).skipped = [] := by
    rw [List.eq_nil_iff_forall_not_mem]
    intro skipped member
    obtain ⟨row, found, failed⟩ := (mem_skipped_iff check _ skipped).mp member
    have row_member := List.mem_of_getElem? found
    rw [unskipped_rows] at row_member
    have accepted := List.of_mem_filter row_member
    rw [failed] at accepted
    cases accepted
  rw [← kept_same, ← none_skipped]

/-- Every row is either reported or not. -/
theorem length_unskipped (check : FilterRow → Except SkipReason Kept) (given : List FilterRow) :
    (unskipped given (rows check given).skipped).length + (rows check given).skipped.length =
      given.length := by
  have accepted : (unskipped given (rows check given).skipped).length =
      (rows check given).kept.length := by
    have counted := length_rowsFrom check 0 (unskipped given (rows check given).skipped)
    have sifted := rows_unskipped check given
    rw [rows] at sifted
    rw [sifted] at counted
    exact counted.symm
  rw [accepted]
  exact length_rowsFrom check 0 given

/-- There are as many conditions as rows that are not reported. -/
theorem length_conditions {check : FilterRow → Except SkipReason Kept} {given : List FilterRow}
    {conditions : List Condition}
    (amounts : (unskipped given (rows check given).skipped).map FilterRow.condition? =
      conditions.map .ok) :
    conditions.length + (rows check given).skipped.length = given.length := by
  have counted := congrArg List.length amounts
  rw [List.length_map, List.length_map] at counted
  rw [← counted]
  exact length_unskipped check given

/-- A reported row counts for nothing among the others. -/
theorem kept_rows_eraseIdx {check : FilterRow → Except SkipReason Kept} {given : List FilterRow}
    {skipped : SkippedRow} (member : skipped ∈ (rows check given).skipped) :
    (rows check (given.eraseIdx skipped.index)).kept = (rows check given).kept := by
  obtain ⟨row, found, failed⟩ := (mem_skipped_iff check given skipped).mp member
  obtain ⟨bound, row_eq⟩ := List.getElem?_eq_some_iff.mp found
  have given_eq : given.take skipped.index ++ row :: given.drop (skipped.index + 1) = given := by
    rw [← row_eq, List.getElem_cons_drop, List.take_append_drop]
  rw [kept_rows, kept_rows, List.eraseIdx_eq_take_drop_succ]
  conv_rhs => rw [← given_eq]
  rw [List.filterMap_append, List.filterMap_append,
    List.filterMap_cons_none (by rw [failed]; rfl)]

/-- If a check accepts only rows that amount to a condition and keeps what is compiled from it, then
the rows that are not reported amount to conditions, and these are what the kept ones are compiled
from, one for one. -/
theorem exists_conditions {Compiled : Type} {check : FilterRow → Except SkipReason Kept}
    {result : Kept → Compiled} {compile : Condition → Compiled}
    (compiles : ∀ row kept, check row = .ok kept →
      ∃ condition, row.condition? = .ok condition ∧ result kept = compile condition)
    (given : List FilterRow) :
    ∃ conditions : List Condition,
      (unskipped given (rows check given).skipped).map FilterRow.condition? =
          conditions.map .ok ∧
        (rows check given).kept.map result = conditions.map compile := by
  rw [unskipped_rows, kept_rows]
  induction given with
  | nil => exact ⟨[], rfl, rfl⟩
  | cons row rest ih =>
      obtain ⟨conditions, amounts, compiled⟩ := ih
      cases checked : check row with
      | error reason =>
          refine ⟨conditions, ?_, ?_⟩
          · rw [List.filter_cons_of_neg (by rw [checked]; exact nofun), amounts]
          · rw [List.filterMap_cons_none (by rw [checked]; rfl), compiled]
      | ok kept =>
          obtain ⟨condition, amount, same⟩ := compiles row kept checked
          refine ⟨condition :: conditions, ?_, ?_⟩
          · rw [List.filter_cons_of_pos (by rw [checked]; rfl), List.map_cons, List.map_cons,
              amount, amounts]
          · rw [List.filterMap_cons_some (by rw [checked]; rfl), List.map_cons, List.map_cons, same,
              compiled]

end Sifted

end EntitySearch
