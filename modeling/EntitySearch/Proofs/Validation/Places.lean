import EntitySearch.Validation
import EntitySearch.Proofs.Number.Numeral

/-!
# Places in reports

A problem names the place that it is about. The filter options and table columns of an entity have
places of their own, so what a report says about the place of one of them is its fault and nothing
else.
-/

namespace EntitySearch

/-- What a report says about a place. -/
def Report.about (report : Report) (field : String) : Report :=
  report.filter (·.field == field)

namespace Fault

/-- The place of a fault. -/
def field (entity : String) (fault : Fault) : String :=
  (fault.problem entity).field

/-! ## Different places -/

theorem optionField_injective (entity : String) : Function.Injective (optionField entity) := by
  intro first second same
  apply Text.natText_injective
  simpa [optionField, ← String.toList_inj] using same

theorem columnField_injective (entity : String) : Function.Injective (columnField entity) := by
  intro first second same
  apply Text.natText_injective
  simpa [columnField, ← String.toList_inj] using same

theorem optionField_ne_columnField (entity : String) (index other : Nat) :
    optionField entity index ≠ columnField entity other := by
  simp [optionField, columnField, ← String.toList_inj]

/-- No filter option has the place of an entity's name or of its page sizes. -/
theorem optionField_apart (entity : String) (index : Nat) :
    optionField entity index ≠ "LogicalName" ∧
      optionField entity index ≠ entity ++ ".Pagination.List" := by
  constructor
  · intro same
    have bracket := congrArg (fun text => '[' ∈ text.toList) same
    simp [optionField] at bracket
  · simp [optionField, ← String.toList_inj]

/-- No table column has the place of an entity's name or of its page sizes. -/
theorem columnField_apart (entity : String) (index : Nat) :
    columnField entity index ≠ "LogicalName" ∧
      columnField entity index ≠ entity ++ ".Pagination.List" := by
  constructor
  · intro same
    have bracket := congrArg (fun text => '[' ∈ text.toList) same
    simp [columnField] at bracket
  · simp [columnField, ← String.toList_inj]

theorem field_of_ofOption? (entity : String) {index : Nat} {option : FilterOption} {fault : Fault}
    (faulty : ofOption? index option = some fault) :
    fault.field entity = optionField entity index := by
  rw [ofOption?] at faulty
  split_ifs at faulty <;> (obtain rfl := Option.some.inj faulty; rfl)

theorem field_of_ofColumn? (entity : String) {index : Nat} {column : TableColumn} {fault : Fault}
    (faulty : ofColumn? index column = some fault) :
    fault.field entity = columnField entity index := by
  rw [ofColumn?] at faulty
  split_ifs at faulty <;> (obtain rfl := Option.some.inj faulty; rfl)

theorem field_of_ofPageSize? (entity : String) {size : Double} {fault : Fault}
    (faulty : ofPageSize? size = some fault) :
    fault.field entity = entity ++ ".Pagination.List" := by
  rw [ofPageSize?] at faulty
  split_ifs at faulty
  obtain rfl := Option.some.inj faulty
  rfl

/-! ## The faults of listed parts -/

section Parts

variable {Part : Type} {check : Nat → Part → Option Fault}

theorem exists_part_of_mem {parts : List Part} {fault : Fault}
    (member : fault ∈ (parts.mapIdx check).filterMap id) :
    ∃ index part, check index part = some fault := by
  obtain ⟨checked, checked_member, faulty⟩ := List.mem_filterMap.mp member
  obtain ⟨index, bound, rfl⟩ := List.mem_mapIdx.mp checked_member
  exact ⟨index, parts[index], faulty⟩

theorem filter_field_eq_nil {entity field : String} {faults : List Fault}
    (elsewhere : ∀ fault ∈ faults, fault.field entity ≠ field) :
    faults.filter (·.field entity == field) = [] := by
  simpa [List.filter_eq_nil_iff] using elsewhere

/-- Among the faults of listed parts, those at the place of one part are the fault of that part. -/
theorem filter_field_mapIdx {entity : String} {place : Nat → String}
    (different : Function.Injective place)
    (placed : ∀ index part fault, check index part = some fault →
      fault.field entity = place index) (parts : List Part) (index : Nat) :
    ((parts.mapIdx check).filterMap id).filter (·.field entity == place index) =
      (parts[index]?.bind (check index)).toList := by
  induction parts generalizing place check index with
  | nil => simp
  | cons part rest ih =>
      have later_placed : ∀ later part fault, check (later + 1) part = some fault →
          fault.field entity = place (later + 1) :=
        fun later => placed (later + 1)
      have later_different : Function.Injective fun later => place (later + 1) :=
        fun _ _ same => Nat.succ.inj (different same)
      rw [List.mapIdx_cons]
      cases index with
      | zero =>
          have none_later : ((rest.mapIdx fun later => check (later + 1)).filterMap id).filter
              (·.field entity == place 0) = [] := by
            apply filter_field_eq_nil
            intro fault member
            obtain ⟨later, other, faulty⟩ := exists_part_of_mem member
            rw [later_placed later other fault faulty]
            exact fun same => Nat.succ_ne_zero later (different same)
          cases faulty : check 0 part with
          | none =>
              rw [List.filterMap_cons_none rfl, none_later]
              simp [faulty]
          | some fault =>
              have first : fault.field entity = place 0 := placed 0 part fault faulty
              rw [List.filterMap_cons_some (id_eq (some fault)),
                List.filter_cons_of_pos (by simp [first]), none_later]
              simp [faulty]
      | succ index =>
          have found := ih later_different later_placed index
          cases faulty : check 0 part with
          | none =>
              rw [List.filterMap_cons_none rfl, found]
              simp
          | some fault =>
              have first : fault.field entity ≠ place (index + 1) := by
                rw [placed 0 part fault faulty]
                exact fun same => Nat.succ_ne_zero index (different same).symm
              rw [List.filterMap_cons_some (id_eq (some fault)),
                List.filter_cons_of_neg (by simp [first]), found]
              simp

end Parts

end Fault

namespace EntityScheme

open Fault

/-- What a report says about a place other than that of the entity's name. -/
theorem about_of_ne_name (scheme : EntityScheme) {place : String} (not_name : place ≠ "LogicalName") :
    scheme.report.about place =
      (((scheme.filterOptions.mapIdx ofOption?).filterMap id).filter
          (·.field scheme.reportName == place) ++
        ((scheme.resultView.columns.mapIdx ofColumn?).filterMap id).filter
          (·.field scheme.reportName == place) ++
        ((pageSizes scheme).filterMap ofPageSize?).filter
          (·.field scheme.reportName == place)).map (problem scheme.reportName) := by
  have name_part : (if Text.isBlank scheme.logicalName then [unnamedEntity] else []).filter
      (·.field scheme.reportName == place) = [] := by
    apply filter_field_eq_nil
    intro fault member
    split_ifs at member
    · obtain rfl := List.mem_singleton.mp member
      exact not_name.symm
    · cases member
  have report_eq : scheme.report.about place =
      ((ofEntity scheme).filter (·.field scheme.reportName == place)).map
        (problem scheme.reportName) := by
    rw [report, Report.about, List.filter_map]
    rfl
  rw [report_eq, ofEntity, List.filter_append, List.filter_append, List.filter_append, name_part,
    List.nil_append]

/-- What a report says about a place other than those of the entity's name and its page sizes. -/
theorem about_report (scheme : EntityScheme) {place : String}
    (apart : place ≠ "LogicalName" ∧ place ≠ scheme.reportName ++ ".Pagination.List") :
    scheme.report.about place =
      (((scheme.filterOptions.mapIdx ofOption?).filterMap id).filter
          (·.field scheme.reportName == place) ++
        ((scheme.resultView.columns.mapIdx ofColumn?).filterMap id).filter
          (·.field scheme.reportName == place)).map (problem scheme.reportName) := by
  obtain ⟨not_name, not_paging⟩ := apart
  have paging_part : ((pageSizes scheme).filterMap ofPageSize?).filter
      (·.field scheme.reportName == place) = [] := by
    apply filter_field_eq_nil
    intro fault member
    obtain ⟨size, _, faulty⟩ := List.mem_filterMap.mp member
    rw [field_of_ofPageSize? scheme.reportName faulty]
    exact not_paging.symm
  rw [about_of_ne_name scheme not_name, paging_part, List.append_nil]

/-- What a report says about the place of a filter option is the fault of the option. -/
theorem about_optionField (scheme : EntityScheme) (index : Nat) :
    scheme.report.about (optionField scheme.reportName index) =
      (scheme.filterOptions[index]?.bind (ofOption? index)).toList.map
        (problem scheme.reportName) := by
  have no_column : ((scheme.resultView.columns.mapIdx ofColumn?).filterMap id).filter
      (·.field scheme.reportName == optionField scheme.reportName index) = [] := by
    apply filter_field_eq_nil
    intro fault member
    obtain ⟨other, column, faulty⟩ := exists_part_of_mem member
    rw [field_of_ofColumn? scheme.reportName faulty]
    exact (optionField_ne_columnField scheme.reportName index other).symm
  rw [about_report scheme (optionField_apart scheme.reportName index), no_column, List.append_nil,
    filter_field_mapIdx (optionField_injective scheme.reportName)
      fun _ _ _ => field_of_ofOption? scheme.reportName]

/-- What a report says about the place of a table column is the fault of the column. -/
theorem about_columnField (scheme : EntityScheme) (index : Nat) :
    scheme.report.about (columnField scheme.reportName index) =
      (scheme.resultView.columns[index]?.bind (ofColumn? index)).toList.map
        (problem scheme.reportName) := by
  have no_option : ((scheme.filterOptions.mapIdx ofOption?).filterMap id).filter
      (·.field scheme.reportName == columnField scheme.reportName index) = [] := by
    apply filter_field_eq_nil
    intro fault member
    obtain ⟨other, option, faulty⟩ := exists_part_of_mem member
    rw [field_of_ofOption? scheme.reportName faulty]
    exact optionField_ne_columnField scheme.reportName other index
  rw [about_report scheme (columnField_apart scheme.reportName index), no_option, List.nil_append,
    filter_field_mapIdx (columnField_injective scheme.reportName)
      fun _ _ _ => field_of_ofColumn? scheme.reportName]

end EntityScheme

end EntitySearch
