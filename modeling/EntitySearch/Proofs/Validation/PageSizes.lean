import EntitySearch.Proofs.Number.NumeralText
import EntitySearch.Proofs.Number.Truncation
import EntitySearch.Proofs.Repetition
import EntitySearch.Proofs.Validation.Places

/-!
# Page sizes

A page size that is configured is offered if its whole part, as far as words go, is one at least.
The report names every other one. The selector and the report each have a test of their own; the
two agree since both look at the number without its fraction.
-/

namespace EntitySearch

namespace PageSizeOption

/-- The entry of a page size of one row or more, with the page size as its value. -/
def IsSized (option : PageSizeOption) : Prop :=
  ∃ size, 1 ≤ size ∧ option.pageSize = some size ∧ option.value = Text.natText size

/-- The entry for all rows. -/
def IsAll (option : PageSizeOption) : Prop :=
  option.pageSize = none ∧ option.value = allValue

/-- One of the entries has the whole part of a number as its page size. -/
def Offers (options : List PageSizeOption) (size : Double) : Prop :=
  ∃ option ∈ options, option.pageSize ≠ none ∧ option.pageSize = size.cappedPart?

instance (options : List PageSizeOption) (size : Double) : Decidable (Offers options size) :=
  inferInstanceAs
    (Decidable (∃ option ∈ options, option.pageSize ≠ none ∧ option.pageSize = size.cappedPart?))

/-- The entries are those of the whole parts of configured numbers, each at its first occurrence,
and at the end there may be one for all rows. -/
structure IsSelector (sizes : List Double) (options : List PageSizeOption) : Prop where
  values_nodup : (options.map (·.value)).Nodup
  shape : ∃ (sized : List PageSizeOption) (all : Option PageSizeOption),
    options = sized ++ all.toList ∧ (∀ option ∈ sized, option.IsSized) ∧
      ∀ option ∈ all, option.IsAll
  pageSizes_eq : options.filterMap (·.pageSize) =
    ((sizes.filterMap Double.cappedPart?).filter (1 ≤ ·)).eraseDups

/-! ## What the selector and the report test -/

/-- A number is of use if its whole part is one at least. -/
theorem usableSize?_eq (size : Double) :
    usableSize? size = size.cappedPart?.filter (1 ≤ ·) := by
  rw [usableSize?, Double.not_isFinite_or_isBelow_one_eq]
  cases capped : size.cappedPart? with
  | none => rfl
  | some part =>
      rw [Double.toWord_of_cappedPart? capped, Option.any_some, Option.filter_some]
      by_cases positive : 1 ≤ part <;> simp [positive]

/-! ## The selector -/

theorem natText_ne_allValue (size : Nat) : Text.natText size ≠ allValue := by
  intro same
  have digit : ('_').isDigit = true := by
    apply ((Text.isDigits_iff _).mp (Text.isDigits_natDigits size)).2
    rw [← String.toList_ofList (l := Text.natDigits size), ← Text.natText, same]
    decide
  exact absurd digit (by decide)

/-- The entry for all rows, if there is one. -/
theorem exists_ofAllLabel (label : Option String) :
    ∃ all : Option PageSizeOption,
      ofAllLabel label = all.toList ∧ ∀ option ∈ all, option.IsAll := by
  rw [ofAllLabel]
  cases Text.nonBlank? label with
  | none =>
      refine ⟨none, rfl, ?_⟩
      rintro _ ⟨⟩
  | some label =>
      refine ⟨some ⟨allValue, Text.trim label, none⟩, rfl, ?_⟩
      intro option member
      obtain rfl := Option.some.inj member
      exact ⟨rfl, rfl⟩

theorem isSelector_ofSizes (sizes : List Double) (label : Option String) :
    IsSelector sizes
      ((Gathered.ofList (sizes.filterMap usableSize?)).map ofSize ++ ofAllLabel label) := by
  have usable_eq : sizes.filterMap usableSize? =
      (sizes.filterMap Double.cappedPart?).filter (1 ≤ ·) := by
    rw [List.filter_filterMap]
    exact List.filterMap_congr fun size _ => usableSize?_eq size
  obtain ⟨all, all_eq, is_all⟩ := exists_ofAllLabel label
  rw [Gathered.ofList_eq_eraseDups, usable_eq, all_eq]
  generalize parts_eq : (sizes.filterMap Double.cappedPart?).filter (1 ≤ ·) = parts
  have positive : ∀ part ∈ parts.eraseDups, 1 ≤ part := by
    intro part member
    rw [List.mem_eraseDups, ← parts_eq] at member
    simpa using List.of_mem_filter member
  refine ⟨?_, ⟨parts.eraseDups.map ofSize, all, rfl, ?_, is_all⟩, ?_⟩
  · have values_eq : (parts.eraseDups.map ofSize).map (·.value) =
        parts.eraseDups.map Text.natText := by
      rw [List.map_map]
      rfl
    have sized_nodup := (nodup_eraseDups parts).map Text.natText_injective
    rw [List.map_append, values_eq]
    cases all with
    | none => rwa [Option.toList_none, List.map_nil, List.append_nil]
    | some option =>
        rw [Option.toList_some, List.map_singleton, (is_all option rfl).2, ← List.concat_eq_append]
        apply sized_nodup.concat
        intro member
        obtain ⟨part, _, same⟩ := List.mem_map.mp member
        exact natText_ne_allValue part same
  · intro option member
    obtain ⟨part, part_member, rfl⟩ := List.mem_map.mp member
    exact ⟨part, positive part part_member, rfl, rfl⟩
  · have no_size : all.toList.filterMap (·.pageSize) = [] := by
      cases all with
      | none => rfl
      | some option => simp [(is_all option rfl).1]
    rw [List.filterMap_append, no_size, List.append_nil, List.filterMap_map, parts_eq]
    exact List.filterMap_some

/-- A number is offered exactly if it is of use. -/
theorem IsSelector.offers_iff {sizes : List Double} {options : List PageSizeOption}
    (selector : IsSelector sizes options) {size : Double} (member : size ∈ sizes) :
    Offers options size ↔ (usableSize? size).isSome := by
  have offered_iff (part : Nat) : (∃ option ∈ options, option.pageSize = some part) ↔
      part ∈ sizes.filterMap Double.cappedPart? ∧ 1 ≤ part := by
    rw [← List.mem_filterMap, selector.pageSizes_eq, List.mem_eraseDups, List.mem_filter,
      decide_eq_true_eq]
  rw [usableSize?_eq, Offers]
  cases capped : size.cappedPart? with
  | none => simp
  | some part =>
      have part_member : part ∈ sizes.filterMap Double.cappedPart? :=
        List.mem_filterMap.mpr ⟨size, member, capped⟩
      have present : ∀ option : PageSizeOption,
          option.pageSize ≠ none ∧ option.pageSize = some part ↔ option.pageSize = some part := by
        intro option
        exact and_iff_right_of_imp fun same => same ▸ Option.some_ne_none part
      simp only [present, offered_iff, part_member, true_and]
      by_cases positive : 1 ≤ part <;> simp [positive]

/-- The entries for a scheme are a selector of its configured page sizes. -/
theorem isSelector_ofScheme (scheme : EntityScheme) :
    IsSelector (Fault.pageSizes scheme) (ofScheme scheme.resultView.paging) := by
  rw [Fault.pageSizes]
  cases scheme.resultView.paging with
  | none =>
      refine ⟨List.nodup_nil, ⟨[], none, rfl, List.forall_mem_nil IsSized, ?_⟩, rfl⟩
      rintro _ ⟨⟩
  | some paging => exact isSelector_ofSizes (paging.sizes.getD []) paging.allLabel

end PageSizeOption

/-! ## The report -/

namespace Fault

/-- The report names exactly the numbers that are of no use. -/
theorem ofPageSize?_eq (size : Double) :
    ofPageSize? size =
      if (PageSizeOption.usableSize? size).isSome then none else some (pageSize size) := by
  rw [ofPageSize?, PageSizeOption.usableSize?]
  cases ! size.isFinite || size.truncated.isBelow .one <;> rfl

/-- Different numbers are different problems. -/
theorem problem_pageSize_injective (entity : String) :
    Function.Injective fun size => (pageSize size).problem entity := by
  intro first second same
  have message_eq : "page size " ++ first.signedNumeral ++ " is not a positive number" =
      "page size " ++ second.signedNumeral ++ " is not a positive number" :=
    congrArg Problem.message same
  apply Double.signedNumeral_injective
  simpa [← String.toList_inj] using message_eq

end Fault

namespace EntityScheme

open Fault PageSizeOption

/-- What a report says about the place of page sizes are the faults of the page sizes. -/
theorem about_pageSizes (scheme : EntityScheme) :
    scheme.report.about (scheme.reportName ++ ".Pagination.List") =
      ((pageSizes scheme).filterMap ofPageSize?).map (problem scheme.reportName) := by
  have not_name : scheme.reportName ++ ".Pagination.List" ≠ "LogicalName" := by
    intro same
    have point := congrArg (fun text => '.' ∈ text.toList) same
    simp at point
  have option_part : ((scheme.filterOptions.mapIdx ofOption?).filterMap id).filter
      (·.field scheme.reportName == scheme.reportName ++ ".Pagination.List") = [] := by
    apply filter_field_eq_nil
    intro fault member
    obtain ⟨index, option, faulty⟩ := exists_part_of_mem member
    rw [field_of_ofOption? scheme.reportName faulty]
    exact (optionField_apart scheme.reportName index).2
  have column_part : ((scheme.resultView.columns.mapIdx ofColumn?).filterMap id).filter
      (·.field scheme.reportName == scheme.reportName ++ ".Pagination.List") = [] := by
    apply filter_field_eq_nil
    intro fault member
    obtain ⟨index, column, faulty⟩ := exists_part_of_mem member
    rw [field_of_ofColumn? scheme.reportName faulty]
    exact (columnField_apart scheme.reportName index).2
  have paging_part : ((pageSizes scheme).filterMap ofPageSize?).filter
      (·.field scheme.reportName == scheme.reportName ++ ".Pagination.List") =
        (pageSizes scheme).filterMap ofPageSize? := by
    rw [List.filter_eq_self]
    intro fault member
    obtain ⟨size, _, faulty⟩ := List.mem_filterMap.mp member
    rw [field_of_ofPageSize? scheme.reportName faulty, beq_self_eq_true]
  rw [about_of_ne_name scheme not_name, option_part, column_part, paging_part, List.nil_append,
    List.nil_append]

/-- The entries of the page size selector are those of the whole parts of the configured page sizes.
The report has a problem with exactly those page sizes that are not offered, each as often as it is
configured. -/
theorem pageSizes_offered_iff_unreported (scheme : EntityScheme) :
    let sizes := pageSizes scheme
    let options := ofScheme scheme.resultView.paging
    let problem := fun size => (Fault.pageSize size).problem scheme.reportName
    IsSelector sizes options ∧
      (∀ size ∈ sizes, Offers options size ↔ problem size ∉ scheme.report) ∧
      scheme.report.about (scheme.reportName ++ ".Pagination.List") =
        (sizes.filter fun size => ¬ Offers options size).map problem := by
  intro sizes options problem
  have selector := isSelector_ofScheme scheme
  have about_eq : scheme.report.about (scheme.reportName ++ ".Pagination.List") =
      (sizes.filter fun size => ¬ Offers options size).map problem := by
    have faults_eq : sizes.filterMap ofPageSize? =
        (sizes.filter fun size => ¬ Offers options size).map Fault.pageSize := by
      rw [← List.filterMap_eq_filter, List.map_filterMap]
      apply List.filterMap_congr
      intro size member
      rw [ofPageSize?_eq]
      by_cases offered : Offers options size
      · rw [if_pos ((selector.offers_iff member).mp offered)]
        simp [offered]
      · rw [if_neg fun useful => offered ((selector.offers_iff member).mpr useful)]
        simp [offered]
    rw [about_pageSizes, faults_eq, List.map_map]
    rfl
  refine ⟨selector, ?_, about_eq⟩
  intro size member
  have reported_iff : problem size ∈ scheme.report ↔
      problem size ∈ scheme.report.about (scheme.reportName ++ ".Pagination.List") := by
    rw [Report.about, List.mem_filter]
    exact (and_iff_left (beq_self_eq_true _)).symm
  rw [reported_iff, about_eq, List.mem_map_of_injective (problem_pageSize_injective _),
    List.mem_filter]
  simp [member]

/-- Sizes are compared without their fractions, and those beyond words are the greatest word. -/
example :
    let sizes : List Double :=
      [.nearest false (Nat.pow 10 30) 1, .nearest false 257 10, .nearest false 255 10,
        .nearest false 1 2, .nan]
    (ofScheme (some ⟨some sizes, some "All", none⟩)).map (·.value) =
      ["18446744073709551615", "25", "__all__"] := by
  decide +kernel

end EntityScheme

end EntitySearch
