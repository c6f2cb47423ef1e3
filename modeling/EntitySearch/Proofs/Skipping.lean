import EntitySearch.Proofs.Planning

/-!
# Skipped rows

Both languages skip a row that amounts to no condition, and for the same reason. They differ on
conditions on other entities: OData skips all of them, FetchXML those without a complete join. What
is skipped leaves nothing in the query of the other rows.
-/

namespace EntitySearch

open FetchXml (placedCriterion?)
open OData (NamesPlainly expression?)

/-! ## Two languages -/

/-- A row that FetchXML refuses for its join is refused by OData for needing one, and for any other
reason both refuse it. -/
theorem expression?_eq_error_of_placedCriterion? (zone : TimeZone) (entity : String)
    {row : FilterRow} {reason : SkipReason} (refused : placedCriterion? row = .error reason) :
    expression? zone entity row =
      .error (if reason = .incompleteJoin then .needsJoin else reason) := by
  rw [placedCriterion?] at refused
  rw [expression?]
  cases checked : row.condition? with
  | error other =>
      rw [checked] at refused
      obtain rfl := Except.error.inj refused
      rw [if_neg (FilterRow.reason_ne_of_condition? checked).2]
  | ok condition =>
      rw [checked] at refused
      dsimp only at refused ⊢
      have related : condition.isRelated entity = true := by
        by_contra unrelated
        rw [Bool.not_eq_true] at unrelated
        rw [SearchPlan.joinPath?_of_not_isRelated unrelated] at refused
        cases refused
      rw [if_pos related]
      cases joined : condition.option.joinPath? with
      | some path => rw [joined] at refused; cases refused
      | none =>
          rw [joined] at refused
          obtain rfl := Except.error.inj refused
          rw [if_pos rfl]

/-- A row that OData refuses, but not for needing a join, is refused by FetchXML as well. -/
theorem placedCriterion?_eq_error_of_expression? {zone : TimeZone} {entity : String}
    {row : FilterRow} {reason : SkipReason} (refused : expression? zone entity row = .error reason)
    (reason_ne : reason ≠ .needsJoin) : placedCriterion? row = .error reason := by
  rw [expression?] at refused
  rw [placedCriterion?]
  cases checked : row.condition? with
  | error other =>
      rw [checked] at refused
      obtain rfl := Except.error.inj refused
      rfl
  | ok condition =>
      rw [checked] at refused
      dsimp only at refused
      split_ifs at refused
      obtain rfl := Except.error.inj refused
      exact absurd rfl reason_ne

/-- What FetchXML skips for another reason than an incomplete join, OData skips for this reason, and
what OData skips for another reason than a join, FetchXML skips for this reason; a row with an
incomplete join needs a join in OData. Both report the rows in their order, and the texts hold the
conditions of the rows that are not reported, each once: as many conditions are read in a text as
there are such rows, in the text of a filter if its names are words. -/
theorem skipped_ofRows_agree (zone : TimeZone) (entity : String) (rows : List FilterRow)
    (columns : List Column) (page : Option FetchXml.Page) (select : List String) :
    let filter := OData.Filter.ofRows zone entity rows
    let query := FetchXml.Query.ofRows entity rows columns page
    (∀ skipped ∈ query.skipped, skipped.reason ≠ .incompleteJoin → skipped ∈ filter.skipped) ∧
      (∀ skipped ∈ filter.skipped, skipped.reason ≠ .needsJoin → skipped ∈ query.skipped) ∧
      (∀ skipped ∈ query.skipped, skipped.reason = .incompleteJoin →
        ⟨skipped.index, .needsJoin⟩ ∈ filter.skipped) ∧
      query.skipped.Pairwise (fun left right => left.index < right.index) ∧
      filter.skipped.Pairwise (fun left right => left.index < right.index) ∧
      (PlannedQuery.fetchXml query.text).IsCompiledFrom zone rows query.skipped ∧
      (PlannedQuery.odata select filter.text).IsCompiledFrom zone rows filter.skipped ∧
      (∃ count, (PlannedQuery.fetchXml query.text).count? = some count ∧
        count + query.skipped.length = rows.length) ∧
      ((∀ row ∈ rows, NamesPlainly row) →
        ∃ count, (PlannedQuery.odata select filter.text).count? = some count ∧
          count + filter.skipped.length = rows.length) := by
  intro filter query
  have filter_skipped : filter.skipped = (Sifted.rows (expression? zone entity) rows).skipped := rfl
  have query_skipped : query.skipped = (Sifted.rows placedCriterion? rows).skipped := rfl
  have found_in_filter (skipped : SkippedRow) (member : skipped ∈ query.skipped) :
      ⟨skipped.index, if skipped.reason = .incompleteJoin then .needsJoin else skipped.reason⟩ ∈
        filter.skipped := by
    obtain ⟨row, found, refused⟩ := (Sifted.mem_skipped_iff _ rows skipped).mp member
    exact (Sifted.mem_skipped_iff _ rows _).mpr
      ⟨row, found, expression?_eq_error_of_placedCriterion? zone entity refused⟩
  have query_compiled : (PlannedQuery.fetchXml query.text).IsCompiledFrom zone rows query.skipped :=
    PlannedQuery.isCompiledFrom_ofRows_fetchXml zone entity rows columns page
  have filter_compiled :
      (PlannedQuery.odata select filter.text).IsCompiledFrom zone rows filter.skipped :=
    PlannedQuery.isCompiledFrom_ofRows_odata zone entity rows select
  refine ⟨?_, ?_, ?_, ?_, ?_, query_compiled, filter_compiled, ?_, ?_⟩
  · intro skipped member reason_ne
    have found := found_in_filter skipped member
    rwa [if_neg reason_ne] at found
  · intro skipped member reason_ne
    obtain ⟨row, found, refused⟩ := (Sifted.mem_skipped_iff _ rows skipped).mp member
    exact (Sifted.mem_skipped_iff _ rows skipped).mpr
      ⟨row, found, placedCriterion?_eq_error_of_expression? refused reason_ne⟩
  · intro skipped member reason_eq
    have found := found_in_filter skipped member
    rwa [if_pos reason_eq] at found
  · exact Sifted.pairwise_index_skipped placedCriterion? rows
  · exact Sifted.pairwise_index_skipped (expression? zone entity) rows
  · exact PlannedQuery.exists_count?_of_isCompiledFrom_fetchXml query_compiled
  · exact PlannedQuery.exists_count?_of_isCompiledFrom_odata filter_compiled

/-- A row with an incomplete join, switched off and on, and a row that is compiled. -/
theorem skipped_ofRows_agree_incomplete :
    let near : FilterLink := { FilterLink.none with fromAttribute := some "primarycontactid" }
    let far : FilterLink :=
      { FilterLink.ofAttribute "fullname" "String" with entityName := some "contact" }
    let row : FilterRow := .ofParts ⟨[near], far⟩ (.state .notNull) []
    let name : FilterRow :=
      .ofParts (.single (.ofAttribute "name" "String")) (.compare (.relation .eq)) [.text "A"]
    let rows := [row.switchedOff, row, name]
    let filter := OData.Filter.ofRows .utc "account" rows
    let query := FetchXml.Query.ofRows "account" rows [] none
    query.skipped = [⟨0, .disabled⟩, ⟨1, .incompleteJoin⟩] ∧
      ⟨0, .disabled⟩ ∈ filter.skipped ∧ ⟨1, .needsJoin⟩ ∈ filter.skipped ∧
      (PlannedQuery.fetchXml query.text).count? = some 1 ∧
      (PlannedQuery.odata [] filter.text).count? = some 1 := by
  intro near far row name rows filter query
  have query_skipped : query.skipped = [⟨0, .disabled⟩, ⟨1, .incompleteJoin⟩] := by decide
  have filter_skipped : filter.skipped = [⟨0, .disabled⟩, ⟨1, .needsJoin⟩] := by decide
  have plain : ∀ given ∈ rows, NamesPlainly given := by
    simp only [rows, List.forall_mem_cons]
    refine ⟨?_, ?_, ?_, List.forall_mem_nil _⟩
    all_goals exact OData.namesPlainly_of_isWord rfl rfl (by decide)
  obtain ⟨same, _, incomplete, _, _, _, _, in_query, in_filter⟩ :=
    skipped_ofRows_agree .utc "account" rows [] none []
  obtain ⟨query_count, query_read, query_sum⟩ := in_query
  obtain ⟨filter_count, filter_read, filter_sum⟩ := in_filter plain
  rw [show (FetchXml.Query.ofRows "account" rows [] none).skipped = _ from query_skipped]
    at query_sum
  rw [show (OData.Filter.ofRows .utc "account" rows).skipped = _ from filter_skipped]
    at filter_sum
  refine ⟨query_skipped, ?_, ?_, ?_, ?_⟩
  · exact same ⟨0, .disabled⟩ (by rw [query_skipped]; simp) nofun
  · exact incomplete ⟨1, .incompleteJoin⟩ (by rw [query_skipped]; simp) rfl
  · obtain rfl : query_count = 1 := Nat.add_right_cancel query_sum
    exact query_read
  · obtain rfl : filter_count = 1 := Nat.add_right_cancel filter_sum
    exact filter_read

/-! ## Without the skipped rows -/

/-- A query does not change when the rows that it skips are left out, one of them or all. In
particular a row whose joins are complete up to one that is not leaves none of them in it. -/
theorem ofRows_unskipped (zone : TimeZone) (entity : String) (rows : List FilterRow)
    (columns : List Column) (page : Option FetchXml.Page) :
    let filter := OData.Filter.ofRows zone entity rows
    let query := FetchXml.Query.ofRows entity rows columns page
    OData.Filter.ofRows zone entity (Sifted.unskipped rows filter.skipped) = ⟨filter.text, []⟩ ∧
      FetchXml.Query.ofRows entity (Sifted.unskipped rows query.skipped) columns page =
        ⟨query.document, []⟩ ∧
      (∀ skipped ∈ filter.skipped,
        (OData.Filter.ofRows zone entity (rows.eraseIdx skipped.index)).text = filter.text) ∧
      ∀ skipped ∈ query.skipped,
        (FetchXml.Query.ofRows entity (rows.eraseIdx skipped.index) columns page).document =
          query.document := by
  intro filter query
  refine ⟨?_, ?_, ?_, ?_⟩
  · dsimp only [filter, OData.Filter.ofRows]
    rw [Sifted.rows_unskipped]
  · dsimp only [query, FetchXml.Query.ofRows]
    rw [Sifted.rows_unskipped]
  · intro skipped member
    dsimp only [filter, OData.Filter.ofRows]
    rw [Sifted.kept_rows_eraseIdx member]
  · intro skipped member
    dsimp only [query, FetchXml.Query.ofRows]
    rw [Sifted.kept_rows_eraseIdx member]

/-- A row with a complete join before an incomplete one, between two rows that are compiled. -/
theorem ofRows_unskipped_incomplete :
    let name : FilterRow :=
      .ofParts (.single (.ofAttribute "name" "String")) (.compare (.relation .eq)) [.text "A"]
    let near : FilterLink := { FilterLink.none with fromAttribute := some "primarycontactid" }
    let middle : FilterLink :=
      { FilterLink.none with
        entityName := some "contact", toAttribute := some "contactid"
        fromAttribute := some "owninguser" }
    let far : FilterLink :=
      { FilterLink.ofAttribute "fullname" "String" with entityName := some "systemuser" }
    let row : FilterRow := .ofParts ⟨[near, middle], far⟩ (.state .notNull) []
    let query rows := FetchXml.Query.ofRows "account" rows [] none
    (query [name, row, name]).skipped = [⟨1, .incompleteJoin⟩] ∧
      (query [name, name]).text = (query [name, row, name]).text := by
  intro name near middle far row query
  have skipped_eq : (query [name, row, name]).skipped = [⟨1, .incompleteJoin⟩] := by decide
  obtain ⟨_, _, _, same⟩ := ofRows_unskipped .utc "account" [name, row, name] [] none
  have document_eq := same ⟨1, .incompleteJoin⟩ (by rw [skipped_eq]; simp)
  exact ⟨skipped_eq, congrArg FetchXml.Document.text document_eq⟩

end EntitySearch
