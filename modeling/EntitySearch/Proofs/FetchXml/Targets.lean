import EntitySearch.Plan
import EntitySearch.Proofs.FetchXml.JoinTree
import EntitySearch.Proofs.FetchXml.Transcript
import EntitySearch.Proofs.JoinPaths

/-!
# The entities that conditions stand on

A condition is placed at the end of the join path of its option. If the option has joins, then this
is the entity that its target names. If it has none, then this is the searched entity, whatever the
target names.
-/

namespace EntitySearch

namespace FetchXml

/-- A document holds a condition on the entity at the end of a path. -/
def Document.HoldsAt (document : Document) (path : List Hop) (condition : Condition) : Prop :=
  ∃ node, document.scope.Reaches path node ∧ Criterion.ofCondition condition ∈ node.criteria

/-- The condition of a row is held at the end of the join path of its option. This is the entity
that the target of the option names exactly if the option has joins or the target names the searched
entity. -/
def Document.HoldsAtJoinPath (document : Document) (row : FilterRow) : Prop :=
  ∃ condition path, row.condition? = .ok condition ∧ condition.option.joinPath? = some path ∧
    document.HoldsAt path condition ∧
      ∀ target, Text.nonBlank? condition.option.target.entityName = some target →
        (Hop.entityAt document.entity path = target ↔
          1 < condition.option.length ∨ target = document.entity)

/-- In the text of a query on an entity the conditions of rows are read at the ends of the join paths
of their options. -/
def HoldsAtJoinPaths (entity : String) (rows : List FilterRow) (text : String) : Prop :=
  ∃ transcript, Transcript.read? text = some transcript ∧ transcript.entity = entity ∧
    ∀ row ∈ rows, transcript.document.HoldsAtJoinPath row

/-- The condition of a row is held on the entity that the target of its option names, if it names
one. -/
def Document.HoldsOnTarget (document : Document) (row : FilterRow) : Prop :=
  ∀ condition, row.condition? = .ok condition →
    ∀ target, Text.nonBlank? condition.option.target.entityName = some target →
      ∃ path, document.HoldsAt path condition ∧ Hop.entityAt document.entity path = target

/-- A row that is not left out amounts to a condition with a complete join path. -/
theorem exists_path_of_mem_unskipped {entity : String} {rows : List FilterRow}
    {columns : List Column} {page : Option Page} {row : FilterRow}
    (member : row ∈ Sifted.unskipped rows (Query.ofRows entity rows columns page).skipped) :
    row ∈ rows ∧ ∃ condition path, row.condition? = .ok condition ∧
      condition.option.joinPath? = some path := by
  have passing : row ∈ rows.filter fun row => (placedCriterion? row).isOk := by
    rw [← Sifted.unskipped_rows]
    exact member
  obtain ⟨row_member, passes⟩ := List.mem_filter.mp passing
  refine ⟨row_member, ?_⟩
  rw [placedCriterion?] at passes
  cases checked : row.condition? with
  | error reason => rw [checked] at passes; cases passes
  | ok condition =>
      rw [checked] at passes
      cases joined : condition.option.joinPath? with
      | none => simp only [joined] at passes; cases passes
      | some path => exact ⟨condition, path, rfl, joined⟩

theorem joinPath?_eq_nil_or_mem_joinPaths {rows : List FilterRow} (columns : List Column)
    {row : FilterRow} (member : row ∈ rows) {condition : Condition}
    (amounts : row.condition? = .ok condition) {path : List Hop}
    (complete : condition.option.joinPath? = some path) :
    path = [] ∨ path ∈ joinPaths rows columns := by
  by_cases chained : 1 < condition.option.length
  · have walked : chainedPath? row = some path := by
      rw [chainedPath?, amounts]
      dsimp only
      rw [if_pos chained, complete]
    exact .inr (List.mem_append_right _ (List.mem_filterMap.mpr ⟨row, member, walked⟩))
  · have direct := condition.option.joinPath?_eq_nil_iff.mpr (by omega)
    rw [complete] at direct
    exact .inl (Option.some.inj direct)

/-- A condition is held at the end of its join path. -/
theorem holdsAt_joinPath? (entity : String) {rows : List FilterRow} (columns : List Column)
    (page : Option Page) {row : FilterRow} (member : row ∈ rows) {condition : Condition}
    (amounts : row.condition? = .ok condition) {path : List Hop}
    (complete : condition.option.joinPath? = some path) :
    (Query.ofRows entity rows columns page).document.HoldsAt path condition := by
  obtain ⟨node, reaches⟩ := Query.exists_reaches_of_mem_joinPaths entity rows columns page
    (joinPath?_eq_nil_or_mem_joinPaths columns member amounts complete)
  refine ⟨node, reaches, ?_⟩
  have behind : criterionBehind? path row = some (.ofCondition condition) := by
    rw [criterionBehind?, amounts]
    dsimp only
    rw [if_pos complete]
  rw [← (Query.distinct_scope_ofRows entity rows columns page).follow_eq reaches,
    Query.criteria_follow_ofRows]
  exact List.mem_filterMap.mpr ⟨row, member, behind⟩

theorem entityAt_joinPath?_eq_iff {option : FilterOption} {path : List Hop}
    (complete : option.joinPath? = some path) (entity : String) {target : String}
    (named : Text.nonBlank? option.target.entityName = some target) :
    Hop.entityAt entity path = target ↔ 1 < option.length ∨ target = entity := by
  have placed := FilterOption.entityAt_joinPath? complete entity
  split_ifs at placed with chained
  · rw [named] at placed
    simp [chained, Option.some.inj placed]
  · subst placed
    simp [chained, Hop.entityAt, eq_comm]

theorem Query.holdsAtJoinPath_ofRows (entity : String) (rows : List FilterRow)
    (columns : List Column) (page : Option Page) :
    let query := ofRows entity rows columns page
    ∀ row ∈ Sifted.unskipped rows query.skipped, query.document.HoldsAtJoinPath row := by
  intro query row member
  obtain ⟨row_member, condition, path, amounts, complete⟩ := exists_path_of_mem_unskipped member
  refine ⟨condition, path, amounts, complete, ?_, ?_⟩
  · exact holdsAt_joinPath? entity columns page row_member amounts complete
  · intro target named
    exact entityAt_joinPath?_eq_iff complete entity named

theorem Query.holdsAtJoinPaths_text_ofRows (entity : String) (rows : List FilterRow)
    (columns : List Column) (page : Option Page) :
    let query := ofRows entity rows columns page
    HoldsAtJoinPaths entity (Sifted.unskipped rows query.skipped) query.text := by
  intro query
  refine ⟨_, Transcript.read?_text query.document, rfl, ?_⟩
  rw [Transcript.document_transcript]
  exact holdsAtJoinPath_ofRows entity rows columns page

/-- Every condition that a query does not leave out is held at the end of its join path: on the
entity that its target names if there are joins, and on the searched entity if there are none. The
same is read in the text of the query, and in the texts of the queries that are planned. -/
theorem Query.holdsAtJoinPath_ofRows_and_build (zone : TimeZone) (scheme : EntityScheme)
    (entity : String) (rows : List FilterRow) (columns : List Column) (page : Option Page) :
    let query := ofRows entity rows columns page
    let plan := SearchPlan.build zone scheme rows
    (∀ row ∈ Sifted.unskipped rows query.skipped, query.document.HoldsAtJoinPath row) ∧
      HoldsAtJoinPaths entity (Sifted.unskipped rows query.skipped) query.text ∧
      match plan.query with
      | .odata _ _ => True
      | .fetchXml text =>
          HoldsAtJoinPaths scheme.logicalName (Sifted.unskipped rows plan.skipped) text := by
  intro query plan
  refine ⟨holdsAtJoinPath_ofRows entity rows columns page,
    holdsAtJoinPaths_text_ofRows entity rows columns page, ?_⟩
  dsimp only [plan]
  rw [SearchPlan.build]
  dsimp only
  split_ifs with joined
  · exact holdsAtJoinPaths_text_ofRows scheme.logicalName rows _ none
  · trivial

/-- A condition can stand on another entity than its target names: without a join it stands on the
searched entity. -/
theorem Query.not_holdsOnTarget_ofRows :
    ¬ ∀ entity rows columns page,
      let query := ofRows entity rows columns page
      ∀ row ∈ Sifted.unskipped rows query.skipped, query.document.HoldsOnTarget row := by
  intro on_target
  let option : FilterOption :=
    .single { FilterLink.ofAttribute "fullname" "String" with entityName := some "contact" }
  let row := FilterRow.ofParts option (.state .notNull) []
  have kept : row ∈ Sifted.unskipped [row] (ofRows "account" [row] [] none).skipped := by
    decide
  obtain ⟨path, ⟨node, reaches, _⟩, at_contact⟩ := on_target "account" [row] [] none row kept
    ⟨option, "fullname", .state .notNull⟩ rfl "contact" rfl
  have unlinked : (ofRows "account" [row] [] none).document.scope.links = [] := rfl
  cases reaches with
  | here => exact absurd at_contact (by decide)
  | step link onward =>
      rw [unlinked] at link
      cases link

end FetchXml

end EntitySearch
