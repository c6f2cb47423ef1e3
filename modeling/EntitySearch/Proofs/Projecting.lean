import EntitySearch.Plan
import EntitySearch.Proofs.FetchXml.Projections
import EntitySearch.Proofs.FetchXml.Transcript

/-!
# The projections of a planned search

Whatever the language of a planned query is, what it projects are the keys under which the columns
of the plan read their values.
-/

namespace EntitySearch

/-- All attributes of the entity are asked for exactly if no column belongs to it. -/
theorem FetchXml.Document.Projects.everything_transcript_iff {document : FetchXml.Document}
    {columns : List Column} (projects : document.Projects columns) :
    document.transcript.everything = true ↔ ∀ column ∈ columns, column.isRoot = false := by
  change document.scope.projections.isEmpty = true ↔ _
  rw [List.isEmpty_iff]
  constructor
  · intro none_projected column member
    by_contra root
    rw [Bool.not_eq_false] at root
    have projected := (projects.root column member root).2
    rw [none_projected] at projected
    cases projected
  · intro all_related
    rw [List.eq_nil_iff_forall_not_mem]
    intro projection projected
    obtain ⟨column, member, path_nil, -⟩ :=
      projects.only [] document.scope (.here _) projection projected
    exact (projects.related column member (all_related column member)).1 path_nil

/-- A query asks for the values that columns read and for no others. Of a FetchXML query this is
asked of what is read in its text. -/
def PlannedQuery.Projects (entity : String) (columns : List Column) : PlannedQuery → Prop
  | .odata select _ =>
      select.Nodup ∧ (∀ key, key ∈ select ↔ ∃ column ∈ columns, column.valueKey = key) ∧
        ∀ column ∈ columns, column.isRoot = true
  | .fetchXml text =>
      ∃ transcript, FetchXml.Transcript.read? text = some transcript ∧
        transcript.entity = entity ∧ transcript.document.Projects columns ∧
          (transcript.everything = true ↔ ∀ column ∈ columns, column.isRoot = false)

namespace SearchPlan

theorem isRoot_of_not_needsJoin {entity : String} {columns : List Column} {rows : List FilterRow}
    (plain : needsJoin entity columns rows = false) : ∀ column ∈ columns, column.isRoot = true := by
  rw [needsJoin, Bool.or_eq_false_iff, List.any_eq_false] at plain
  intro column member
  simpa using plain.1 column member

theorem projects_ofRows_fetchXml (entity : String) (sources : List TableColumn)
    (rows : List FilterRow) (page : Option FetchXml.Page) :
    let columns := Column.ofTableColumns entity sources
    (PlannedQuery.fetchXml (FetchXml.Query.ofRows entity rows columns page).text).Projects entity
      columns := by
  intro columns
  have projects := FetchXml.Query.projects_ofRows entity sources rows page
  refine ⟨_, FetchXml.Transcript.read?_text _, rfl, ?_, projects.everything_transcript_iff⟩
  rw [FetchXml.Transcript.document_transcript]
  exact projects

/-- A plan projects exactly what its columns read. An OData query selects their keys, each once, and
is planned only if all of them belong to the searched entity. In the text of a FetchXML query every
key is projected at the end of its column's path, and every projection is the one of a column whose
path leads there; all attributes are asked for only if no column belongs to the searched entity. -/
theorem build_projects (zone : TimeZone) (scheme : EntityScheme) (rows : List FilterRow) :
    let plan := build zone scheme rows
    plan.query.Projects scheme.logicalName plan.columns := by
  dsimp only
  rw [build]
  dsimp only
  split_ifs with joined
  · exact projects_ofRows_fetchXml scheme.logicalName _ rows none
  · rw [Bool.not_eq_true] at joined
    have all_root := isRoot_of_not_needsJoin joined
    refine ⟨Gathered.nodup_ofList _, ?_, all_root⟩
    intro key
    rw [Column.mem_selected_iff]
    constructor
    · rintro ⟨column, member, _, key_eq⟩
      exact ⟨column, member, key_eq⟩
    · rintro ⟨column, member, key_eq⟩
      exact ⟨column, member, all_root column member, key_eq⟩

end SearchPlan

end EntitySearch
