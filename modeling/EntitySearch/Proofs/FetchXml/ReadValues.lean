import EntitySearch.Proofs.FetchXml.Conditions
import EntitySearch.Proofs.FetchXml.Transcript
import EntitySearch.Proofs.Markup.Normalizing
import EntitySearch.Proofs.Sifting

/-!
# Values as they are read

The text of a query is read by a reader that normalizes attribute values. It finds the conditions of
the accepted rows, each value with blanks in place of tabs and ends of lines. The other characters
of a value are read as they were entered, those that markup uses included.
-/

namespace EntitySearch

namespace FetchXml

/-- The attributes of each condition in a text, with attribute values normalized. -/
def readConditions? (text : String) : Option (List (List (String × String))) :=
  (Markup.readNormalized? text).map fun document =>
    (document.elements "condition").map Markup.attributes

/-- What is read of the conditions of rows. -/
def conditionsRead (rows : List FilterRow) : List (List (String × String)) :=
  (rows.filterMap accepted?).map fun placed =>
    Markup.spacedAttributes placed.criterion.markup.attributes

theorem conditionsRead_append_cons (front back : List FilterRow) {row : FilterRow}
    {placed : PlacedCriterion} (accepted : accepted? row = some placed) :
    conditionsRead (front ++ row :: back) =
      conditionsRead front ++
        Markup.spacedAttributes placed.criterion.markup.attributes :: conditionsRead back := by
  rw [conditionsRead, List.filterMap_append, List.filterMap_cons_some accepted, List.map_append,
    List.map_cons, conditionsRead, conditionsRead]

/-- The conditions that are read are those of the accepted rows, each once. -/
theorem Query.exists_readConditions?_ofRows (entity : String) (rows : List FilterRow)
    (columns : List Column) (page : Option Page) :
    ∃ read, readConditions? (ofRows entity rows columns page).text = some read ∧
      read.Perm (conditionsRead rows) := by
  generalize query_eq : ofRows entity rows columns page = query
  have wellFormed := query.document.wellFormed_markup
  have read_eq : readConditions? query.text =
      some ((query.document.markup.elements "condition").map fun piece =>
        Markup.spacedAttributes piece.attributes) := by
    rw [readConditions?, text, Document.text, Markup.readNormalized?_render wellFormed,
      Option.map_some, wellFormed.elements_withSpaces_settled, List.map_map]
    exact congrArg some
      (List.map_congr_left fun piece _ => piece.attributes_withSpaces_settled)
  have written := (elements_condition_ofRows entity rows columns page).map fun piece =>
    Markup.spacedAttributes piece.attributes
  rw [query_eq, List.map_map] at written
  exact ⟨_, read_eq, written⟩

/-- A row that asks a text attribute to equal a text is accepted with a condition on that text. -/
theorem accepted?_eq_text {option : FilterOption} {name value : String} {path : List Hop}
    (named : Text.nonBlank? option.target.attributeName = some name)
    (kind : option.target.kind = .string) (linked : option.joinPath? = some path)
    (solid : Text.isBlank value = false) (more : List FilterValue) :
    accepted? (.ofParts option (.compare (.relation .eq)) (.text value :: more)) =
      some ⟨path, name, "eq", .value value⟩ := by
  have amounts := FilterRow.condition?_ofParts_compare named (.relation .eq)
    (show (FilterValue.text value).isBlank = false from solid) more
  have of_kind : (⟨option, name, .compare (.relation .eq) (.text value)⟩ : Condition).kind =
      .string := kind
  rw [accepted?, placedCriterion?, amounts]
  simp only [linked, Criterion.ofCondition, Test.map, of_kind]
  rfl

/-- Of a row that asks a text attribute to equal a text, the text is read with blanks in place of
tabs and ends of lines, whatever stands around it. It is read as it was entered exactly if it has
none of these. -/
theorem eq_text_read_spaced {name value : String} {option : FilterOption} {path : List Hop}
    (entity : String) (front back : List FilterRow) (more : List FilterValue)
    (columns : List Column) (page : Option Page)
    (named : Text.nonBlank? option.target.attributeName = some name)
    (kind : option.target.kind = .string) (linked : option.joinPath? = some path)
    (solid : Text.isBlank value = false) :
    let row := FilterRow.ofParts option (.compare (.relation .eq)) (.text value :: more)
    let query := Query.ofRows entity (front ++ row :: back) columns page
    (∃ read, readConditions? query.text = some read ∧
      read.Perm (conditionsRead front ++
        [("attribute", Markup.spaced name), ("operator", "eq"), ("value", Markup.spaced value)] ::
          conditionsRead back)) ∧
      (Markup.spaced value = value ↔ ∀ c ∈ value.toList, Markup.isBreak c = false) := by
  intro row query
  refine ⟨?_, Markup.spaced_eq_iff value⟩
  have accepted := accepted?_eq_text named kind linked solid more
  have token_kept : Markup.spaced "eq" = "eq" := by decide
  obtain ⟨read, found, same⟩ :=
    Query.exists_readConditions?_ofRows entity (front ++ row :: back) columns page
  refine ⟨read, found, ?_⟩
  rw [conditionsRead_append_cons front back accepted] at same
  simpa [Criterion.markup, Markup.attributes, Markup.spacedAttributes, token_kept] using same

/-- A value with markup and a tab in it. -/
theorem eq_text_read_spaced_tab :
    let row := FilterRow.ofParts (.single (.ofAttribute "name" "String"))
      (.compare (.relation .eq)) [.text "A&B\t<C>"]
    readConditions? (Query.ofRows "account" [row] [] none).text =
      some [[("attribute", "name"), ("operator", "eq"), ("value", "A&B <C>")]] := by
  intro row
  have name_kept : Markup.spaced "name" = "name" := by decide
  have value_spaced : Markup.spaced "A&B\t<C>" = "A&B <C>" := by decide
  obtain ⟨⟨read, found, same⟩, -⟩ :=
    @eq_text_read_spaced "name" "A&B\t<C>" (.single (.ofAttribute "name" "String")) []
      "account" [] [] [] [] none rfl rfl rfl (by decide)
  rw [name_kept, value_spaced] at same
  rw [List.perm_singleton.mp same] at found
  exact found

/-- A legal text with a tab is not read as it was entered. -/
theorem not_eq_text_read :
    ¬ ∀ value : String, value.toList.all Markup.isLegal = true → Text.isBlank value = false →
      let row := FilterRow.ofParts (.single (.ofAttribute "name" "String"))
        (.compare (.relation .eq)) [.text value]
      readConditions? (Query.ofRows "account" [row] [] none).text =
        some [[("attribute", "name"), ("operator", "eq"), ("value", value)]] := by
  intro survives
  let row := FilterRow.ofParts (.single (.ofAttribute "name" "String")) (.compare (.relation .eq))
    [.text "a\tb"]
  have row_read : conditionsRead [row] =
      [[("attribute", "name"), ("operator", "eq"), ("value", "a b")]] := by decide
  have survived := survives "a\tb" (by decide) (by decide)
  obtain ⟨read, found, same⟩ := Query.exists_readConditions?_ofRows "account" [row] [] none
  rw [row_read] at same
  rw [survived, List.perm_singleton.mp same] at found
  exact absurd found (by decide)

end FetchXml

end EntitySearch
