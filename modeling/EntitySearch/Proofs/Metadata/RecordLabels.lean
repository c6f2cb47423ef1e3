import EntitySearch.Metadata.Picker
import EntitySearch.Proofs.Templates
import EntitySearch.Proofs.Text.Trimming

/-!
# Labels of records

A record is labelled by a template over some of its attributes, by their values, or by a fallback,
whichever comes first and is not blank. A template without values is what stands beside its
placeholders, which need not be blank.
-/

namespace EntitySearch

namespace ValueOption

/-- One of the named attributes has a value in the row that is not blank. -/
def HasData (row : Row) (names : List String) : Prop :=
  ∃ name ∈ names, Text.isBlank (Row.valueText (row.value? name)) = false

/-- The values of the named attributes, trimmed; empty where there is none. -/
def trimmedValues (row : Row) (names : List String) : List String :=
  names.map fun name => Text.trim (Row.valueText (row.value? name))

/-- The values of the named attributes that are not blank, trimmed. -/
def solidValues (row : Row) (names : List String) : List String :=
  (trimmedValues row names).filter (! ·.isEmpty)

/-- What a template says beside its placeholders; nothing if there is no template. -/
def caption (format : Option String) : String :=
  Template.fill (format.getD "") []

theorem eq_empty_of_mem_trimmedValues {row : Row} {names : List String}
    (hollow : ¬ HasData row names) : ∀ value ∈ trimmedValues row names, value = "" := by
  intro value member
  obtain ⟨name, name_member, rfl⟩ := List.mem_map.mp member
  rw [Text.trim_eq_empty_iff]
  by_contra solid
  exact hollow ⟨name, name_member, eq_false_of_ne_true solid⟩

theorem solidValues_eq_nil_iff (row : Row) (names : List String) :
    solidValues row names = [] ↔ ¬ HasData row names := by
  rw [solidValues, List.filter_eq_nil_iff]
  constructor
  · rintro none_left ⟨name, member, solid⟩
    have empty : Text.trim (Row.valueText (row.value? name)) = "" := by
      simpa using none_left _ (List.mem_map_of_mem member)
    rw [Text.trim_eq_empty_iff, solid] at empty
    cases empty
  · intro hollow value member
    simp [eq_empty_of_mem_trimmedValues hollow value member]

theorem isEmpty_join_solidValues (row : Row) (names : List String) :
    (Text.join " " (solidValues row names)).isEmpty = true ↔ ¬ HasData row names := by
  have solid : ∀ value ∈ solidValues row names, value ≠ "" := fun value member => by
    simpa using (List.mem_filter.mp member).2
  rw [String.isEmpty_iff, Text.join_eq_empty_iff " " solid, solidValues_eq_nil_iff]

/-- A label is the filled template with white space collapsed. If there is nothing else to that, it
is the values, and the fallback if there are none. -/
theorem recordLabel_eq (row : Row) (names : List String) (format : Option String)
    (fallback : String) :
    recordLabel row names format fallback =
      let filled := Template.fill (format.getD "") (trimmedValues row names)
      if Text.isBlank filled then
        if (Text.join " " (solidValues row names)).isEmpty then fallback
        else Text.join " " (solidValues row names)
      else Text.join " " (Text.words filled) := by
  cases format with
  | none =>
      rw [Option.getD_none, Template.fill_empty]
      rfl
  | some format =>
      dsimp only [Option.getD_some]
      rw [← Text.isEmpty_join_words]
      rfl

/-- A row without data is labelled by what the template says beside its placeholders, and by the
fallback only if the template says nothing. Without a template, a row with data is labelled by its
values that are not blank, trimmed and with single spaces between them. -/
theorem recordLabel_without_data_or_format (row : Row) (names : List String)
    (format : Option String) (fallback : String) :
    (¬ HasData row names →
      recordLabel row names format fallback =
        if Text.isBlank (caption format) then fallback
        else Text.join " " (Text.words (caption format))) ∧
    (HasData row names → format.getD "" = "" →
      recordLabel row names format fallback = Text.join " " (solidValues row names)) := by
  rw [recordLabel_eq]
  constructor
  · intro hollow
    rw [Template.fill_of_forall_empty (eq_empty_of_mem_trimmedValues hollow), ← caption]
    simp only [(isEmpty_join_solidValues row names).mpr hollow, if_true]
  · intro data unformatted
    rw [unformatted, Template.fill_empty]
    exact if_neg fun none_left => (isEmpty_join_solidValues row names).mp none_left data

/-- A contact without a full name, behind a template of a placeholder only, and one with two names,
without a template. -/
theorem recordLabel_without_data_or_format_contacts :
    let unnamed : Row := [("contactid", .text "42"), ("fullname", .null)]
    let named : Row := [("firstname", .text " Ann "), ("lastname", .text "Lee")]
    (¬ HasData unnamed ["fullname"] ∧
      recordLabel unnamed ["fullname"] (some " {0} ") "42" = "42") ∧
    (HasData named ["firstname", "lastname"] ∧
      recordLabel named ["firstname", "lastname"] none "42" = "Ann Lee") := by
  intro unnamed named
  have hollow : ¬ HasData unnamed ["fullname"] := by
    rw [← solidValues_eq_nil_iff]
    decide +kernel
  have data : HasData named ["firstname", "lastname"] := ⟨"lastname", by decide, by decide +kernel⟩
  have shown := (recordLabel_without_data_or_format unnamed ["fullname"] (some " {0} ") "42").1 hollow
  have joined :=
    (recordLabel_without_data_or_format named ["firstname", "lastname"] none "42").2 data rfl
  exact ⟨⟨hollow, shown.trans (by decide +kernel)⟩, data, joined.trans (by decide +kernel)⟩

/-- A template that says something beside its placeholders labels a record without data. -/
theorem not_recordLabel_eq_fallback :
    ¬ ∀ (row : Row) (names : List String) (format : Option String) (fallback : String),
      ¬ HasData row names → recordLabel row names format fallback = fallback := by
  intro shown
  have label : recordLabel [("contactid", .text "42")] ["fullname"] (some "({0})") "42" = "()" := by
    decide +kernel
  have hollow : ¬ HasData [("contactid", .text "42")] ["fullname"] := by
    rw [← solidValues_eq_nil_iff]
    decide +kernel
  have same := shown _ _ (some "({0})") "42" hollow
  rw [label] at same
  exact absurd same (by decide)

end ValueOption

end EntitySearch
