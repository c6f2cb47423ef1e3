import EntitySearch.Metadata.Backfill

/-!
# Filling options in, one by one

Making inquiries and filling in a list of options come apart: which answers arrive does not depend
on the options, and every option is filled in from the answers on its own. Filling in touches the
target of an option only, and of that only the type and the name it is shown by.
-/

namespace EntitySearch

namespace Metadata

/-- What a repository answered about an entity. -/
structure Answer where
  entity : String
  attributes : List Attribute

/-- An option filled in from one answer after the other. -/
def fillAll (answers : List Answer) (option : FilterOption) : FilterOption :=
  answers.foldl (fun option answer => fillOption answer.entity answer.attributes option) option

@[simp]
theorem fillAll_nil : fillAll [] = id := rfl

/-- The answers to inquiries made one after the other, up to the first failure. -/
def answers {State : Type} (ask : AttributeSource State) : List Inquiry → State → List Answer
  | [], _ => []
  | inquiry :: rest, state =>
      match ask inquiry.entity inquiry.attributes state with
      | (.ok attributes, state) => ⟨inquiry.entity, attributes⟩ :: answers ask rest state
      | (.error _, _) => []

section Runs

variable {State : Type} (ask : AttributeSource State)

/-- Every option is filled in from the same answers, whatever the other options are. -/
theorem options_answerInquiries (inquiries : List Inquiry) (options : List FilterOption)
    (state : State) :
    (answerInquiries ask inquiries options state).1.1 =
      options.map (fillAll (answers ask inquiries state)) := by
  induction inquiries generalizing options state with
  | nil => simp [answerInquiries, answers]
  | cons inquiry rest ih =>
      rw [answerInquiries, answers]
      cases ask inquiry.entity inquiry.attributes state with
      | mk outcome next =>
          cases outcome with
          | error error => simp
          | ok attributes =>
              dsimp only
              rw [ih, List.map_map]
              rfl

theorem options_fillOptions (root : String) (options : List FilterOption) (state : State) :
    (fillOptions ask root options state).1.1 =
      options.map fun option =>
        fillAll (answers ask (Inquiry.ofOptions (options.map (Inquiry.withEntity root))) state)
          (Inquiry.withEntity root option) := by
  rw [fillOptions, options_answerInquiries, List.map_map]
  rfl

end Runs

/-- An option is left as it is or gets the type and the label of one attribute. -/
theorem fillOption_eq_or (entity : String) (attributes : List Attribute) (option : FilterOption) :
    fillOption entity attributes option = option ∨
      ∃ source, fillOption entity attributes option = option.withTarget (fillLink source) := by
  rw [fillOption]
  split
  · exact .inl rfl
  · split
    · rename_i source _
      exact .inr ⟨source, rfl⟩
    · exact .inl rfl

theorem fillOption_of_entityName_ne {entity : String} (attributes : List Attribute)
    {option : FilterOption} (elsewhere : option.target.entityName ≠ some entity) :
    fillOption entity attributes option = option := by
  simp [fillOption, elsewhere]

theorem fillOption_of_isCategory (entity : String) (attributes : List Attribute)
    {option : FilterOption} (heading : option.isCategory = true) :
    fillOption entity attributes option = option := by
  simp [fillOption, heading]

/-- Another target makes a heading of no option, and takes it from none, if it keeps the text of a
heading. -/
theorem isCategory_withTarget {option : FilterOption} {change : FilterLink → FilterLink}
    (kept : (change option.target).categoryDisplayName = option.target.categoryDisplayName) :
    FilterOption.isCategory (option.withTarget change) = option.isCategory := by
  obtain ⟨outer, target⟩ := option
  cases outer with
  | nil => exact congrArg Option.isSome kept
  | cons first rest => rfl

/-- A property of options that filling in keeps is kept by all answers together. -/
theorem fillAll_induction (Holds : FilterOption → Prop) (answers : List Answer)
    (step : ∀ answer ∈ answers, ∀ option, Holds option →
      Holds (fillOption answer.entity answer.attributes option))
    {option : FilterOption} (initial : Holds option) : Holds (fillAll answers option) := by
  induction answers generalizing option with
  | nil => exact initial
  | cons answer rest ih =>
      exact ih (fun later member => step later (List.mem_cons_of_mem answer member))
        (step answer List.mem_cons_self option initial)

/-- Answers that each leave an option as it is leave it so together. -/
theorem fillAll_of_forall_eq {answers : List Answer} {option : FilterOption}
    (idle : ∀ answer ∈ answers, fillOption answer.entity answer.attributes option = option) :
    fillAll answers option = option := by
  refine fillAll_induction (· = option) answers ?_ rfl
  rintro answer member _ rfl
  exact idle answer member

end Metadata

end EntitySearch
