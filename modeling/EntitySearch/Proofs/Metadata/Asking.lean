import EntitySearch.Proofs.Metadata.Failures

/-!
# Requests made while filling in

Which requests are made can be told from the options as they are given: one for every entity on
which some of them offer attributes, in the order of appearance, for the names of these attributes.
A request that fails is the last one.
-/

namespace EntitySearch

namespace Metadata

namespace Inquiry

/-- The entity and the attribute that an option offers, on the searched entity unless its target
names another one. Headings and options without an attribute offer none. -/
def offered? (root : String) (option : FilterOption) : Option (String × String) :=
  if option.isCategory then none
  else
    (Text.nonBlank? option.target.attributeName).map fun name =>
      ((Text.nonBlank? option.target.entityName).getD root, name)

/-- The inquiries that are due for the options of a searched entity. -/
def due (root : String) (options : List FilterOption) : List Inquiry :=
  grouped (options.filterMap (offered? root))

theorem isCategory_standingOn (entity : String) (option : FilterOption) :
    (standingOn entity option).isCategory = option.isCategory :=
  isCategory_withTarget rfl

/-- An option whose target has been put on an entity is asked about as what it offers. -/
theorem subject?_withEntity (root : String) (option : FilterOption) :
    subject? (withEntity root option) = offered? root option := by
  rw [withEntity_eq, lacksEntity, offered?]
  cases heading : option.isCategory with
  | true => simp [subject?, heading]
  | false =>
      cases named : Text.nonBlank? option.target.attributeName with
      | none => simp [subject?, heading, named]
      | some name =>
          cases there : Text.nonBlank? option.target.entityName with
          | none =>
              exact subject?_eq_some_iff.mpr
                ⟨(isCategory_standingOn root option).trans heading, named, rfl⟩
          | some entity =>
              exact subject?_eq_some_iff.mpr
                ⟨heading, named, (Text.nonBlank?_eq_some_iff.mp there).1⟩

theorem ofOptions_withEntity (root : String) (options : List FilterOption) :
    ofOptions (options.map (withEntity root)) = due root options := by
  rw [ofOptions_eq_grouped, due, List.filterMap_map]
  exact congrArg grouped
    (List.filterMap_congr fun option _ => subject?_withEntity root option)

end Inquiry

/-- Inquiries made one after the other are all answered, or there is a first one that fails. -/
theorem answered_or_fails {State : Type} (ask : AttributeSource State) (inquiries : List Inquiry)
    (state : State) :
    (∃ given last, Answered ask state inquiries given last) ∨
      ∃ earlier failing later given middle error last,
        inquiries = earlier ++ failing :: later ∧ Answered ask state earlier given middle ∧
          ask failing.entity failing.attributes middle = (.error error, last) := by
  induction inquiries generalizing state with
  | nil => exact .inl ⟨[], state, .nil state⟩
  | cons inquiry rest ih =>
      rcases first : ask inquiry.entity inquiry.attributes state with ⟨error | attributes, next⟩
      · exact .inr ⟨[], inquiry, rest, [], state, error, next, rfl, .nil state, first⟩
      · rcases ih next with ⟨given, last, answered⟩ |
          ⟨earlier, failing, later, given, middle, error, last, rest_eq, answered, fails⟩
        · exact .inl ⟨_, last, .cons first answered⟩
        · refine .inr ⟨inquiry :: earlier, failing, later, _, middle, error, last, ?_,
            .cons first answered, fails⟩
          rw [rest_eq, List.cons_append]

/-- All inquiries that are due are made, each once and in order, if every one of them is answered.
Otherwise those up to the first that fails are made. No other request is made in either case. -/
theorem requests_fillOptions {State : Type} (repository : Repository State) (root : String)
    (options : List FilterOption) (state : State) (log : List Request) :
    (∃ given last filled,
      Answered repository.attributes state (Inquiry.due root options) given last ∧
      fillOptions repository.logged.attributes root options (state, log) =
        ((filled, none), (last, log ++ (Inquiry.due root options).map Inquiry.request))) ∨
    ∃ earlier failing later given middle error last left,
      Inquiry.due root options = earlier ++ failing :: later ∧
      Answered repository.attributes state earlier given middle ∧
      repository.attributes failing.entity failing.attributes middle = (.error error, last) ∧
      fillOptions repository.logged.attributes root options (state, log) =
        ((left, some error), (last, log ++ (earlier ++ [failing]).map Inquiry.request)) := by
  rcases answered_or_fails repository.attributes (Inquiry.due root options) state with
    ⟨given, last, answered⟩ |
    ⟨earlier, failing, later, given, middle, error, last, due_eq, answered, fails⟩
  · exact .inl ⟨given, last, _, answered,
      fillOptions_of_answered (answered.logged log) (Inquiry.ofOptions_withEntity root options)⟩
  · have run := fillOptions_of_fails (answered.logged log)
      ((Inquiry.ofOptions_withEntity root options).trans due_eq) (note_attributes fails _)
    rw [List.append_assoc, ← List.map_singleton, ← List.map_append] at run
    exact .inr ⟨earlier, failing, later, given, middle, error, last, _, due_eq, answered, fails, run⟩

end Metadata

end EntitySearch
