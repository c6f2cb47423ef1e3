import EntitySearch.Json.Printer
import EntitySearch.Proofs.Metadata.FixedAnswers
import EntitySearch.Proofs.Metadata.Inquiries
import Mathlib.Data.List.Forall2

/-!
# Options filled in together and one by one

Inquiries about many options are grouped by entity and name every attribute once, and the answers
hold more than a single option asked for. None of this can be seen in the outcome: an option is
filled in as by all that is known about its entity, hence as if it were the only one.
-/

namespace EntitySearch

namespace Metadata

theorem Inquiry.subject?_eq_some_iff {option : FilterOption} {entity name : String} :
    subject? option = some (entity, name) ↔
      option.isCategory = false ∧ Text.nonBlank? option.target.attributeName = some name ∧
        option.target.entityName = some entity := by
  rw [subject?]
  cases option.isCategory <;> cases Text.nonBlank? option.target.attributeName <;>
    cases option.target.entityName <;> simp [and_comm]

/-- Filling in looks up no attribute but the one that the option names. -/
theorem fillOption_congr (entity : String) {attributes others : List Attribute}
    {option : FilterOption}
    (same : ∀ name, option.target.attributeName = some name →
      attributes.find? (·.logicalName == name) = others.find? (·.logicalName == name)) :
    fillOption entity attributes option = fillOption entity others option := by
  rw [fillOption, fillOption]
  cases named : option.target.attributeName with
  | none =>
      have nothing (known : List Attribute) :
          known.find? (fun source => some source.logicalName == none) = none :=
        List.find?_eq_none.mpr (by simp)
      rw [nothing, nothing]
  | some name => simp only [Option.some_beq_some, same name named]

theorem fillOption_nil (entity : String) (option : FilterOption) :
    fillOption entity [] option = option := by
  simp [fillOption]

/-- Filling in leaves the entity of the target as it is. -/
theorem entityName_fillOption (entity : String) (attributes : List Attribute)
    (option : FilterOption) :
    (fillOption entity attributes option).target.entityName = option.target.entityName := by
  rcases fillOption_eq_or entity attributes option with idle | ⟨source, filled⟩
  · rw [idle]
  · rw [filled]
    rfl

/-- Among answers about different entities, the one about the entity of an option counts. -/
theorem fillAll_eq_fillOption {answers : List Answer} {answer : Answer}
    (different : (answers.map (·.entity)).Nodup) (member : answer ∈ answers) {option : FilterOption}
    (there : option.target.entityName = some answer.entity) :
    fillAll answers option = fillOption answer.entity answer.attributes option := by
  induction answers generalizing option with
  | nil => cases member
  | cons first rest ih =>
      obtain ⟨first_new, rest_different⟩ := List.nodup_cons.mp different
      rw [fillAll, List.foldl_cons, ← fillAll]
      rcases List.mem_cons.mp member with rfl | later
      · apply fillAll_of_forall_eq
        intro other other_member
        apply fillOption_of_entityName_ne
        rw [entityName_fillOption, there]
        intro same
        exact first_new (List.mem_map.mpr ⟨other, other_member, (Option.some.inj same).symm⟩)
      · have elsewhere : option.target.entityName ≠ some first.entity := by
          rw [there]
          intro same
          exact first_new (List.mem_map.mpr ⟨answer, later, Option.some.inj same⟩)
        rw [fillOption_of_entityName_ne first.attributes elsewhere]
        exact ih rest_different later there

/-- An option filled in from all that a source holds for its entity. -/
def fillFrom (source : String → Except SearchError (List Attribute)) (option : FilterOption) :
    FilterOption :=
  match Inquiry.subject? option with
  | none => option
  | some (entity, _) => fillOption entity (heldBy source entity) option

/-- A source does not refuse the entity that an option stands on. -/
def IsHeld (source : String → Except SearchError (List Attribute)) (option : FilterOption) : Prop :=
  ∀ entity name, Inquiry.subject? option = some (entity, name) → (source entity).isOk = true

/-- The answers to the inquiries about some options fill each of them in as the whole source does.

What is asked about the other options does not matter: an attribute that was not asked for this
option is either on another entity or has another name. -/
theorem fillAll_ofOptions (source : String → Except SearchError (List Attribute))
    {options : List FilterOption} {option : FilterOption} (member : option ∈ options) :
    fillAll ((Inquiry.ofOptions options).map fun inquiry =>
      ⟨inquiry.entity, Attribute.named inquiry.attributes (heldBy source inquiry.entity)⟩) option =
        fillFrom source option := by
  rw [fillFrom]
  cases asked : Inquiry.subject? option with
  | none =>
      apply fillAll_of_forall_eq
      intro answer answer_member
      obtain ⟨inquiry, inquiry_member, rfl⟩ := List.mem_map.mp answer_member
      by_cases heading : option.isCategory = true
      · exact fillOption_of_isCategory _ _ heading
      · by_cases there : option.target.entityName = some inquiry.entity
        · refine (fillOption_congr inquiry.entity ?_).trans (fillOption_nil inquiry.entity option)
          intro name named
          rw [Attribute.find?_named, if_neg, List.find?_nil]
          intro name_asked
          -- A name that was asked for is not blank, so this option would have asked for it too.
          obtain ⟨other, _, other_asked⟩ :=
            (Inquiry.mem_attributes_iff inquiry_member).mp name_asked
          have solid :=
            (Text.nonBlank?_eq_some_iff.mp (Inquiry.subject?_eq_some_iff.mp other_asked).2.1).2
          have also_asked := Inquiry.subject?_eq_some_iff.mpr
            ⟨Bool.not_eq_true _ ▸ heading, Text.nonBlank?_eq_some_iff.mpr ⟨named, solid⟩, there⟩
          rw [asked] at also_asked
          cases also_asked
        · exact fillOption_of_entityName_ne _ there
  | some subject =>
      obtain ⟨entity, name⟩ := subject
      obtain ⟨_, named, there⟩ := Inquiry.subject?_eq_some_iff.mp asked
      obtain ⟨inquiry, inquiry_member, rfl, name_asked⟩ :=
        Inquiry.exists_inquiry_of_subject? member asked
      have different := Inquiry.nodup_entities_ofOptions options
      rw [fillAll_eq_fillOption (by rw [List.map_map]; exact different)
        (List.mem_map_of_mem inquiry_member) there]
      apply fillOption_congr
      intro other other_named
      rw [other_named] at named
      obtain rfl := Option.some.inj (Text.nonBlank?_eq_some_iff.mp named).1
      rw [Attribute.find?_named, if_pos name_asked]

/-- Items that are admitted one by one and taken to their values are so taken together. -/
theorem forall₂_and_eq_iff {Item Value : Type} {admitted : Item → Prop} {value : Item → Value}
    (items : List Item) (values : List Value) :
    List.Forall₂ (fun item result => admitted item ∧ result = value item) items values ↔
      (∀ item ∈ items, admitted item) ∧ values = items.map value := by
  induction items generalizing values with
  | nil => simp
  | cons item rest ih =>
      cases values with
      | nil => simp
      | cons result others =>
          rw [List.forall₂_cons, ih others, List.forall_mem_cons, List.map_cons, List.cons.injEq]
          tauto

namespace AnswersFrom

variable {State : Type} {ask : AttributeSource State}
  {source : String → Except SearchError (List Attribute)} {Steady : State → Prop}
  (fixed : AnswersFrom ask source Steady)
include fixed

/-- Filling in succeeds exactly if no entity of the options is refused. -/
theorem fillOptions_eq_none_iff (root : String) (options : List FilterOption) {state : State}
    (steady : Steady state) :
    (fillOptions ask root options state).1.2 = none ↔
      ∀ option ∈ options, IsHeld source (Inquiry.withEntity root option) := by
  rw [fillOptions, fixed.answerInquiries_eq_none_iff _ _ steady]
  constructor
  · intro held option member entity name asked
    obtain ⟨inquiry, inquiry_member, rfl, _⟩ :=
      Inquiry.exists_inquiry_of_subject? (List.mem_map_of_mem member) asked
    exact held inquiry inquiry_member
  · intro held inquiry member
    obtain ⟨named, named_member, name, asked⟩ := Inquiry.exists_subject?_of_mem member
    obtain ⟨option, option_member, rfl⟩ := List.mem_map.mp named_member
    exact held option option_member inquiry.entity name asked

/-- Filling in that succeeds fills each option in from what is held for its entity. -/
theorem options_fillOptions_eq (root : String) (options : List FilterOption) {state : State}
    (steady : Steady state) (succeeds : (fillOptions ask root options state).1.2 = none) :
    (fillOptions ask root options state).1.1 =
      options.map fun option => fillFrom source (Inquiry.withEntity root option) := by
  rw [fillOptions] at succeeds
  have held := (fixed.answerInquiries_eq_none_iff _ _ steady).mp succeeds
  rw [options_fillOptions, fixed.answers_eq steady held]
  exact List.map_congr_left fun option member =>
    fillAll_ofOptions source (List.mem_map_of_mem member)

theorem fillOptions_eq_iff (root : String) (options filled : List FilterOption) {state : State}
    (steady : Steady state) :
    (fillOptions ask root options state).1 = (filled, none) ↔
      (∀ option ∈ options, IsHeld source (Inquiry.withEntity root option)) ∧
        filled = options.map fun option => fillFrom source (Inquiry.withEntity root option) := by
  rw [← fixed.fillOptions_eq_none_iff root options steady, Prod.ext_iff]
  constructor
  · rintro ⟨same, succeeds⟩
    exact ⟨succeeds, same.symm.trans (fixed.options_fillOptions_eq root options steady succeeds)⟩
  · rintro ⟨succeeds, same⟩
    exact ⟨(fixed.options_fillOptions_eq root options steady succeeds).trans same.symm, succeeds⟩

/-- Several options are filled in without a failure exactly if each of them is when it is alone, and
then they become what each of them becomes alone. So neither the other options, nor their order, nor
the way in which inquiries about them are put together can be seen in what becomes of an option. -/
theorem fillOptions_eq_iff_singly (root : String) (options filled : List FilterOption)
    {state other : State} (steady : Steady state) (steady_other : Steady other) :
    (fillOptions ask root options state).1 = (filled, none) ↔
      List.Forall₂ (fun option alone => (fillOptions ask root [option] other).1 = ([alone], none))
        options filled := by
  have alone_iff (option alone : FilterOption) :
      (fillOptions ask root [option] other).1 = ([alone], none) ↔
        IsHeld source (Inquiry.withEntity root option) ∧
          alone = fillFrom source (Inquiry.withEntity root option) := by
    rw [fixed.fillOptions_eq_iff root [option] [alone] steady_other]
    simp
  rw [fixed.fillOptions_eq_iff root options filled steady]
  simp only [alone_iff]
  exact (forall₂_and_eq_iff options filled).symm

end AnswersFrom

/-- Options on two entities, two of them alike, filled in from a directory. -/
theorem fillOptions_singly_fixtures :
    let file (name type : String) : FileContent :=
      .text (Json.object [("value", .array
        [.object [("LogicalName", .text name), ("AttributeType", .text type)]])]).compact
    let fixtures : Fixtures :=
      ⟨"fixtures",
        [("account-attributes-md.json", file "name" "String"),
          ("contact-attributes-md.json", file "fullname" "Memo")]⟩
    let name : FilterOption := .single { FilterLink.none with attributeName := some "name" }
    let heading : FilterOption :=
      .single { FilterLink.none with categoryDisplayName := some "Contact" }
    let near : FilterLink := { FilterLink.none with fromAttribute := some "primarycontactid" }
    let far : FilterLink :=
      { FilterLink.none with
        attributeName := some "fullname", entityName := some "contact"
        toAttribute := some "contactid" }
    let filledName : FilterOption :=
      .single { FilterLink.ofAttribute "name" "String" with entityName := some "account" }
    let filledFar : FilterLink := { far with attributeType := some "Memo" }
    let options := [name, heading, ⟨[near], far⟩, name]
    let filled := [filledName, heading, ⟨[near], filledFar⟩, filledName]
    let fill options := (fillOptions Fixtures.repository.attributes "account" options fixtures).1
    fill options = (filled, none) ∧
      List.Forall₂ (fun option alone => fill [option] = ([alone], none)) options filled := by
  intro file fixtures name heading near far filledName filledFar options filled fill
  have together : fill options = (filled, none) := by decide +kernel
  exact ⟨together, ((Fixtures.answersFrom fixtures).fillOptions_eq_iff_singly "account" options
    filled rfl rfl).mp together⟩

end Metadata

end EntitySearch
