import EntitySearch.Proofs.Metadata.Batching
import EntitySearch.Proofs.Metadata.Joins
import Mathlib.Control.Monad.Basic

/-!
# Filling in that fails

A request that fails ends the filling in. What was answered before it has been filled in as by a run
that succeeds, and nothing else has: the options on the entities that were not reached are as they
were, except that their targets are on an entity now.
-/

namespace EntitySearch

namespace Metadata

/-- The request for the attributes of an inquiry. -/
def Inquiry.request (inquiry : Inquiry) : Request :=
  .attributes inquiry.entity inquiry.attributes

/-- Successful answers hold attributes that were asked for, and no others. -/
def AnswersRequested {State : Type} (ask : AttributeSource State) : Prop :=
  ∀ {entity names state attributes next}, ask entity names state = (.ok attributes, next) →
    ∀ source ∈ attributes, source.logicalName ∈ names

theorem Attribute.mem_names_of_mem_named {names : List String} {source : List Attribute}
    {found : Attribute} (member : found ∈ Attribute.named names source) :
    found.logicalName ∈ names := by
  obtain ⟨name, name_mem, lookup⟩ := List.mem_filterMap.mp member
  have named : found.logicalName = name := by simpa using List.find?_some lookup
  rwa [named]

theorem answersRequested_of_named {State : Type} {ask : AttributeSource State}
    {fetch : String → Session State (List Attribute)}
    (looked_up : ∀ entity names,
      ask entity names = do let all ← fetch entity; pure (Attribute.named names all)) :
    AnswersRequested ask := by
  intro entity names state attributes next answered source member
  rw [looked_up, Session.bind_pure_apply] at answered
  obtain ⟨outcome_eq, -⟩ := Prod.mk.inj answered
  cases fetched : (fetch entity state).1 with
  | error error => rw [fetched] at outcome_eq; cases outcome_eq
  | ok all =>
      rw [fetched] at outcome_eq
      obtain rfl := Except.ok.inj outcome_eq
      exact Attribute.mem_names_of_mem_named member

theorem answersRequested_fixtures : AnswersRequested Fixtures.repository.attributes :=
  answersRequested_of_named fun _ _ => rfl

/-- The service answers with all attributes of an entity, but its repository passes on those asked
for. -/
theorem answersRequested_webService {State : Type} (config : WebConfig)
    (exchange : Exchange State) :
    AnswersRequested (WebService.repository config exchange).attributes :=
  answersRequested_of_named fun _ _ => rfl

/-- Inquiries that are all answered, one after the other, and the state after them. -/
inductive Answered {State : Type} (ask : AttributeSource State) :
    State → List Inquiry → List Answer → State → Prop where
  | nil (state : State) : Answered ask state [] [] state
  | cons {state next last : State} {inquiry : Inquiry} {rest : List Inquiry}
      {attributes : List Attribute} {later : List Answer}
      (answer : ask inquiry.entity inquiry.attributes state = (.ok attributes, next))
      (others : Answered ask next rest later last) :
      Answered ask state (inquiry :: rest) (⟨inquiry.entity, attributes⟩ :: later) last

theorem fillAll_append (answers more : List Answer) (option : FilterOption) :
    fillAll (answers ++ more) option = fillAll more (fillAll answers option) :=
  List.foldl_append

namespace Answered

variable {State : Type} {ask : AttributeSource State} {state last : State}
  {inquiries : List Inquiry} {given : List Answer}
  (answered : Answered ask state inquiries given last)
include answered

/-- Inquiries that are answered leave the others to be made, of options that are filled in. -/
theorem answerInquiries_append (rest : List Inquiry) (options : List FilterOption) :
    answerInquiries ask (inquiries ++ rest) options state =
      answerInquiries ask rest (options.map (fillAll given)) last := by
  induction answered generalizing options with
  | nil state => simp
  | cons answer others ih =>
      rw [List.cons_append, answerInquiries, answer]
      dsimp only
      rw [ih, List.map_map]
      rfl

theorem entities_eq : given.map (·.entity) = inquiries.map (·.entity) := by
  induction answered with
  | nil state => rfl
  | cons answer others ih => rw [List.map_cons, List.map_cons, ih]

theorem exists_inquiry_of_mem (requested : AnswersRequested ask) {answer : Answer}
    (member : answer ∈ given) :
    ∃ inquiry ∈ inquiries,
      ∀ source ∈ answer.attributes, source.logicalName ∈ inquiry.attributes := by
  induction answered with
  | nil state => cases member
  | cons first others ih =>
      rcases List.mem_cons.mp member with rfl | later
      · exact ⟨_, List.mem_cons_self, requested first⟩
      · obtain ⟨inquiry, inquiry_mem, named⟩ := ih later
        exact ⟨inquiry, List.mem_cons_of_mem _ inquiry_mem, named⟩

end Answered

theorem note_attributes {State : Type} {repository : Repository State} {state next : State}
    {inquiry : Inquiry} {outcome : Except SearchError (List Attribute)}
    (answer : repository.attributes inquiry.entity inquiry.attributes state = (outcome, next))
    (log : List Request) :
    repository.logged.attributes inquiry.entity inquiry.attributes (state, log) =
      (outcome, (next, log ++ [inquiry.request])) :=
  Repository.note_eq_iff.mpr ⟨answer, rfl⟩

/-- A logged repository answers alike and notes every request. -/
theorem Answered.logged {State : Type} {repository : Repository State} {state last : State}
    {inquiries : List Inquiry} {given : List Answer}
    (answered : Answered repository.attributes state inquiries given last) (log : List Request) :
    Answered repository.logged.attributes (state, log) inquiries given
      (last, log ++ inquiries.map Inquiry.request) := by
  induction answered generalizing log with
  | nil state => simpa using Answered.nil (state, log)
  | @cons state next last inquiry rest attributes later answer others ih =>
      have onward := ih (log ++ [inquiry.request])
      rw [List.append_assoc, List.singleton_append, ← List.map_cons] at onward
      exact .cons (note_attributes answer log) onward

/-- Filling in changes of an option only the type of its target and the name it is shown by. -/
theorem exists_fillAll_eq (answers : List Answer) (option : FilterOption) :
    ∃ type label, fillAll answers option = option.withTarget fun target =>
      { target with attributeType := type, displayName := label } := by
  refine fillAll_induction (fun filled => ∃ type label, filled = option.withTarget fun target =>
    { target with attributeType := type, displayName := label }) answers ?_ ⟨_, _, rfl⟩
  rintro answer _ _ ⟨type, label, rfl⟩
  rcases fillOption_eq_or answer.entity answer.attributes (option.withTarget fun target =>
    { target with attributeType := type, displayName := label }) with idle | ⟨source, filled⟩
  · exact ⟨type, label, idle⟩
  · exact ⟨_, _, filled⟩

/-- A run changes of an option only the entity, the type and the name to show of its target. -/
theorem exists_fillAll_withEntity_eq (root : String) (answers : List Answer)
    (option : FilterOption) :
    ∃ entity type label, fillAll answers (Inquiry.withEntity root option) =
      option.withTarget fun target =>
        { target with entityName := entity, attributeType := type, displayName := label } := by
  obtain ⟨type, label, filled⟩ := exists_fillAll_eq answers (Inquiry.withEntity root option)
  obtain ⟨entity, named⟩ := exists_withEntity_eq root option
  rw [filled, named]
  exact ⟨entity, type, label, rfl⟩

/-- The target of an option is on an entity that was asked about. -/
def WasAsked (root : String) (inquiries : List Inquiry) (option : FilterOption) : Prop :=
  ∃ inquiry ∈ inquiries, (Inquiry.withEntity root option).target.entityName = some inquiry.entity

/-- What a run that fails makes of an option if it gets answers to some inquiries only. -/
structure LeftBy (root : String) (answered : List Inquiry) (before after : FilterOption) :
    Prop where
  /-- Headings and options that name no attribute stay as they are. -/
  unchanged : before.isCategory = true ∨ Text.nonBlank? before.target.attributeName = none →
    after = before
  /-- Options on other entities get an entity, if they have none. -/
  pending : before.isCategory = false → (Text.nonBlank? before.target.attributeName).isSome →
    ¬ WasAsked root answered before →
    after = if (Text.nonBlank? before.target.entityName).isSome then before
      else standingOn root before
  /-- No link but the target changes, and of the target no more than its entity, its type and the
  name it is shown by. -/
  framed : ∃ entity type label, after = before.withTarget fun target =>
    { target with entityName := entity, attributeType := type, displayName := label }

section Options

variable {State : Type} {ask : AttributeSource State} {state last : State} {root : String}
  {options : List FilterOption} {option : FilterOption} {earlier later : List Inquiry}
  {given : List Answer}
  (inquiries_eq : Inquiry.ofOptions (options.map (Inquiry.withEntity root)) = earlier ++ later)
  (answered : Answered ask state earlier given last)
include answered

/-- No answer is about an option on an entity that was not asked about. -/
theorem fillAll_of_not_wasAsked (unasked : ¬ WasAsked root earlier option) :
    fillAll given (Inquiry.withEntity root option) = Inquiry.withEntity root option := by
  apply fillAll_of_forall_eq
  intro answer member
  apply fillOption_of_entityName_ne
  intro there
  have known := List.mem_map_of_mem (f := (·.entity)) member
  rw [answered.entities_eq] at known
  obtain ⟨inquiry, inquiry_mem, entity_eq⟩ := List.mem_map.mp known
  exact unasked ⟨inquiry, inquiry_mem, by rw [there, entity_eq]⟩

include inquiries_eq

/-- Answers hold no attribute without a name, so they fill in no option that names none. -/
theorem fillAll_of_unnamed (requested : AnswersRequested ask)
    (unnamed : Text.nonBlank? option.target.attributeName = none) :
    fillAll given option = option := by
  apply fillAll_of_forall_eq
  intro answer member
  obtain ⟨inquiry, inquiry_mem, names⟩ := answered.exists_inquiry_of_mem requested member
  refine (fillOption_congr answer.entity ?_).trans (fillOption_nil answer.entity option)
  intro name named
  rw [List.find?_nil, List.find?_eq_none]
  intro source source_mem same
  have asked_mem : inquiry ∈ Inquiry.ofOptions (options.map (Inquiry.withEntity root)) := by
    rw [inquiries_eq]
    exact List.mem_append_left later inquiry_mem
  obtain ⟨other, -, asked⟩ :=
    (Inquiry.mem_attributes_iff asked_mem).mp (names source source_mem)
  -- The attribute was asked for by its name, and what is asked for is not blank.
  rw [beq_iff_eq.mp same] at asked
  have solid := (Text.nonBlank?_eq_some_iff.mp (Inquiry.subject?_eq_some_iff.mp asked).2.1).2
  rw [Text.nonBlank?_eq_some_iff.mpr ⟨named, solid⟩] at unnamed
  cases unnamed

theorem leftBy_fillAll (requested : AnswersRequested ask) (option : FilterOption) :
    LeftBy root earlier option (fillAll given (Inquiry.withEntity root option)) where
  unchanged := by
    rintro (heading | unnamed)
    · have no_entity : Inquiry.withEntity root option = option := by
        simp [Inquiry.withEntity, heading]
      rw [no_entity]
      exact fillAll_of_forall_eq fun answer _ => fillOption_of_isCategory _ _ heading
    · have no_entity : Inquiry.withEntity root option = option := by
        simp [Inquiry.withEntity, unnamed]
      rw [no_entity]
      exact fillAll_of_unnamed inquiries_eq answered requested unnamed
  pending := by
    intro no_heading named unasked
    rw [fillAll_of_not_wasAsked answered unasked, withEntity_eq, lacksEntity, no_heading, named]
    cases Text.nonBlank? option.target.entityName <;> rfl
  framed := exists_fillAll_withEntity_eq root given option

omit answered in
/-- Further answers are about other entities than those that were asked about before. -/
theorem fillAll_append_of_wasAsked {more : List Answer}
    (more_entities : more.map (·.entity) = later.map (·.entity))
    (asked : WasAsked root earlier option) :
    fillAll (given ++ more) (Inquiry.withEntity root option) =
      fillAll given (Inquiry.withEntity root option) := by
  obtain ⟨inquiry, inquiry_mem, there⟩ := asked
  rw [fillAll_append]
  apply fillAll_of_forall_eq
  intro answer member
  apply fillOption_of_entityName_ne
  have kept : (fillAll given (Inquiry.withEntity root option)).target.entityName =
      some inquiry.entity := by
    obtain ⟨type, label, filled⟩ := exists_fillAll_eq given (Inquiry.withEntity root option)
    rw [filled]
    exact there
  have different := Inquiry.nodup_entities_ofOptions (options.map (Inquiry.withEntity root))
  rw [inquiries_eq, List.map_append, List.nodup_append] at different
  have later_mem := List.mem_map_of_mem (f := (·.entity)) member
  rw [more_entities] at later_mem
  rw [kept]
  intro same
  exact different.2.2 _ (List.mem_map_of_mem (f := (·.entity)) inquiry_mem) _ later_mem
    (Option.some.inj same)

end Options

section Runs

variable {State : Type} {ask : AttributeSource State} {state middle last : State} {root : String}
  {options : List FilterOption} {earlier : List Inquiry} {given : List Answer}
  (answered : Answered ask state earlier given middle)
include answered

/-- A run that succeeds fills every option in from all answers. -/
theorem fillOptions_of_answered
    (inquiries_eq : Inquiry.ofOptions (options.map (Inquiry.withEntity root)) = earlier) :
    fillOptions ask root options state =
      ((options.map fun option => fillAll given (Inquiry.withEntity root option), none),
        middle) := by
  have run := answered.answerInquiries_append [] (options.map (Inquiry.withEntity root))
  rw [List.append_nil, answerInquiries, List.map_map] at run
  rw [fillOptions, inquiries_eq, run]
  rfl

/-- A run that fails fills every option in from the answers before the failure. -/
theorem fillOptions_of_fails {later : List Inquiry} {failing : Inquiry}
    (inquiries_eq : Inquiry.ofOptions (options.map (Inquiry.withEntity root)) =
      earlier ++ failing :: later)
    {error : SearchError}
    (fails : ask failing.entity failing.attributes middle = (.error error, last)) :
    fillOptions ask root options state =
      ((options.map fun option => fillAll given (Inquiry.withEntity root option), some error),
        last) := by
  have run := answered.answerInquiries_append (failing :: later)
    (options.map (Inquiry.withEntity root))
  rw [answerInquiries, fails, List.map_map] at run
  rw [fillOptions, inquiries_eq, run]
  rfl

end Runs

/-- A request that fails ends the filling in with its error, no request is made after it, and the
options on the entities that were asked about before are as after a run that gets the same answers
and succeeds. Of the others, those that name an attribute without an entity are put on the searched
one, and nothing else changes. -/
def FailsCleanly {State : Type} (repository : Repository State) : Prop :=
  ∀ {root : String} {options : List FilterOption} {earlier later : List Inquiry} {failing : Inquiry}
    {given : List Answer} {state middle last : State} {error : SearchError},
    Inquiry.ofOptions (options.map (Inquiry.withEntity root)) = earlier ++ failing :: later →
    Answered repository.attributes state earlier given middle →
    repository.attributes failing.entity failing.attributes middle = (.error error, last) →
    ∃ left,
      fillOptions repository.attributes root options state = ((left, some error), last) ∧
      (∀ log, fillOptions repository.logged.attributes root options (state, log) =
        ((left, some error), (last, log ++ (earlier ++ [failing]).map Inquiry.request))) ∧
      List.Forall₂ (LeftBy root earlier) options left ∧
      ∀ {Other : Type} {complete : AttributeSource Other} {first final : Other}
        {more : List Answer},
        Answered complete first (earlier ++ failing :: later) (given ++ more) final →
        ∃ filled, fillOptions complete root options first = ((filled, none), final) ∧
          ∀ (index : Nat) (option : FilterOption), options[index]? = some option →
            WasAsked root earlier option → left[index]? = filled[index]?

theorem failsCleanly_of_answersRequested {State : Type} {repository : Repository State}
    (requested : AnswersRequested repository.attributes) : FailsCleanly repository := by
  intro root options earlier later failing given state middle last error inquiries_eq answered fails
  refine ⟨options.map fun option => fillAll given (Inquiry.withEntity root option),
    fillOptions_of_fails answered inquiries_eq fails, fun log => ?_, ?_, ?_⟩
  · rw [fillOptions_of_fails (answered.logged log) inquiries_eq (note_attributes fails _),
      List.map_append, List.append_assoc]
    rfl
  · rw [List.forall₂_map_right_iff, List.forall₂_same]
    exact fun option _ => leftBy_fillAll inquiries_eq answered requested option
  · intro Other complete first final more succeeds
    refine ⟨_, fillOptions_of_answered succeeds inquiries_eq, fun index option found asked => ?_⟩
    have more_entities : more.map (·.entity) = (failing :: later).map (·.entity) := by
      have entities_eq := succeeds.entities_eq
      rw [List.map_append, List.map_append, answered.entities_eq] at entities_eq
      exact List.append_cancel_left entities_eq
    rw [List.getElem?_map, List.getElem?_map, found, Option.map_some, Option.map_some,
      fillAll_append_of_wasAsked inquiries_eq more_entities asked]

/-- Filling in fails cleanly from every repository that answers with the attributes asked for, hence
from a directory of fixtures and from the web service. -/
theorem fillOptions_failsCleanly :
    (∀ (State : Type) (repository : Repository State), AnswersRequested repository.attributes →
      FailsCleanly repository) ∧
    FailsCleanly Fixtures.repository ∧
    ∀ (State : Type) (config : WebConfig) (exchange : Exchange State),
      FailsCleanly (WebService.repository config exchange) :=
  ⟨fun _ _ requested => failsCleanly_of_answersRequested requested,
    failsCleanly_of_answersRequested answersRequested_fixtures,
    fun _ config exchange =>
      failsCleanly_of_answersRequested (answersRequested_webService config exchange)⟩

/-- The second of two requests fails for want of a file. -/
theorem fillOptions_failsCleanly_fixtures :
    let file : FileContent := .text (Json.object [("value", .array
      [.object [("LogicalName", .text "name"), ("AttributeType", .text "String")]])]).compact
    let fixtures : Fixtures := ⟨"fixtures", [("account-attributes-md.json", file)]⟩
    let name : FilterLink := { FilterLink.none with attributeName := some "name" }
    let near : FilterLink := { FilterLink.none with fromAttribute := some "primarycontactid" }
    let far : FilterLink :=
      { FilterLink.none with
        attributeName := some "fullname", entityName := some "contact"
        toAttribute := some "contactid" }
    let options : List FilterOption := [.single name, ⟨[near], far⟩]
    ∃ left,
      fillOptions Fixtures.repository.attributes "account" options fixtures =
        ((left, some (.notFound "fixture" (some "contact-attributes-md.json"))), fixtures) ∧
      (∀ log, fillOptions Fixtures.repository.logged.attributes "account" options (fixtures, log) =
        ((left, some (.notFound "fixture" (some "contact-attributes-md.json"))),
          (fixtures, log ++
            [.attributes "account" ["name"], .attributes "contact" ["fullname"]]))) ∧
      List.Forall₂ (LeftBy "account" [⟨"account", ["name"]⟩]) options left := by
  intro file fixtures name near far options
  have kept (entity : String) (names : List String) :
      (Fixtures.repository.attributes entity names fixtures).2 = fixtures := by
    obtain ⟨_, rfl, answered⟩ := Fixtures.answersFrom fixtures entity names fixtures rfl
    rw [answered]
  have answer : Fixtures.repository.attributes "account" ["name"] fixtures =
      (.ok [⟨"name", some "String", none⟩], fixtures) := Prod.ext (by decide +kernel) (kept ..)
  have failure : Fixtures.repository.attributes "contact" ["fullname"] fixtures =
      (.error (.notFound "fixture" (some "contact-attributes-md.json")), fixtures) :=
    Prod.ext (by decide +kernel) (kept ..)
  have inquiries_eq : Inquiry.ofOptions (options.map (Inquiry.withEntity "account")) =
      [⟨"account", ["name"]⟩] ++ ⟨"contact", ["fullname"]⟩ :: [] := by decide
  obtain ⟨left, outcome, requests, left_by, -⟩ :=
    fillOptions_failsCleanly.2.1 inquiries_eq (.cons answer (.nil fixtures)) failure
  exact ⟨left, outcome, requests, left_by⟩

end Metadata

end EntitySearch
