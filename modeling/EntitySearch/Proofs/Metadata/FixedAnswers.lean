import EntitySearch.Metadata.Fixtures
import EntitySearch.Metadata.WebService
import EntitySearch.Proofs.Metadata.Filling
import EntitySearch.Proofs.Metadata.Sessions

/-!
# Repositories with fixed answers

A directory of fixtures, and a service that answers an address always alike, hold a fixed list of
attributes for every entity or refuse the entity. They look the attributes asked for up in that
list by name.
-/

namespace EntitySearch

namespace Metadata

/-- What is found by a name among the attributes of given names. -/
theorem Attribute.find?_named (names : List String) (source : List Attribute) (name : String) :
    (Attribute.named names source).find? (·.logicalName == name) =
      if name ∈ names then source.find? (·.logicalName == name) else none := by
  rw [Attribute.named]
  induction names with
  | nil => simp
  | cons first rest ih =>
      rw [List.filterMap_cons]
      cases found : source.find? (·.logicalName == first) with
      | none =>
          rw [ih]
          by_cases here : name = first
          · simp [here, found]
          · simp [here]
      | some record =>
          have named : record.logicalName = first := by
            simpa using List.find?_some found
          rw [List.find?_cons, ih, named]
          by_cases here : first = name
          · subst here
            simp [found]
          · have skipped : (first == name) = false := by simp [here]
            simp [skipped, Ne.symm here]

/-- A repository takes its answers about attributes from a source that is fixed for every entity, in
all the states that it goes through. -/
def AnswersFrom {State : Type} (ask : AttributeSource State)
    (source : String → Except SearchError (List Attribute)) (Steady : State → Prop) : Prop :=
  ∀ entity names state, Steady state →
    ∃ next, Steady next ∧
      ask entity names state = ((source entity).map (Attribute.named names), next)

/-- The attributes that a source holds for an entity; none if it refuses the entity. -/
def heldBy (source : String → Except SearchError (List Attribute)) (entity : String) :
    List Attribute :=
  (source entity).toOption.getD []

namespace AnswersFrom

variable {State : Type} {ask : AttributeSource State}
  {source : String → Except SearchError (List Attribute)} {Steady : State → Prop}
  (fixed : AnswersFrom ask source Steady)
include fixed

/-- All inquiries succeed exactly if the source refuses none of their entities. -/
theorem answerInquiries_eq_none_iff (inquiries : List Inquiry) (options : List FilterOption)
    {state : State} (steady : Steady state) :
    (answerInquiries ask inquiries options state).1.2 = none ↔
      ∀ inquiry ∈ inquiries, (source inquiry.entity).isOk = true := by
  induction inquiries generalizing options state with
  | nil => simp [answerInquiries]
  | cons inquiry rest ih =>
      obtain ⟨next, later, asked⟩ := fixed inquiry.entity inquiry.attributes state steady
      rw [answerInquiries, asked, List.forall_mem_cons]
      cases source inquiry.entity with
      | error error => simp [Except.map, Except.isOk, Except.toBool]
      | ok held => simp [Except.map, Except.isOk, Except.toBool, ih _ later]

/-- What is answered to inquiries that all succeed. -/
theorem answers_eq {inquiries : List Inquiry} {state : State} (steady : Steady state)
    (held : ∀ inquiry ∈ inquiries, (source inquiry.entity).isOk = true) :
    answers ask inquiries state = inquiries.map fun inquiry =>
      ⟨inquiry.entity, Attribute.named inquiry.attributes (heldBy source inquiry.entity)⟩ := by
  induction inquiries generalizing state with
  | nil => rfl
  | cons inquiry rest ih =>
      obtain ⟨next, later, asked⟩ := fixed inquiry.entity inquiry.attributes state steady
      obtain ⟨first_held, rest_held⟩ := List.forall_mem_cons.mp held
      rw [answers, asked, List.map_cons, heldBy]
      cases given : source inquiry.entity with
      | error error => rw [given] at first_held; cases first_held
      | ok attributes => simp [Except.map, Except.toOption, ih later rest_held]

end AnswersFrom

end Metadata

/-- Reading does not change a directory. -/
theorem Fixtures.read_snd {Answer : Type} (decode : Json → Option Answer) (name : String)
    (fixtures : Fixtures) : (Fixtures.read decode name fixtures).2 = fixtures := by
  rw [Fixtures.read]
  split
  · rfl
  · rfl
  · split <;> rfl

/-- A directory of fixtures answers from its files. -/
theorem Fixtures.answersFrom (fixtures : Fixtures) :
    Metadata.AnswersFrom Fixtures.repository.attributes
      (fun entity => (Fixtures.read (Metadata.collection? Metadata.Attribute.ofDocument?)
        (entity ++ "-attributes-md.json") fixtures).1)
      (· = fixtures) := by
  rintro entity names _ rfl
  refine ⟨_, rfl, (Session.bind_pure_apply _ _ _).trans ?_⟩
  rw [Fixtures.read_snd]

/-- A service that answers every address always alike answers from these responses. -/
theorem WebService.answersFrom {State : Type} (config : WebConfig) {exchange : Exchange State}
    {respond : String → Option WebResponse} {Steady : State → Prop}
    (alike : ∀ url state, Steady state →
      (exchange url state).1 = respond url ∧ Steady (exchange url state).2) :
    Metadata.AnswersFrom (WebService.repository config exchange).attributes
      (fun entity =>
        match respond (config.attributesUrl entity) with
        | none => .error (.http "getAttributesMetadata")
        | some response =>
            WebService.answer (Metadata.collection? Metadata.Attribute.ofDocument?)
              "getAttributesMetadata" (config.attributesUrl entity) response)
      Steady := by
  intro entity names state steady
  obtain ⟨responded, later⟩ := alike (config.attributesUrl entity) state steady
  refine ⟨_, later, (Session.bind_pure_apply _ _ _).trans ?_⟩
  simp only [WebService.get, ← responded]
  rcases exchange (config.attributesUrl entity) state with ⟨response | response, next⟩ <;> rfl

end EntitySearch
