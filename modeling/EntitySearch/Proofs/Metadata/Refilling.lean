import EntitySearch.Proofs.Metadata.Keeping

/-!
# Filling in again

Options that were filled in offer the same attributes as before, all of their targets are on an
entity, and the answers that filled them in have nothing to add to them. So the next run asks the
same and changes nothing, as long as the repository answers as it did.
-/

namespace EntitySearch

namespace Metadata

/-! ## One option -/

section Frame

variable (type label : Option String) (option : FilterOption)

theorem lacksEntity_withTarget :
    lacksEntity (option.withTarget fun target =>
      { target with attributeType := type, displayName := label }) = lacksEntity option := by
  rw [lacksEntity, isCategory_withTarget rfl]
  rfl

theorem Inquiry.subject?_withTarget :
    subject? (option.withTarget fun target =>
      { target with attributeType := type, displayName := label }) = subject? option := by
  rw [subject?, isCategory_withTarget rfl]
  rfl

theorem attributeFor?_withTarget (answers : List Answer) :
    attributeFor? answers (option.withTarget fun target =>
      { target with attributeType := type, displayName := label }) =
        attributeFor? answers option := by
  rw [attributeFor?, isCategory_withTarget rfl]
  rfl

end Frame

/-- A target that is on an entity, or on the searched one though that has no name, stays there. -/
theorem withEntity_eq_self {root : String} {option : FilterOption}
    (there : lacksEntity option = true → option.target.entityName = some root) :
    Inquiry.withEntity root option = option := by
  rw [withEntity_eq]
  split_ifs with lacks
  · rw [standingOn, ← there lacks]
    rfl
  · rfl

theorem entityName_withEntity {root : String} {option : FilterOption}
    (lacks : lacksEntity (Inquiry.withEntity root option) = true) :
    (Inquiry.withEntity root option).target.entityName = some root := by
  rw [withEntity_eq] at lacks ⊢
  split_ifs at lacks ⊢
  · rfl
  · contradiction

theorem withEntity_fillAll (root : String) (answers : List Answer) (option : FilterOption) :
    Inquiry.withEntity root (fillAll answers (Inquiry.withEntity root option)) =
      fillAll answers (Inquiry.withEntity root option) := by
  obtain ⟨type, label, filled⟩ := exists_fillAll_eq answers (Inquiry.withEntity root option)
  rw [filled]
  apply withEntity_eq_self
  rw [lacksEntity_withTarget]
  exact entityName_withEntity

theorem offered?_fillAll (root : String) (answers : List Answer) (option : FilterOption) :
    Inquiry.offered? root (fillAll answers (Inquiry.withEntity root option)) =
      Inquiry.offered? root option := by
  obtain ⟨type, label, filled⟩ := exists_fillAll_eq answers (Inquiry.withEntity root option)
  rw [← Inquiry.subject?_withEntity, withEntity_fillAll, filled, Inquiry.subject?_withTarget,
    Inquiry.subject?_withEntity]

/-- A link that has the label of an attribute gets no other one from it, blank or not. -/
theorem fillLink_fillLink (source : Attribute) (link : FilterLink) :
    fillLink source (fillLink source link) = fillLink source link := by
  rw [fillLink]
  simp only [fillLink]
  split_ifs <;> rfl

theorem fillAll_fillAll {answers : List Answer} (different : (answers.map (·.entity)).Nodup)
    (option : FilterOption) :
    fillAll answers (fillAll answers option) = fillAll answers option := by
  have same : attributeFor? answers (fillAll answers option) = attributeFor? answers option := by
    obtain ⟨type, label, filled⟩ := exists_fillAll_eq answers option
    rw [filled, attributeFor?_withTarget]
  rw [fillAll_eq_elim different (fillAll answers option), same, fillAll_eq_elim different option]
  cases attributeFor? answers option with
  | none => rfl
  | some source => exact congrArg (Chain.mk option.outer) (fillLink_fillLink source option.target)

/-! ## A run after another -/

/-- A repository answers a request always alike, in all the states that it goes through. -/
def AnswersAlike {State : Type} (ask : AttributeSource State)
    (answer : String → List String → Except SearchError (List Attribute)) (Steady : State → Prop) :
    Prop :=
  ∀ entity names state, Steady state →
    ∃ next, Steady next ∧ ask entity names state = (answer entity names, next)

/-- Looking attributes up in lists that do not change answers always alike. -/
theorem AnswersFrom.answersAlike {State : Type} {ask : AttributeSource State}
    {source : String → Except SearchError (List Attribute)} {Steady : State → Prop}
    (fixed : AnswersFrom ask source Steady) :
    AnswersAlike ask (fun entity names => (source entity).map (Attribute.named names)) Steady :=
  fixed

theorem exists_answered_of_succeeds {State : Type} {ask : AttributeSource State} {root : String}
    {options filled : List FilterOption} {state : State}
    (succeeds : (fillOptions ask root options state).1 = (filled, none)) :
    ∃ given next, Answered ask state (Inquiry.due root options) given next ∧
      filled = options.map fun option => fillAll given (Inquiry.withEntity root option) := by
  rcases answered_or_fails ask (Inquiry.due root options) state with
    ⟨given, next, answered⟩ |
    ⟨earlier, failing, later, given, middle, error, last, due_eq, answered, fails⟩
  · rw [fillOptions_of_answered answered (Inquiry.ofOptions_withEntity root options)] at succeeds
    exact ⟨given, next, answered, (Prod.mk.inj succeeds).1.symm⟩
  · rw [fillOptions_of_fails answered ((Inquiry.ofOptions_withEntity root options).trans due_eq)
      fails] at succeeds
    cases (Prod.mk.inj succeeds).2

theorem due_map_fillAll (root : String) (answers : List Answer) (options : List FilterOption) :
    Inquiry.due root (options.map fun option => fillAll answers (Inquiry.withEntity root option)) =
      Inquiry.due root options := by
  rw [Inquiry.due, List.filterMap_map]
  exact congrArg Inquiry.grouped
    (List.filterMap_congr fun option _ => offered?_fillAll root answers option)

namespace AnswersAlike

variable {State : Type}

/-- Inquiries that were answered are answered the same again. -/
theorem again {ask : AttributeSource State}
    {answer : String → List String → Except SearchError (List Attribute)} {Steady : State → Prop}
    (alike : AnswersAlike ask answer Steady) {state last : State} {inquiries : List Inquiry}
    {given : List Answer} (answered : Answered ask state inquiries given last)
    (steady : Steady state) :
    Steady last ∧ ∀ other, Steady other → ∃ final, Answered ask other inquiries given final := by
  induction answered with
  | nil state => exact ⟨steady, fun other _ => ⟨other, .nil other⟩⟩
  | @cons state next last inquiry rest attributes later asked others ih =>
      obtain ⟨after, steady_after, first⟩ := alike inquiry.entity inquiry.attributes state steady
      obtain ⟨outcome_eq, rfl⟩ := Prod.mk.inj (first.symm.trans asked)
      obtain ⟨steady_last, rest_again⟩ := ih steady_after
      refine ⟨steady_last, fun other steady_other => ?_⟩
      obtain ⟨onward, steady_onward, second⟩ :=
        alike inquiry.entity inquiry.attributes other steady_other
      obtain ⟨final, answered_again⟩ := rest_again onward steady_onward
      exact ⟨final, .cons (second.trans (by rw [outcome_eq])) answered_again⟩

/-- A run over options that were filled in without a failure makes the same requests again, succeeds
and leaves every option as it is. -/
theorem fillOptions_again {repository : Repository State}
    {answer : String → List String → Except SearchError (List Attribute)} {Steady : State → Prop}
    (alike : AnswersAlike repository.attributes answer Steady) {root : String}
    {options filled : List FilterOption} {state : State} (steady : Steady state)
    (succeeds : (fillOptions repository.attributes root options state).1 = (filled, none)) :
    ∃ (requests : List Request) (next : State),
      (∀ log, fillOptions repository.logged.attributes root options (state, log) =
        ((filled, none), (next, log ++ requests))) ∧
      Steady next ∧
      ∀ again, Steady again → ∃ last,
        ∀ log, fillOptions repository.logged.attributes root filled (again, log) =
          ((filled, none), (last, log ++ requests)) := by
  obtain ⟨given, next, answered, rfl⟩ := exists_answered_of_succeeds succeeds
  have different : (given.map (·.entity)).Nodup := by
    rw [answered.entities_eq]
    exact nodup_entities_due root options
  obtain ⟨steady_next, answered_again⟩ := alike.again answered steady
  refine ⟨(Inquiry.due root options).map Inquiry.request, next, fun log =>
    fillOptions_of_answered (answered.logged log) (Inquiry.ofOptions_withEntity root options),
    steady_next, fun other steady_other => ?_⟩
  obtain ⟨last, repeated⟩ := answered_again other steady_other
  refine ⟨last, fun log => ?_⟩
  rw [fillOptions_of_answered (repeated.logged log)
    ((Inquiry.ofOptions_withEntity root _).trans (due_map_fillAll root given options)),
    List.map_map]
  have unchanged (option : FilterOption) :
      fillAll given (Inquiry.withEntity root
        (fillAll given (Inquiry.withEntity root option))) =
          fillAll given (Inquiry.withEntity root option) := by
    rw [withEntity_fillAll, fillAll_fillAll different]
  simp only [Function.comp_def, unchanged]

end AnswersAlike

/-- Two options, one with a blank name to show and no label found for it, filled in twice. -/
theorem fillOptions_again_fixtures :
    let file (name type : String) : FileContent :=
      .text (Json.object [("value", .array
        [.object [("LogicalName", .text name), ("AttributeType", .text type)]])]).compact
    let fixtures : Fixtures :=
      ⟨"fixtures",
        [("account-attributes-md.json", file "name" "String"),
          ("contact-attributes-md.json", file "fullname" "Memo")]⟩
    let name : FilterLink :=
      { FilterLink.none with attributeName := some "name", displayName := some " " }
    let near : FilterLink := { FilterLink.none with fromAttribute := some "primarycontactid" }
    let far : FilterLink :=
      { FilterLink.none with
        attributeName := some "fullname", entityName := some "contact"
        toAttribute := some "contactid" }
    let filledName : FilterLink :=
      { FilterLink.ofAttribute "name" "String" with entityName := some "account" }
    let filledFar : FilterLink := { far with attributeType := some "Memo" }
    let filled : List FilterOption := [.single filledName, ⟨[near], filledFar⟩]
    ∃ (requests : List Request) (next : Fixtures),
      (∀ log, fillOptions Fixtures.repository.logged.attributes "account"
        [.single name, ⟨[near], far⟩] (fixtures, log) =
          ((filled, none), (next, log ++ requests))) ∧
      next = fixtures ∧
      ∀ again, again = fixtures → ∃ last,
        ∀ log, fillOptions Fixtures.repository.logged.attributes "account" filled (again, log) =
          ((filled, none), (last, log ++ requests)) := by
  intro file fixtures name near far filledName filledFar filled
  exact (Fixtures.answersFrom fixtures).answersAlike.fillOptions_again rfl (by decide +kernel)

end Metadata

end EntitySearch
