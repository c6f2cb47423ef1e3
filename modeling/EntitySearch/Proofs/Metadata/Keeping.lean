import EntitySearch.Proofs.Metadata.Asking

/-!
# What is still set after filling in

An option is filled in from one attribute at most, the first of its name in the answer about its
entity. Its type becomes the type of that attribute, also if the attribute has none. The entity and
the name to show stay as they are if they are set, and everything else stays in any case.
-/

namespace EntitySearch

namespace Metadata

/-- The attribute that an option is filled in from. -/
def attributeFor? (answers : List Answer) (option : FilterOption) : Option Attribute :=
  if option.isCategory then none
  else
    match answers.find? fun answer => some answer.entity == option.target.entityName with
    | none => none
    | some answer =>
        answer.attributes.find? fun source => some source.logicalName == option.target.attributeName

/-- Answers about different entities fill an option in from one attribute, or not at all. -/
theorem fillAll_eq_elim {answers : List Answer} (different : (answers.map (·.entity)).Nodup)
    (option : FilterOption) :
    fillAll answers option =
      (attributeFor? answers option).elim option fun source => option.withTarget (fillLink source) := by
  rw [attributeFor?]
  by_cases heading : option.isCategory = true
  · rw [if_pos heading]
    exact fillAll_of_forall_eq fun answer _ => fillOption_of_isCategory _ _ heading
  rw [if_neg heading]
  cases there : answers.find? fun answer => some answer.entity == option.target.entityName with
  | none =>
      apply fillAll_of_forall_eq
      intro answer member
      have elsewhere := List.find?_eq_none.mp there answer member
      exact fillOption_of_entityName_ne _ fun same => elsewhere (beq_iff_eq.mpr same.symm)
  | some answer =>
      have same : some answer.entity = option.target.entityName := by
        simpa using List.find?_some there
      rw [fillAll_eq_fillOption different (List.mem_of_find?_eq_some there) same.symm, fillOption]
      simp only [heading, ← same, bne_self_eq_false, Bool.or_self]
      cases answer.attributes.find? fun source =>
        some source.logicalName == option.target.attributeName <;> rfl

/-- The entities of the answers are among those that were asked about, in the same order. -/
theorem entities_answers_sublist {State : Type} (ask : AttributeSource State)
    (inquiries : List Inquiry) (state : State) :
    ((answers ask inquiries state).map (·.entity)).Sublist (inquiries.map (·.entity)) := by
  induction inquiries generalizing state with
  | nil => exact .slnil
  | cons inquiry rest ih =>
      rw [answers]
      rcases ask inquiry.entity inquiry.attributes state with ⟨error | attributes, next⟩
      · exact List.nil_sublist _
      · exact (ih next).cons_cons inquiry.entity

theorem nodup_entities_due (root : String) (options : List FilterOption) :
    ((Inquiry.due root options).map (·.entity)).Nodup := by
  rw [← Inquiry.ofOptions_withEntity]
  exact Inquiry.nodup_entities_ofOptions _

/-- A label of metadata does not replace a name to show. -/
theorem displayName_fillLink (source : Attribute) {link : FilterLink} {name : String}
    (shown : Text.nonBlank? link.displayName = some name) :
    (fillLink source link).displayName = some name := by
  rw [fillLink, shown]
  exact (Text.nonBlank?_eq_some_iff.mp shown).1

/-- What an option had set before it was filled in is set afterwards, except for a type that gave way
to an attribute without one. -/
structure Kept (root : String) (given : List Answer) (before after : FilterOption) : Prop where
  displayName : ∀ {name}, Text.nonBlank? before.target.displayName = some name →
    after.target.displayName = some name
  entityName : ∀ {name}, Text.nonBlank? before.target.entityName = some name →
    after.target.entityName = some name
  attributeType : before.target.attributeType.isSome →
    (after.target.attributeType = none ↔
      ∃ source, attributeFor? given (Inquiry.withEntity root before) = some source ∧
        source.type = none)
  /-- Nothing but these three of the target changes. -/
  framed : ∃ entity type label, after = before.withTarget fun target =>
    { target with entityName := entity, attributeType := type, displayName := label }

theorem kept_fillAll {given : List Answer} (different : (given.map (·.entity)).Nodup)
    (root : String) (option : FilterOption) :
    Kept root given option (fillAll given (Inquiry.withEntity root option)) where
  displayName := by
    intro name shown
    rw [fillAll_eq_elim different]
    obtain ⟨entity, named⟩ := exists_withEntity_eq root option
    cases attributeFor? given (Inquiry.withEntity root option) with
    | none =>
        rw [named]
        exact (Text.nonBlank?_eq_some_iff.mp shown).1
    | some source =>
        rw [named]
        exact displayName_fillLink source shown
  entityName := by
    intro name there
    have same : Inquiry.withEntity root option = option := by simp [Inquiry.withEntity, there]
    obtain ⟨type, label, filled⟩ := exists_fillAll_eq given option
    rw [same, filled]
    exact (Text.nonBlank?_eq_some_iff.mp there).1
  attributeType := by
    intro typed
    rw [fillAll_eq_elim different]
    cases attributeFor? given (Inquiry.withEntity root option) with
    | none =>
        have still : (Inquiry.withEntity root option).target.attributeType ≠ none := by
          obtain ⟨entity, named⟩ := exists_withEntity_eq root option
          rw [named]
          exact Option.isSome_iff_ne_none.mp typed
        simpa using still
    | some source => simp [Chain.withTarget, fillLink]
  framed := exists_fillAll_withEntity_eq root given option

/-- Whatever a repository answers, and also when it fails, filling in keeps what is set in an option.
Only its type is lost, exactly if an attribute without a type was found for it. -/
theorem kept_fillOptions {State : Type} (ask : AttributeSource State) (root : String)
    (options : List FilterOption) (state : State) :
    List.Forall₂ (Kept root (answers ask (Inquiry.due root options) state)) options
      (fillOptions ask root options state).1.1 := by
  rw [options_fillOptions, Inquiry.ofOptions_withEntity, List.forall₂_map_right_iff,
    List.forall₂_same]
  have different := (entities_answers_sublist ask _ state).nodup (nodup_entities_due root options)
  exact fun option _ => kept_fillAll different root option

/-- The type, the name to show and the entity of a target are set afterwards if they were before. -/
structure StillSet (before after : FilterOption) : Prop where
  attributeType : before.target.attributeType.isSome → after.target.attributeType.isSome
  displayName : (Text.nonBlank? before.target.displayName).isSome → after.target.displayName.isSome
  entityName : (Text.nonBlank? before.target.entityName).isSome → after.target.entityName.isSome

/-- A directory that describes an attribute without its type makes an option lose its type. -/
theorem not_stillSet_fillOptions :
    ¬ ∀ (State : Type) (ask : AttributeSource State) (root : String) (options : List FilterOption)
      (state : State), List.Forall₂ StillSet options (fillOptions ask root options state).1.1 := by
  intro set
  let file : FileContent := .text
    (Json.object [("value", .array [.object [("LogicalName", .text "name")]])]).compact
  let fixtures : Fixtures := ⟨"fixtures", [("account-attributes-md.json", file)]⟩
  have same := set Fixtures Fixtures.repository.attributes "account"
    [.single (FilterLink.ofAttribute "name" "String")] fixtures
  have filled : (fillOptions Fixtures.repository.attributes "account"
      [.single (FilterLink.ofAttribute "name" "String")] fixtures).1.1 =
      [.single { FilterLink.none with attributeName := some "name", entityName := some "account" }] :=
    by decide +kernel
  rw [filled, List.forall₂_cons] at same
  exact absurd (same.1.attributeType rfl) Bool.false_ne_true

end Metadata

end EntitySearch
