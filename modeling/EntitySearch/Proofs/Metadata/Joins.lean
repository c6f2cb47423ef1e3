import EntitySearch.Proofs.JoinPaths
import EntitySearch.Proofs.Metadata.Filling

/-!
# Joins of options that are filled in

What answers fill in has no part in joins. Giving a target the searched entity has: a chain that
lacks nothing but the entity of its target becomes complete and leads back to the searched entity.
All other chains keep their join paths, complete or not.
-/

namespace EntitySearch

namespace Metadata

/-- The option with its target on an entity. -/
def standingOn (entity : String) (option : FilterOption) : FilterOption :=
  option.withTarget fun target => { target with entityName := some entity }

/-- The option offers an attribute, and its target names no entity. -/
def lacksEntity (option : FilterOption) : Bool :=
  !option.isCategory && (Text.nonBlank? option.target.attributeName).isSome &&
    (Text.nonBlank? option.target.entityName).isNone

/-- The path that a chain of several links gains with its target on the searched entity, if it
lacks the entity of its target and nothing else. -/
def gainedPath? (root : String) (option : FilterOption) : Option (List Hop) :=
  if lacksEntity option && 1 < option.length then (standingOn root option).joinPath? else none

/-- An option has the join path that it had before, unless it gained one that leads to the searched
entity. -/
def JoinsKept (root : String) (before after : FilterOption) : Prop :=
  match gainedPath? root before with
  | none => after.joinPath? = before.joinPath?
  | some path =>
      before.joinPath? = none ∧ after.joinPath? = some path ∧
        ∀ entity, Hop.entityAt entity path = root

theorem withEntity_eq (root : String) (option : FilterOption) :
    Inquiry.withEntity root option =
      if lacksEntity option then standingOn root option else option := by
  rw [Inquiry.withEntity, lacksEntity]
  cases option.isCategory <;> cases Text.nonBlank? option.target.attributeName <;>
    cases Text.nonBlank? option.target.entityName <;> rfl

/-- Giving a target an entity changes nothing else of it. -/
theorem exists_withEntity_eq (root : String) (option : FilterOption) :
    ∃ entity, Inquiry.withEntity root option =
      option.withTarget fun target => { target with entityName := entity } := by
  rw [withEntity_eq]
  split_ifs
  · exact ⟨some root, rfl⟩
  · exact ⟨option.target.entityName, rfl⟩

/-- A chain of several links is incomplete without the entity of its target. -/
theorem joinPath?_eq_none_of_lacksEntity {option : FilterOption}
    (lacks : lacksEntity option = true) (chained : 1 < option.length) : option.joinPath? = none := by
  cases complete : option.joinPath? with
  | none => rfl
  | some path =>
      have leads := FilterOption.entityAt_joinPath? complete ""
      rw [if_pos chained] at leads
      simp [lacksEntity, leads] at lacks

theorem entityAt_of_joinPath?_standingOn {root : String} {option : FilterOption} {path : List Hop}
    (complete : (standingOn root option).joinPath? = some path) (chained : 1 < option.length)
    (entity : String) : Hop.entityAt entity path = root := by
  have leads := FilterOption.entityAt_joinPath? complete entity
  rw [if_pos (show 1 < (standingOn root option).length from chained)] at leads
  exact (Option.some.inj (Text.nonBlank?_eq_some_iff.mp leads).1).symm

theorem joinsKept_withEntity (root : String) (option : FilterOption) :
    JoinsKept root option (Inquiry.withEntity root option) := by
  rw [withEntity_eq, JoinsKept, gainedPath?]
  cases lacks : lacksEntity option with
  | false => rfl
  | true =>
      by_cases chained : 1 < option.length
      · have incomplete := joinPath?_eq_none_of_lacksEntity lacks chained
        simp only [chained, decide_true, Bool.and_self, ite_true]
        cases gained : (standingOn root option).joinPath? with
        | none => exact incomplete.symm
        | some path =>
            exact ⟨incomplete, rfl, entityAt_of_joinPath?_standingOn gained chained⟩
      · have direct := option.joinPath?_eq_nil_iff.mpr (by omega)
        have still := (standingOn root option).joinPath?_eq_nil_iff.mpr (Nat.le_of_not_lt chained)
        simp [chained, direct, still]

theorem joinPath?_fillOption (entity : String) (attributes : List Attribute)
    (option : FilterOption) :
    (fillOption entity attributes option).joinPath? = option.joinPath? := by
  rcases fillOption_eq_or entity attributes option with idle | ⟨source, filled⟩
  · rw [idle]
  · rw [filled]
    exact FilterOption.joinPath?_withTarget ⟨rfl, rfl, rfl⟩

theorem joinPath?_fillAll (answers : List Answer) (option : FilterOption) :
    (fillAll answers option).joinPath? = option.joinPath? :=
  fillAll_induction (fun filled => filled.joinPath? = option.joinPath?) answers
    (fun answer _ filled kept =>
      (joinPath?_fillOption answer.entity answer.attributes filled).trans kept) rfl

/-- Whatever a repository answers, and also when it fails, an option that was filled in has the join
path that it had before. Only a chain that lacked nothing but the entity of its target is completed,
by a join to the searched entity. -/
theorem joinsKept_fillOptions {State : Type} (ask : AttributeSource State) (root : String)
    (options : List FilterOption) (state : State) :
    List.Forall₂ (JoinsKept root) options (fillOptions ask root options state).1.1 := by
  rw [options_fillOptions, List.forall₂_map_right_iff, List.forall₂_same]
  intro option _
  have kept := joinsKept_withEntity root option
  rw [JoinsKept] at kept ⊢
  rw [joinPath?_fillAll]
  exact kept

/-- Filling in can complete a chain that was incomplete: its target is put on the searched entity
even if a join leads to it. -/
theorem not_joinPath?_fillOptions :
    ¬ ∀ (State : Type) (ask : AttributeSource State) (root : String) (options : List FilterOption)
      (state : State),
      List.Forall₂ (fun before after => after.joinPath? = before.joinPath?) options
        (fillOptions ask root options state).1.1 := by
  intro kept
  let near : FilterLink := { FilterLink.none with fromAttribute := some "primarycontactid" }
  let far : FilterLink :=
    { FilterLink.none with
      attributeName := some "fullname", toAttribute := some "contactid" }
  let option : FilterOption := ⟨[near], far⟩
  have same := kept Unit (fun _ _ state => (.ok [], state)) "account" [option] ()
  have incomplete : option.joinPath? = none := rfl
  have completed : (standingOn "account" option).joinPath? =
      some [⟨"account", "primarycontactid", "contactid"⟩] := rfl
  have filled : (fillOptions (fun _ _ state => (.ok [], state)) "account" [option] ()).1.1 =
      [standingOn "account" option] := rfl
  rw [filled, List.forall₂_cons, completed, incomplete] at same
  cases same.1

end Metadata

end EntitySearch
