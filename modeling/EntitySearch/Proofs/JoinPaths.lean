import EntitySearch.Scheme.FilterOption
import Mathlib.Data.List.Forall2
import Mathlib.Tactic.SplitIfs

/-!
# Join paths

A join path is read off the entities and the attributes to join by that the links of a chain name,
and off nothing else. It leads to the entity that the last link names.
-/

namespace EntitySearch

/-- The links name the same entity and the same attributes to join by. -/
def Link.JoinsLike (link other : Link) : Prop :=
  link.entityName = other.entityName ∧ link.fromAttribute = other.fromAttribute ∧
    link.toAttribute = other.toAttribute

theorem Link.JoinsLike.refl (link : Link) : link.JoinsLike link :=
  ⟨rfl, rfl, rfl⟩

/-- The entity that the element at the end of a path names. The path starts at an entity. -/
def Hop.entityAt : String → List Hop → String
  | entity, [] => entity
  | _, hop :: path => entityAt hop.entityName path

namespace Hop

theorem between?_congr (nearNames : Bool) {near near' far far' : Link}
    (near_same : near.JoinsLike near') (far_same : far.JoinsLike far') :
    between? nearNames near far = between? nearNames near' far' := by
  cases nearNames <;> simp [between?, near_same.2.1, far_same.1, far_same.2.1, far_same.2.2]

theorem along?_congr (nearNames : Bool) {links others : List Link}
    (same : List.Forall₂ Link.JoinsLike links others) :
    along? nearNames links = along? nearNames others := by
  induction same with
  | nil => rfl
  | cons near_same rest_same ih =>
      cases rest_same with
      | nil => simp [along?]
      | cons far_same onward => rw [along?, along?, between?_congr nearNames near_same far_same, ih]

theorem entityName_of_between? {nearNames : Bool} {near far : Link} {hop : Hop}
    (complete : between? nearNames near far = some hop) :
    Text.nonBlank? far.entityName = some hop.entityName := by
  rw [between?, Option.bind_eq_bind, Option.bind_eq_some_iff] at complete
  obtain ⟨entityName, named, sides⟩ := complete
  obtain ⟨fromAttribute, _, sides⟩ := Option.bind_eq_some_iff.mp sides
  obtain ⟨toAttribute, _, made⟩ := Option.bind_eq_some_iff.mp sides
  obtain rfl := Option.some.inj made
  exact named

/-- The hops along some links lead to the entity that the last link names. -/
theorem entityAt_of_along? {nearNames : Bool} (entity : String) (near : Link) (middle : List Link)
    (target : Link) {hops : List Hop}
    (complete : along? nearNames (near :: (middle ++ [target])) = some hops) :
    Text.nonBlank? target.entityName = some (entityAt entity hops) := by
  -- Every hop forgets the entity before it, so the first one can be any.
  induction middle generalizing entity near hops with
  | nil =>
      have onward : along? nearNames [target] = some [] := by simp [along?]
      rw [List.nil_append, along?, onward] at complete
      cases first : between? nearNames near target with
      | none => rw [first] at complete; cases complete
      | some hop =>
          rw [first] at complete
          obtain rfl := Option.some.inj complete
          exact entityName_of_between? first
  | cons far middle ih =>
      rw [List.cons_append, along?] at complete
      cases first : between? nearNames near far with
      | none => rw [first] at complete; cases complete
      | some hop =>
          cases onward : along? nearNames (far :: (middle ++ [target])) with
          | none => rw [first, onward] at complete; cases complete
          | some later =>
              rw [first, onward] at complete
              obtain rfl := Option.some.inj complete
              exact ih hop.entityName far onward

end Hop

theorem Chain.root_map {First Second : Type} (f : First → Second) (chain : Chain First) :
    (chain.map f).root = f chain.root := by
  obtain ⟨outer, target⟩ := chain
  cases outer <;> rfl

/-- The join path does not change with what else a target says. -/
theorem Chain.joinPath?_congr {chain other : Chain Link} (outer_same : chain.outer = other.outer)
    (target_same : chain.target.JoinsLike other.target) : chain.joinPath? = other.joinPath? := by
  obtain ⟨outer, target⟩ := chain
  obtain ⟨_, target'⟩ := other
  obtain rfl := outer_same
  have root_same : (⟨outer, target⟩ : Chain Link).root.fromAttribute =
      (⟨outer, target'⟩ : Chain Link).root.fromAttribute := by
    cases outer with
    | nil => exact target_same.2.1
    | cons near middle => rfl
  have links_same : List.Forall₂ Link.JoinsLike (outer ++ [target]) (outer ++ [target']) :=
    List.rel_append (List.forall₂_same.mpr fun link _ => .refl link) (.cons target_same .nil)
  rw [joinPath?, joinPath?, root_same]
  exact Hop.along?_congr _ links_same

namespace FilterOption

theorem joinPath?_withTarget {option : FilterOption} {change : FilterLink → FilterLink}
    (same : (change option.target).toLink.JoinsLike option.target.toLink) :
    FilterOption.joinPath? (option.withTarget change) = option.joinPath? :=
  Chain.joinPath?_congr rfl same

/-- A join path ends at the entity that the target of its option names, or does not start. -/
theorem entityAt_joinPath? {option : FilterOption} {path : List Hop}
    (complete : option.joinPath? = some path) (entity : String) :
    if 1 < option.length then
      Text.nonBlank? option.target.entityName = some (Hop.entityAt entity path)
    else path = [] := by
  split_ifs with chained
  · obtain ⟨outer, target⟩ := option
    cases outer with
    | nil => simp [Chain.length] at chained
    | cons near middle =>
        have along := complete
        rw [joinPath?, Chain.joinPath?, joins, Chain.links_map, Chain.links, List.map_append,
          List.map_cons] at along
        exact Hop.entityAt_of_along? entity near.toLink (middle.map FilterLink.toLink)
          target.toLink along
  · have direct := option.joinPath?_eq_nil_iff.mpr (by omega)
    rw [complete] at direct
    exact Option.some.inj direct

end FilterOption

end EntitySearch
