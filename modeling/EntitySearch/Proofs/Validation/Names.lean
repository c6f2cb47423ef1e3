import EntitySearch.Validation
import Mathlib.Algebra.BigOperators.Group.List.Basic
import Mathlib.Algebra.GroupWithZero.Nat
import Mathlib.Data.List.Nodup

/-!
# Names of entities

A report on settings counts the problems of every entity and one more for every entity that has the
name of one before it. Where nothing is reported, each entity is found by its name.
-/

namespace EntitySearch

namespace Settings

/-- How many names of a list also stand before their place in it. -/
def repetitions (names : List String) : Nat :=
  (names.mapIdx fun index name => (names.take index).contains name).count true

theorem length_reportAfter (earlier : List String) (entities : List EntityScheme) :
    (reportAfter earlier entities).length =
      (entities.map (·.report.length)).sum +
        ((entities.map (·.logicalName)).mapIdx fun index name =>
          earlier.contains name ||
            ((entities.map (·.logicalName)).take index).contains name).count true := by
  induction entities generalizing earlier with
  | nil => rfl
  | cons entity rest ih =>
      have names_before (index : Nat) (name : String) :
          (earlier.contains name ||
              ((entity.logicalName :: rest.map (·.logicalName)).take (index + 1)).contains name) =
            ((entity.logicalName :: earlier).contains name ||
              ((rest.map (·.logicalName)).take index).contains name) := by
        rw [List.take_succ_cons, List.contains_cons, List.contains_cons, Bool.or_left_comm,
          Bool.or_assoc]
      rw [reportAfter, List.length_append, List.length_append, ih, List.map_cons, List.map_cons,
        List.sum_cons, List.mapIdx_cons]
      simp only [names_before, List.take_zero, List.contains_nil, Bool.or_false, List.count_cons]
      cases earlier.contains entity.logicalName <;> simp <;> omega

theorem reportAfter_eq_nil_iff (earlier : List String) (entities : List EntityScheme) :
    reportAfter earlier entities = [] ↔
      ((entities.map (·.logicalName)).Nodup ∧ ∀ entity ∈ entities, entity.logicalName ∉ earlier) ∧
        ∀ entity ∈ entities, entity.report = [] := by
  induction entities generalizing earlier with
  | nil => simp [reportAfter]
  | cons entity rest ih =>
      have none_repeated :
          (if earlier.contains entity.logicalName then [repeatedEntity entity.logicalName]
            else []) = [] ↔ entity.logicalName ∉ earlier := by simp
      rw [reportAfter, List.append_eq_nil_iff, List.append_eq_nil_iff, none_repeated, ih,
        List.map_cons, List.nodup_cons, List.forall_mem_cons, List.forall_mem_cons]
      constructor
      · rintro ⟨⟨new, faultless⟩, ⟨different, later_new⟩, later_faultless⟩
        refine ⟨⟨⟨?_, different⟩, new, ?_⟩, faultless, later_faultless⟩
        · intro repeated
          obtain ⟨other, member, same⟩ := List.mem_map.mp repeated
          exact later_new other member (same ▸ List.mem_cons_self)
        · exact fun other member => fun repeated =>
            later_new other member (List.mem_cons_of_mem entity.logicalName repeated)
      · rintro ⟨⟨⟨unrepeated, different⟩, new, later_new⟩, faultless, later_faultless⟩
        refine ⟨⟨new, faultless⟩, ⟨different, ?_⟩, later_faultless⟩
        intro other member repeated
        rcases List.mem_cons.mp repeated with same | before
        · exact unrepeated (List.mem_map.mpr ⟨other, member, same⟩)
        · exact later_new other member before

/-- Among entities with different names, the first one with the name of one of them is that one. -/
theorem find?_logicalName {entities : List EntityScheme}
    (different : (entities.map (·.logicalName)).Nodup) {entity : EntityScheme}
    (member : entity ∈ entities) :
    entities.find? (·.logicalName == entity.logicalName) = some entity := by
  induction entities with
  | nil => cases member
  | cons first rest ih =>
      rw [List.map_cons, List.nodup_cons] at different
      rcases List.mem_cons.mp member with rfl | later
      · exact List.find?_cons_of_pos (beq_self_eq_true _)
      · have other : first.logicalName ≠ entity.logicalName := fun same =>
          different.1 (same ▸ List.mem_map_of_mem later)
        rw [List.find?_cons, beq_false_of_ne other]
        exact ih different.2 later

theorem modifyFirst_logicalName {entities : List EntityScheme}
    (different : (entities.map (·.logicalName)).Nodup) {index : Nat} {entity : EntityScheme}
    (there : entities[index]? = some entity) (change : EntityScheme → EntityScheme) :
    modifyFirst entity.logicalName change entities = entities.modify index change := by
  induction entities generalizing index with
  | nil => cases there
  | cons first rest ih =>
      rw [List.map_cons, List.nodup_cons] at different
      cases index with
      | zero =>
          obtain rfl := Option.some.inj there
          rw [modifyFirst, if_pos rfl, List.modify_zero_cons]
      | succ index =>
          rw [List.getElem?_cons_succ] at there
          have other : first.logicalName ≠ entity.logicalName := fun same =>
            different.1 (same ▸ List.mem_map_of_mem (List.mem_of_getElem? there))
          rw [modifyFirst, if_neg other, ih different.2 there, List.modify_succ_cons]

theorem entities_modifyEntity (settings : Settings) (name : String)
    (change : EntityScheme → EntityScheme) :
    (settings.modifyEntity name change).entities = modifyFirst name change settings.entities := by
  obtain ⟨_ | scheme⟩ := settings <;> rfl

/-- Nothing is reported exactly if the names differ and no entity has problems of its own. There are
as many problems as the entities have, and one for every repeated name. If there are none, then each
entity is the one that is found, and the one that is changed, by its name. -/
theorem report_names (settings : Settings) :
    let names := settings.entities.map (·.logicalName)
    (settings.report = [] ↔ names.Nodup ∧ ∀ entity ∈ settings.entities, entity.report = []) ∧
      settings.report.length =
        (settings.entities.map (·.report.length)).sum + repetitions names ∧
      (settings.report = [] → ∀ index entity, settings.entities[index]? = some entity →
        settings.entity? entity.logicalName = some entity ∧
          ∀ change, (settings.modifyEntity entity.logicalName change).entities =
            settings.entities.modify index change) := by
  intro names
  have faultless_iff : settings.report = [] ↔
      names.Nodup ∧ ∀ entity ∈ settings.entities, entity.report = [] := by
    rw [report, reportAfter_eq_nil_iff]
    simp [names]
  refine ⟨faultless_iff, ?_, ?_⟩
  · rw [report, length_reportAfter]
    simp [repetitions, names]
  · intro faultless index entity there
    have different := (faultless_iff.mp faultless).1
    refine ⟨find?_logicalName different (List.mem_of_getElem? there), ?_⟩
    intro change
    rw [entities_modifyEntity, modifyFirst_logicalName different there change]

/-- The second of two entities is found by its name. -/
theorem report_names_second :
    let account : EntityScheme := ⟨"account", [.single (.ofAttribute "name" "String")], .empty⟩
    let contact : EntityScheme := ⟨"contact", [], .empty⟩
    let settings : Settings := ⟨some ⟨[account, contact], .empty⟩⟩
    settings.report = [] ∧ settings.entities[1]? = some contact ∧
      settings.entity? "contact" = some contact := by
  intro account contact settings
  have faultless : settings.report = [] := by decide
  obtain ⟨_, _, found⟩ := report_names settings
  exact ⟨faultless, rfl, (found faultless 1 contact rfl).1⟩

end Settings

end EntitySearch
