import EntitySearch.Gathered
import Mathlib.Data.List.Induction
import Mathlib.Data.List.Nodup

/-!
# Lists without repetitions

`List.eraseDups` keeps the first of equal members. A list that is gathered member by member, leaving
out what is already there, is the same.
-/

namespace EntitySearch

variable {Item : Type} [BEq Item] [LawfulBEq Item]

theorem eraseDups_append_singleton (items : List Item) (item : Item) :
    (items ++ [item]).eraseDups =
      if item ∈ items then items.eraseDups else items.eraseDups ++ [item] := by
  rw [List.eraseDups_append]
  split_ifs with member
  · simp [List.removeAll, member]
  · simp [List.removeAll, member, List.eraseDups_cons]

theorem nodup_eraseDups (items : List Item) : items.eraseDups.Nodup := by
  induction items using List.reverseRecOn with
  | nil => simp
  | append_singleton rest last ih =>
      rw [eraseDups_append_singleton]
      split_ifs with seen
      · exact ih
      · rw [← List.concat_eq_append]
        exact ih.concat fun member => seen (List.mem_eraseDups.mp member)

theorem eraseDups_of_nodup {items : List Item} (distinct : items.Nodup) :
    items.eraseDups = items := by
  induction items using List.reverseRecOn with
  | nil => rfl
  | append_singleton rest last ih =>
      obtain ⟨rest_distinct, -, apart⟩ := List.nodup_append.mp distinct
      have unseen : last ∉ rest := fun member => apart last member last List.mem_cons_self rfl
      rw [eraseDups_append_singleton, if_neg unseen, ih rest_distinct]

namespace Gathered

theorem add_eq (seen : List Item) (item : Item) :
    add seen item = if item ∈ seen then seen else seen ++ [item] := by
  simp [add]

theorem nodup_add {seen : List Item} (distinct : seen.Nodup) (item : Item) :
    (add seen item).Nodup := by
  rw [add_eq]
  split_ifs with member
  · exact distinct
  · rw [← List.concat_eq_append]
    exact distinct.concat member

/-- Gathering members that are not there yet erases repetitions. -/
theorem ofList_eq_eraseDups (items : List Item) : ofList items = items.eraseDups := by
  rw [ofList]
  induction items using List.reverseRecOn with
  | nil => rfl
  | append_singleton rest last ih =>
      rw [List.foldl_append, ih, eraseDups_append_singleton]
      simp [add_eq]

theorem mem_ofList_iff {items : List Item} {item : Item} : item ∈ ofList items ↔ item ∈ items := by
  rw [ofList_eq_eraseDups, List.mem_eraseDups]

theorem nodup_ofList (items : List Item) : (ofList items).Nodup := by
  rw [ofList_eq_eraseDups]
  exact nodup_eraseDups items

end Gathered

end EntitySearch
