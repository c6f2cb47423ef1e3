import EntitySearch.FetchXml.Markup
import Mathlib.Data.List.Nodup

/-!
# Elements within markup, and their order

All elements of a name that a piece of markup holds, and markup that is equal up to the order of
neighbouring pieces of a sort.
-/

namespace EntitySearch

namespace Markup

def name? : Markup → Option String
  | .empty name _ | .element name _ _ => some name
  | .text _ => none

def attributes : Markup → List (String × String)
  | .empty _ attributes | .element _ attributes _ => attributes
  | .text _ => []

mutual

/-- The elements of a name in a piece of markup, itself included, in the order of the text. -/
def elements (name : String) : Markup → List Markup
  | .empty other attributes => if other = name then [.empty other attributes] else []
  | .element other attributes content =>
      if other = name then .element other attributes content :: contentElements name content
      else contentElements name content
  | .text _ => []

/-- The elements of a name in pieces of markup. -/
def contentElements (name : String) : List Markup → List Markup
  | [] => []
  | piece :: rest => elements name piece ++ contentElements name rest

end

theorem contentElements_eq (name : String) (content : List Markup) :
    contentElements name content = content.flatMap (elements name) := by
  induction content with
  | nil => rfl
  | cons piece rest ih => rw [contentElements, ih, List.flatMap_cons]

theorem contentElements_append (name : String) (front back : List Markup) :
    contentElements name (front ++ back) =
      contentElements name front ++ contentElements name back := by
  rw [contentElements_eq, contentElements_eq, contentElements_eq, List.flatMap_append]

/-! ## Equality up to order -/

variable (movable : Markup → Bool)

mutual

/-- Two pieces of markup differ in the order of movable neighbours only. -/
inductive Reordered : Markup → Markup → Prop where
  | same (piece : Markup) : Reordered piece piece
  | element {name : String} {attributes : List (String × String)} {content other : List Markup}
      (reordered : ContentReordered content other) :
      Reordered (.element name attributes content) (.element name attributes other)

/-- Two contents differ in the order of movable neighbours only. -/
inductive ContentReordered : List Markup → List Markup → Prop where
  | nil : ContentReordered [] []
  | cons {first other : Markup} {rest others : List Markup} (head : Reordered first other)
      (tail : ContentReordered rest others) : ContentReordered (first :: rest) (other :: others)
  | swap {first second : Markup} (rest : List Markup) (first_moves : movable first = true)
      (second_moves : movable second = true) :
      ContentReordered (first :: second :: rest) (second :: first :: rest)
  | trans {first second third : List Markup} (left : ContentReordered first second)
      (right : ContentReordered second third) : ContentReordered first third

end

variable {movable}

theorem ContentReordered.refl (content : List Markup) :
    ContentReordered movable content content := by
  induction content with
  | nil => exact .nil
  | cons piece rest ih => exact .cons (.same piece) ih

theorem ContentReordered.append_left (front : List Markup) {back other : List Markup}
    (reordered : ContentReordered movable back other) :
    ContentReordered movable (front ++ back) (front ++ other) := by
  induction front with
  | nil => exact reordered
  | cons piece rest ih => exact .cons (.same piece) ih

/-- A movable piece moves behind movable pieces in front of which it stands. -/
theorem ContentReordered.cons_append {front : List Markup} {piece : Markup} (back : List Markup)
    (moves : movable piece = true) (front_moves : ∀ other ∈ front, movable other = true) :
    ContentReordered movable (piece :: (front ++ back)) (front ++ piece :: back) := by
  induction front with
  | nil => exact refl (piece :: back)
  | cons first rest ih =>
      have later := ih fun other member => front_moves other (List.mem_cons_of_mem first member)
      exact .trans (.swap (rest ++ back) moves (front_moves first (by simp)))
        (.cons (.same first) later)

theorem mem_append_of_key_ne {Key Value : Type} {front back : List (Key × Value)}
    {entry other : Key × Value} (member : other ∈ front ++ entry :: back)
    (apart : other.1 ≠ entry.1) : other ∈ front ++ back := by
  rw [List.mem_append, List.mem_cons] at member
  rcases member with in_front | rfl | in_back
  · exact List.mem_append_left back in_front
  · exact absurd rfl apart
  · exact List.mem_append_right front in_back

theorem key_ne_of_nodup {Key Value : Type} {rest : List (Key × Value)} {key : Key}
    (fresh : key ∉ rest.map Prod.fst) {other : Key × Value} (member : other ∈ rest) :
    other.1 ≠ key := by
  rintro rfl
  exact fresh (List.mem_map_of_mem member)

/-- Movable pieces with different keys are in another order only if to every piece on one side there
is one with its key on the other side that it differs from in order only. -/
theorem contentReordered_map_of_keys {Key Value : Type} {write : Key × Value → Markup}
    (moves : ∀ entry, movable (write entry) = true) {entries others : List (Key × Value)}
    (different : (entries.map Prod.fst).Nodup) (others_different : (others.map Prod.fst).Nodup)
    (matched : ∀ entry ∈ entries, ∃ other, (entry.1, other) ∈ others ∧
      Reordered movable (write entry) (write (entry.1, other)))
    (covered : ∀ other ∈ others, other.1 ∈ entries.map Prod.fst) :
    ContentReordered movable (entries.map write) (others.map write) := by
  induction entries generalizing others with
  | nil =>
      cases others with
      | nil => exact .nil
      | cons other rest => cases covered other (by simp)
  | cons entry rest ih =>
      obtain ⟨value, member, head⟩ := matched entry (by simp)
      obtain ⟨front, back, rfl⟩ := List.append_of_mem member
      -- The rest is matched without the counterpart of the first entry, which then moves back.
      have permuted : (front ++ (entry.1, value) :: back).Perm
          ((entry.1, value) :: (front ++ back)) := List.perm_middle
      have shape := (permuted.map Prod.fst).nodup_iff.mp others_different
      rw [List.map_cons, List.nodup_cons] at different shape
      have matched_rest : ∀ next ∈ rest, ∃ other, (next.1, other) ∈ front ++ back ∧
          Reordered movable (write next) (write (next.1, other)) := by
        intro next next_member
        obtain ⟨other, other_member, reordered⟩ :=
          matched next (List.mem_cons_of_mem entry next_member)
        have apart := key_ne_of_nodup different.1 next_member
        exact ⟨other, mem_append_of_key_ne other_member apart, reordered⟩
      have covered_rest : ∀ other ∈ front ++ back, other.1 ∈ rest.map Prod.fst := by
        intro other other_member
        have somewhere := permuted.mem_iff.mpr (List.mem_cons_of_mem _ other_member)
        have apart := key_ne_of_nodup shape.1 other_member
        rcases List.mem_cons.mp (covered other somewhere) with same_key | in_rest
        · exact absurd same_key apart
        · exact in_rest
      have tail := ih different.2 shape.2 matched_rest covered_rest
      rw [List.map_append] at tail
      rw [List.map_cons, List.map_append, List.map_cons]
      apply ContentReordered.trans (.cons head tail)
      apply ContentReordered.cons_append (back.map write) (moves (entry.1, value))
      intro piece piece_member
      obtain ⟨other, _, rfl⟩ := List.mem_map.mp piece_member
      exact moves other

end Markup

end EntitySearch
