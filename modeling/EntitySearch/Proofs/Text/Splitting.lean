import EntitySearch.Text.Pieces
import Mathlib.Tactic.SplitIfs

/-!
# Splitting undoes joining

A text put together from pieces, with a separating character in front of every piece but the first,
splits into these pieces again as long as no piece holds a separator.
-/

namespace EntitySearch

/-- A check that every item passes gives the values of all items. -/
theorem mapM_eq_some_map {Item Value : Type} {check? : Item → Option Value} {value : Item → Value}
    {items : List Item} (passes : ∀ item ∈ items, check? item = some (value item)) :
    items.mapM check? = some (items.map value) := by
  induction items with
  | nil => rfl
  | cons item rest ih =>
      have later := ih fun other member => passes other (List.mem_cons_of_mem item member)
      rw [List.mapM_cons, passes item (by simp), later]
      rfl

/-- A list is read back if each of its members is. -/
theorem mapM_map_eq_some {Written Value : Type} {read? : Written → Option Value}
    {write : Value → Written} {values : List Value}
    (inverse : ∀ value ∈ values, read? (write value) = some value) :
    (values.map write).mapM read? = some values := by
  rw [List.mapM_map]
  exact (mapM_eq_some_map inverse).trans (congrArg some (List.map_id' values))

/-- A list is cut at the item of a position. -/
theorem take_append_cons_drop {Item : Type} {items : List Item} {index : Nat} {item : Item}
    (found : items[index]? = some item) :
    items.take index ++ item :: items.drop (index + 1) = items := by
  obtain ⟨bound, rfl⟩ := List.getElem?_eq_some_iff.mp found
  rw [List.getElem_cons_drop, List.take_append_drop]

namespace Text

/-- The first separator ends the first piece. -/
theorem splitWhere_append_cons {separates : Char → Bool} {piece : List Char}
    (unbroken : ∀ c ∈ piece, separates c = false) {separator : Char}
    (separator_separates : separates separator = true) (rest : List Char) :
    splitWhere separates (piece ++ separator :: rest) = piece :: splitWhere separates rest := by
  induction piece with
  | nil => simp [splitWhere, separator_separates]
  | cons c piece ih =>
      have shorter := ih fun other member => unbroken other (List.mem_cons_of_mem c member)
      rw [List.cons_append, splitWhere, if_neg (by simp [unbroken c]), shorter]

/-- A text without separators is one piece. -/
theorem splitWhere_of_unbroken {separates : Char → Bool} {piece : List Char}
    (unbroken : ∀ c ∈ piece, separates c = false) : splitWhere separates piece = [piece] := by
  induction piece with
  | nil => rfl
  | cons c piece ih =>
      have shorter := ih fun other member => unbroken other (List.mem_cons_of_mem c member)
      rw [splitWhere, if_neg (by simp [unbroken c]), shorter]

/-- Splitting drops nothing but separators. -/
theorem separates_or_mem_splitWhere (separates : Char → Bool) {characters : List Char} {c : Char}
    (member : c ∈ characters) :
    separates c = true ∨ ∃ piece ∈ splitWhere separates characters, c ∈ piece := by
  induction characters with
  | nil => cases member
  | cons first rest ih =>
      rw [splitWhere]
      split_ifs with separator
      · rcases List.mem_cons.mp member with rfl | later
        · exact .inl separator
        · refine (ih later).imp_right ?_
          rintro ⟨piece, piece_member, inside⟩
          exact ⟨piece, List.mem_cons_of_mem [] piece_member, inside⟩
      · cases pieces : splitWhere separates rest with
        | nil => exact absurd pieces (splitWhere_ne_nil separates rest)
        | cons piece others =>
            rw [pieces] at ih
            rcases List.mem_cons.mp member with rfl | later
            · exact .inr ⟨c :: piece, by simp, by simp⟩
            · refine (ih later).imp_right ?_
              rintro ⟨found, found_member, inside⟩
              rcases List.mem_cons.mp found_member with rfl | other
              · exact ⟨first :: found, by simp, by simp [inside]⟩
              · exact ⟨found, by simp [other], inside⟩

/-- A text of separators falls into empty pieces. -/
theorem eq_nil_of_mem_splitWhere {separates : Char → Bool} {characters piece : List Char}
    (broken : ∀ c ∈ characters, separates c = true)
    (member : piece ∈ splitWhere separates characters) : piece = [] := by
  induction characters with
  | nil => simpa [splitWhere] using member
  | cons first rest ih =>
      rw [splitWhere, if_pos (broken first List.mem_cons_self)] at member
      rcases List.mem_cons.mp member with rfl | later
      · rfl
      · exact ih (fun c inside => broken c (List.mem_cons_of_mem first inside)) later

/-- Splitting gives back the pieces that a text was put together from. -/
theorem splitWhere_separated {separates : Char → Bool} {separator : Char}
    (separator_separates : separates separator = true) (first : List Char)
    (others : List (List Char)) (unbroken : ∀ piece ∈ first :: others, ∀ c ∈ piece,
      separates c = false) :
    splitWhere separates (first ++ others.flatMap (separator :: ·)) = first :: others := by
  induction others generalizing first with
  | nil =>
      rw [List.flatMap_nil, List.append_nil]
      exact splitWhere_of_unbroken (unbroken first (by simp))
  | cons second others ih =>
      rw [List.flatMap_cons, List.cons_append,
        splitWhere_append_cons (unbroken first (by simp)) separator_separates,
        ih second fun piece member => unbroken piece (List.mem_cons_of_mem first member)]

@[simp]
theorem toList_join_singleton (separator part : String) :
    (join separator [part]).toList = part.toList := by
  simp [join]

theorem toList_join_cons_cons (separator first second : String) (rest : List String) :
    (join separator (first :: second :: rest)).toList =
      first.toList ++ separator.toList ++ (join separator (second :: rest)).toList := by
  simp [join, List.intercalate_cons_cons]

/-- Parts that are not empty are put together to nothing only if there are none. -/
theorem join_eq_empty_iff (separator : String) {parts : List String}
    (solid : ∀ part ∈ parts, part ≠ "") : join separator parts = "" ↔ parts = [] := by
  rw [← String.toList_eq_nil_iff]
  match parts with
  | [] => simp [join]
  | [part] => simpa using solid part
  | first :: second :: rest => simp [toList_join_cons_cons, solid first]

theorem ne_empty_of_mem_words {text word : String} (member : word ∈ words text) : word ≠ "" := by
  obtain ⟨piece, piece_member, rfl⟩ := List.mem_map.mp member
  simpa using (List.mem_filter.mp piece_member).2

/-- Exactly the blank texts have no words. -/
theorem words_eq_nil_iff (text : String) : words text = [] ↔ isBlank text = true := by
  rw [words, List.map_eq_nil_iff, List.filter_eq_nil_iff, isBlank, List.all_eq_true]
  constructor
  · intro hollow c member
    refine (separates_or_mem_splitWhere isSpace member).resolve_right ?_
    rintro ⟨piece, piece_member, inside⟩
    have empty : piece = [] := by simpa using hollow piece piece_member
    rw [empty] at inside
    cases inside
  · intro blank piece member
    simp [eq_nil_of_mem_splitWhere blank member]

/-- Collapsing white space leaves nothing of blank texts, and of no others. -/
theorem isEmpty_join_words (text : String) : (join " " (words text)).isEmpty = isBlank text := by
  rw [Bool.eq_iff_iff, String.isEmpty_iff,
    join_eq_empty_iff " " fun _ member => ne_empty_of_mem_words member, words_eq_nil_iff]

end Text

end EntitySearch
