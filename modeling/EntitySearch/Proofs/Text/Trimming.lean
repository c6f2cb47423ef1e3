import EntitySearch.Proofs.Text.Splitting
import Mathlib.Data.List.DropRight
import Mathlib.Data.List.TakeWhile

/-!
# Trimming again changes nothing

A trimmed text neither begins nor ends with white space. The pieces of a list between commas are
trimmed, hold no comma and are not blank, so that each of them is a list of itself only.
-/

namespace EntitySearch

namespace Text

theorem isSpace_of_isDigit {c : Char} (digit : c.isDigit = true) : isSpace c = false := by
  rw [Char.isDigit, Bool.and_eq_true, decide_eq_true_eq, decide_eq_true_eq] at digit
  have least : 48 ≤ c.toNat := digit.1
  have greatest : c.toNat ≤ 57 := digit.2
  simp only [isSpace, Bool.or_eq_false_iff, Bool.and_eq_false_iff, decide_eq_false_iff_not,
    beq_eq_false_iff_ne]
  omega

/-- The text begins and ends with something other than white space, or is empty. -/
structure IsTrimmed (characters : List Char) : Prop where
  start : trimStart characters = characters
  ending : trimStart characters.reverse = characters.reverse

theorem trimStart_eq_self {characters : List Char}
    (solid : ∀ c ∈ characters, isSpace c = false) : trimStart characters = characters :=
  List.dropWhile_eq_self_iff.mpr fun _ => by
    rw [solid _ (List.getElem_mem _)]
    exact Bool.false_ne_true

theorem IsTrimmed.of_forall {characters : List Char}
    (solid : ∀ c ∈ characters, isSpace c = false) : IsTrimmed characters :=
  ⟨trimStart_eq_self solid,
    trimStart_eq_self fun c member => solid c (List.mem_reverse.mp member)⟩

theorem IsTrimmed.trimEnds_eq {characters : List Char} (trimmed : IsTrimmed characters) :
    trimEnds characters = characters := by
  rw [trimEnds, trimmed.start, trimmed.ending, List.reverse_reverse]

theorem isTrimmed_trimEnds (characters : List Char) : IsTrimmed (trimEnds characters) := by
  constructor
  · -- What is cut off the end leaves the first character in its place.
    obtain ⟨cut, suffix_eq⟩ := List.dropWhile_suffix (l := (trimStart characters).reverse) isSpace
    have front_eq : trimEnds characters ++ cut.reverse = trimStart characters := by
      rw [trimEnds, ← List.reverse_append, trimStart, suffix_eq, List.reverse_reverse]
    cases front : trimEnds characters with
    | nil => rfl
    | cons first rest =>
        have first_solid := List.head?_dropWhile_not isSpace characters
        rw [← trimStart, ← front_eq, front, List.cons_append, List.head?_cons] at first_solid
        exact List.dropWhile_cons_of_neg (by rw [first_solid]; exact Bool.false_ne_true)
  · rw [trimEnds, List.reverse_reverse]
    exact List.dropWhile_idempotent ..

@[simp]
theorem trim_trim (text : String) : trim (trim text) = trim text := by
  rw [trim, toList_trim, (isTrimmed_trimEnds _).trimEnds_eq, ← trim]

theorem trimStart_eq_nil_iff (characters : List Char) :
    trimStart characters = [] ↔ ∀ c ∈ characters, isSpace c = true :=
  List.dropWhile_eq_nil_iff

/-- Trimming leaves nothing of blank texts, and of no others. -/
theorem trim_eq_empty_iff (text : String) : trim text = "" ↔ isBlank text = true := by
  rw [← String.toList_eq_nil_iff, toList_trim, isBlank, List.all_eq_true]
  calc trimEnds text.toList = []
    _ ↔ ∀ c ∈ (trimStart text.toList).reverse, isSpace c = true := by
      rw [trimEnds, List.reverse_eq_nil_iff, trimStart_eq_nil_iff]
    _ ↔ trimStart (trimStart text.toList) = [] := by
      simp only [List.mem_reverse, trimStart_eq_nil_iff]
    _ ↔ ∀ c ∈ text.toList, isSpace c = true := by
      rw [trimStart, trimStart, List.dropWhile_idempotent, ← trimStart, trimStart_eq_nil_iff]

theorem isBlank_trim (text : String) : isBlank (trim text) = isBlank text := by
  rw [Bool.eq_iff_iff, ← trim_eq_empty_iff, ← trim_eq_empty_iff, trim_trim]

theorem mem_of_mem_trimEnds {characters : List Char} {c : Char}
    (member : c ∈ trimEnds characters) : c ∈ characters := by
  have in_front := (List.dropWhile_suffix _).mem (List.mem_reverse.mp member)
  exact (List.dropWhile_suffix _).mem (List.mem_reverse.mp in_front)

/-- A piece between separators holds no separator. -/
theorem unbroken_of_mem_splitWhere {separates : Char → Bool} {characters piece : List Char}
    (member : piece ∈ splitWhere separates characters) : ∀ c ∈ piece, separates c = false := by
  induction characters generalizing piece with
  | nil =>
      rw [splitWhere, List.mem_singleton] at member
      subst member
      simp
  | cons first rest ih =>
      rw [splitWhere] at member
      split_ifs at member with separator
      · rcases List.mem_cons.mp member with rfl | later
        · simp
        · exact ih later
      · cases pieces : splitWhere separates rest with
        | nil => exact absurd pieces (splitWhere_ne_nil separates rest)
        | cons next others =>
            rw [pieces] at member ih
            rcases List.mem_cons.mp member with rfl | later
            · intro c inside
              rcases List.mem_cons.mp inside with rfl | behind
              · exact eq_false_of_ne_true separator
              · exact ih List.mem_cons_self c behind
            · exact ih (List.mem_cons_of_mem next later)

theorem isBlank_of_mem_commaSeparated {text fragment : String}
    (member : fragment ∈ commaSeparated text) : isBlank fragment = false := by
  have kept := (List.mem_filter.mp member).2
  simpa using kept

theorem commaSeparated_of_isBlank {text : String} (blank : isBlank text = true) :
    commaSeparated text = [] := by
  have spaces : ∀ c ∈ text.toList, isSpace c = true := List.all_eq_true.mp blank
  have unbroken : ∀ c ∈ text.toList, (c == ',') = false := by
    intro c member
    rw [beq_eq_false_iff_ne]
    rintro rfl
    exact absurd (spaces ',' member) (by decide)
  rw [commaSeparated, splitWhere_of_unbroken unbroken, List.map_singleton, String.ofList_toList,
    (trim_eq_empty_iff text).mpr blank]
  rfl

/-- A fragment of a list between commas is a list of itself only. -/
theorem commaSeparated_of_mem {text fragment : String} (member : fragment ∈ commaSeparated text) :
    commaSeparated fragment = [fragment] := by
  have solid := isBlank_of_mem_commaSeparated member
  obtain ⟨piece, piece_member, rfl⟩ := List.mem_map.mp (List.mem_filter.mp member).1
  have unbroken : ∀ c ∈ (trim (String.ofList piece)).toList, (c == ',') = false := by
    intro c inside
    rw [toList_trim, String.toList_ofList] at inside
    exact unbroken_of_mem_splitWhere piece_member c (mem_of_mem_trimEnds inside)
  rw [commaSeparated, splitWhere_of_unbroken unbroken, List.map_singleton, String.ofList_toList,
    trim_trim]
  simp [solid]

end Text

end EntitySearch
