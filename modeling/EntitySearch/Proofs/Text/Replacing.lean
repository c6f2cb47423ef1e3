import EntitySearch.Text.Pieces
import Mathlib.Data.List.Infix

/-!
# Replacing

A pattern gives way to its replacement wherever it stands at the front of what is left of a text. A
character at which no pattern begins stands for itself.
-/

namespace EntitySearch

namespace Text

@[simp]
theorem replaceAll_nil (pattern replacement : List Char) :
    replaceAll pattern replacement [] = [] := by
  rw [replaceAll]

theorem replaceAll_pattern_append {pattern : List Char} (solid : pattern ≠ [])
    (replacement rest : List Char) :
    replaceAll pattern replacement (pattern ++ rest) =
      replacement ++ replaceAll pattern replacement rest := by
  cases pattern with
  | nil => exact absurd rfl solid
  | cons first others =>
      have matched : (first :: others).isPrefixOf (first :: (others ++ rest)) = true :=
        List.isPrefixOf_iff_prefix.mpr (List.prefix_append (first :: others) rest)
      rw [List.cons_append, replaceAll, if_pos (by simp [matched])]
      simp

theorem replaceAll_cons_of_not_prefix {pattern : List Char} {c : Char} {rest : List Char}
    (unmatched : ¬ pattern <+: c :: rest) (replacement : List Char) :
    replaceAll pattern replacement (c :: rest) = c :: replaceAll pattern replacement rest := by
  rw [replaceAll, if_neg]
  rw [Bool.and_eq_true, List.isPrefixOf_iff_prefix]
  exact fun matched => unmatched matched.1

/-- A character is replaced wherever it stands. -/
theorem replaceAll_singleton (c : Char) (replacement text : List Char) :
    replaceAll [c] replacement text =
      text.flatMap fun other => if other = c then replacement else [other] := by
  induction text with
  | nil => rw [replaceAll_nil, List.flatMap_nil]
  | cons first rest ih =>
      rw [List.flatMap_cons, ← ih]
      split
      · rename_i same
        subst same
        exact replaceAll_pattern_append (List.cons_ne_nil first []) replacement rest
      · rename_i other
        refine replaceAll_cons_of_not_prefix ?_ replacement
        rw [List.cons_prefix_cons]
        exact fun matched => other matched.1.symm

end Text

end EntitySearch
