import EntitySearch.Template

/-!
# Filling templates

One step of filling a template is a placeholder that gives way to a value, or a character that
stands for itself. A template looks at nothing but the texts of the values by their numbers.
-/

namespace EntitySearch

namespace Template

/-- Digits between braces give way to the value with their number. -/
theorem fillCharacters_of_closed (values : List String) {rest after : List Char}
    (closed : rest.dropWhile Char.isDigit = '}' :: after) :
    fillCharacters values ('{' :: rest) =
      if (rest.takeWhile Char.isDigit).isEmpty then '{' :: fillCharacters values rest
      else
        valueText values (rest.takeWhile Char.isDigit) ++ fillCharacters values after := by
  rw [fillCharacters, if_pos rfl]
  split
  · rename_i found same
    obtain rfl := (List.cons.inj (same.symm.trans closed)).2
    rfl
  · rename_i unmatched
    exact absurd closed (unmatched after)

/-- A brace that no digits and closing brace follow stands for itself. -/
theorem fillCharacters_of_open (values : List String) {rest : List Char}
    (unclosed : ∀ after, rest.dropWhile Char.isDigit = '}' :: after → False) :
    fillCharacters values ('{' :: rest) = '{' :: fillCharacters values rest := by
  rw [fillCharacters, if_pos rfl]
  split
  · rename_i after closed
    exact (unclosed after closed).elim
  · rfl

theorem fill_empty (values : List String) : fill "" values = "" := by
  rw [fill, String.toList_empty, fillCharacters]

/-- Filling a template looks at nothing but the texts of the values by their numbers. -/
theorem fillCharacters_congr {values others : List String}
    (same : ∀ digits, valueText values digits = valueText others digits) (template : List Char) :
    fillCharacters values template = fillCharacters others template := by
  induction template using fillCharacters.induct with
  | case1 => rw [fillCharacters, fillCharacters]
  | case2 rest after closed digits unnumbered ih =>
      rw [fillCharacters_of_closed values closed, fillCharacters_of_closed others closed,
        if_pos unnumbered, if_pos unnumbered, ih]
  | case3 rest after closed digits numbered ih =>
      rw [fillCharacters_of_closed values closed, fillCharacters_of_closed others closed,
        if_neg numbered, if_neg numbered, same, ih]
  | case4 rest unclosed ih =>
      rw [fillCharacters_of_open values unclosed, fillCharacters_of_open others unclosed, ih]
  | case5 c rest other ih => rw [fillCharacters, fillCharacters, if_neg other, if_neg other, ih]

/-- Values that are all empty show nothing, as do placeholders without a value. -/
theorem fill_of_forall_empty {values : List String} (empty : ∀ value ∈ values, value = "")
    (template : String) : fill template values = fill template [] := by
  have nothing (digits : List Char) : valueText values digits = valueText [] digits := by
    rcases there : Text.word? digits with _ | index
    · simp [valueText, there]
    · cases found : values[index]? with
      | none => simp [valueText, there, found]
      | some value => simp [valueText, there, found, empty value (List.mem_of_getElem? found)]
  rw [fill, fill, fillCharacters_congr nothing]

end Template

end EntitySearch
