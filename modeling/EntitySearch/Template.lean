import EntitySearch.Text.Numerals
import EntitySearch.Text.Pieces

/-!
# Templates

A template holds numbered placeholders such as the braced zero. Values are put in for all of them in
one pass, so that braces within a value mean nothing. The line that counts the rows of a page has
placeholders of its own, replaced one number after the other.
-/

namespace EntitySearch

namespace Template

/-- The text of the value with a number in digits; nothing for a number that is no 64-bit word or
has no value. -/
def valueText (values : List String) (digits : List Char) : List Char :=
  match (Text.word? digits).bind (values[·]?) with
  | some value => value.toList
  | none => []

/-- Put the value of each number in for its placeholder, nothing for a number without a value. -/
def fillCharacters (values : List String) : List Char → List Char
  | [] => []
  | c :: rest =>
      if c = '{' then
        match _ : rest.dropWhile Char.isDigit with
        | '}' :: after =>
            let digits := rest.takeWhile Char.isDigit
            if digits.isEmpty then '{' :: fillCharacters values rest
            else valueText values digits ++ fillCharacters values after
        | _ => '{' :: fillCharacters values rest
      else c :: fillCharacters values rest
termination_by template => template.length
decreasing_by
  all_goals simp only [List.length_cons]
  all_goals try omega
  have shorter := (List.dropWhile_suffix Char.isDigit (l := rest)).length_le
  rw [‹rest.dropWhile Char.isDigit = '}' :: after›, List.length_cons] at shorter
  omega

/-- The template with its placeholders filled. -/
def fill (template : String) (values : List String) : String :=
  String.ofList (fillCharacters values template.toList)

/-- The placeholder of a digit. -/
def placeholder (digit : Char) : List Char := ['{', digit, '}']

/-- The line that counts the rows of a page: first row, last row, and all rows. -/
def summary (template : String) (first last total : Nat) : String :=
  String.ofList <|
    Text.replaceAll (placeholder '2') (Text.natDigits total) <|
      Text.replaceAll (placeholder '1') (Text.natDigits last) <|
        Text.replaceAll (placeholder '0') (Text.natDigits first) template.toList

end Template

end EntitySearch
