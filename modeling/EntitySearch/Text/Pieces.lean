import EntitySearch.Text.Blank

/-!
# Cutting and joining texts

Texts are cut at separating characters and put together again with a separator between the pieces.
-/

namespace EntitySearch

namespace Text

/-- The runs between the characters that separate, empty runs included. -/
def splitWhere (separates : Char → Bool) : List Char → List (List Char)
  | [] => [[]]
  | c :: rest =>
      if separates c then [] :: splitWhere separates rest
      else
        match splitWhere separates rest with
        | [] => [[c]]
        | piece :: pieces => (c :: piece) :: pieces

theorem splitWhere_ne_nil (separates : Char → Bool) (characters : List Char) :
    splitWhere separates characters ≠ [] := by
  cases characters with
  | nil => simp [splitWhere]
  | cons c rest =>
      unfold splitWhere
      split
      · simp
      · split <;> simp

/-- The pieces of a list between commas, trimmed, without the blank ones. -/
def commaSeparated (text : String) : List String :=
  ((splitWhere (· == ',') text.toList).map fun piece => trim (String.ofList piece)).filter
    (! isBlank ·)

/-- The words of a text: its runs of characters other than white space. -/
def words (text : String) : List String :=
  ((splitWhere isSpace text.toList).filter (! ·.isEmpty)).map String.ofList

/-- The parts one after the other, with the separator between neighbours. -/
def join (separator : String) (parts : List String) : String :=
  String.ofList (separator.toList.intercalate (parts.map String.toList))

/-- The text with every occurrence of a pattern replaced, from the left, without overlaps. -/
def replaceAll (pattern replacement : List Char) (text : List Char) : List Char :=
  match text with
  | [] => []
  | c :: rest =>
      if pattern.isPrefixOf (c :: rest) && ! pattern.isEmpty then
        replacement ++ replaceAll pattern replacement (rest.drop (pattern.length - 1))
      else c :: replaceAll pattern replacement rest
termination_by text.length

/-- The text with its ASCII capitals in lower case. -/
def lowerAscii (text : String) : String :=
  String.ofList (text.toList.map Char.toLower)

/-- The text with each single quote written twice. -/
def doubleQuotes (characters : List Char) : List Char :=
  characters.flatMap fun c => if c = '\'' then ['\'', '\''] else [c]

end Text

end EntitySearch
