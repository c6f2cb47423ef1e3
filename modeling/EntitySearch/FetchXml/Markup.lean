/-!
# Markup

A small tree of elements and its text. Nothing is put between elements, and the five characters
that markup uses are escaped in attribute values and in text.
-/

namespace EntitySearch

/-- A piece of markup. -/
inductive Markup where
  /-- An element that is closed at once. -/
  | empty (name : String) (attributes : List (String × String))
  /-- An element with an end of its own. -/
  | element (name : String) (attributes : List (String × String)) (content : List Markup)
  | text (value : String)

namespace Markup

/-- A character within an attribute value or a text. -/
def escapedChar (c : Char) : List Char :=
  if c = '&' then ['&', 'a', 'm', 'p', ';']
  else if c = '<' then ['&', 'l', 't', ';']
  else if c = '>' then ['&', 'g', 't', ';']
  else if c = '"' then ['&', 'q', 'u', 'o', 't', ';']
  else if c = '\'' then ['&', 'a', 'p', 'o', 's', ';']
  else [c]

/-- Characters within an attribute value or a text. -/
def escaped (characters : List Char) : List Char :=
  characters.flatMap escapedChar

/-- The attributes of an element, each after a blank. -/
def attributeCharacters (attributes : List (String × String)) : List Char :=
  attributes.flatMap fun (name, value) =>
    ' ' :: name.toList ++ '=' :: '"' :: escaped value.toList ++ ['"']

mutual

/-- The text of a piece of markup. -/
def characters : Markup → List Char
  | .empty name attributes => '<' :: name.toList ++ attributeCharacters attributes ++ ['/', '>']
  | .element name attributes content =>
      '<' :: name.toList ++ attributeCharacters attributes ++ '>' :: contentCharacters content ++
        '<' :: '/' :: name.toList ++ ['>']
  | .text value => escaped value.toList

/-- The text of pieces of markup that follow each other. -/
def contentCharacters : List Markup → List Char
  | [] => []
  | piece :: rest => characters piece ++ contentCharacters rest

end

/-- The text of a document. -/
def render (document : Markup) : String :=
  String.ofList document.characters

end Markup

end EntitySearch
