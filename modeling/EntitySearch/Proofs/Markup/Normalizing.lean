import EntitySearch.Proofs.Markup.Elements
import EntitySearch.Proofs.Markup.Reader

/-!
# Normalized attribute values

A reader of markup takes a tab, a line feed or a carriage return within an attribute value for a
blank, unless it is written as a character reference. Nothing is written as such a reference, so in
the markup that is read back every attribute value has blanks in their place.
-/

namespace EntitySearch

namespace Markup

/-- The characters that a document may hold. -/
def isLegal (c : Char) : Bool :=
  c == '\t' || c == '\n' || c == '\r' ||
    (' '.toNat ≤ c.toNat && c.toNat != 0xFFFE && c.toNat != 0xFFFF)

/-- White space other than a blank, which no attribute value keeps. -/
def isBreak (c : Char) : Bool :=
  c == '\t' || c == '\n' || c == '\r'

/-- A character of an attribute value as it is read. -/
def spacedChar (c : Char) : Char :=
  if isBreak c then ' ' else c

/-- An attribute value as it is read. -/
def spaced (value : String) : String :=
  String.ofList (value.toList.map spacedChar)

/-- A value is read as it is exactly if there is no break in it. -/
theorem spaced_eq_iff (value : String) :
    spaced value = value ↔ ∀ c ∈ value.toList, isBreak c = false := by
  have char_iff (c : Char) : spacedChar c = c ↔ isBreak c = false := by
    rw [spacedChar]
    cases breaks : isBreak c with
    | false => simp
    | true =>
        have apart : ' ' ≠ c := by
          rintro rfl
          exact absurd breaks (by decide)
        simp [apart]
  rw [← String.toList_inj, spaced, String.toList_ofList]
  simp only [← char_iff]
  induction value.toList with
  | nil => simp
  | cons c rest ih => simp [ih]

/-! ## The reader -/

/-- Where a reader is in the text of a document. -/
inductive Site where
  /-- Between tags. -/
  | content
  | tag
  /-- Between the quotes of an attribute value. -/
  | value
  deriving DecidableEq

/-- Where a reader is behind a character. -/
def Site.behind : Site → Char → Site
  | content, '<' => tag
  | tag, '>' => content
  | tag, '"' => value
  | value, '"' => tag
  | site, _ => site

/-- The text of a document with attribute values normalized: breaks become blanks, and references to
breaks become breaks. -/
def normalized : Site → List Char → List Char
  | _, [] => []
  | .value, '&' :: '#' :: '9' :: ';' :: rest => '\t' :: normalized .value rest
  | .value, '&' :: '#' :: '1' :: '0' :: ';' :: rest => '\n' :: normalized .value rest
  | .value, '&' :: '#' :: '1' :: '3' :: ';' :: rest => '\r' :: normalized .value rest
  | .value, c :: rest => spacedChar c :: normalized (Site.value.behind c) rest
  | site, c :: rest => c :: normalized (site.behind c) rest

/-- The markup of a text, read with attribute values normalized. -/
def readNormalized? (text : String) : Option Markup :=
  read? (String.ofList (normalized .content text.toList))

/-- A reference to a tab is read as a tab, and a tab as a blank. -/
example :
    readNormalized? "<a b=\"&#9;\t\">\t</a>" =
      some (.element "a" [("b", "\t ")] [.text "\t"]) := by
  rfl

/-! ## What is read of a document -/

/-- The attributes as they are read. -/
def spacedAttributes (attributes : List (String × String)) : List (String × String) :=
  attributes.map fun (name, value) => (name, spaced value)

mutual

/-- The piece of markup with its attribute values as they are read. -/
def withSpaces : Markup → Markup
  | .empty name attributes => .empty name (spacedAttributes attributes)
  | .element name attributes content =>
      .element name (spacedAttributes attributes) (contentWithSpaces content)
  | .text value => .text value

/-- Pieces of markup with their attribute values as they are read. -/
def contentWithSpaces : List Markup → List Markup
  | [] => []
  | piece :: rest => withSpaces piece :: contentWithSpaces rest

end

theorem contentWithSpaces_eq (content : List Markup) :
    contentWithSpaces content = content.map withSpaces := by
  induction content with
  | nil => rfl
  | cons piece rest ih => rw [contentWithSpaces, ih, List.map_cons]

theorem areNamed_spacedAttributes (attributes : List (String × String)) :
    areNamed (spacedAttributes attributes) = areNamed attributes := by
  rw [areNamed, areNamed, spacedAttributes, List.all_map]
  rfl

theorem WellFormed.withSpaces {piece : Markup} (wellFormed : piece.WellFormed) :
    piece.withSpaces.WellFormed := by
  induction wellFormed with
  | empty named =>
      rw [Markup.withSpaces]
      exact .empty (by rwa [areNamed_spacedAttributes])
  | textual value named =>
      rw [Markup.withSpaces, contentWithSpaces_eq]
      exact .textual value (by rwa [areNamed_spacedAttributes])
  | element named _ ih =>
      rw [Markup.withSpaces, contentWithSpaces_eq]
      refine .element (by rwa [areNamed_spacedAttributes]) ?_
      intro piece member
      obtain ⟨original, original_member, rfl⟩ := List.mem_map.mp member
      exact ih original original_member

/-! ## Normalizing the text of a document -/

/-- Outside of values, characters that mark no tag and no value stay as they are. -/
theorem normalized_append_of_plain {site : Site} (outside : site ≠ .value) {front : List Char}
    (plain : ∀ c ∈ front, c ≠ '<' ∧ c ≠ '>' ∧ c ≠ '"') (rest : List Char) :
    normalized site (front ++ rest) = front ++ normalized site rest := by
  induction front with
  | nil => rfl
  | cons c front ih =>
      obtain ⟨less, greater, quote⟩ := plain c List.mem_cons_self
      have later := ih fun other member => plain other (List.mem_cons_of_mem c member)
      have stays : site.behind c = site := by
        cases site <;> simp_all [Site.behind]
      cases site with
      | value => exact absurd rfl outside
      | content => rw [List.cons_append, normalized, stays, later, List.cons_append]; all_goals simp
      | tag => rw [List.cons_append, normalized, stays, later, List.cons_append]; all_goals simp

theorem normalized_value_cons {c : Char} (ampersand : c ≠ '&') (quote : c ≠ '"')
    (rest : List Char) :
    normalized .value (c :: rest) = spacedChar c :: normalized .value rest := by
  have stays : Site.value.behind c = .value := by
    simp [Site.behind, quote]
  rw [normalized, stays]
  all_goals simp [ampersand]

/-- The escape of a character becomes the escape of the character that is read. -/
theorem normalized_escapedChar_append (c : Char) (rest : List Char) :
    normalized .value (escapedChar c ++ rest) =
      escapedChar (spacedChar c) ++ normalized .value rest := by
  by_cases special : c ∈ ['&', '<', '>', '"', '\'']
  · have kept : spacedChar c = c := by
      fin_cases special <;> decide
    rw [kept]
    fin_cases special <;> rfl
  · simp only [List.mem_cons, List.not_mem_nil, or_false, not_or] at special
    obtain ⟨ampersand, less, greater, quote, apostrophe⟩ := special
    have single : escapedChar c = [c] := by
      simp [escapedChar, ampersand, less, greater, quote, apostrophe]
    have still_single : escapedChar (spacedChar c) = [spacedChar c] := by
      rw [spacedChar]
      split_ifs
      · decide
      · exact single
    rw [single, still_single, List.singleton_append, normalized_value_cons ampersand quote,
      List.singleton_append]

theorem normalized_escaped_append (value : String) (rest : List Char) :
    normalized .value (escaped value.toList ++ rest) =
      escaped (spaced value).toList ++ normalized .value rest := by
  rw [spaced, String.toList_ofList]
  induction value.toList with
  | nil => rfl
  | cons c characters ih =>
      rw [escaped] at ih
      rw [escaped, List.flatMap_cons, List.append_assoc, normalized_escapedChar_append, ih,
        List.map_cons, escaped, escaped, List.flatMap_cons, List.append_assoc]

theorem normalized_name_append {name : String} (named : isName name.toList = true)
    (rest : List Char) :
    normalized .tag (name.toList ++ rest) = name.toList ++ normalized .tag rest := by
  apply normalized_append_of_plain (by decide)
  intro c member
  obtain ⟨less, greater, quote, -⟩ :=
    isNameChar_not_special (((isName_iff name.toList).mp named).2 c member)
  exact ⟨less, greater, quote⟩

/-- In a tag, the values of attributes become what is read of them. -/
theorem normalized_attributeCharacters_append {attributes : List (String × String)}
    (named : areNamed attributes = true) (rest : List Char) :
    normalized .tag (attributeCharacters attributes ++ rest) =
      attributeCharacters (spacedAttributes attributes) ++ normalized .tag rest := by
  induction attributes with
  | nil => rfl
  | cons first others ih =>
      obtain ⟨name, value⟩ := first
      rw [areNamed, List.all_cons, Bool.and_eq_true] at named
      have layout (value : String) (others : List (String × String)) (rest : List Char) :
          attributeCharacters ((name, value) :: others) ++ rest =
            ' ' :: (name.toList ++ '=' :: '"' ::
              (escaped value.toList ++ '"' :: (attributeCharacters others ++ rest))) := by
        simp [attributeCharacters, List.append_assoc]
      have blank (rest : List Char) : normalized .tag (' ' :: rest) = ' ' :: normalized .tag rest :=
        rfl
      have opens (rest : List Char) :
          normalized .tag ('=' :: '"' :: rest) = '=' :: '"' :: normalized .value rest := rfl
      have closes (rest : List Char) :
          normalized .value ('"' :: rest) = '"' :: normalized .tag rest := rfl
      rw [layout, blank, normalized_name_append named.1, opens, normalized_escaped_append, closes,
        ih named.2]
      exact (layout (spaced value) (spacedAttributes others) _).symm

theorem normalized_tag_greater (rest : List Char) :
    normalized .tag ('>' :: rest) = '>' :: normalized .content rest := rfl

theorem normalized_tag_slash (rest : List Char) :
    normalized .tag ('/' :: rest) = '/' :: normalized .tag rest := rfl

theorem normalized_content_less (rest : List Char) :
    normalized .content ('<' :: rest) = '<' :: normalized .tag rest := rfl

/-- The text of pieces in a row becomes that of the pieces as they are read if that of each does. -/
theorem normalized_contentCharacters_append {content : List Markup}
    (each : ∀ piece ∈ content, ∀ rest, normalized .content (piece.characters ++ rest) =
      piece.withSpaces.characters ++ normalized .content rest) (rest : List Char) :
    normalized .content (contentCharacters content ++ rest) =
      contentCharacters (contentWithSpaces content) ++ normalized .content rest := by
  induction content with
  | nil => rfl
  | cons first others ih =>
      have later := ih fun piece member => each piece (List.mem_cons_of_mem first member)
      rw [contentCharacters, List.append_assoc, each first List.mem_cons_self, later,
        contentWithSpaces, contentCharacters, List.append_assoc]

theorem normalized_element_append {name : String} {attributes : List (String × String)}
    {content : List Markup} (named : (isName name.toList && areNamed attributes) = true)
    (each : ∀ piece ∈ content, ∀ rest, normalized .content (piece.characters ++ rest) =
      piece.withSpaces.characters ++ normalized .content rest) (rest : List Char) :
    normalized .content (characters (.element name attributes content) ++ rest) =
      characters (withSpaces (.element name attributes content)) ++ normalized .content rest := by
  rw [Bool.and_eq_true] at named
  simp only [characters, withSpaces, List.cons_append, List.append_assoc, List.nil_append,
    normalized_content_less, normalized_tag_slash, normalized_tag_greater,
    normalized_name_append named.1, normalized_attributeCharacters_append named.2,
    normalized_contentCharacters_append each]

/-- The text of a document becomes that of the document as it is read. -/
theorem WellFormed.normalized_characters_append {piece : Markup} (wellFormed : piece.WellFormed)
    (rest : List Char) :
    normalized .content (piece.characters ++ rest) =
      piece.withSpaces.characters ++ normalized .content rest := by
  induction wellFormed generalizing rest with
  | empty named =>
      rw [Bool.and_eq_true] at named
      simp only [characters, Markup.withSpaces, List.cons_append, List.append_assoc,
        List.nil_append, normalized_content_less, normalized_tag_slash, normalized_tag_greater,
        normalized_name_append named.1, normalized_attributeCharacters_append named.2]
  | textual value named =>
      refine normalized_element_append named ?_ rest
      intro piece member rest
      obtain rfl := List.mem_singleton.mp member
      exact normalized_append_of_plain (by decide) (fun _ member => escaped_not_special member) rest
  | element named _ ih => exact normalized_element_append named ih rest

/-- A document is read back with breaks in attribute values turned to blanks. -/
theorem readNormalized?_render {document : Markup} (wellFormed : document.WellFormed) :
    readNormalized? document.render = some document.withSpaces.settled := by
  have normalized_eq := wellFormed.normalized_characters_append []
  rw [List.append_nil, normalized, List.append_nil] at normalized_eq
  rw [readNormalized?, render, String.toList_ofList, normalized_eq]
  exact read?_render wellFormed.withSpaces

/-! ## Elements that are read -/

theorem attributes_withSpaces_settled (piece : Markup) :
    piece.withSpaces.settled.attributes = spacedAttributes piece.attributes := by
  cases piece <;> rfl

/-- The elements of a name that are read are those of the document, as each is read. -/
theorem WellFormed.elements_withSpaces_settled {piece : Markup} (wellFormed : piece.WellFormed)
    (name : String) :
    piece.withSpaces.settled.elements name =
      (piece.elements name).map fun inner => inner.withSpaces.settled := by
  induction wellFormed with
  | empty named =>
      rw [Markup.withSpaces, settled, elements, elements]
      split_ifs <;> rfl
  | textual value named =>
      have no_elements : contentElements name (ofText value) = [] := by
        rw [ofText]
        split_ifs <;> rfl
      rw [Markup.withSpaces, contentWithSpaces_eq, List.map_singleton, Markup.withSpaces, settled,
        settledContent_text, elements, no_elements, elements, contentElements, elements]
      split_ifs <;> rfl
  | @element other attributes content named wellFormed ih =>
      have read_wellFormed : ∀ piece ∈ content.map Markup.withSpaces, piece.WellFormed := by
        intro piece member
        obtain ⟨original, original_member, rfl⟩ := List.mem_map.mp member
        exact (wellFormed original original_member).withSpaces
      have inside : contentElements name ((content.map Markup.withSpaces).map settled) =
          (contentElements name content).map fun inner => inner.withSpaces.settled := by
        rw [contentElements_eq, contentElements_eq, List.flatMap_map, List.flatMap_map,
          List.map_flatMap]
        exact List.flatMap_congr ih
      have read_eq : (Markup.element other attributes content).withSpaces.settled =
          .element other (spacedAttributes attributes)
            ((content.map Markup.withSpaces).map settled) := by
        rw [Markup.withSpaces, contentWithSpaces_eq, settled,
          settledContent_of_wellFormed read_wellFormed]
      rw [read_eq, elements, inside, elements]
      split_ifs
      · rw [List.map_cons, read_eq]
      · rfl

end Markup

end EntitySearch
