import EntitySearch.FetchXml.Markup
import EntitySearch.Proofs.Text.Splitting
import Mathlib.Tactic.FinCases
import Mathlib.Tactic.SplitIfs

/-!
# Reading markup

A reader for the text of markup. It cuts the text at the characters that only tags can hold, undoes
the five escapes, and puts the tags together again. The text of every piece of markup whose names
are names reads back as the piece itself, up to texts that are empty.
-/

namespace EntitySearch

namespace Markup

/-! ## Escapes -/

/-- Characters with the five escapes undone. No other ampersand and no other mark of a tag may
occur. -/
def unescaped? : List Char → Option (List Char)
  | [] => some []
  | '&' :: 'a' :: 'm' :: 'p' :: ';' :: rest => (unescaped? rest).map ('&' :: ·)
  | '&' :: 'l' :: 't' :: ';' :: rest => (unescaped? rest).map ('<' :: ·)
  | '&' :: 'g' :: 't' :: ';' :: rest => (unescaped? rest).map ('>' :: ·)
  | '&' :: 'q' :: 'u' :: 'o' :: 't' :: ';' :: rest => (unescaped? rest).map ('"' :: ·)
  | '&' :: 'a' :: 'p' :: 'o' :: 's' :: ';' :: rest => (unescaped? rest).map ('\'' :: ·)
  | c :: rest => if c = '&' ∨ c = '<' then none else (unescaped? rest).map (c :: ·)

theorem unescaped?_cons_of_ne {c : Char} (ampersand : c ≠ '&') (less : c ≠ '<')
    (rest : List Char) : unescaped? (c :: rest) = (unescaped? rest).map (c :: ·) := by
  rw [unescaped?, if_neg (by simp [ampersand, less])]
  all_goals
    intros
    simp_all

theorem unescaped?_escapedChar_append (c : Char) (rest : List Char) :
    unescaped? (escapedChar c ++ rest) = (unescaped? rest).map (c :: ·) := by
  unfold escapedChar
  split_ifs with ampersand less greater quote apostrophe
  · rw [ampersand]
    rfl
  · rw [less]
    rfl
  · rw [greater]
    rfl
  · rw [quote]
    rfl
  · rw [apostrophe]
    rfl
  · exact unescaped?_cons_of_ne ampersand less rest

/-- Undoing the escapes gives back what was escaped. -/
theorem unescaped?_escaped (characters : List Char) :
    unescaped? (escaped characters) = some characters := by
  induction characters with
  | nil => rfl
  | cons c characters ih =>
      rw [escaped, List.flatMap_cons, unescaped?_escapedChar_append]
      have later : unescaped? (characters.flatMap escapedChar) = some characters := ih
      rw [later, Option.map_some]

theorem escapedChar_not_special (original c : Char) (member : c ∈ escapedChar original) :
    c ≠ '<' ∧ c ≠ '>' ∧ c ≠ '"' := by
  unfold escapedChar at member
  split_ifs at member with ampersand less greater quote apostrophe
  · fin_cases member <;> decide
  · fin_cases member <;> decide
  · fin_cases member <;> decide
  · fin_cases member <;> decide
  · fin_cases member <;> decide
  · rw [List.mem_singleton] at member
    subst member
    exact ⟨less, greater, quote⟩

/-- No character that marks a tag or a value occurs in an escaped text. -/
theorem escaped_not_special {characters : List Char} {c : Char}
    (member : c ∈ escaped characters) : c ≠ '<' ∧ c ≠ '>' ∧ c ≠ '"' := by
  obtain ⟨original, _, inside⟩ := List.mem_flatMap.mp member
  exact escapedChar_not_special original c inside

/-! ## Names -/

/-- The character may stand in the name of an element or of an attribute. -/
def isNameChar (c : Char) : Bool :=
  c.isAlphanum || c == '-'

/-- The characters are the name of an element or of an attribute. -/
def isName (name : List Char) : Bool :=
  ! name.isEmpty && name.all isNameChar

/-- Every attribute has a name. -/
def areNamed (attributes : List (String × String)) : Bool :=
  attributes.all fun (name, _) => isName name.toList

theorem isName_iff (name : List Char) :
    isName name = true ↔ name ≠ [] ∧ ∀ c ∈ name, isNameChar c = true := by
  cases name <;> simp [isName]

theorem isNameChar_not_special {c : Char} (nameChar : isNameChar c = true) :
    c ≠ '<' ∧ c ≠ '>' ∧ c ≠ '"' ∧ c ≠ '=' ∧ c ≠ '/' ∧ c ≠ ' ' := by
  refine ⟨?_, ?_, ?_, ?_, ?_, ?_⟩ <;> (rintro rfl; revert nameChar; decide)

/-! ## Tags -/

/-- A tag. -/
inductive Tag where
  | opening (name : String) (attributes : List (String × String))
  /-- An element that is closed at once. -/
  | empty (name : String) (attributes : List (String × String))
  | closing (name : String)

namespace Tag

/-- What stands between the angle brackets of a tag. -/
def characters : Tag → List Char
  | opening name attributes => name.toList ++ attributeCharacters attributes
  | empty name attributes => name.toList ++ (attributeCharacters attributes ++ ['/'])
  | closing name => '/' :: name.toList

/-- The names in a tag are names. -/
def isNamed : Tag → Bool
  | opening name attributes | empty name attributes => isName name.toList && areNamed attributes
  | closing name => isName name.toList

end Tag

/-- The name in front of the value of an attribute: after a blank, before an equals sign. -/
def attributeName? : List Char → Option String
  | ' ' :: rest =>
      match Text.splitWhere (· == '=') rest with
      | [name, []] => if isName name then some (String.ofList name) else none
      | _ => none
  | _ => none

/-- The attributes in a tag that was cut at its quotes, and whether the tag is closed at once. -/
def attributes? : List (List Char) → Option (List (String × String) × Bool)
  | [] => none
  | [[]] => some ([], false)
  | [['/']] => some ([], true)
  | [_] => none
  | name :: value :: rest => do
      let name ← attributeName? name
      let value ← unescaped? value
      let (others, closed) ← attributes? rest
      some ((name, String.ofList value) :: others, closed)

/-- The tag between angle brackets. -/
def tag? : List Char → Option Tag
  | '/' :: name => if isName name then some (.closing (String.ofList name)) else none
  | characters =>
      let name := characters.takeWhile isNameChar
      if name.isEmpty then none
      else
        match attributes? (Text.splitWhere (· == '"') (characters.dropWhile isNameChar)) with
        | some (attributes, true) => some (.empty (String.ofList name) attributes)
        | some (attributes, false) => some (.opening (String.ofList name) attributes)
        | none => none

theorem attributeName?_of_isName {name : List Char} (named : isName name = true) :
    attributeName? (' ' :: name ++ ['=']) = some (String.ofList name) := by
  have unbroken : ∀ c ∈ name, (c == '=') = false := by
    intro c member
    have nameChar := ((isName_iff name).mp named).2 c member
    simpa using (isNameChar_not_special nameChar).2.2.2.1
  have pieces : Text.splitWhere (· == '=') (name ++ ['=']) = [name, []] :=
    Text.splitWhere_append_cons unbroken (by decide) []
  rw [List.cons_append, attributeName?]
  simp only [pieces, named, if_true]

/-- Cutting the attributes at their quotes separates names from values. -/
theorem splitWhere_attributeCharacters_cons {name value : String}
    (named : isName name.toList = true)
    (rest : List (String × String)) (ending : List Char) :
    Text.splitWhere (· == '"') (attributeCharacters ((name, value) :: rest) ++ ending) =
      (' ' :: name.toList ++ ['=']) :: escaped value.toList ::
        Text.splitWhere (· == '"') (attributeCharacters rest ++ ending) := by
  have name_unbroken : ∀ c ∈ ' ' :: name.toList ++ ['='], (c == '"') = false := by
    intro c member
    rw [List.mem_append, List.mem_cons, List.mem_singleton] at member
    rcases member with (rfl | inside) | rfl
    · decide
    · have nameChar := ((isName_iff _).mp named).2 c inside
      simpa using (isNameChar_not_special nameChar).2.2.1
    · decide
  have value_unbroken : ∀ c ∈ escaped value.toList, (c == '"') = false := by
    intro c member
    simpa using (escaped_not_special member).2.2
  have layout : attributeCharacters ((name, value) :: rest) ++ ending =
      (' ' :: name.toList ++ ['=']) ++ '"' ::
        (escaped value.toList ++ '"' :: (attributeCharacters rest ++ ending)) := by
    simp [attributeCharacters, List.append_assoc]
  rw [layout, Text.splitWhere_append_cons name_unbroken (by decide),
    Text.splitWhere_append_cons value_unbroken (by decide)]

/-- The attributes of a tag are read back. -/
theorem attributes?_attributeCharacters {attributes : List (String × String)}
    (named : areNamed attributes = true) {ending : List Char} {closed : Bool}
    (closes : attributes? (Text.splitWhere (· == '"') ending) = some ([], closed)) :
    attributes? (Text.splitWhere (· == '"') (attributeCharacters attributes ++ ending)) =
      some (attributes, closed) := by
  induction attributes with
  | nil => exact closes
  | cons first rest ih =>
      obtain ⟨name, value⟩ := first
      rw [areNamed, List.all_cons, Bool.and_eq_true] at named
      have later := ih named.2
      rw [splitWhere_attributeCharacters_cons named.1, attributes?,
        attributeName?_of_isName named.1, unescaped?_escaped, later]
      simp

theorem takeWhile_name_append {name rest : List Char} (named : isName name = true)
    (stops : rest.takeWhile isNameChar = []) : (name ++ rest).takeWhile isNameChar = name := by
  rw [List.takeWhile_append_of_pos ((isName_iff name).mp named).2, stops, List.append_nil]

theorem dropWhile_name_append {name rest : List Char} (named : isName name = true)
    (stops : rest.takeWhile isNameChar = []) : (name ++ rest).dropWhile isNameChar = rest := by
  have whole := List.takeWhile_append_dropWhile (p := isNameChar) (l := rest)
  rw [stops, List.nil_append] at whole
  rw [List.dropWhile_append_of_pos ((isName_iff name).mp named).2, whole]

/-- A name ends where the attributes begin, or where the tag ends. -/
theorem takeWhile_attributeCharacters (attributes : List (String × String)) {ending : List Char}
    (stops : ending.takeWhile isNameChar = []) :
    (attributeCharacters attributes ++ ending).takeWhile isNameChar = [] := by
  cases attributes with
  | nil => exact stops
  | cons first rest => rfl

/-- A tag that starts with a name is read as an opening tag or as one that is closed at once. -/
theorem tag?_name_append {name : String} {attributes : List (String × String)}
    (named : (isName name.toList && areNamed attributes) = true) (ending : List Char)
    (closed : Bool) (stops : ending.takeWhile isNameChar = [])
    (closes : attributes? (Text.splitWhere (· == '"') ending) = some ([], closed)) :
    tag? (name.toList ++ (attributeCharacters attributes ++ ending)) =
      some (if closed then .empty name attributes else .opening name attributes) := by
  rw [Bool.and_eq_true] at named
  have name_ne := ((isName_iff _).mp named.1).1
  have stopped := takeWhile_attributeCharacters attributes stops
  have taken := takeWhile_name_append named.1 stopped
  have dropped := dropWhile_name_append named.1 stopped
  have read := attributes?_attributeCharacters named.2 closes
  have not_closing : ∀ rest : List Char,
      name.toList ++ (attributeCharacters attributes ++ ending) ≠ '/' :: rest := by
    intro rest equal
    obtain ⟨c, others, name_eq⟩ := List.exists_cons_of_ne_nil name_ne
    have nameChar := ((isName_iff _).mp named.1).2 c (by simp [name_eq])
    rw [name_eq, List.cons_append, List.cons.injEq] at equal
    exact (isNameChar_not_special nameChar).2.2.2.2.1 equal.1
  rw [tag?]
  · simp only [taken, dropped, read, List.isEmpty_iff, name_ne, if_false, String.ofList_toList]
    cases closed <;> rfl
  · exact not_closing

/-- Every tag is read back. -/
theorem tag?_characters {tag : Tag} (named : tag.isNamed = true) :
    tag? tag.characters = some tag := by
  cases tag with
  | opening name attributes =>
      have read := tag?_name_append named [] false rfl rfl
      simpa [Tag.characters] using read
  | empty name attributes =>
      exact tag?_name_append named ['/'] true rfl rfl
  | closing name =>
      have name_named : isName name.toList = true := named
      simp [Tag.characters, tag?, name_named]

theorem attributeCharacters_not_special {attributes : List (String × String)}
    (named : areNamed attributes = true) {c : Char}
    (member : c ∈ attributeCharacters attributes) : c ≠ '<' ∧ c ≠ '>' := by
  obtain ⟨⟨name, value⟩, first, inside⟩ := List.mem_flatMap.mp member
  have name_named : isName name.toList = true := List.all_eq_true.mp named (name, value) first
  simp only [List.mem_append, List.mem_cons, List.not_mem_nil, or_false] at inside
  rcases inside with ((rfl | in_name) | rfl | rfl | in_value) | rfl
  · decide
  · have nameChar := ((isName_iff _).mp name_named).2 c in_name
    exact ⟨(isNameChar_not_special nameChar).1, (isNameChar_not_special nameChar).2.1⟩
  · decide
  · decide
  · exact ⟨(escaped_not_special in_value).1, (escaped_not_special in_value).2.1⟩
  · decide

/-- No angle bracket stands within a tag. -/
theorem Tag.characters_not_special {tag : Tag} (named : tag.isNamed = true) {c : Char}
    (member : c ∈ tag.characters) : c ≠ '<' ∧ c ≠ '>' := by
  have in_name : ∀ {name : String}, isName name.toList = true → c ∈ name.toList →
      c ≠ '<' ∧ c ≠ '>' := by
    intro name name_named inside
    have nameChar := ((isName_iff _).mp name_named).2 c inside
    exact ⟨(isNameChar_not_special nameChar).1, (isNameChar_not_special nameChar).2.1⟩
  cases tag with
  | opening name attributes =>
      rw [Tag.isNamed, Bool.and_eq_true] at named
      rcases List.mem_append.mp member with inside | inside
      · exact in_name named.1 inside
      · exact attributeCharacters_not_special named.2 inside
  | empty name attributes =>
      rw [Tag.isNamed, Bool.and_eq_true] at named
      rw [Tag.characters, List.mem_append, List.mem_append, List.mem_singleton] at member
      rcases member with inside | inside | rfl
      · exact in_name named.1 inside
      · exact attributeCharacters_not_special named.2 inside
      · decide
  | closing name =>
      rcases List.mem_cons.mp member with rfl | inside
      · decide
      · exact in_name named inside

/-! ## Tags and the texts after them -/

/-- A tag and the text up to the next one. -/
structure Chunk where
  /-- The tag. -/
  tag : Tag
  /-- The text after it. -/
  following : String

namespace Chunk

/-- A chunk as it is written, without the mark that starts it. -/
def characters (chunk : Chunk) : List Char :=
  chunk.tag.characters ++ '>' :: escaped chunk.following.toList

end Chunk

/-- The chunk after the mark that starts a tag. -/
def chunk? (characters : List Char) : Option Chunk :=
  match Text.splitWhere (· == '>') characters with
  | [inside, after] => do
      let tag ← tag? inside
      let following ← unescaped? after
      some ⟨tag, String.ofList following⟩
  | _ => none

/-- The chunks of a text that starts with a tag. -/
def chunks? (text : List Char) : Option (List Chunk) :=
  match Text.splitWhere (· == '<') text with
  | [] :: pieces => pieces.mapM chunk?
  | _ => none

/-- Every chunk is read back. -/
theorem chunk?_characters {chunk : Chunk} (named : chunk.tag.isNamed = true) :
    chunk? chunk.characters = some chunk := by
  have tag_unbroken : ∀ c ∈ chunk.tag.characters, (c == '>') = false := by
    intro c member
    simpa using (Tag.characters_not_special named member).2
  have text_unbroken : ∀ c ∈ escaped chunk.following.toList, (c == '>') = false := by
    intro c member
    simpa using (escaped_not_special member).2.1
  have pieces : Text.splitWhere (· == '>') chunk.characters =
      [chunk.tag.characters, escaped chunk.following.toList] := by
    rw [Chunk.characters, Text.splitWhere_append_cons tag_unbroken (by decide),
      Text.splitWhere_of_unbroken text_unbroken]
  simp [chunk?, pieces, tag?_characters named, unescaped?_escaped]

/-- A text that is a run of chunks is cut into these chunks. -/
theorem chunks?_characters {chunks : List Chunk}
    (named : ∀ chunk ∈ chunks, chunk.tag.isNamed = true) :
    chunks? (chunks.flatMap fun chunk => '<' :: chunk.characters) = some chunks := by
  have unbroken : ∀ piece ∈ [] :: chunks.map Chunk.characters, ∀ c ∈ piece,
      (c == '<') = false := by
    intro piece member c inside
    rcases List.mem_cons.mp member with rfl | member
    · cases inside
    · obtain ⟨chunk, chunk_member, rfl⟩ := List.mem_map.mp member
      rw [Chunk.characters, List.mem_append, List.mem_cons] at inside
      rcases inside with in_tag | rfl | in_text
      · simpa using (Tag.characters_not_special (named chunk chunk_member) in_tag).1
      · decide
      · simpa using (escaped_not_special in_text).1
  have pieces : Text.splitWhere (· == '<') (chunks.flatMap fun chunk => '<' :: chunk.characters) =
      [] :: chunks.map Chunk.characters := by
    have separated : Text.splitWhere (· == '<')
        ([] ++ (chunks.map Chunk.characters).flatMap ('<' :: ·)) =
          [] :: chunks.map Chunk.characters :=
      Text.splitWhere_separated rfl [] _ unbroken
    rwa [List.nil_append, List.flatMap_map] at separated
  rw [chunks?, pieces]
  exact mapM_map_eq_some fun chunk member => chunk?_characters (named chunk member)

/-! ## Elements -/

/-- An element that is not closed yet. -/
structure Frame where
  name : String
  attributes : List (String × String)
  /-- What precedes it in the element around it. -/
  before : List Markup

/-- A text as content: nothing if it is empty. -/
def ofText (text : String) : List Markup :=
  if text.isEmpty then [] else [.text text]

/-- Put tags together, given what precedes them in the innermost open element and the elements
around that one. -/
def assemble : List Chunk → List Markup → List Frame → Option (List Markup)
  | [], before, [] => some before
  | [], _, _ :: _ => none
  | ⟨.opening name attributes, following⟩ :: rest, before, frames =>
      assemble rest (ofText following) (⟨name, attributes, before⟩ :: frames)
  | ⟨.empty name attributes, following⟩ :: rest, before, frames =>
      assemble rest (before ++ .empty name attributes :: ofText following) frames
  | ⟨.closing name, following⟩ :: rest, before, frame :: frames =>
      if frame.name = name then
        assemble rest (frame.before ++ .element name frame.attributes before :: ofText following)
          frames
      else none
  | ⟨.closing _, _⟩ :: _, _, [] => none

/-- Read the text of one piece of markup. -/
def read? (text : String) : Option Markup :=
  match chunks? text.toList with
  | none => none
  | some chunks =>
      match assemble chunks [] [] with
      | some [document] => some document
      | _ => none

/-- All names in a piece of markup are names, and a text is the whole content of its element. -/
inductive WellFormed : Markup → Prop where
  | empty {name : String} {attributes : List (String × String)}
      (named : (isName name.toList && areNamed attributes) = true) :
      WellFormed (.empty name attributes)
  | textual {name : String} {attributes : List (String × String)} (value : String)
      (named : (isName name.toList && areNamed attributes) = true) :
      WellFormed (.element name attributes [.text value])
  | element {name : String} {attributes : List (String × String)} {content : List Markup}
      (named : (isName name.toList && areNamed attributes) = true)
      (wellFormed : ∀ piece ∈ content, WellFormed piece) :
      WellFormed (.element name attributes content)

/-- The text that an element starts with. -/
def leadingText : List Markup → String
  | .text value :: _ => value
  | _ => ""

mutual

/-- The chunks that a piece of markup is written in. -/
def chunks : Markup → List Chunk
  | .empty name attributes => [⟨.empty name attributes, ""⟩]
  | .element name attributes content =>
      ⟨.opening name attributes, leadingText content⟩ :: contentChunks content ++
        [⟨.closing name, ""⟩]
  | .text _ => []

/-- The chunks that pieces of markup are written in, one after the other. -/
def contentChunks : List Markup → List Chunk
  | [] => []
  | piece :: rest => chunks piece ++ contentChunks rest

end

theorem contentChunks_eq (content : List Markup) :
    contentChunks content = content.flatMap chunks := by
  induction content with
  | nil => rfl
  | cons piece rest ih => rw [contentChunks, ih, List.flatMap_cons]

theorem contentCharacters_eq (content : List Markup) :
    contentCharacters content = content.flatMap characters := by
  induction content with
  | nil => rfl
  | cons piece rest ih => rw [contentCharacters, ih, List.flatMap_cons]

/-- The piece is a text of no characters, which leaves no trace in the text of its element. -/
def isEmptyText : Markup → Bool
  | .text value => value.isEmpty
  | .empty _ _ | .element _ _ _ => false

mutual

/-- The piece of markup without its empty texts. -/
def settled : Markup → Markup
  | .empty name attributes => .empty name attributes
  | .element name attributes content => .element name attributes (settledContent content)
  | .text value => .text value

/-- Pieces of markup without empty texts. -/
def settledContent : List Markup → List Markup
  | [] => []
  | piece :: rest =>
      if isEmptyText piece then settledContent rest else settled piece :: settledContent rest

end

@[simp]
theorem ofText_empty : ofText "" = [] := rfl

theorem settledContent_text (value : String) : settledContent [.text value] = ofText value := by
  rw [settledContent, isEmptyText, ofText]
  rfl

theorem WellFormed.isEmptyText_eq {piece : Markup} (wellFormed : piece.WellFormed) :
    piece.isEmptyText = false := by
  cases wellFormed <;> rfl

theorem leadingText_of_wellFormed {content : List Markup}
    (wellFormed : ∀ piece ∈ content, piece.WellFormed) : leadingText content = "" := by
  cases content with
  | nil => rfl
  | cons piece rest =>
      cases wellFormed piece (by simp) <;> rfl

theorem settledContent_of_wellFormed {content : List Markup}
    (wellFormed : ∀ piece ∈ content, piece.WellFormed) :
    settledContent content = content.map settled := by
  induction content with
  | nil => rfl
  | cons piece rest ih =>
      have later := ih fun other member => wellFormed other (List.mem_cons_of_mem piece member)
      rw [settledContent, (wellFormed piece (by simp)).isEmptyText_eq, later]
      rfl

/-- A piece of markup is written as its chunks. -/
theorem WellFormed.characters_eq {piece : Markup} (wellFormed : piece.WellFormed) :
    piece.characters = piece.chunks.flatMap fun chunk => '<' :: chunk.characters := by
  induction wellFormed with
  | empty named =>
      simp [Markup.characters, chunks, Chunk.characters, Tag.characters, escaped]
  | textual value named =>
      simp [Markup.characters, contentCharacters, chunks, contentChunks, leadingText,
        Chunk.characters, Tag.characters, escaped]
  | @element name attributes content named wellFormed ih =>
      have inside : contentCharacters content =
          (contentChunks content).flatMap fun chunk => '<' :: chunk.characters := by
        rw [contentCharacters_eq, contentChunks_eq, List.flatMap_assoc]
        exact List.flatMap_congr ih
      simp [Markup.characters, chunks, inside, leadingText_of_wellFormed wellFormed,
        Chunk.characters, Tag.characters, escaped]

/-- Every tag that a piece of markup is written in holds names. -/
theorem WellFormed.isNamed_of_mem_chunks {piece : Markup} (wellFormed : piece.WellFormed) :
    ∀ chunk ∈ piece.chunks, chunk.tag.isNamed = true := by
  induction wellFormed with
  | empty named =>
      intro chunk member
      rw [chunks, List.mem_singleton] at member
      subst member
      exact named
  | @textual name attributes value named =>
      have name_named := (Bool.and_eq_true _ _ ▸ named).1
      intro chunk member
      simp only [chunks, contentChunks, List.append_nil, List.cons_append, List.nil_append,
        List.mem_cons, List.not_mem_nil, or_false] at member
      rcases member with rfl | rfl
      · exact named
      · exact name_named
  | @element name attributes content named wellFormed ih =>
      have name_named := (Bool.and_eq_true _ _ ▸ named).1
      intro chunk member
      rw [chunks, contentChunks_eq, List.cons_append, List.mem_cons, List.mem_append,
        List.mem_singleton] at member
      rcases member with rfl | inside | rfl
      · exact named
      · obtain ⟨piece, piece_member, chunk_member⟩ := List.mem_flatMap.mp inside
        exact ih piece piece_member chunk chunk_member
      · exact name_named

theorem assemble_contentChunks_append {content : List Markup}
    (assembles : ∀ piece ∈ content, ∀ rest before frames,
      assemble (piece.chunks ++ rest) before frames =
        assemble rest (before ++ [piece.settled]) frames)
    (rest : List Chunk) (before : List Markup) (frames : List Frame) :
    assemble (contentChunks content ++ rest) before frames =
      assemble rest (before ++ content.map settled) frames := by
  induction content generalizing before with
  | nil => simp [contentChunks]
  | cons first others ih =>
      have later := ih fun other member => assembles other (List.mem_cons_of_mem first member)
      rw [contentChunks, List.append_assoc, assembles first (by simp), later]
      simp

/-- The chunks of a piece of markup are put together to the piece. -/
theorem WellFormed.assemble_chunks_append {piece : Markup} (wellFormed : piece.WellFormed)
    (rest : List Chunk) (before : List Markup) (frames : List Frame) :
    assemble (piece.chunks ++ rest) before frames =
      assemble rest (before ++ [piece.settled]) frames := by
  induction wellFormed generalizing rest before frames with
  | empty named => simp [chunks, assemble, settled]
  | textual value named =>
      simp [chunks, contentChunks, assemble, settled, settledContent_text, leadingText]
  | @element name attributes content named wellFormed ih =>
      simp [chunks, assemble, assemble_contentChunks_append ih,
        leadingText_of_wellFormed wellFormed, settled, settledContent_of_wellFormed wellFormed]

/-- The text of a piece of markup is read back. -/
theorem read?_render {document : Markup} (wellFormed : document.WellFormed) :
    read? document.render = some document.settled := by
  have cut : chunks? document.render.toList = some document.chunks := by
    rw [render, String.toList_ofList, wellFormed.characters_eq]
    exact chunks?_characters wellFormed.isNamed_of_mem_chunks
  have whole : assemble document.chunks [] [] = some [document.settled] := by
    have appended := wellFormed.assemble_chunks_append [] [] []
    rwa [List.append_nil] at appended
  rw [read?, cut]
  simp only [whole]

end Markup

end EntitySearch
