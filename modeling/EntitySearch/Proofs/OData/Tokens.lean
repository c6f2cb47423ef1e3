import EntitySearch.Literal
import Mathlib.Data.List.Basic
import Mathlib.Tactic.SplitIfs

/-!
# Tokens of OData filters

A filter is cut into words, quoted texts and the marks between them. A quote within a quoted text is
written twice, so a text ends at the first quote that stands alone, whatever the text holds.
-/

namespace EntitySearch

namespace OData

/-- The character separates words. -/
def isMark (c : Char) : Bool :=
  c == ' ' || c == ',' || c == '(' || c == ')' || c == '\''

/-- The characters make up a word. -/
def isWord (characters : List Char) : Bool :=
  ! characters.isEmpty && characters.all (! isMark ·)

/-- A piece of a filter. -/
inductive Token where
  /-- Characters without a mark among them. -/
  | word (characters : List Char)
  /-- What stands between quotes, each doubled quote counted once. -/
  | quoted (text : List Char)
  | blank
  | comma
  | opening
  | closing
  deriving DecidableEq

namespace Token

/-- The token of a mark other than a quote. -/
def ofMark? (c : Char) : Option Token :=
  if c = ' ' then some blank
  else if c = ',' then some comma
  else if c = '(' then some opening
  else if c = ')' then some closing
  else none

/-- The tokens with one more character in front of the first word. -/
def withCharacter (c : Char) : List Token → List Token
  | word characters :: rest => word (c :: characters) :: rest
  | tokens => word [c] :: tokens

end Token

mutual

/-- The tokens of a text, unless a quotation in it has no end. -/
def tokens? : List Char → Option (List Token)
  | [] => some []
  | c :: rest =>
      if c = '\'' then (quotation? rest).map fun (text, following) => .quoted text :: following
      else
        match Token.ofMark? c with
        | some mark => (tokens? rest).map (mark :: ·)
        | none => (tokens? rest).map (Token.withCharacter c)

/-- The text up to the end of a quotation, and the tokens after it. -/
def quotation? : List Char → Option (List Char × List Token)
  | [] => none
  | '\'' :: '\'' :: rest => (quotation? rest).map fun (text, following) => ('\'' :: text, following)
  | '\'' :: rest => (tokens? rest).map fun following => ([], following)
  | c :: rest => (quotation? rest).map fun (text, following) => (c :: text, following)

end

theorem isWord_iff (characters : List Char) :
    isWord characters = true ↔ characters ≠ [] ∧ ∀ c ∈ characters, isMark c = false := by
  cases characters <;> simp [isWord]

theorem isMark_eq (c : Char) : isMark c = (c == '\'' || (Token.ofMark? c).isSome) := by
  rw [isMark, Token.ofMark?]
  split_ifs with blank comma opening closing
  · simp [blank]
  · simp [comma]
  · simp [opening]
  · simp [closing]
  · simp [blank, comma, opening, closing]

/-- Letters, digits and underscores stand within words. -/
theorem isMark_of_isAlphanum {c : Char} (plain : (c.isAlphanum || c == '_') = true) :
    isMark c = false := by
  rw [Bool.eq_false_iff]
  intro mark
  simp only [isMark, Bool.or_eq_true, beq_iff_eq] at mark
  rcases mark with (((rfl | rfl) | rfl) | rfl) | rfl <;> revert plain <;> decide

section Marks

variable {mark : Char} (marks : isMark mark = true) (rest : List Char)
include marks

theorem withCharacter_of_mark (c : Char) {tokens : List Token}
    (read : tokens? (mark :: rest) = some tokens) :
    Token.withCharacter c tokens = .word [c] :: tokens := by
  -- The tokens start with what the mark stands for, which is no word, so there is none to extend.
  rw [tokens?] at read
  split_ifs at read with quote
  · obtain ⟨⟨text, following⟩, _, rfl⟩ := Option.map_eq_some_iff.mp read
    rfl
  · rw [isMark_eq, beq_eq_false_iff_ne.mpr quote, Bool.false_or, Option.isSome_iff_exists] at marks
    obtain ⟨token, token_eq⟩ := marks
    simp only [token_eq, Option.map_eq_some_iff] at read
    obtain ⟨following, _, rfl⟩ := read
    rw [Token.ofMark?] at token_eq
    split_ifs at token_eq <;> (obtain rfl := Option.some.inj token_eq; rfl)

theorem tokens?_cons_mark_of_word {c : Char} (plain : isMark c = false) :
    tokens? (c :: mark :: rest) = (tokens? (mark :: rest)).map (.word [c] :: ·) := by
  rw [isMark_eq, Bool.or_eq_false_iff, beq_eq_false_iff_ne] at plain
  have no_mark : Token.ofMark? c = none := by simpa using plain.2
  rw [tokens?, if_neg plain.1, no_mark]
  cases read : tokens? (mark :: rest) with
  | none => rfl
  | some tokens => simp [withCharacter_of_mark marks rest c read]

/-- A word ends at the first mark. -/
theorem tokens?_word_append {word : List Char} (is_word : isWord word = true) :
    tokens? (word ++ mark :: rest) = (tokens? (mark :: rest)).map (.word word :: ·) := by
  obtain ⟨word_ne, plain⟩ := (isWord_iff word).mp is_word
  clear is_word
  induction word with
  | nil => exact absurd rfl word_ne
  | cons c later ih =>
      have c_plain := plain c (by simp)
      cases later with
      | nil => exact tokens?_cons_mark_of_word marks rest c_plain
      | cons next others =>
          have shorter := ih (by simp) fun other member => plain other (by simp [member])
          have no_mark : c ≠ '\'' ∧ Token.ofMark? c = none := by
            simpa [isMark_eq] using c_plain
          rw [List.cons_append, tokens?, if_neg no_mark.1, no_mark.2, shorter]
          cases tokens? (mark :: rest) <;> rfl

end Marks

/-- A quotation ends at the quote that closes it, whatever is quoted. -/
theorem quotation?_doubleQuotes_append (text : List Char) {next : Char} (other : next ≠ '\'')
    (rest : List Char) :
    quotation? (Text.doubleQuotes text ++ '\'' :: next :: rest) =
      (tokens? (next :: rest)).map fun following => (text, following) := by
  induction text with
  | nil =>
      rw [Text.doubleQuotes, List.flatMap_nil, List.nil_append, quotation?]
      simpa using other
  | cons c text ih =>
      rw [Text.doubleQuotes] at ih
      rw [Text.doubleQuotes, List.flatMap_cons, List.append_assoc]
      by_cases quote : c = '\''
      · subst quote
        rw [if_pos rfl, List.cons_append, List.cons_append, List.nil_append, quotation?, ih]
        cases tokens? (next :: rest) <;> rfl
      · rw [if_neg quote, List.singleton_append, quotation?, ih]
        · cases tokens? (next :: rest) <;> rfl
        · exact fun _ same => absurd same quote
        · exact quote

theorem tokens?_quote_append (text : List Char) {next : Char} (other : next ≠ '\'')
    (rest : List Char) :
    tokens? ('\'' :: (Text.doubleQuotes text ++ '\'' :: next :: rest)) =
      (tokens? (next :: rest)).map (.quoted text :: ·) := by
  rw [tokens?, if_pos rfl, quotation?_doubleQuotes_append text other rest, Option.map_map]
  rfl

/-- A word is quoted as it is. -/
theorem doubleQuotes_of_isWord {text : List Char} (is_word : isWord text = true) :
    Text.doubleQuotes text = text := by
  have single : ∀ c ∈ text, (if c = '\'' then ['\'', '\''] else [c]) = [c] := by
    intro c member
    rw [if_neg]
    rintro rfl
    have quote := ((isWord_iff text).mp is_word).2 _ member
    revert quote
    decide
  rw [Text.doubleQuotes, List.flatMap_congr single]
  exact List.flatMap_singleton' text

@[simp]
theorem tokens?_blank (rest : List Char) :
    tokens? (' ' :: rest) = (tokens? rest).map (.blank :: ·) := rfl

@[simp]
theorem tokens?_comma (rest : List Char) :
    tokens? (',' :: rest) = (tokens? rest).map (.comma :: ·) := rfl

@[simp]
theorem tokens?_opening (rest : List Char) :
    tokens? ('(' :: rest) = (tokens? rest).map (.opening :: ·) := rfl

@[simp]
theorem tokens?_closing (rest : List Char) :
    tokens? (')' :: rest) = (tokens? rest).map (.closing :: ·) := rfl

end OData

end EntitySearch
