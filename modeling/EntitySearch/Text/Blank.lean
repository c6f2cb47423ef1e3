/-!
# Blank characters and trimming

Which characters count as white space, and what is left of a text once they are cut from its ends.
A text is blank when trimming leaves nothing of it.
-/

namespace EntitySearch

namespace Text

/-- The character has the Unicode property `White_Space`. -/
def isSpace (c : Char) : Bool :=
  let code := c.toNat
  (0x9 ≤ code && code ≤ 0xD) || code == 0x20 || code == 0x85 || code == 0xA0 || code == 0x1680 ||
    (0x2000 ≤ code && code ≤ 0x200A) || code == 0x2028 || code == 0x2029 || code == 0x202F ||
    code == 0x205F || code == 0x3000

/-- The characters from the first one on that is not white space. -/
def trimStart (characters : List Char) : List Char :=
  characters.dropWhile isSpace

/-- The characters without the white space at either end. -/
def trimEnds (characters : List Char) : List Char :=
  (trimStart (trimStart characters).reverse).reverse

/-- The text without the white space at either end. -/
def trim (text : String) : String :=
  String.ofList (trimEnds text.toList)

@[simp]
theorem toList_trim (text : String) : (trim text).toList = trimEnds text.toList := by
  simp [trim]

/-- The text holds nothing but white space. -/
def isBlank (text : String) : Bool :=
  text.toList.all isSpace

/-- The text, kept as it is, unless it is missing or blank. -/
def nonBlank? : Option String → Option String
  | some text => if isBlank text then none else some text
  | none => none

@[simp]
theorem nonBlank?_none : nonBlank? none = none := rfl

theorem nonBlank?_eq_some_iff {given : Option String} {text : String} :
    nonBlank? given = some text ↔ given = some text ∧ isBlank text = false := by
  cases given with
  | none => simp
  | some other =>
      by_cases blank : isBlank other = true
      · constructor
        · simp [nonBlank?, blank]
        · rintro ⟨same, solid⟩
          simp_all
      · constructor
        · simp only [nonBlank?, blank]
          rintro ⟨rfl⟩
          simp [blank]
        · rintro ⟨same, _⟩
          simp_all [nonBlank?]

end Text

end EntitySearch
