import EntitySearch.Proofs.IntegerLiterals
import EntitySearch.Proofs.Planning
import EntitySearch.Proofs.TextTests

/-!
# Both languages say the same of a value

A truth value is a word in OData and a digit in FetchXML, a number is the same numeral in both, and
any other value is one text, which only OData quotes. Times are the exception. A row on the searched
entity is compiled to the same test in both languages, and their literals stand for the same values.
-/

namespace EntitySearch

namespace AttributeKind

/-- The tag spells a name, in any letter case. -/
def Spells (tag : Option String) (name : String) : Prop :=
  tag.map Text.lowerAscii = some name

/-- The tags of numbers. -/
def numberTags : List String :=
  ["number", "integer", "bigint", "decimal", "double", "money"]

/-- The tag is one of the tags of numbers, in any letter case. -/
def IsNumeric (tag : Option String) : Prop :=
  ∃ name ∈ numberTags, Spells tag name

theorem ofLowerTag_eq_boolean_iff (tag : String) : ofLowerTag tag = boolean ↔ tag = "boolean" := by
  rw [ofLowerTag]
  split_ifs <;> simp_all

theorem ofLowerTag_eq_number_iff (tag : String) : ofLowerTag tag = number ↔ tag ∈ numberTags := by
  rw [ofLowerTag, ← numberTags]
  by_cases numeric : tag ∈ numberTags
  · have no_boolean : tag ≠ "boolean" := by
      rintro rfl
      exact absurd numeric (by decide)
    rw [if_neg no_boolean, if_pos (List.contains_iff_mem.mpr numeric)]
    exact iff_of_true rfl numeric
  · rw [if_neg (mt List.contains_iff_mem.mp numeric)]
    split_ifs <;> exact iff_of_false nofun numeric

theorem ofLowerTag_eq_dateTime_iff (tag : String) :
    ofLowerTag tag = dateTime ↔ tag = "datetime" := by
  by_cases time : tag = "datetime"
  · subst time
    decide
  · rw [ofLowerTag, if_neg time]
    split_ifs <;> exact iff_of_false nofun time

theorem ofTag_eq_iff {tag : Option String} {kind : AttributeKind} (known : kind ≠ other) :
    ofTag tag = kind ↔ ∃ name, Spells tag name ∧ ofLowerTag name = kind := by
  cases tag with
  | none => simp [ofTag, Spells, known.symm]
  | some tag => simp [ofTag, Spells]

section Tags

variable (tag : Option String)

theorem ofTag_eq_boolean_iff : ofTag tag = boolean ↔ Spells tag "boolean" := by
  simp [ofTag_eq_iff, ofLowerTag_eq_boolean_iff]

theorem ofTag_eq_number_iff : ofTag tag = number ↔ IsNumeric tag := by
  simp [ofTag_eq_iff, ofLowerTag_eq_number_iff, IsNumeric, and_comm]

theorem ofTag_eq_dateTime_iff : ofTag tag = dateTime ↔ Spells tag "datetime" := by
  simp [ofTag_eq_iff, ofLowerTag_eq_dateTime_iff]

end Tags

end AttributeKind

open AttributeKind (Spells IsNumeric)

/-- The literals that the two languages have for a value of an attribute that is no time. -/
inductive LiteralsAgree (tag : Option String) (value : FilterValue) : String → String → Prop where
  | truth (boolean : Spells tag "boolean") (word : Bool) :
      LiteralsAgree tag value (if word then "true" else "false") (if word then "1" else "0")
  /-- The digits of a number, at most with a sign and a point. -/
  | number (numeric : IsNumeric tag) {number : Double} (denoted : value.number? = some number)
      (plain : Text.isNumeral number.numeral.toList = true) :
      LiteralsAgree tag value number.numeral number.numeral
  /-- The OData literal is the FetchXML literal within quotes, the quotes in it doubled. -/
  | text (no_boolean : ¬ Spells tag "boolean") (no_number : IsNumeric tag → value.number? = none)
      {odata fetch : String} (unquoted : OData.Literal.ofText? odata = some (.quoted fetch)) :
      LiteralsAgree tag value odata fetch

/-- The languages agree on every value of an attribute that is no time. -/
theorem literalsAgree_ofTag {tag : Option String} (no_time : ¬ Spells tag "datetime")
    (value : FilterValue) (zone : TimeZone) :
    LiteralsAgree tag value (odataLiteral zone (.ofTag tag) value)
      (fetchLiteral (.ofTag tag) value) := by
  have quoted (no_boolean : ¬ Spells tag "boolean")
      (no_number : IsNumeric tag → value.number? = none) :
      LiteralsAgree tag value (quotedLiteral value.display.toList) value.display :=
    .text no_boolean no_number (OData.Literal.ofText?_quotedLiteral value.display)
  rw [← AttributeKind.ofTag_eq_boolean_iff, ← AttributeKind.ofTag_eq_number_iff] at quoted
  rw [← AttributeKind.ofTag_eq_dateTime_iff] at no_time
  cases kind : AttributeKind.ofTag tag with
  | boolean => exact .truth ((AttributeKind.ofTag_eq_boolean_iff tag).mp kind) value.isTrue
  | number =>
      cases denoted : value.number? with
      | none =>
          rw [odataLiteral, fetchLiteral, denoted]
          exact quoted (by rw [kind]; decide) fun _ => denoted
      | some number =>
          obtain ⟨finite, rfl⟩ := OData.Literal.exists_finite_of_number? denoted
          rw [odataLiteral_of_number? denoted, fetchLiteral_of_number? denoted]
          exact .number ((AttributeKind.ofTag_eq_number_iff tag).mp kind) denoted
            (by simpa [Double.numeral] using finite.isNumeral_numeral)
  | dateTime => exact absurd kind no_time
  | string | memo | uniqueIdentifier | picklist | lookup | other =>
      rw [kind] at quoted
      exact quoted (by decide) fun same => absurd same (by decide)

/-- The same test in two languages, their values related one by one. -/
inductive Test.Corresponds {First Second : Type} (relation : First → Second → Prop) :
    Test First → Test Second → Prop where
  | state (test : StateTest) : Corresponds relation (.state test) (.state test)
  | compare (comparison : Comparison) {left : First} {right : Second}
      (related : relation left right) :
      Corresponds relation (.compare comparison left) (.compare comparison right)
  | among {left : First} {right : Second} (related : relation left right) {others : List First}
      {counterparts : List Second} (rest : List.Forall₂ relation others counterparts) :
      Corresponds relation (.among left others) (.among right counterparts)

theorem Test.corresponds_map {Value First Second : Type} {relation : First → Second → Prop}
    {left : Value → First} {right : Value → Second}
    (related : ∀ value, relation (left value) (right value)) (test : Test Value) :
    (test.map left).Corresponds relation (test.map right) := by
  cases test with
  | state test => exact .state test
  | compare comparison value => exact .compare comparison (related value)
  | among first rest =>
      refine .among (related first) ?_
      rw [List.forall₂_map_left_iff, List.forall₂_map_right_iff, List.forall₂_same]
      exact fun value _ => related value

/-- Literals of one value in the two languages. -/
def AreLiterals (zone : TimeZone) (tag : Option String) (odata fetch : String) : Prop :=
  ∃ value, odata = odataLiteral zone (.ofTag tag) value ∧ fetch = fetchLiteral (.ofTag tag) value ∧
    (¬ Spells tag "datetime" → LiteralsAgree tag value odata fetch)

/-- A row on the searched entity is the same test in both languages, with literals of the same
values. -/
theorem exists_corresponding {zone : TimeZone} {entity : String} {row : FilterRow}
    {expression : OData.Expression}
    (accepted : OData.expression? zone entity row = .ok expression) :
    ∃ option fetched, row.option = some option ∧
      FetchXml.placedCriterion? row = .ok ⟨[], .ofTest expression.attributeName fetched⟩ ∧
      expression.test.Corresponds (AreLiterals zone option.target.attributeType) fetched := by
  rw [OData.expression?] at accepted
  cases amounts : row.condition? with
  | error reason => rw [amounts] at accepted; cases accepted
  | ok condition =>
      rw [amounts] at accepted
      dsimp only at accepted
      split_ifs at accepted with related
      obtain rfl := Except.ok.inj accepted
      have option_eq := (FilterRow.option_eq_of_condition? amounts).1
      have direct := SearchPlan.joinPath?_of_not_isRelated (eq_false_of_ne_true related)
      refine ⟨condition.option, condition.test.map (fetchLiteral condition.kind), option_eq, ?_, ?_⟩
      · rw [FetchXml.placedCriterion?, amounts]
        dsimp only
        rw [direct]
        rfl
      · exact Test.corresponds_map (fun value => ⟨value, rfl, rfl, fun no_time =>
          literalsAgree_ofTag no_time value zone⟩) condition.test

end EntitySearch
