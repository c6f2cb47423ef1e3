import EntitySearch.OData.Filter
import EntitySearch.Proofs.Number.Numeral
import EntitySearch.Proofs.OData.Tokens

/-!
# Clauses of OData filters

A clause is an expression whose literals are told apart by what they say. It is put together from
the tokens of its text, and every clause with a plain name is what its own text is put together to.
-/

namespace EntitySearch

namespace OData

/-! ## Literals -/

/-- A literal by what it says. -/
inductive Literal where
  | truth (value : Bool)
  | number (characters : List Char) (numeral : Text.isNumeral characters = true)
  | quoted (text : String)
  deriving DecidableEq

namespace Literal

/-- The word for a truth value. -/
def truthText (value : Bool) : String :=
  if value then "true" else "false"

/-- The literal as it is written. -/
def text : Literal → String
  | truth value => truthText value
  | number characters _ => String.ofList characters
  | quoted text => quotedLiteral text.toList

def token : Literal → Token
  | truth value => .word (truthText value).toList
  | number characters _ => .word characters
  | quoted text => .quoted text.toList

def ofToken? : Token → Option Literal
  | .word characters =>
      if characters = "true".toList then some (truth true)
      else if characters = "false".toList then some (truth false)
      else if numeral : Text.isNumeral characters = true then some (number characters numeral)
      else none
  | .quoted text => some (quoted (String.ofList text))
  | _ => none

/-- What a value says: the text that was entered, unless the kind of its attribute makes it a truth
value, a number or a time. -/
def ofValue (zone : TimeZone) (kind : AttributeKind) (value : FilterValue) : Literal :=
  match kind with
  | .boolean => truth value.isTrue
  | .number =>
      match value.number? with
      | some (.finite finite) => number finite.numeral finite.isNumeral_numeral
      | _ => quoted value.display
  | .dateTime =>
      match value.instant? zone with
      | some instant => quoted (String.ofList instant.timestamp)
      | none => quoted value.display
  | _ => quoted value.display

theorem exists_finite_of_number? {value : FilterValue} {number : Double}
    (read : value.number? = some number) : ∃ finite, number = .finite finite := by
  have is_finite : number.isFinite = true := by
    cases value with
    | number given =>
        rw [FilterValue.number?] at read
        split_ifs at read with given_finite
        obtain rfl := Option.some.inj read
        exact given_finite
    | text given =>
        rw [FilterValue.number?] at read
        exact (Option.filter_eq_some_iff.mp read).2
  cases number with
  | finite finite => exact ⟨finite, rfl⟩
  | nan => cases is_finite
  | infinite negative => cases is_finite

/-- A value is written as what it says. -/
theorem text_ofValue (zone : TimeZone) (kind : AttributeKind) (value : FilterValue) :
    (ofValue zone kind value).text = odataLiteral zone kind value := by
  rw [ofValue.eq_def, odataLiteral.eq_def]
  cases kind with
  | boolean => rfl
  | number =>
      dsimp only
      cases read : value.number? with
      | none => rfl
      | some number =>
          obtain ⟨finite, rfl⟩ := exists_finite_of_number? read
          rfl
  | dateTime =>
      dsimp only
      cases value.instant? zone with
      | none => rfl
      | some instant => simp [text]
  | string | memo | uniqueIdentifier | picklist | lookup | other => rfl

theorem isWord_of_isNumeral {characters : List Char}
    (numeral : Text.isNumeral characters = true) : isWord characters = true := by
  rw [isWord_iff]
  refine ⟨Text.ne_nil_of_isNumeral numeral, ?_⟩
  intro c member
  rcases Text.mem_numeral numeral c member with digit | rfl | rfl
  · exact isMark_of_isAlphanum (by simp [Char.isAlphanum, digit])
  · decide
  · decide

theorem tokens?_text_append (literal : Literal) {next : Char} (marks : isMark next = true)
    (other : next ≠ '\'') (rest : List Char) :
    tokens? (literal.text.toList ++ next :: rest) =
      (tokens? (next :: rest)).map (literal.token :: ·) := by
  cases literal with
  | truth value =>
      have is_word : isWord (truthText value).toList = true := by cases value <;> decide
      rw [text, token]
      exact tokens?_word_append marks rest is_word
  | number characters numeral =>
      rw [text, token, String.toList_ofList]
      exact tokens?_word_append marks rest (isWord_of_isNumeral numeral)
  | quoted text =>
      rw [Literal.text, token, quotedLiteral, String.toList_ofList, List.append_assoc,
        List.singleton_append]
      exact tokens?_quote_append text.toList other rest

@[simp]
theorem ofToken?_token (literal : Literal) : ofToken? literal.token = some literal := by
  cases literal with
  | truth value => cases value <;> rfl
  | number characters numeral =>
      have not_word (word : List Char) (no_numeral : Text.isNumeral word = false) :
          characters ≠ word := by
        rintro rfl
        rw [numeral] at no_numeral
        cases no_numeral
      rw [token, ofToken?, if_neg (not_word _ (by decide)), if_neg (not_word _ (by decide)),
        dif_pos numeral]
  | quoted text => simp [token, ofToken?]

/-- No literal is written like the absence of a value. -/
theorem token_ne_null (literal : Literal) : literal.token ≠ .word "null".toList := by
  have unread : ofToken? (.word "null".toList) = none := by
    rw [ofToken?, if_neg (by decide), if_neg (by decide), dif_neg (by decide)]
  intro same
  have read := literal.ofToken?_token
  rw [same, unread] at read
  cases read

end Literal

/-! ## Clauses -/

/-- What a filter asks of one attribute. -/
structure Clause where
  attributeName : String
  test : Test Literal
  deriving DecidableEq

namespace Clause

/-- The attribute's name is a word. -/
def IsPlain (clause : Clause) : Prop :=
  isWord clause.attributeName.toList = true

def expression (clause : Clause) : Expression :=
  ⟨clause.attributeName, clause.test.map Literal.text⟩

/-- What a condition asks for, local times taken in a time zone. -/
def ofCondition (zone : TimeZone) (condition : Condition) : Clause :=
  ⟨condition.attributeName, condition.test.map (Literal.ofValue zone condition.kind)⟩

theorem expression_ofCondition (zone : TimeZone) (condition : Condition) :
    (ofCondition zone condition).expression = Expression.ofCondition zone condition := by
  have written : Literal.text ∘ Literal.ofValue zone condition.kind =
      odataLiteral zone condition.kind :=
    funext fun value => Literal.text_ofValue zone condition.kind value
  rw [expression, ofCondition, Expression.ofCondition, ← written]
  cases condition.test <;> simp [Test.map]

/-! ### Tokens of clauses -/

/-- The tokens of the words around a name that is compared. -/
def relationTokens (name : List Char) (verb : String) (operand : Token) : List Token :=
  [.word name, .blank, .word verb.toList, .blank, operand]

def dayTokens (function : String) (name : List Char) : List Token :=
  [.word function.toList, .opening, .word "PropertyName=".toList, .quoted name, .closing]

def stateTokens (name : List Char) : StateTest → List Token
  | .null => relationTokens name "eq" (.word "null".toList)
  | .notNull => relationTokens name "ne" (.word "null".toList)
  | .today => dayTokens "Microsoft.Dynamics.CRM.Today" name
  | .tomorrow => dayTokens "Microsoft.Dynamics.CRM.Tomorrow" name
  | .yesterday => dayTokens "Microsoft.Dynamics.CRM.Yesterday" name

def partTokens (name : List Char) (placement : Placement) (operand : Token) : List Token :=
  [.word (partFunction placement).toList, .opening, .word name, .comma, operand, .closing]

/-- The tokens of a list of literals and the parenthesis that closes it. -/
def listTokens (first : Literal) : List Literal → List Token
  | [] => [first.token, .closing]
  | second :: rest => first.token :: .comma :: listTokens second rest

def tokens (clause : Clause) : List Token :=
  let name := clause.attributeName.toList
  match clause.test with
  | .state test => stateTokens name test
  | .compare (.relation order) literal => relationTokens name order.token literal.token
  | .compare (.part placement false) literal => partTokens name placement literal.token
  | .compare (.part placement true) literal =>
      .word "not".toList :: .blank :: partTokens name placement literal.token
  | .among first rest =>
      .word name :: .blank :: .word "in".toList :: .blank :: .opening :: listTokens first rest

section Cutting

variable {name : List Char} (name_word : isWord name = true) (rest : List Char)
include name_word

theorem tokens?_relation {verb : String} {operand : List Char} {token : Token}
    (verb_word : isWord verb.toList = true)
    (cut : tokens? (operand ++ ')' :: rest) = (tokens? (')' :: rest)).map (token :: ·)) :
    tokens? (name ++ ' ' :: (verb.toList ++ ' ' :: (operand ++ ')' :: rest))) =
      (tokens? (')' :: rest)).map (relationTokens name verb token ++ ·) := by
  rw [tokens?_word_append (by decide) _ name_word, tokens?_blank,
    tokens?_word_append (by decide) _ verb_word, tokens?_blank, cut]
  cases tokens? (')' :: rest) <;> rfl

theorem tokens?_null {verb : String} (verb_word : isWord verb.toList = true) :
    tokens? (name ++ ' ' :: (verb.toList ++ ' ' :: ("null".toList ++ ')' :: rest))) =
      (tokens? (')' :: rest)).map (relationTokens name verb (.word "null".toList) ++ ·) :=
  tokens?_relation name_word rest verb_word (tokens?_word_append (by decide) _ (by decide))

omit name_word in
/-- The text of a function of a name, whose opening ends with the quote before the name. -/
theorem tokens?_day {name : String} (name_word : isWord name.toList = true) (function : String)
    {opening : String} (opening_eq : opening.toList = function.toList ++ "(PropertyName='".toList)
    (function_word : isWord function.toList = true) :
    tokens? ((opening ++ name ++ "')").toList ++ ')' :: rest) =
      (tokens? (')' :: rest)).map (dayTokens function name.toList ++ ·) := by
  have quotation : tokens? ('\'' :: (name.toList ++ '\'' :: ')' :: ')' :: rest)) =
      (tokens? (')' :: ')' :: rest)).map (.quoted name.toList :: ·) := by
    have quoted_name := tokens?_quote_append name.toList (by decide : ')' ≠ '\'') (')' :: rest)
    rwa [doubleQuotes_of_isWord name_word] at quoted_name
  have layout : (opening ++ name ++ "')").toList ++ ')' :: rest = function.toList ++ '(' ::
      ("PropertyName=".toList ++ '\'' :: (name.toList ++ '\'' :: ')' :: ')' :: rest)) := by
    simp [opening_eq]
  rw [layout, tokens?_word_append (by decide) _ function_word, tokens?_opening,
    tokens?_word_append (by decide) _ (by decide), quotation, tokens?_closing]
  cases tokens? (')' :: rest) <;> rfl

theorem tokens?_part (placement : Placement) (literal : Literal) :
    tokens? ((partFunction placement).toList ++ '(' ::
        (name ++ ',' :: (literal.text.toList ++ ')' :: ')' :: rest))) =
      (tokens? (')' :: rest)).map (partTokens name placement literal.token ++ ·) := by
  have function_word : isWord (partFunction placement).toList = true := by
    cases placement <;> decide
  rw [tokens?_word_append (by decide) _ function_word, tokens?_opening,
    tokens?_word_append (by decide) _ name_word, tokens?_comma,
    literal.tokens?_text_append (by decide) (by decide), tokens?_closing]
  cases tokens? (')' :: rest) <;> rfl

theorem tokens?_not_part (placement : Placement) (literal : Literal) :
    tokens? ("not".toList ++ ' ' :: ((partFunction placement).toList ++ '(' ::
        (name ++ ',' :: (literal.text.toList ++ ')' :: ')' :: rest)))) =
      (tokens? (')' :: rest)).map
        (.word "not".toList :: .blank :: partTokens name placement literal.token ++ ·) := by
  rw [tokens?_word_append (by decide) _ (by decide), tokens?_blank,
    tokens?_part name_word]
  cases tokens? (')' :: rest) <;> rfl

omit name_word in
theorem tokens?_list (first : Literal) (others : List Literal) :
    tokens? ((Text.join "," ((first :: others).map Literal.text)).toList ++ ')' :: rest) =
      (tokens? rest).map (listTokens first others ++ ·) := by
  induction others generalizing first with
  | nil =>
      rw [List.map_singleton, Text.toList_join_singleton,
        first.tokens?_text_append (by decide) (by decide), tokens?_closing]
      cases tokens? rest <;> rfl
  | cons second others ih =>
      have layout : (Text.join "," ((first :: second :: others).map Literal.text)).toList ++
          ')' :: rest = first.text.toList ++ ',' ::
            ((Text.join "," ((second :: others).map Literal.text)).toList ++ ')' :: rest) := by
        rw [List.map_cons, List.map_cons, Text.toList_join_cons_cons]
        simp
      rw [layout, first.tokens?_text_append (by decide) (by decide), tokens?_comma, ih second]
      cases tokens? rest <;> rfl

theorem tokens?_among (first : Literal) (others : List Literal) :
    tokens? (name ++ ' ' :: ("in".toList ++ ' ' :: '(' ::
        ((Text.join "," ((first :: others).map Literal.text)).toList ++ ')' :: ')' :: rest))) =
      (tokens? (')' :: rest)).map
        (.word name :: .blank :: .word "in".toList :: .blank :: .opening ::
          listTokens first others ++ ·) := by
  rw [tokens?_word_append (by decide) _ name_word, tokens?_blank,
    tokens?_word_append (by decide) _ (by decide), tokens?_blank, tokens?_opening,
    tokens?_list]
  cases tokens? (')' :: rest) <;> rfl

end Cutting

/-- An expression in parentheses is cut into the tokens of its clause, whatever follows it. -/
theorem tokens?_text_append {clause : Clause} (plain : clause.IsPlain) (rest : List Char) :
    tokens? (clause.expression.text.toList ++ ')' :: rest) =
      (tokens? (')' :: rest)).map (clause.tokens ++ ·) := by
  obtain ⟨name, test⟩ := clause
  -- Each text is laid out as its pieces with the mark after each of them.
  cases test with
  | state test =>
      cases test with
      | null =>
          have layout : (name ++ " eq null").toList ++ ')' :: rest =
              name.toList ++ ' ' :: ("eq".toList ++ ' ' :: ("null".toList ++ ')' :: rest)) := by
            simp
          exact layout ▸ tokens?_null plain rest (by decide)
      | notNull =>
          have layout : (name ++ " ne null").toList ++ ')' :: rest =
              name.toList ++ ' ' :: ("ne".toList ++ ' ' :: ("null".toList ++ ')' :: rest)) := by
            simp
          exact layout ▸ tokens?_null plain rest (by decide)
      | today =>
          exact tokens?_day rest plain "Microsoft.Dynamics.CRM.Today" (by simp) (by decide)
      | tomorrow =>
          exact tokens?_day rest plain "Microsoft.Dynamics.CRM.Tomorrow" (by simp) (by decide)
      | yesterday =>
          exact tokens?_day rest plain "Microsoft.Dynamics.CRM.Yesterday" (by simp) (by decide)
  | compare comparison literal =>
      cases comparison with
      | relation order =>
          have verb_word : isWord order.token.toList = true := by cases order <;> decide
          have operand : tokens? (literal.text.toList ++ ')' :: rest) =
              (tokens? (')' :: rest)).map (literal.token :: ·) :=
            literal.tokens?_text_append (by decide) (by decide) rest
          have layout : (name ++ " " ++ order.token ++ " " ++ literal.text).toList ++ ')' :: rest =
              name.toList ++ ' ' ::
                (order.token.toList ++ ' ' :: (literal.text.toList ++ ')' :: rest)) := by
            simp
          exact layout ▸ tokens?_relation plain rest verb_word operand
      | part placement negated =>
          cases negated with
          | false =>
              have layout : ("" ++ partFunction placement ++ "(" ++ name ++ "," ++
                  literal.text ++ ")").toList ++ ')' :: rest =
                    (partFunction placement).toList ++ '(' ::
                      (name.toList ++ ',' :: (literal.text.toList ++ ')' :: ')' :: rest)) := by
                simp
              exact layout ▸ tokens?_part plain rest placement literal
          | true =>
              have layout : ("not " ++ partFunction placement ++ "(" ++ name ++ "," ++
                  literal.text ++ ")").toList ++ ')' :: rest =
                    "not".toList ++ ' ' :: ((partFunction placement).toList ++ '(' ::
                      (name.toList ++ ',' :: (literal.text.toList ++ ')' :: ')' :: rest))) := by
                simp
              have cut := tokens?_not_part plain rest placement literal
              rw [← layout] at cut
              exact cut
  | among first others =>
      have layout : (name ++ " in (" ++ Text.join "," ((first :: others).map Literal.text) ++
          ")").toList ++ ')' :: rest = name.toList ++ ' ' :: ("in".toList ++ ' ' :: '(' ::
            ((Text.join "," ((first :: others).map Literal.text)).toList ++
              ')' :: ')' :: rest)) := by
        simp
      exact layout ▸ tokens?_among plain rest first others

/-! ### Clauses of tokens -/

/-- The order that a word stands for. -/
def relation? (verb : String) : Option Relation :=
  [Relation.eq, .ne, .ge, .gt, .le, .lt].find? (·.token == verb)

/-- The day that a function tests for. -/
def day? (function : String) : Option StateTest :=
  if function = "Microsoft.Dynamics.CRM.Today" then some .today
  else if function = "Microsoft.Dynamics.CRM.Tomorrow" then some .tomorrow
  else if function = "Microsoft.Dynamics.CRM.Yesterday" then some .yesterday
  else none

/-- The place that a function looks at. -/
def placement? (function : String) : Option Placement :=
  [Placement.start, .ending, .anywhere].find? (partFunction · == function)

/-- The comparison of a name with what an operand says, or with the absence of a value. -/
def ofRelation? (name verb : String) (operand : Token) : Option Clause :=
  if operand = .word "null".toList then
    if verb = "eq" then some ⟨name, .state .null⟩
    else if verb = "ne" then some ⟨name, .state .notNull⟩
    else none
  else do
    let order ← relation? verb
    let literal ← Literal.ofToken? operand
    some ⟨name, .compare (.relation order) literal⟩

/-- The test of a name for the part that an operand says. -/
def ofPart? (negated : Bool) (function name : String) (operand : Token) : Option Clause := do
  let placement ← placement? function
  let literal ← Literal.ofToken? operand
  some ⟨name, .compare (.part placement negated) literal⟩

/-- The literals of a list, up to the parenthesis that closes it. -/
def literals? : List Token → Option (List Literal)
  | [operand, .closing] => (Literal.ofToken? operand).map ([·])
  | operand :: .comma :: rest => do
      let literal ← Literal.ofToken? operand
      let others ← literals? rest
      some (literal :: others)
  | _ => none

/-- The clause that tokens make up. -/
def ofTokens? : List Token → Option Clause
  | .word name :: .blank :: .word verb :: .blank :: .opening :: rest =>
      match literals? rest with
      | some (first :: others) =>
          if verb = "in".toList then some ⟨String.ofList name, .among first others⟩ else none
      | _ => none
  | [.word name, .blank, .word verb, .blank, operand] =>
      ofRelation? (String.ofList name) (String.ofList verb) operand
  | [.word function, .opening, .word parameter, .quoted name, .closing] =>
      if parameter = "PropertyName=".toList then
        (day? (String.ofList function)).map fun test => ⟨String.ofList name, .state test⟩
      else none
  | [.word function, .opening, .word name, .comma, operand, .closing] =>
      ofPart? false (String.ofList function) (String.ofList name) operand
  | [.word negation, .blank, .word function, .opening, .word name, .comma, operand, .closing] =>
      if negation = "not".toList then
        ofPart? true (String.ofList function) (String.ofList name) operand
      else none
  | _ => none

theorem literals?_listTokens (first : Literal) (others : List Literal) :
    literals? (listTokens first others) = some (first :: others) := by
  induction others generalizing first with
  | nil => simp [listTokens, literals?]
  | cons second others ih => simp [listTokens, literals?, ih second]

theorem ofRelation?_token (name : String) (order : Relation) (literal : Literal) :
    ofRelation? name order.token literal.token =
      some ⟨name, .compare (.relation order) literal⟩ := by
  have found : relation? order.token = some order := by cases order <;> decide
  rw [ofRelation?, if_neg literal.token_ne_null, found, literal.ofToken?_token]
  rfl

theorem ofPart?_token (negated : Bool) (name : String) (placement : Placement)
    (literal : Literal) :
    ofPart? negated (partFunction placement) name literal.token =
      some ⟨name, .compare (.part placement negated) literal⟩ := by
  have found : placement? (partFunction placement) = some placement := by
    cases placement <;> decide
  rw [ofPart?, found, literal.ofToken?_token]
  rfl

/-- The tokens of a clause make up the clause. -/
theorem ofTokens?_tokens (clause : Clause) : ofTokens? clause.tokens = some clause := by
  obtain ⟨name, test⟩ := clause
  cases test with
  | state test =>
      cases test <;>
        simp [tokens, stateTokens, relationTokens, dayTokens, ofTokens?, ofRelation?, day?]
  | compare comparison literal =>
      cases comparison with
      | relation order =>
          have made := ofRelation?_token name order literal
          cases literal <;> simpa [tokens, relationTokens, ofTokens?, Literal.token] using made
      | part placement negated =>
          have made := ofPart?_token negated name placement literal
          cases negated <;> simp [tokens, partTokens, ofTokens?, made]
  | among first others => simp [tokens, ofTokens?, literals?_listTokens]

end Clause

end OData

end EntitySearch
