import EntitySearch.Proofs.OData.Clauses
import EntitySearch.Proofs.Sifting

/-!
# Reading OData filters

The tokens of a filter fall into conjuncts, of which each is one clause. Every filter reads back as
the clauses of its conditions, so nothing that a user types as a value can end its literal or add a
conjunct.
-/

namespace EntitySearch

namespace OData

/-! ## Conjunctions -/

/-- A text made up of parts: each of them in parentheses, and the word for a conjunction between
neighbours. -/
inductive IsConjunction : List String → String → Prop where
  | single (part : String) : IsConjunction [part] ("(" ++ part ++ ")")
  | cons {parts : List String} {text : String} (part : String) (rest : IsConjunction parts text) :
      IsConjunction (part :: parts) ("(" ++ part ++ ") and " ++ text)

theorem filterText_singleton (expression : Expression) :
    filterText [expression] = "(" ++ expression.text ++ ")" := by
  rw [← String.toList_inj]
  simp [filterText]

theorem filterText_cons_cons (first second : Expression) (others : List Expression) :
    filterText (first :: second :: others) =
      "(" ++ first.text ++ ") and " ++ filterText (second :: others) := by
  rw [← String.toList_inj]
  simp [filterText, Text.toList_join_cons_cons]

/-- The text of a filter is the conjunction of the texts of its expressions. -/
theorem isConjunction_filterText (first : Expression) (others : List Expression) :
    IsConjunction ((first :: others).map Expression.text) (filterText (first :: others)) := by
  induction others generalizing first with
  | nil =>
      rw [filterText_singleton]
      exact .single first.text
  | cons second others ih =>
      rw [filterText_cons_cons]
      exact .cons first.text (ih second)

/-! ## Conjuncts -/

/-- The tokens of a conjunct with more tokens in front, and those of the conjuncts after it. -/
def inFirst (front : List Token) (groups : List Token × List (List Token)) :
    List Token × List (List Token) :=
  (front ++ groups.1, groups.2)

/-- The rest of the tokens of a conjunct within which some parentheses are open, and the tokens of
the conjuncts after it. -/
def conjuncts? : Nat → List Token → Option (List Token × List (List Token))
  | _, [] => none
  | 0, [.closing] => some ([], [])
  | 0, .closing :: .blank :: .word conjunction :: .blank :: .opening :: rest =>
      if conjunction = "and".toList then
        (conjuncts? 0 rest).map fun (first, others) => ([], first :: others)
      else none
  | 0, .closing :: _ => none
  | depth + 1, .closing :: rest => (conjuncts? depth rest).map (inFirst [.closing])
  | depth, .opening :: rest => (conjuncts? (depth + 1) rest).map (inFirst [.opening])
  | depth, token :: rest => (conjuncts? depth rest).map (inFirst [token])

/-- There is no parenthesis among the tokens. -/
def IsFlat (tokens : List Token) : Prop :=
  ∀ token ∈ tokens, token ≠ .opening ∧ token ≠ .closing

theorem inFirst_comp_inFirst (front back : List Token) :
    inFirst front ∘ inFirst back = inFirst (front ++ back) := by
  funext groups
  simp [inFirst]

theorem conjuncts?_flat_append {flat : List Token} (is_flat : IsFlat flat) (depth : Nat)
    (rest : List Token) :
    conjuncts? depth (flat ++ rest) = (conjuncts? depth rest).map (inFirst flat) := by
  induction flat with
  | nil => cases found : conjuncts? depth rest <;> simp [found, inFirst]
  | cons token flat ih =>
      have later := ih fun other member => is_flat other (List.mem_cons_of_mem token member)
      have no_parenthesis := is_flat token (by simp)
      rw [List.cons_append, conjuncts?, later, Option.map_map, inFirst_comp_inFirst]
      · rfl
      -- The equation used is the one for a token that is no parenthesis.
      all_goals simp [no_parenthesis]

theorem conjuncts?_enclosed_append {front inner : List Token} (front_flat : IsFlat front)
    (inner_flat : IsFlat inner) (depth : Nat) (rest : List Token) :
    conjuncts? depth (front ++ .opening :: (inner ++ .closing :: rest)) =
      (conjuncts? depth rest).map (inFirst (front ++ .opening :: (inner ++ [.closing]))) := by
  have closed : conjuncts? (depth + 1) (.closing :: rest) =
      (conjuncts? depth rest).map (inFirst [.closing]) := by rw [conjuncts?]
  have opened : conjuncts? depth (.opening :: (inner ++ .closing :: rest)) =
      (conjuncts? (depth + 1) (inner ++ .closing :: rest)).map (inFirst [.opening]) := by
    rw [conjuncts?]
  rw [conjuncts?_flat_append front_flat, opened, conjuncts?_flat_append inner_flat, closed,
    Option.map_map, Option.map_map, Option.map_map, inFirst_comp_inFirst, inFirst_comp_inFirst,
    inFirst_comp_inFirst]
  simp

namespace Clause

theorem isFlat_literal (literal : Literal) : IsFlat [literal.token] := by
  cases literal <;> simp [IsFlat, Literal.token]

theorem exists_flat_listTokens (first : Literal) (others : List Literal) :
    ∃ inner, IsFlat inner ∧ listTokens first others = inner ++ [.closing] := by
  induction others generalizing first with
  | nil => exact ⟨[first.token], isFlat_literal first, rfl⟩
  | cons second others ih =>
      obtain ⟨inner, inner_flat, listed⟩ := ih second
      refine ⟨first.token :: .comma :: inner, ?_, by rw [listTokens, listed]; rfl⟩
      intro token member
      simp only [List.mem_cons] at member
      rcases member with rfl | rfl | inside
      · exact isFlat_literal first _ (by simp)
      · simp
      · exact inner_flat token inside

/-- A clause has no parentheses, or one pair of them at its end. -/
theorem exists_flat_tokens (clause : Clause) :
    IsFlat clause.tokens ∨ ∃ front inner, IsFlat front ∧ IsFlat inner ∧
      clause.tokens = front ++ .opening :: (inner ++ [.closing]) := by
  obtain ⟨name, test⟩ := clause
  have relation_flat (verb : String) {operand : Token} (operand_flat : IsFlat [operand]) :
      IsFlat (relationTokens name.toList verb operand) := by
    simpa [IsFlat, relationTokens] using operand_flat
  have day_enclosed (function : String) : ∃ front inner, IsFlat front ∧ IsFlat inner ∧
      dayTokens function name.toList = front ++ .opening :: (inner ++ [.closing]) :=
    ⟨[.word function.toList], [.word "PropertyName=".toList, .quoted name.toList],
      by simp [IsFlat], by simp [IsFlat], rfl⟩
  cases test with
  | state test =>
      cases test with
      | null => exact .inl (relation_flat "eq" (by simp [IsFlat]))
      | notNull => exact .inl (relation_flat "ne" (by simp [IsFlat]))
      | today | tomorrow | yesterday => exact .inr (day_enclosed _)
  | compare comparison literal =>
      have operand_flat := isFlat_literal literal
      cases comparison with
      | relation order => exact .inl (relation_flat order.token operand_flat)
      | part placement negated =>
          have inner_flat : IsFlat [.word name.toList, .comma, literal.token] := by
            simpa [IsFlat] using operand_flat
          right
          cases negated with
          | false =>
              exact ⟨[.word (partFunction placement).toList], _, by simp [IsFlat], inner_flat, rfl⟩
          | true =>
              exact ⟨[.word "not".toList, .blank, .word (partFunction placement).toList], _,
                by simp [IsFlat], inner_flat, rfl⟩
  | among first others =>
      obtain ⟨inner, inner_flat, listed⟩ := exists_flat_listTokens first others
      refine .inr
        ⟨[.word name.toList, .blank, .word "in".toList, .blank], inner, ?_, inner_flat, ?_⟩
      · simp [IsFlat]
      · simp [tokens, listed]

/-- The parentheses within a clause do not end its conjunct. -/
theorem conjuncts?_tokens_append (clause : Clause) (rest : List Token) :
    conjuncts? 0 (clause.tokens ++ rest) = (conjuncts? 0 rest).map (inFirst clause.tokens) := by
  rcases clause.exists_flat_tokens with is_flat | ⟨front, inner, front_flat, inner_flat, split⟩
  · exact conjuncts?_flat_append is_flat 0 rest
  · have enclosed := conjuncts?_enclosed_append front_flat inner_flat 0 rest
    rw [split]
    simpa using enclosed

/-- The tokens of clauses, each in parentheses, after the first of these. -/
def conjunctionTokens (first : Clause) : List Clause → List Token
  | [] => first.tokens ++ [.closing]
  | second :: rest =>
      first.tokens ++ .closing :: .blank :: .word "and".toList :: .blank :: .opening ::
        conjunctionTokens second rest

theorem conjuncts?_conjunctionTokens (first : Clause) (others : List Clause) :
    conjuncts? 0 (conjunctionTokens first others) = some (first.tokens, others.map tokens) := by
  induction others generalizing first with
  | nil =>
      rw [conjunctionTokens, conjuncts?_tokens_append, conjuncts?]
      simp [inFirst]
  | cons second others ih =>
      rw [conjunctionTokens, conjuncts?_tokens_append, conjuncts?, if_pos rfl, ih second]
      simp [inFirst]

theorem toList_filterText_cons_cons (first second : Clause) (others : List Clause) :
    (filterText ((first :: second :: others).map expression)).toList =
      '(' :: (first.expression.text.toList ++ ')' :: ' ' :: ("and".toList ++ ' ' ::
        (filterText ((second :: others).map expression)).toList)) := by
  simp [filterText_cons_cons]

/-- A filter is cut into the tokens of its clauses. -/
theorem tokens?_filterText (first : Clause) (others : List Clause)
    (plain : ∀ clause ∈ first :: others, clause.IsPlain) :
    tokens? (filterText ((first :: others).map expression)).toList =
      some (.opening :: conjunctionTokens first others) := by
  have first_plain : first.IsPlain := plain first (by simp)
  induction others generalizing first with
  | nil =>
      have layout : (filterText ([first].map expression)).toList =
          '(' :: (first.expression.text.toList ++ [')']) := by
        simp [filterText_singleton]
      have closed : tokens? [')'] = some [.closing] := rfl
      rw [layout, tokens?_opening, first.tokens?_text_append first_plain, closed, conjunctionTokens]
      rfl
  | cons second others ih =>
      have later := ih second (fun clause member => plain clause (List.mem_cons_of_mem _ member))
        (plain second (by simp))
      rw [toList_filterText_cons_cons, tokens?_opening, first.tokens?_text_append first_plain,
        tokens?_closing, tokens?_blank, tokens?_word_append (by decide) _ (by decide),
        tokens?_blank, later, conjunctionTokens]
      rfl

end Clause

/-! ## Filters -/

/-- The clauses of a conjunction. -/
def conjunction? : List Token → Option (List Clause)
  | .opening :: rest => do
      let (first, others) ← conjuncts? 0 rest
      (first :: others).mapM Clause.ofTokens?
  | _ => none

/-- The clauses of the text of a filter. -/
def clauses? (text : String) : Option (List Clause) :=
  (tokens? text.toList).bind conjunction?

/-- A filter of clauses with plain names reads back as the clauses. -/
theorem clauses?_filterText {clauses : List Clause} (clauses_ne : clauses ≠ [])
    (plain : ∀ clause ∈ clauses, clause.IsPlain) :
    clauses? (filterText (clauses.map Clause.expression)) = some clauses := by
  cases clauses with
  | nil => exact absurd rfl clauses_ne
  | cons first others =>
      have made : ((first :: others).map Clause.tokens).mapM Clause.ofTokens? =
          some (first :: others) :=
        mapM_map_eq_some fun clause _ => clause.ofTokens?_tokens
      rw [clauses?, Clause.tokens?_filterText first others plain, Option.bind_some, conjunction?,
        Clause.conjuncts?_conjunctionTokens]
      exact made

/-- Clauses with plain names are told apart by the text of their filter. -/
theorem eq_of_filterText_eq {clauses others : List Clause} (clauses_ne : clauses ≠ [])
    (plain : ∀ clause ∈ clauses, clause.IsPlain) (others_plain : ∀ clause ∈ others, clause.IsPlain)
    (same : filterText (others.map Clause.expression) =
      filterText (clauses.map Clause.expression)) : others = clauses := by
  have read := clauses?_filterText clauses_ne plain
  have others_ne : others ≠ [] := by
    rintro rfl
    rw [← same] at read
    cases read
  rw [← same, clauses?_filterText others_ne others_plain] at read
  exact Option.some.inj read

/-! ## Filters of conditions -/

theorem map_ofCondition (zone : TimeZone) (conditions : List Condition) :
    conditions.map (Expression.ofCondition zone) =
      (conditions.map (Clause.ofCondition zone)).map Clause.expression := by
  rw [List.map_map]
  exact List.map_congr_left fun condition _ =>
    (Clause.expression_ofCondition zone condition).symm

theorem forall_isPlain_ofCondition (zone : TimeZone) {conditions : List Condition}
    (words : ∀ condition ∈ conditions, isWord condition.attributeName.toList = true) :
    ∀ clause ∈ conditions.map (Clause.ofCondition zone), clause.IsPlain :=
  List.forall_mem_map.mpr words

/-- A filter holds conditions, each once and in their order: its text is the conjunction of their
expressions, and if the names of their attributes are words, then it reads back as their clauses.
Only a filter without a text holds no conditions. -/
def HoldsConditions (zone : TimeZone) (conditions : List Condition) : Option String → Prop
  | none => conditions = []
  | some text =>
      IsConjunction
          (conditions.map fun condition => (Expression.ofCondition zone condition).text) text ∧
        ((∀ condition ∈ conditions, isWord condition.attributeName.toList = true) →
          clauses? text = some (conditions.map (Clause.ofCondition zone)))

theorem holdsConditions_filterText (zone : TimeZone) (first : Condition)
    (others : List Condition) :
    HoldsConditions zone (first :: others)
      (some (filterText ((first :: others).map (Expression.ofCondition zone)))) := by
  constructor
  · have conjunction := isConjunction_filterText (Expression.ofCondition zone first)
      (others.map (Expression.ofCondition zone))
    rwa [← List.map_cons, List.map_map] at conjunction
  · intro words
    have clauses_ne : (first :: others).map (Clause.ofCondition zone) ≠ [] := by simp
    rw [map_ofCondition]
    exact clauses?_filterText clauses_ne (forall_isPlain_ofCondition zone words)

/-! ## Filters of rows -/

/-- An expression is compiled from the condition of its row. -/
theorem exists_condition_of_expression? (zone : TimeZone) (entity : String) (row : FilterRow)
    (expression : Expression) (accepted : expression? zone entity row = .ok expression) :
    ∃ condition, row.condition? = .ok condition ∧
      id expression = Expression.ofCondition zone condition := by
  rw [expression?] at accepted
  cases checked : row.condition? with
  | error reason => rw [checked] at accepted; cases accepted
  | ok condition =>
      rw [checked] at accepted
      dsimp only at accepted
      split_ifs at accepted
      cases accepted
      exact ⟨condition, rfl, rfl⟩

/-- A filter is put together from the conditions of the rows that it does not leave out. -/
theorem Filter.exists_conditions (zone : TimeZone) (entity : String) (rows : List FilterRow) :
    let filter := Filter.ofRows zone entity rows
    ∃ conditions : List Condition,
      (Sifted.unskipped rows filter.skipped).map FilterRow.condition? = conditions.map .ok ∧
        filter.text =
          if conditions.isEmpty then none
          else some (filterText (conditions.map (Expression.ofCondition zone))) := by
  obtain ⟨conditions, amounts, compiled⟩ := Sifted.exists_conditions
    (exists_condition_of_expression? zone entity) rows
  refine ⟨conditions, amounts, ?_⟩
  rw [List.map_id] at compiled
  rw [Filter.ofRows, compiled, List.isEmpty_map]

/-- A filter holds the conditions of the rows that it does not leave out. -/
theorem Filter.exists_holdsConditions (zone : TimeZone) (entity : String)
    (rows : List FilterRow) :
    let filter := Filter.ofRows zone entity rows
    ∃ conditions : List Condition,
      (Sifted.unskipped rows filter.skipped).map FilterRow.condition? = conditions.map .ok ∧
        HoldsConditions zone conditions filter.text := by
  intro filter
  obtain ⟨conditions, amounts, text_eq⟩ := Filter.exists_conditions zone entity rows
  refine ⟨conditions, amounts, ?_⟩
  rw [show filter.text = _ from text_eq]
  cases conditions with
  | nil => rfl
  | cons first others => exact holdsConditions_filterText zone first others

/-- The name of the attribute that a row is about, if there is one, has no mark in it. -/
def NamesPlainly (row : FilterRow) : Prop :=
  ∀ option, row.option = some option → ∀ name, option.target.attributeName = some name →
    ∀ c ∈ name.toList, isMark c = false

theorem namesPlainly_of_isWord {row : FilterRow} {option : FilterOption} {name : String}
    (chosen : row.option = some option) (named : option.target.attributeName = some name)
    (word : isWord name.toList = true) : NamesPlainly row := by
  intro other other_chosen other_name other_named
  obtain rfl := Option.some.inj (chosen.symm.trans other_chosen)
  obtain rfl := Option.some.inj (named.symm.trans other_named)
  exact ((isWord_iff _).mp word).2

theorem isWord_attributeName {row : FilterRow} {condition : Condition}
    (amounts : row.condition? = .ok condition) (plain : NamesPlainly row) :
    isWord condition.attributeName.toList = true := by
  obtain ⟨chosen, named⟩ := row.option_eq_of_condition? amounts
  obtain ⟨name_eq, solid⟩ := Text.nonBlank?_eq_some_iff.mp named
  rw [isWord_iff]
  refine ⟨?_, plain condition.option chosen condition.attributeName name_eq⟩
  intro name_nil
  rw [Text.isBlank, name_nil] at solid
  cases solid

theorem forall_isWord_attributeName {rows : List FilterRow} {conditions : List Condition}
    (amounts : rows.map FilterRow.condition? = conditions.map .ok)
    (plain : ∀ row ∈ rows, NamesPlainly row) :
    ∀ condition ∈ conditions, isWord condition.attributeName.toList = true := by
  intro condition member
  have accepted : Except.ok condition ∈ rows.map FilterRow.condition? := by
    rw [amounts]
    exact List.mem_map_of_mem member
  obtain ⟨row, row_member, row_amounts⟩ := List.mem_map.mp accepted
  exact isWord_attributeName row_amounts (plain row row_member)

/-- What users type as values cannot change the structure of a filter. If no name of an attribute
has a mark in it, as none has that is made of letters, digits and underscores, then a filter reads
back as the clauses of the rows that it does not leave out: their attributes, their tests and what their
values say, in their order. No other clauses have the same text. -/
theorem Filter.clauses?_text_ofRows (zone : TimeZone) (entity : String) (rows : List FilterRow)
    (plain : ∀ row ∈ rows, NamesPlainly row) :
    let filter := Filter.ofRows zone entity rows
    ∃ conditions : List Condition,
      (Sifted.unskipped rows filter.skipped).map FilterRow.condition? = conditions.map .ok ∧
        match filter.text with
        | none => conditions = []
        | some text =>
            conditions ≠ [] ∧ clauses? text = some (conditions.map (Clause.ofCondition zone)) ∧
              ∀ clauses : List Clause, (∀ clause ∈ clauses, clause.IsPlain) →
                filterText (clauses.map Clause.expression) = text →
                  clauses = conditions.map (Clause.ofCondition zone) := by
  intro filter
  obtain ⟨conditions, amounts, text_eq⟩ := Filter.exists_conditions zone entity rows
  refine ⟨conditions, amounts, ?_⟩
  have clauses_plain : ∀ clause ∈ conditions.map (Clause.ofCondition zone), clause.IsPlain :=
    forall_isPlain_ofCondition zone <| forall_isWord_attributeName amounts fun row member =>
      plain row (Sifted.mem_of_mem_unskipped member)
  have filter_eq : filter.text = if conditions.isEmpty then none
      else some (filterText ((conditions.map (Clause.ofCondition zone)).map Clause.expression)) :=
    map_ofCondition zone conditions ▸ text_eq
  rw [filter_eq]
  cases conditions with
  | nil => rfl
  | cons first others =>
      have clauses_ne : (first :: others).map (Clause.ofCondition zone) ≠ [] := by simp
      refine ⟨by simp, clauses?_filterText clauses_ne clauses_plain, ?_⟩
      intro clauses plain_clauses same
      exact eq_of_filterText_eq clauses_ne clauses_plain plain_clauses same

/-- A value that looks like the end of its literal and the start of another conjunct is read back as
the value that it is. -/
theorem Filter.clauses?_text_ofRows_quotes :
    let row := FilterRow.ofParts (.single (.ofAttribute "name" "String"))
      (.compare (.part .start false)) [.text "') and ('"]
    ∃ text, (Filter.ofRows .utc "account" [row]).text = some text ∧
      clauses? text =
        some [⟨"name", .compare (.part .start false) (.quoted "') and ('")⟩] := by
  intro row
  have plain : ∀ given ∈ [row], NamesPlainly given := by
    intro given member
    obtain rfl := List.mem_singleton.mp member
    exact namesPlainly_of_isWord rfl rfl (by decide)
  have compiled : (Sifted.unskipped [row] (Filter.ofRows .utc "account" [row]).skipped).map
      FilterRow.condition? = [.ok ⟨.single (.ofAttribute "name" "String"), "name",
        .compare (.part .start false) (.text "') and ('")⟩] := by
    rfl
  obtain ⟨conditions, amounts, read⟩ := Filter.clauses?_text_ofRows .utc "account" [row] plain
  rw [compiled] at amounts
  obtain ⟨condition, rest, rfl, condition_eq, rest_eq⟩ := List.map_eq_cons_iff.mp amounts.symm
  obtain rfl := List.map_eq_nil_iff.mp rest_eq
  obtain rfl := Except.ok.inj condition_eq
  cases written : (Filter.ofRows .utc "account" [row]).text with
  | none => rw [written] at read; cases read
  | some text =>
      rw [written] at read
      exact ⟨text, rfl, read.2.1⟩

end OData

end EntitySearch
