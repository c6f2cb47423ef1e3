import EntitySearch.FetchXml.Query
import EntitySearch.Proofs.OData.Clauses
import EntitySearch.Proofs.Sifting
import EntitySearch.Proofs.Text.Patterns

/-!
# Tests for parts of texts

OData tests for a part of a text with functions that take the part as it is, FetchXML by patterns
around it. Both accept every text with the part at its place, or its opposite. They accept the same
texts exactly if no character of the part is a wildcard.
-/

namespace EntitySearch

namespace OData

theorem quotation?_doubleQuotes (text : List Char) :
    quotation? (Text.doubleQuotes text ++ ['\'']) = some (text, []) := by
  induction text with
  | nil => rfl
  | cons c text ih =>
      rw [Text.doubleQuotes] at ih
      rw [Text.doubleQuotes, List.flatMap_cons, List.append_assoc]
      by_cases quote : c = '\''
      · subst quote
        rw [if_pos rfl, List.cons_append, List.cons_append, List.nil_append, quotation?, ih]
        rfl
      · rw [if_neg quote, List.singleton_append, quotation?, ih]
        · rfl
        · exact fun _ same => absurd same quote
        · exact quote

namespace Literal

/-- The literal that a text is. -/
def ofText? (text : String) : Option Literal :=
  match tokens? text.toList with
  | some [token] => ofToken? token
  | _ => none

theorem ofText?_quotedLiteral (text : String) :
    ofText? (quotedLiteral text.toList) = some (quoted text) := by
  have read : tokens? (quotedLiteral text.toList).toList = some [.quoted text.toList] := by
    rw [quotedLiteral, String.toList_ofList, List.cons_append, tokens?, if_pos rfl,
      quotation?_doubleQuotes]
    rfl
  rw [ofText?, read]
  exact ofToken?_token (quoted text)

end Literal

namespace Expression

/-- Whether a stored text passes an expression, if that tests for a part of a text. -/
def accepts? (expression : Expression) (stored : String) : Option Bool :=
  match expression.test with
  | .compare (.part placement negated) literal =>
      match Literal.ofText? literal with
      | some (.quoted part) => some (negated ^^ placement.StandsIn part.toList stored.toList)
      | _ => none
  | _ => none

end Expression

end OData

namespace FetchXml

namespace Criterion

/-- Whether a stored text passes a condition, if that compares with a pattern. -/
def accepts? (criterion : Criterion) (stored : String) : Option Bool :=
  match criterion.operand with
  | .value pattern =>
      let matching := Text.matchesPattern pattern.toList stored.toList
      if criterion.operator = "like" then some matching
      else if criterion.operator = "not-like" then some (! matching)
      else none
  | _ => none

end Criterion

end FetchXml

theorem Placement.toList_fetchXml_pattern (placement : Placement) (literal : String) :
    (FetchXml.pattern literal placement).toList = placement.pattern literal.toList := by
  cases placement <;> simp [FetchXml.pattern, pattern]

/-! ## Rows on text attributes -/

section Conditions

variable {condition : Condition} {placement : EntitySearch.Placement} {negated : Bool} {value : String}
  (kind : condition.kind = .string)
  (test : condition.test = .compare (.part placement negated) (.text value))
include kind test

theorem OData.Expression.accepts?_ofCondition (zone : TimeZone) (stored : String) :
    (ofCondition zone condition).accepts? stored =
      some (negated ^^ placement.StandsIn value.toList stored.toList) := by
  rw [ofCondition, test, kind, accepts?]
  simp only [Test.map, odataLiteral, FilterValue.display, Literal.ofText?_quotedLiteral]

theorem FetchXml.Criterion.accepts?_ofCondition (patterned : negated = true ∨ placement = .anywhere)
    (stored : String) :
    (ofCondition condition).accepts? stored =
      some (negated ^^ Text.matchesPattern (placement.pattern value.toList) stored.toList) := by
  rw [ofCondition, test, kind]
  dsimp only [Test.map, fetchLiteral, FilterValue.display, ofTest]
  cases negated with
  | true =>
      have compiled : ofComparison condition.attributeName value (.part placement true) =
          ⟨condition.attributeName, "not-like", .value (pattern value placement)⟩ := by
        cases placement <;> rfl
      rw [compiled, accepts?]
      simp [placement.toList_fetchXml_pattern]
  | false =>
      obtain rfl := patterned.resolve_left nofun
      rw [ofComparison, accepts?]
      simp [Placement.toList_fetchXml_pattern]

end Conditions

/-- A condition of one link is on the searched entity unless the link names another one. -/
theorem Condition.isRelated_single {entity : String} {link : FilterLink}
    (here : ∀ target, Text.nonBlank? link.entityName = some target → target = entity)
    (name : String) (test : Test FilterValue) :
    isRelated entity ⟨.single link, name, test⟩ = false := by
  rw [isRelated, Bool.or_eq_false_iff]
  refine ⟨rfl, ?_⟩
  dsimp only [Chain.single]
  cases named_entity : Text.nonBlank? link.entityName with
  | none => rfl
  | some target => simp [here target named_entity]

end EntitySearch
