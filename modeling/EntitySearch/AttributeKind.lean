import EntitySearch.Text.Pieces

/-!
# Kinds of attributes

The kind decides which operators an attribute offers and how its values are written in queries.
-/

namespace EntitySearch

/-- The logical type of an attribute. -/
inductive AttributeKind where
  | boolean
  | number
  /-- A date with or without a time of day. -/
  | dateTime
  | string
  | memo
  | uniqueIdentifier
  | picklist
  | lookup
  /-- Any other type, or an unknown one. -/
  | other
  deriving DecidableEq

namespace AttributeKind

/-- The kind that a type tag in lower case stands for. -/
def ofLowerTag (tag : String) : AttributeKind :=
  if tag = "boolean" then boolean
  else if ["number", "integer", "bigint", "decimal", "double", "money"].contains tag then number
  else if tag = "datetime" then dateTime
  else if tag = "string" then string
  else if tag = "memo" then memo
  else if tag = "uniqueidentifier" then uniqueIdentifier
  else if tag = "picklist" then picklist
  else if tag = "lookup" then lookup
  else other

/-- The kind that a type tag in any letter case stands for. -/
def ofTag : Option String → AttributeKind
  | some tag => ofLowerTag (Text.lowerAscii tag)
  | none => other

end AttributeKind

end EntitySearch
