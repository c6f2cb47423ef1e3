import EntitySearch.AttributeKind
import EntitySearch.FilterValue
import EntitySearch.Time.DateText

/-!
# Literals of the two query languages

The kind of an attribute decides how a value is written. A value that cannot be read as its kind is
written as the text it is.
-/

namespace EntitySearch

namespace FilterValue

/-- The finite number that a value denotes. -/
def number? : FilterValue → Option Double
  | number value => if value.isFinite then some value else none
  | text value => (Double.ofText? (Text.trim value)).filter Double.isFinite

/-- The truth value that a value denotes: the number one, `1`, or `true` in any letter case. -/
def isTrue : FilterValue → Bool
  | number value => value.same .one
  | text value =>
      let word := Text.trim value
      Text.lowerAscii word == "true" || word == "1"

/-- The instant that a value names in a time zone. -/
def instant? (zone : TimeZone) : FilterValue → Option ClockReading
  | number _ => none
  | text value => DateText.instant? zone value

end FilterValue

/-- A text as a quoted OData literal, quotes within it doubled. -/
def quotedLiteral (text : List Char) : String :=
  String.ofList ('\'' :: Text.doubleQuotes text ++ ['\''])

/-- The OData literal of a value. -/
def odataLiteral (zone : TimeZone) (kind : AttributeKind) (value : FilterValue) : String :=
  match kind with
  | .boolean => if value.isTrue then "true" else "false"
  | .number =>
      match value.number? with
      | some number => number.numeral
      | none => quotedLiteral value.display.toList
  | .dateTime =>
      match value.instant? zone with
      | some instant => quotedLiteral instant.timestamp
      | none => quotedLiteral value.display.toList
  | _ => quotedLiteral value.display.toList

/-- The FetchXML literal of a value, before any escaping. -/
def fetchLiteral (kind : AttributeKind) (value : FilterValue) : String :=
  match kind with
  | .boolean => if value.isTrue then "1" else "0"
  | .number =>
      match value.number? with
      | some number => number.numeral
      | none => value.display
  | _ => value.display

end EntitySearch
