import EntitySearch.Json.Basic

/-!
# Compact JSON text

Documents are written without white space. Integers are plain digits; doubles have the fewest digits
that are read back, show a fraction when they are whole, and turn to scientific notation from
`1e+16` on and below `0.00001`.
-/

namespace EntitySearch

namespace Json

/-- One hexadecimal digit, in lower case. -/
def hexDigit (value : Nat) : Char :=
  Nat.digitChar (value % 16)

/-- A character within a quoted text: quotes, backslashes and control characters are escaped. -/
def quotedChar (c : Char) : List Char :=
  if c = '"' then ['\\', '"']
  else if c = '\\' then ['\\', '\\']
  else if c.toNat = 8 then ['\\', 'b']
  else if c.toNat = 12 then ['\\', 'f']
  else if c = '\n' then ['\\', 'n']
  else if c = '\r' then ['\\', 'r']
  else if c = '\t' then ['\\', 't']
  else if c.toNat < 32 then
    ['\\', 'u', '0', '0', hexDigit (c.toNat / 16), hexDigit c.toNat]
  else [c]

/-- A text between quotes. -/
def quoted (text : String) : List Char :=
  '"' :: text.toList.flatMap quotedChar ++ ['"']

/-- A double in JSON text; ties between equally short decimals go to the even digit. -/
def doubleText (value : Double.Finite) : List Char :=
  let decimal := Decimal.shortest .even value
  let places : Int := decimal.exponent + Decimal.width decimal.digits
  Double.signText value.negative ++
    if -5 < places && places ≤ 16 then decimal.positionalWithFraction else decimal.scientific

/-- A number in JSON text. -/
def Number.characters : Number → List Char
  | .integer value => (Text.intText value).toList
  | .double value => doubleText value

mutual

/-- The compact text of a document; a part without a value is written as `null`. -/
def characters : Json → List Char
  | .null => ['n', 'u', 'l', 'l']
  | .boolean true => ['t', 'r', 'u', 'e']
  | .boolean false => ['f', 'a', 'l', 's', 'e']
  | .number value => value.characters
  | .text value => quoted value
  | .array [] => ['[', ']']
  | .array (item :: rest) => '[' :: characters item ++ itemCharacters rest
  | .object [] => ['{', '}']
  | .object ((name, value) :: rest) =>
      '{' :: quoted name ++ ':' :: characters value ++ memberCharacters rest
  | .unreadable => ['n', 'u', 'l', 'l']

/-- The rest of a list, each item after a comma, and the closing bracket. -/
def itemCharacters : List Json → List Char
  | [] => [']']
  | item :: rest => ',' :: characters item ++ itemCharacters rest

/-- The rest of an object, each member after a comma, and the closing brace. -/
def memberCharacters : Members → List Char
  | [] => ['}']
  | (name, value) :: rest =>
      ',' :: quoted name ++ ':' :: characters value ++ memberCharacters rest

end

/-- The compact text of a document. -/
def compact (document : Json) : String :=
  String.ofList document.characters

end Json

end EntitySearch
