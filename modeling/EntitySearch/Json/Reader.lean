import EntitySearch.Json.Numeral

/-!
# Reading JSON text

One document, with nothing but white space around it. What the grammar rules out makes the whole
text unreadable; a well-formed part that has no value makes only itself unreadable, so that a reader
may still pass over it.
-/

namespace EntitySearch

namespace Json

namespace Reader

/-- The white space of JSON text. -/
def isSpace (c : Char) : Bool :=
  c == ' ' || c == '\n' || c == '\t' || c == '\r'

/-- The rest of a text from its next character other than white space. -/
def skipSpace (text : List Char) : List Char :=
  text.dropWhile isSpace

/-- The value of a hexadecimal digit. -/
def hexDigitValue? (c : Char) : Option Nat :=
  if c.isDigit then some (c.toNat - '0'.toNat)
  else if 'a' ≤ c && c ≤ 'f' then some (c.toNat - 'a'.toNat + 10)
  else if 'A' ≤ c && c ≤ 'F' then some (c.toNat - 'A'.toNat + 10)
  else none

/-- The value of a run of hexadecimal digits. -/
def hexValue? (digits : List Char) : Option Nat :=
  digits.foldlM (fun value c => (hexDigitValue? c).map fun digit => 16 * value + digit) 0

/-- The character that a one-letter escape stands for. -/
def escaped? (c : Char) : Option Char :=
  if c = '"' || c = '\\' || c = '/' then some c
  else if c = 'b' then some (Char.ofNat 8)
  else if c = 'f' then some (Char.ofNat 12)
  else if c = 'n' then some '\n'
  else if c = 'r' then some '\r'
  else if c = 't' then some '\t'
  else none

/-- The code units of a quoted text behind its opening quote, and the rest behind the closing one. -/
def quotedUnits? (taken : List Nat) : List Char → Option (List Nat × List Char)
  | [] => none
  | '"' :: rest => some (taken.reverse, rest)
  | '\\' :: 'u' :: a :: b :: c :: d :: rest =>
      match hexValue? [a, b, c, d] with
      | some unit => quotedUnits? (unit :: taken) rest
      | none => none
  | '\\' :: c :: rest =>
      match escaped? c with
      | some character => quotedUnits? (character.toNat :: taken) rest
      | none => none
  | c :: rest => if c = '\\' || c.toNat < 32 then none else quotedUnits? (c.toNat :: taken) rest

/-- The unit opens a surrogate pair. -/
def isHighSurrogate (unit : Nat) : Bool :=
  0xD800 ≤ unit && unit ≤ 0xDBFF

/-- The unit closes a surrogate pair. -/
def isLowSurrogate (unit : Nat) : Bool :=
  0xDC00 ≤ unit && unit ≤ 0xDFFF

/-- The characters that code units denote, unless half a surrogate pair stands alone. -/
def characters? : List Nat → Option (List Char)
  | [] => some []
  | high :: low :: rest =>
      if isHighSurrogate high then
        if isLowSurrogate low then
          (characters? rest).map
            (Char.ofNat (0x10000 + (high - 0xD800) * 0x400 + (low - 0xDC00)) :: ·)
        else none
      else if isLowSurrogate high then none
      else (characters? (low :: rest)).map (Char.ofNat high :: ·)
  | [unit] =>
      if isHighSurrogate unit || isLowSurrogate unit then none else some [Char.ofNat unit]

/-- A quoted text behind its opening quote; the text itself is missing if half a pair stands alone. -/
def quoted? (text : List Char) : Option (Option String × List Char) :=
  (quotedUnits? [] text).map fun (units, rest) => ((characters? units).map String.ofList, rest)

/-- Digits before the point: a lone zero, or digits that do not begin with one. -/
def whole? (text : List Char) : Option (List Char × List Char) :=
  match text.takeWhile Char.isDigit with
  | [] => none
  | '0' :: _ :: _ => none
  | digits => some (digits, text.dropWhile Char.isDigit)

/-- An optional fraction: a point and at least one digit. -/
def fraction? : List Char → Option (List Char × List Char)
  | '.' :: rest =>
      match rest.takeWhile Char.isDigit with
      | [] => none
      | digits => some (digits, rest.dropWhile Char.isDigit)
  | rest => some ([], rest)

/-- An optional power of ten: the mark, an optional sign and at least one digit. -/
def exponent? : List Char → Option (Option Int × List Char)
  | [] => some (none, [])
  | mark :: rest =>
      if mark = 'e' || mark = 'E' then
        let (negative, rest) := Decimal.takeSign rest
        match rest.takeWhile Char.isDigit with
        | [] => none
        | digits =>
            let value : Int := Text.digitsValue digits
            some (some (if negative then -value else value), rest.dropWhile Char.isDigit)
      else some (none, mark :: rest)

/-- A number at the front of a text. -/
def number? (text : List Char) : Option (Json × List Char) := do
  let (negative, text) :=
    match text with
    | '-' :: rest => (true, rest)
    | rest => (false, rest)
  let (whole, text) ← whole? text
  let (fraction, text) ← fraction? text
  let (exponent, text) ← exponent? text
  let spelling : NumberSpelling := ⟨negative, whole, fraction, exponent⟩
  some (spelling.document, text)

/-- Lists and objects nested this deep have no value. -/
def depthBound : Nat := 128

/-- A list or an object, unreadable when it is nested too deep. -/
def atDepth (depth : Nat) (document : Json) : Json :=
  if depth < depthBound then document else .unreadable

/-- An object of the members read, in reverse; unreadable if one of the names is. -/
def objectOf : Option Members → Json
  | some members => .object members.reverse
  | none => .unreadable

mutual

/-- A document at the front of a text, inside `depth` lists and objects. -/
def value? (fuel depth : Nat) (text : List Char) : Option (Json × List Char) :=
  match fuel with
  | 0 => none
  | fuel + 1 =>
      match skipSpace text with
      | 'n' :: 'u' :: 'l' :: 'l' :: rest => some (.null, rest)
      | 't' :: 'r' :: 'u' :: 'e' :: rest => some (.boolean true, rest)
      | 'f' :: 'a' :: 'l' :: 's' :: 'e' :: rest => some (.boolean false, rest)
      | '"' :: rest =>
          (quoted? rest).map fun (text, rest) =>
            (match text with
              | some text => .text text
              | none => .unreadable, rest)
      | '[' :: rest =>
          match skipSpace rest with
          | ']' :: rest => some (atDepth (depth + 1) (.array []), rest)
          | rest => items? fuel (depth + 1) [] rest
      | '{' :: rest =>
          match skipSpace rest with
          | '}' :: rest => some (atDepth (depth + 1) (.object []), rest)
          | rest => members? fuel (depth + 1) (some []) rest
      | rest => number? rest

/-- The items of a list from the next one to the closing bracket. -/
def items? (fuel depth : Nat) (taken : List Json) (text : List Char) :
    Option (Json × List Char) :=
  match fuel with
  | 0 => none
  | fuel + 1 =>
      match value? fuel depth text with
      | none => none
      | some (item, rest) =>
          match skipSpace rest with
          | ',' :: rest => items? fuel depth (item :: taken) rest
          | ']' :: rest => some (atDepth depth (.array (item :: taken).reverse), rest)
          | _ => none

/-- The members of an object from the next name to the closing brace. -/
def members? (fuel depth : Nat) (taken : Option Members) (text : List Char) :
    Option (Json × List Char) :=
  match fuel with
  | 0 => none
  | fuel + 1 =>
      match skipSpace text with
      | '"' :: rest =>
          match quoted? rest with
          | none => none
          | some (name, rest) =>
              match skipSpace rest with
              | ':' :: rest =>
                  match value? fuel depth rest with
                  | none => none
                  | some (value, rest) =>
                      let taken := taken.bind fun members =>
                        name.map fun name => (name, value) :: members
                      match skipSpace rest with
                      | ',' :: rest => members? fuel depth taken rest
                      | '}' :: rest => some (atDepth depth (objectOf taken), rest)
                      | _ => none
              | _ => none
      | _ => none

end

end Reader

/-- The document that a text spells.

Two steps are enough for every character: one for the document or member that begins with it, and
one for the list or object around it. -/
def read? (text : String) : Option Json :=
  let characters := text.toList
  match Reader.value? (2 * characters.length + 2) 0 characters with
  | some (document, rest) => if (Reader.skipSpace rest).isEmpty then some document else none
  | none => none

end Json

end EntitySearch
