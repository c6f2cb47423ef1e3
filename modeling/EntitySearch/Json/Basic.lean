import EntitySearch.Entries
import EntitySearch.Number.Shortest

/-!
# JSON documents

A document is held as it was written: members in their order, repeated names included, and parts
that are well formed but have no value as `unreadable`. What may be left unread in such a document
is up to its reader; a plain value has no such part, and its members are sorted by name.
-/

namespace EntitySearch

namespace Json

/-- A number of a document. -/
inductive Number where
  /-- An integer of 64 bits, signed or not. -/
  | integer (value : Int)
  | double (value : Double.Finite)
  deriving DecidableEq

namespace Number

/-- The number as a double. -/
def toDouble : Number → Double
  | .integer value => .ofInt value
  | .double value => .finite value

end Number

end Json

/-- A JSON document. -/
inductive Json where
  | null
  | boolean (value : Bool)
  /-- A number that some double or 64-bit integer stands for. -/
  | number (value : Json.Number)
  | text (value : String)
  | array (items : List Json)
  /-- Named documents, in the order written. -/
  | object (members : List (String × Json))
  /-- A number beyond all doubles, a text with half a surrogate pair, or too deep a nesting. -/
  | unreadable

namespace Json

/-- The members of a document's object. -/
abbrev Members := List (String × Json)

mutual

/-- The plain value of a document: members sorted by name, of a repeated name the last one. -/
def normalize? : Json → Option Json
  | .null => some .null
  | .boolean value => some (.boolean value)
  | .number value => some (.number value)
  | .text value => some (.text value)
  | .array items => (normalizeItems? items).map .array
  | .object members => (normalizeMembers? members).map fun members => .object (Entries.ofList members)
  | .unreadable => none

/-- The plain values of a list of documents. -/
def normalizeItems? : List Json → Option (List Json)
  | [] => some []
  | item :: rest =>
      match normalize? item, normalizeItems? rest with
      | some item, some rest => some (item :: rest)
      | _, _ => none

/-- The members with their plain values. -/
def normalizeMembers? : Members → Option Members
  | [] => some []
  | (name, value) :: rest =>
      match normalize? value, normalizeMembers? rest with
      | some value, some rest => some ((name, value) :: rest)
      | _, _ => none

end

def text? : Json → Option String
  | .text value => some value
  | _ => none

def boolean? : Json → Option Bool
  | .boolean value => some value
  | _ => none

/-- The number of a document as a double. -/
def double? : Json → Option Double
  | .number value => some value.toDouble
  | _ => none

/-- The integer of a document if it lies within bounds. -/
def integer? (least greatest : Int) : Json → Option Int
  | .number (.integer value) => if least ≤ value && value ≤ greatest then some value else none
  | _ => none

/-- The natural number below a bound that a document holds. -/
def natural? (bound : Nat) (document : Json) : Option Nat :=
  (document.integer? 0 (bound - 1)).map Int.toNat

/-- The list of a document, each item read in its turn. -/
def list? {Item : Type} (read : Json → Option Item) : Json → Option (List Item)
  | .array items => items.mapM read
  | _ => none

/-- A double as a document; infinities and undefined values have none but `null`. -/
def ofDouble : Double → Json
  | .finite value => .number (.double value)
  | .nan | .infinite _ => .null

def ofNat (value : Nat) : Json :=
  .number (.integer value)

/-- An optional value as a document, `null` standing for none. -/
def ofOption {Value : Type} (write : Value → Json) : Option Value → Json
  | some value => write value
  | none => .null

end Json

end EntitySearch
