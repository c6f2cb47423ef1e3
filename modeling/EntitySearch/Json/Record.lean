import EntitySearch.Json.Basic

/-!
# Records in JSON documents

A record is written as an object with its fields as members, or as a list of its fields in their
fixed order. Members under other names are passed over unread, a field given twice is an error.
A field may be required, optional (`null` and absence mean none) or have a default when absent.
In a list every field is there except defaulted ones at the end.
-/

namespace EntitySearch

namespace Json

/-- The fields that a document gives of a record. -/
structure Record where
  fields : Members
  /-- The record is written as a list. -/
  positional : Bool

/-- No name stands in the list twice. -/
def allDistinct : List String → Bool
  | [] => true
  | name :: rest => ! rest.contains name && allDistinct rest

/-- The fields of a record with the given field names. -/
def record? (names : List String) : Json → Option Record
  | .object members =>
      let fields := members.filter fun member => names.contains member.1
      if allDistinct (fields.map Prod.fst) then some ⟨fields, false⟩ else none
  | .array items => if items.length ≤ names.length then some ⟨names.zip items, true⟩ else none
  | _ => none

namespace Record

/-- The document of a field. -/
def find? (record : Record) (name : String) : Option Json :=
  Entries.find? name record.fields

/-- A field that has to be there. -/
def required {Value : Type} (record : Record) (read : Json → Option Value) (name : String) :
    Option Value :=
  (record.find? name).bind read

/-- A document that may be `null`. -/
def nullable {Value : Type} (read : Json → Option Value) : Json → Option (Option Value)
  | .null => some none
  | document => (read document).map some

/-- A field that may be `null`, and absent unless the record is a list. -/
def optional {Value : Type} (record : Record) (read : Json → Option Value) (name : String) :
    Option (Option Value) :=
  match record.find? name with
  | some document => nullable read document
  | none => if record.positional then none else some none

/-- A field that has a default when it is absent. -/
def defaulted {Value : Type} (record : Record) (read : Json → Option Value) (default : Value)
    (name : String) : Option Value :=
  match record.find? name with
  | some document => read document
  | none => some default

end Record

/-- A map from names to documents of one kind, a repeated name standing for its last value. -/
def dictionary? {Value : Type} (read : Json → Option Value) : Json → Option (Dictionary Value)
  | .object members =>
      (members.mapM fun member => (read member.2).map fun value => (member.1, value)).map
        Dictionary.ofList
  | _ => none

/-- An optional member of a record: left out if there is no value. -/
def member {Value : Type} (name : String) (write : Value → Json) : Option Value → Members
  | some value => [(name, write value)]
  | none => []

theorem sizeOf_lt_of_member {name : String} {value : Json} {members : Members}
    (member : (name, value) ∈ members) : sizeOf value < sizeOf members := by
  have smaller := List.sizeOf_lt_of_mem member
  simp only [Prod.mk.sizeOf_spec] at smaller
  omega

theorem sizeOf_lt_of_zip {name : String} {value : Json} {names : List String} {items : List Json}
    (member : (name, value) ∈ names.zip items) : sizeOf value < sizeOf items :=
  List.sizeOf_lt_of_mem (List.of_mem_zip member).2

/-- A field is smaller than the document of its record. -/
theorem sizeOf_field_lt {names : List String} {document : Json} {record : Record} {name : String}
    {value : Json} (fields : document.record? names = some record)
    (found : record.find? name = some value) : sizeOf value < sizeOf document := by
  cases document with
  | object members =>
      simp only [record?] at fields
      split at fields
      · cases fields
        have smaller := sizeOf_lt_of_member (List.mem_filter.mp (Entries.mem_of_find? found)).1
        simp
        omega
      · simp at fields
  | array items =>
      simp only [record?] at fields
      split at fields
      · cases fields
        have smaller := sizeOf_lt_of_zip (Entries.mem_of_find? found)
        simp
        omega
      · simp at fields
  | null => simp [record?] at fields
  | boolean value => simp [record?] at fields
  | number value => simp [record?] at fields
  | text value => simp [record?] at fields
  | unreadable => simp [record?] at fields

end Json

end EntitySearch
