import EntitySearch.Metadata.WebService
import EntitySearch.Proofs.Text.Replacing
import EntitySearch.Proofs.Text.Splitting
import Mathlib.Data.List.TakeWhile

/-!
# Addresses read back

An address is a path and, behind its first question mark, parameters with encoded values. Whatever
text a value is, what it is encoded to neither ends a parameter nor is mistaken for another escape,
so an address of records reads back as the parameters that they were asked for with.
-/

namespace EntitySearch

namespace Text

/-- The characters in front of the first separator. -/
def before (separator : Char) (text : List Char) : List Char :=
  text.takeWhile (· != separator)

/-- The characters behind the first separator, if there is one. -/
def behind? (separator : Char) (text : List Char) : Option (List Char) :=
  (text.dropWhile (· != separator)).tail?

section Cutting

variable {separator : Char} {front : List Char} (free : separator ∉ front)
include free

theorem before_append_cons (rest : List Char) :
    before separator (front ++ separator :: rest) = front := by
  have kept : ∀ c ∈ front, (c != separator) = true := fun c member =>
    bne_iff_ne.mpr fun same => free (same ▸ member)
  rw [before, List.takeWhile_append_of_pos kept, List.takeWhile_cons_of_neg (by simp),
    List.append_nil]

theorem behind?_append_cons (rest : List Char) :
    behind? separator (front ++ separator :: rest) = some rest := by
  have dropped : ∀ c ∈ front, (c != separator) = true := fun c member =>
    bne_iff_ne.mpr fun same => free (same ▸ member)
  rw [behind?, List.dropWhile_append_of_pos dropped, List.dropWhile_cons_of_neg (by simp),
    List.tail?_cons]

theorem before_of_not_mem : before separator front = front :=
  List.takeWhile_eq_self_iff.mpr fun _ member =>
    bne_iff_ne.mpr fun same => free (same ▸ member)

theorem behind?_of_not_mem : behind? separator front = none := by
  have nothing : front.dropWhile (· != separator) = [] :=
    List.dropWhile_eq_nil_iff.mpr fun _ member =>
      bne_iff_ne.mpr fun same => free (same ▸ member)
  rw [behind?, nothing, List.tail?_nil]

end Cutting

theorem toList_join_cons (separator : Char) (first : String) (others : List String) :
    (join (String.singleton separator) (first :: others)).toList =
      first.toList ++ (others.map String.toList).flatMap (separator :: ·) := by
  induction others generalizing first with
  | nil => simp
  | cons second rest ih => simp [toList_join_cons_cons, ih second]

/-- Texts without separators, put together with separators, are the pieces between these. -/
theorem splitWhere_join {separator : Char} {parts : List String} (solid : parts ≠ [])
    (free : ∀ part ∈ parts, separator ∉ part.toList) :
    splitWhere (· == separator) (join (String.singleton separator) parts).toList =
      parts.map String.toList := by
  cases parts with
  | nil => exact absurd rfl solid
  | cons first others =>
      rw [toList_join_cons, List.map_cons]
      refine splitWhere_separated ?_ _ _ ?_
      · exact beq_self_eq_true separator
      · intro piece member c inside
        rw [← List.map_cons] at member
        obtain ⟨part, part_member, rfl⟩ := List.mem_map.mp member
        exact beq_eq_false_iff_ne.mpr fun same => free part part_member (same ▸ inside)

end Text

namespace QueryText

/-! ## Percent signs -/

/-- The byte that an escape at the front of a text stands for. -/
def escapedByte? : List Char → Option UInt8
  | '%' :: high :: low :: _ => do
      let high ← Json.Reader.hexDigitValue? high
      let low ← Json.Reader.hexDigitValue? low
      some (UInt8.ofNat (16 * high + low))
  | _ => none

/-- The bytes that an encoded text stands for: escapes are bytes, and any other character stands for
itself. -/
def decodedBytes : List Char → List UInt8
  | [] => []
  | c :: rest =>
      match escapedByte? (c :: rest) with
      | some byte => byte :: decodedBytes (rest.drop 2)
      | none => String.utf8EncodeChar c ++ decodedBytes rest
termination_by text => text.length

/-- The text that an encoded one stands for, if its bytes are a text at all. -/
def decoded? (text : List Char) : Option String :=
  (decodedBytes text).toByteArray.utf8Decode?.map fun characters =>
    String.ofList characters.toList

theorem hexDigitValue?_hexDigit {value : Nat} (small : value < 16) :
    Json.Reader.hexDigitValue? (hexDigit value) = some value := by
  have all_digits : ∀ digit : Fin 16,
      Json.Reader.hexDigitValue? (hexDigit digit) = some digit.val := by decide
  exact all_digits ⟨value, small⟩

theorem isAlphanum_hexDigit {value : Nat} (small : value < 16) :
    (hexDigit value).isAlphanum = true := by
  have all_digits : ∀ digit : Fin 16, (hexDigit digit).isAlphanum = true := by decide
  exact all_digits ⟨value, small⟩

theorem hexDigit_ne {value : Nat} (small : value < 16) {mark : Char}
    (is_mark : mark.isAlphanum = false) : hexDigit value ≠ mark := by
  rintro rfl
  rw [isAlphanum_hexDigit small] at is_mark
  cases is_mark

/-- A byte is written with two hexadecimal digits. -/
theorem nibbles_lt (byte : UInt8) : byte.toNat / 16 < 16 ∧ byte.toNat % 16 < 16 := by
  have bound := byte.toNat_lt
  omega

/-- A byte that stands for itself is a character of its own, and none with another meaning. -/
theorem of_isPlain {byte : UInt8} (plain : isPlain byte = true) :
    String.utf8EncodeChar (Char.ofNat byte.toNat) = [byte] ∧
      Char.ofNat byte.toNat ∉ ['%', '+', '&'] := by
  have all_bytes : ∀ code : Fin 256, isPlain (.ofNat code) = true →
      String.utf8EncodeChar (Char.ofNat code) = [.ofNat code] ∧
        Char.ofNat code ∉ ['%', '+', '&'] := by decide +kernel
  have found := all_bytes ⟨byte.toNat, byte.toNat_lt⟩
  rw [UInt8.ofNat_toNat] at found
  exact found plain

theorem decodedBytes_cons {c : Char} (other : c ≠ '%') (rest : List Char) :
    decodedBytes (c :: rest) = String.utf8EncodeChar c ++ decodedBytes rest := by
  have unescaped : escapedByte? (c :: rest) = none := by
    rw [escapedByte?]
    rintro high low others same
    exact other (List.cons.inj same).1
  rw [decodedBytes, unescaped]

theorem decodedBytes_escape (byte : UInt8) (rest : List Char) :
    decodedBytes ('%' :: hexDigit (byte.toNat / 16) :: hexDigit (byte.toNat % 16) :: rest) =
      byte :: decodedBytes rest := by
  obtain ⟨high_lt, low_lt⟩ := nibbles_lt byte
  have high := hexDigitValue?_hexDigit high_lt
  have low := hexDigitValue?_hexDigit low_lt
  have escaped : escapedByte? ('%' :: hexDigit (byte.toNat / 16) :: hexDigit (byte.toNat % 16) ::
      rest) = some byte := by
    rw [escapedByte?, high, low]
    show some (UInt8.ofNat (16 * (byte.toNat / 16) + byte.toNat % 16)) = some byte
    rw [Nat.div_add_mod, UInt8.ofNat_toNat]
  rw [decodedBytes, escaped]
  rfl

/-! ## Encoded values -/

/-- A byte in the value of a parameter. -/
def valueByte (byte : UInt8) : List Char :=
  (formByte byte).flatMap fun c => if c = '+' then ['%', '2', '0'] else [c]

theorem valueByte_of_isPlain {byte : UInt8} (plain : isPlain byte = true) :
    valueByte byte = [Char.ofNat byte.toNat] := by
  have not_plus : Char.ofNat byte.toNat ≠ '+' := by
    rintro same
    exact (of_isPlain plain).2 (by simp [same])
  rw [valueByte, formByte, if_pos plain, List.flatMap_singleton, if_neg not_plus]

/-- A plus sign in a form stands for a space, and no other byte is written with one. -/
theorem valueByte_of_not_isPlain {byte : UInt8} (special : isPlain byte = false) :
    valueByte byte = ['%', hexDigit (byte.toNat / 16), hexDigit (byte.toNat % 16)] := by
  obtain ⟨high_lt, low_lt⟩ := nibbles_lt byte
  rw [valueByte, formByte, if_neg (by simp [special])]
  split
  · rename_i space
    subst space
    rfl
  · have high_ne : hexDigit (byte.toNat / 16) ≠ '+' := hexDigit_ne high_lt rfl
    have low_ne : hexDigit (byte.toNat % 16) ≠ '+' := hexDigit_ne low_lt rfl
    simp [high_ne, low_ne]

theorem toList_encode (value : String) :
    (encode value).toList = (value.toList.flatMap String.utf8EncodeChar).flatMap valueByte := by
  rw [encode, String.toList_ofList, Text.replaceAll_singleton, formText, List.flatMap_assoc]
  rfl

/-- No byte ends the parameter that it is in. -/
theorem ampersand_not_mem_valueByte (byte : UInt8) : '&' ∉ valueByte byte := by
  cases plain : isPlain byte with
  | true =>
      rw [valueByte_of_isPlain plain, List.mem_singleton]
      intro same
      exact (of_isPlain plain).2 (by simp [← same])
  | false =>
      obtain ⟨high_lt, low_lt⟩ := nibbles_lt byte
      have high_ne : hexDigit (byte.toNat / 16) ≠ '&' := hexDigit_ne high_lt rfl
      have low_ne : hexDigit (byte.toNat % 16) ≠ '&' := hexDigit_ne low_lt rfl
      rw [valueByte_of_not_isPlain plain]
      simp [high_ne.symm, low_ne.symm]

theorem ampersand_not_mem_encode (value : String) : '&' ∉ (encode value).toList := by
  rw [toList_encode, List.mem_flatMap]
  rintro ⟨byte, _, inside⟩
  exact ampersand_not_mem_valueByte byte inside

theorem decodedBytes_valueByte_append (byte : UInt8) (rest : List Char) :
    decodedBytes (valueByte byte ++ rest) = byte :: decodedBytes rest := by
  cases plain : isPlain byte with
  | true =>
      obtain ⟨itself, no_mark⟩ := of_isPlain plain
      have not_percent : Char.ofNat byte.toNat ≠ '%' := by
        rintro same
        exact no_mark (by simp [same])
      rw [valueByte_of_isPlain plain, List.singleton_append, decodedBytes_cons not_percent, itself,
        List.singleton_append]
  | false =>
      rw [valueByte_of_not_isPlain plain]
      exact decodedBytes_escape byte rest

theorem decodedBytes_flatMap_valueByte (bytes : List UInt8) :
    decodedBytes (bytes.flatMap valueByte) = bytes := by
  induction bytes with
  | nil => rw [List.flatMap_nil, decodedBytes]
  | cons byte rest ih => rw [List.flatMap_cons, decodedBytes_valueByte_append, ih]

/-- An encoded value stands for the text that was encoded. -/
theorem decoded?_encode (value : String) : decoded? (encode value).toList = some value := by
  rw [decoded?, toList_encode, decodedBytes_flatMap_valueByte]
  have bytes_eq : (value.toList.flatMap String.utf8EncodeChar).toByteArray =
      value.toList.utf8Encode := rfl
  rw [bytes_eq, List.utf8Decode?_utf8Encode]
  simp

/-! ## Parameters -/

/-- The name and the value of a parameter, parted by its first equals sign. -/
def parameter? (text : List Char) : Option (String × String) :=
  ((Text.behind? '=' text).bind decoded?).map fun value =>
    (String.ofList (Text.before '=' text), value)

/-- The parameters of a query, parted by ampersands. -/
def parameters? (query : List Char) : Option (List (String × String)) :=
  (Text.splitWhere (· == '&') query).mapM parameter?

theorem parameter?_parameter {name : String} (free : '=' ∉ name.toList) (value : String) :
    parameter? (parameter name value).toList = some (name, value) := by
  have shape : (parameter name value).toList = name.toList ++ '=' :: (encode value).toList := by
    simp [parameter]
  rw [parameter?, shape, Text.behind?_append_cons free, Text.before_append_cons free,
    Option.bind_some, decoded?_encode, Option.map_some, String.ofList_toList]

theorem ampersand_not_mem_parameter {name : String} (free : '&' ∉ name.toList) (value : String) :
    '&' ∉ (parameter name value).toList := by
  simp [parameter, free, ampersand_not_mem_encode]

/-- Parameters with plain names are read back. -/
theorem parameters?_join {pairs : List (String × String)} (solid : pairs ≠ [])
    (plain : ∀ pair ∈ pairs, '&' ∉ pair.1.toList ∧ '=' ∉ pair.1.toList) :
    parameters? (Text.join "&" (pairs.map fun pair => parameter pair.1 pair.2)).toList =
      some pairs := by
  have parts_solid : pairs.map (fun pair => parameter pair.1 pair.2) ≠ [] := by simpa using solid
  have parts_free : ∀ part ∈ pairs.map fun pair => parameter pair.1 pair.2, '&' ∉ part.toList := by
    intro part member
    obtain ⟨pair, pair_member, rfl⟩ := List.mem_map.mp member
    exact ampersand_not_mem_parameter (plain pair pair_member).1 pair.2
  have pieces := Text.splitWhere_join parts_solid parts_free
  rw [parameters?, show "&" = String.singleton '&' from rfl, pieces, List.map_map]
  exact mapM_map_eq_some fun pair member => parameter?_parameter (plain pair member).2 pair.2

/-- The parameters that records are asked for with: the document alone, or the attributes to select,
unless there are none, and the filter, if there is one. -/
def asked (select : List String) : EntityQuery → List (String × String)
  | .fetchXml text => [("fetchXml", text)]
  | .all => selection
  | .filter text => selection ++ [("$filter", text)]
where
  selection : List (String × String) :=
    if select = [] then [] else [("$select", Text.join "," select)]

theorem parameters_eq (select : List String) (query : EntityQuery) :
    parameters select query = (asked select query).map fun pair => parameter pair.1 pair.2 := by
  have selection_eq : parameters.selection select =
      (asked.selection select).map fun pair => parameter pair.1 pair.2 := by
    cases select <;> rfl
  cases query with
  | fetchXml text => rfl
  | all => exact selection_eq
  | filter text => rw [parameters, asked, List.map_append, selection_eq]; rfl

theorem plain_names_asked (select : List String) (query : EntityQuery) :
    ∀ pair ∈ asked select query, '&' ∉ pair.1.toList ∧ '=' ∉ pair.1.toList := by
  have plain : ∀ name ∈ ["fetchXml", "$select", "$filter"],
      '&' ∉ name.toList ∧ '=' ∉ name.toList := by decide
  have selection_known : ∀ pair ∈ asked.selection select, pair.1 = "$select" := by
    intro pair member
    rw [asked.selection] at member
    split_ifs at member
    · cases member
    · rw [List.mem_singleton.mp member]
  have known : ∀ pair ∈ asked select query, pair.1 ∈ ["fetchXml", "$select", "$filter"] := by
    intro pair member
    cases query with
    | fetchXml text => simp [List.mem_singleton.mp member]
    | all => simp [selection_known pair member]
    | filter text =>
        rcases List.mem_append.mp member with selected | last
        · simp [selection_known pair selected]
        · simp [List.mem_singleton.mp last]
  exact fun pair member => plain pair.1 (known pair member)

end QueryText

/-- An address, taken apart. -/
structure Address where
  /-- What stands in front of the first question mark. -/
  path : String
  /-- The parameters behind the question mark, with their values decoded. -/
  parameters : Option (List (String × String))
  deriving DecidableEq

namespace Address

/-- Take an address apart, unless one of its parameters has no value or its value is no text. -/
def read? (address : String) : Option Address :=
  let path := String.ofList (Text.before '?' address.toList)
  match Text.behind? '?' address.toList with
  | none => some ⟨path, none⟩
  | some query => (QueryText.parameters? query).map fun parameters => ⟨path, some parameters⟩

end Address

namespace WebConfig

theorem question_mark_not_mem_baseUrl {config : WebConfig} (client : '?' ∉ config.clientUrl.toList)
    (version : '?' ∉ config.apiVersion.toList) : '?' ∉ config.baseUrl.toList := by
  have trimmed : '?' ∉ (trimSlashes config.clientUrl).toList := by
    rw [trimSlashes, String.toList_ofList, List.mem_reverse]
    intro member
    exact client (List.mem_reverse.mp ((List.dropWhile_suffix _).subset member))
  simp [baseUrl, trimmed, version]

/-- The address of records is the address of their set and, encoded, exactly the parameters that
they are asked for with; without parameters it has no question mark. -/
theorem read?_recordsUrl {config : WebConfig} {set : String}
    (client : '?' ∉ config.clientUrl.toList) (version : '?' ∉ config.apiVersion.toList)
    (plain_set : '?' ∉ set.toList) (select : List String) (query : EntityQuery) :
    let parameters := QueryText.asked select query
    Address.read? (config.recordsUrl set select query) =
      some
        ⟨config.baseUrl ++ "/" ++ set, if parameters = [] then none else some parameters⟩ := by
  dsimp only
  have path_free : '?' ∉ (config.baseUrl ++ "/" ++ set).toList := by
    simp [question_mark_not_mem_baseUrl client version, plain_set]
  rw [recordsUrl, QueryText.parameters_eq]
  cases asked_eq : QueryText.asked select query with
  | nil =>
      rw [if_pos rfl, List.map_nil]
      dsimp only
      rw [Address.read?, Text.behind?_of_not_mem path_free, Text.before_of_not_mem path_free,
        String.ofList_toList]
  | cons first others =>
      have read := QueryText.parameters?_join (List.cons_ne_nil first others)
        (asked_eq ▸ QueryText.plain_names_asked select query)
      have address_eq (text : String) : (config.baseUrl ++ "/" ++ set ++ "?" ++ text).toList =
          (config.baseUrl ++ "/" ++ set).toList ++ '?' :: text.toList := by simp
      rw [if_neg (List.cons_ne_nil first others)]
      rw [List.map_cons] at read ⊢
      dsimp only
      rw [Address.read?, address_eq, Text.behind?_append_cons path_free,
        Text.before_append_cons path_free, String.ofList_toList]
      dsimp only
      rw [read, Option.map_some]

/-- A filter and a selection full of characters that mean something in an address. -/
theorem read?_recordsUrl_special :
    let config : WebConfig := ⟨"https://contoso.example/", WebConfig.defaultVersion⟩
    let filter := "(name eq 'A&B=1+1 é%20?')"
    ('?' ∉ config.clientUrl.toList ∧ '?' ∉ config.apiVersion.toList ∧ '?' ∉ "accounts".toList) ∧
      Address.read? (config.recordsUrl "accounts" ["name", "a&$filter=b"] (.filter filter)) =
        some
          ⟨"https://contoso.example/api/data/v9.2/accounts",
            some [("$select", "name,a&$filter=b"), ("$filter", filter)]⟩ := by
  intro config filter
  have client : '?' ∉ config.clientUrl.toList := by decide
  have version : '?' ∉ config.apiVersion.toList := by decide
  have plain_set : '?' ∉ "accounts".toList := by decide
  refine ⟨⟨client, version, plain_set⟩, ?_⟩
  rw [read?_recordsUrl client version plain_set]
  decide +kernel

end WebConfig

end EntitySearch
