import EntitySearch.Json.Reader
import EntitySearch.Literal
import EntitySearch.Metadata.Repository

/-!
# The web service

Addresses of the service's resources, and the repository that asks for them. How a request reaches
the service is left open: an exchange takes an address to a response, or to none.
-/

namespace EntitySearch

/-- Where the service is found. -/
structure WebConfig where
  clientUrl : String
  apiVersion : String
  deriving DecidableEq

namespace WebConfig

/-- The version that is asked for unless another one is given. -/
def defaultVersion : String := "v9.2"

/-- The configuration of two settings, of which the version may be missing. -/
def ofSettings? (clientUrl apiVersion : Option String) : Except SearchError WebConfig :=
  match clientUrl with
  | some clientUrl => .ok ⟨clientUrl, apiVersion.getD defaultVersion⟩
  | none => .error (.config "CRM_CLIENT_URL not set")

def ofDocument? (document : Json) : Option WebConfig := do
  let record ← document.record? ["ClientUrl", "ApiVersion"]
  let clientUrl ← record.required Json.text? "ClientUrl"
  let apiVersion ← record.defaulted Json.text? defaultVersion "ApiVersion"
  some { clientUrl, apiVersion }

def document (config : WebConfig) : Json :=
  .object [("ClientUrl", .text config.clientUrl), ("ApiVersion", .text config.apiVersion)]

/-- The text without the slashes at its end. -/
def trimSlashes (text : String) : String :=
  String.ofList ((text.toList.reverse.dropWhile (· == '/')).reverse)

/-- Address of the interface. -/
def baseUrl (config : WebConfig) : String :=
  trimSlashes config.clientUrl ++ "/api/data/" ++ config.apiVersion

/-- Address of the entities' metadata. -/
def entitiesUrl (config : WebConfig) : String :=
  config.baseUrl ++
    "/EntityDefinitions?$select=LogicalName,EntitySetName,DisplayName,DisplayCollectionName"

/-- A name as part of an address. -/
def quotedName (name : String) : String :=
  quotedLiteral name.toList

/-- Address of the metadata of an entity's attributes. -/
def attributesUrl (config : WebConfig) (entity : String) : String :=
  config.baseUrl ++ "/EntityDefinitions(LogicalName=" ++ quotedName entity ++
    ")/Attributes?$select=LogicalName,AttributeType,DisplayName"

/-- Address of the metadata of one attribute. -/
def attributeUrl (config : WebConfig) (entity name : String) : String :=
  config.baseUrl ++ "/EntityDefinitions(LogicalName=" ++ quotedName entity ++
    ")/Attributes(LogicalName=" ++ quotedName name ++ ")"

/-- Address of the targets of an attribute. -/
def lookupUrl (config : WebConfig) (entity name : String) : String :=
  config.attributeUrl entity name ++
    "/Microsoft.Dynamics.CRM.LookupAttributeMetadata?$select=LogicalName,Targets"

/-- Address of the option set of an attribute. -/
def picklistUrl (config : WebConfig) (entity name : String) : String :=
  config.attributeUrl entity name ++
    "/Microsoft.Dynamics.CRM.PicklistAttributeMetadata?$select=LogicalName" ++
    "&$expand=OptionSet($select=Options)"

end WebConfig

namespace QueryText

/-- One hexadecimal digit, in upper case. -/
def hexDigit (value : Nat) : Char :=
  (Nat.digitChar value).toUpper

/-- The byte stands for itself in a form: letters, digits and `*-._`. -/
def isPlain (byte : UInt8) : Bool :=
  let c := Char.ofNat byte.toNat
  c.isAlphanum || c == '*' || c == '-' || c == '.' || c == '_'

/-- A byte of a text in a form, where a plus sign stands for a space. -/
def formByte (byte : UInt8) : List Char :=
  if isPlain byte then [Char.ofNat byte.toNat]
  else if byte = 0x20 then ['+']
  else ['%', hexDigit (byte.toNat / 16), hexDigit (byte.toNat % 16)]

/-- A text in a form, encoded byte by byte. -/
def formText (text : String) : List Char :=
  (text.toList.flatMap String.utf8EncodeChar).flatMap formByte

/-- The value of a query parameter: a text of a form, but with `%20` for its spaces. -/
def encode (value : String) : String :=
  String.ofList (Text.replaceAll ['+'] ['%', '2', '0'] (formText value))

/-- A query parameter. -/
def parameter (name value : String) : String :=
  name ++ "=" ++ encode value

/-- The parameters that ask for records. -/
def parameters (select : List String) : EntityQuery → List String
  | .fetchXml text => [parameter "fetchXml" text]
  | .all => selection select
  | .filter text => selection select ++ [parameter "$filter" text]
where
  selection (select : List String) : List String :=
    if select.isEmpty then [] else [parameter "$select" (Text.join "," select)]

end QueryText

namespace WebConfig

/-- Address of the records of a set. -/
def recordsUrl (config : WebConfig) (set : String) (select : List String) (query : EntityQuery) :
    String :=
  let url := config.baseUrl ++ "/" ++ set
  match QueryText.parameters select query with
  | [] => url
  | parameters => url ++ "?" ++ Text.join "&" parameters

end WebConfig

/-- A response of the service. -/
structure WebResponse where
  code : Nat
  body : String
  deriving DecidableEq

namespace WebResponse

/-- Responses with this code end at their header. -/
def isBodiless (code : Nat) : Bool :=
  code == 101 || code == 204 || code == 304

/-- What arrives of a response that is sent. Codes have three digits, and the ones below 200 only
announce another response, except 101, after which no response follows. -/
def received? (code : Nat) (body : String) : Option WebResponse :=
  if isBodiless code then some ⟨code, ""⟩
  else if 200 ≤ code && code ≤ 999 then some ⟨code, body⟩
  else none

end WebResponse

/-- A way to reach the service: an address is taken to a response unless the request fails. -/
abbrev Exchange (State : Type) := String → State → Option WebResponse × State

namespace WebService

variable {State : Type}

/-- The error of a response that does not hold what it should. -/
def malformed (operation : String) : SearchError :=
  .json ("CrmRepository." ++ operation ++ ": invalid response")

/-- The answer in a response. -/
def answer {Answer : Type} (decode : Json → Option Answer) (operation url : String)
    (response : WebResponse) : Except SearchError Answer :=
  if 200 ≤ response.code && response.code < 300 then
    match (Json.read? response.body).bind decode with
    | some answer => .ok answer
    | none => .error (malformed operation)
  else .error (.refused response.code url response.body)

/-- Ask for the document at an address. -/
def get {Answer : Type} (exchange : Exchange State) (decode : Json → Option Answer)
    (operation url : String) : Session State Answer :=
  fun state =>
    match exchange url state with
    | (none, state) => (.error (.http operation), state)
    | (some response, state) => (answer decode operation url response, state)

/-- The repository over the service. -/
def repository (config : WebConfig) (exchange : Exchange State) : Repository State where
  entities names := do
    let all ← get exchange (Metadata.collection? Metadata.Entity.ofDocument?) "getEntitiesMetadata"
      config.entitiesUrl
    pure (Metadata.Entity.named names all)
  attributes entity names := do
    let all ← get exchange (Metadata.collection? Metadata.Attribute.ofDocument?)
      "getAttributesMetadata" (config.attributesUrl entity)
    pure (Metadata.Attribute.named names all)
  lookup entity name :=
    get exchange Metadata.Lookup.ofDocument? "getLookupAttributeMetadata"
      (config.lookupUrl entity name)
  picklist entity name :=
    get exchange Metadata.Picklist.ofDocument? "getPicklistAttributeMetadata"
      (config.picklistUrl entity name)
  records set select query :=
    get exchange Json.normalize? "getEntities" (config.recordsUrl set select query)

end WebService

end EntitySearch
