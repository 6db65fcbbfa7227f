import ApmAgent.Api.Context
import ApmAgent.Helpers.WildcardMatcher
import ApmAgent.Model.Tracer

/-! # PayloadItemSerializer

  The JSON a transaction or an error is sent as. `ElasticApmContractResolver`
  picks the converter of a property by the property's type and by the
  attributes it is declared with; a property without a converter is written
  the way Json.NET writes it. Properties that are null are left out, null
  values of a dictionary are not.
-/

namespace ApmAgent

open Api

/-- What the agent takes from Json.NET. -/
class JsonNet where
  /-- How the characters of a string are written. -/
  escaping : Escaping
  /-- `CamelCaseNamingStrategy.GetDictionaryKey`. -/
  getDictionaryKey : String → String

/-- What Json.NET does on texts without control characters and on keys that start in lower
    case. -/
@[reducible] def JsonNet.plain : JsonNet where
  escaping := .minimal
  getDictionaryKey := id

/-! ### Contracts -/

/-- The attributes of a property that the contract resolver looks for. -/
inductive PropertyAttribute where
  | maxLength (length : Nat)
  | sanitize
  deriving DecidableEq

/-- The types of properties that the contract resolver tells apart. -/
inductive PropertyType where
  | string
  | stringDictionary
  | other
  deriving DecidableEq

inductive Converter where
  | truncate (maxLength : Nat)
  | headerDictionarySanitizer
  /-- Json.NET's own way to write the value. -/
  | default
  deriving DecidableEq

/-- `ElasticApmContractResolver.CreateProperty`. -/
def createProperty (type : PropertyType) (attributes : List PropertyAttribute) : Converter :=
  match type with
  | .string =>
    -- `[Sanitize]` has no effect here, and `[MaxLength]` none on a dictionary.
    match attributes.findSome? fun | .maxLength length => some length | _ => none with
    | some length => .truncate length
    | none => .default
  | .stringDictionary => if .sanitize ∈ attributes then .headerDictionarySanitizer else .default
  | .other => .default

/-! ### Converters -/

/-- A dictionary value as it is written when nothing converts it. -/
def writeValue : Option String → Json
  | some s => .string s
  | none => .null

/-- The characters that the intake API does not take in a key. -/
def replaceReserved (key : String) : String :=
  key.map fun c => if c = '.' ∨ c = '*' ∨ c = '"' then '_' else c

/-- `CustomJsonConverter.WriteJson`. -/
def customJsonConverter (custom : StringDictionary) : Json :=
  .object (custom.entries.map fun e => (replaceReserved e.1, writeValue e.2))

/-- The value of a label as `LabelsJsonConverter` writes it. -/
def writeLabel : Label → Json
  | ⟨some (.string s)⟩ => .string (truncate s propertyMaxLength)
  | ⟨some (.bool b)⟩ => .bool b
  | ⟨some (.number n)⟩ => .number n
  | ⟨none⟩ => .null

/-- `LabelsJsonConverter.WriteJson`. -/
def labelsJsonConverter (labels : LabelsDictionary) : Json :=
  .object (labels.mergedDictionary.entries.map fun e =>
    (replaceReserved (truncate e.1 propertyMaxLength), writeLabel e.2))

section
variable [InvariantCulture]

/-- The value of a header as `HeaderDictionarySanitizerConverter` writes it. -/
def sanitizeHeader (sanitizeFieldNames : List WildcardMatcher) (key : String) :
    Option String → Json
  | some value => .string (if isAnyMatch sanitizeFieldNames key then redacted else value)
  | none => .null

/-- `HeaderDictionarySanitizerConverter.WriteJson`. -/
def headerDictionarySanitizerConverter (sanitizeFieldNames : List WildcardMatcher)
    (headers : StringDictionary) : Json :=
  .object (headers.entries.map fun e =>
    (truncate e.1 propertyMaxLength, sanitizeHeader sanitizeFieldNames e.1 e.2))

end

/-! ### Properties -/

/-- A property of type `string`. -/
def stringProperty (attributes : List PropertyAttribute) (value : Option String) : Option Json :=
  value.map fun s =>
    match createProperty .string attributes with
    | .truncate maxLength => .string (truncate s maxLength)
    | _ => .string s

/-- `[MaxLength]`. -/
def maxLength : PropertyAttribute := .maxLength propertyMaxLength

def intProperty (value : Int) : Option Json := some (.number (.ofInt value))

def boolProperty (value : Bool) : Option Json := some (.bool value)

section
variable [InvariantCulture] [JsonNet]

/-- A dictionary as Json.NET writes it, its keys in camel case. -/
def writeDictionary (dictionary : StringDictionary) : Json :=
  .object (dictionary.entries.map fun e => (JsonNet.getDictionaryKey e.1, writeValue e.2))

/-- A property of type `Dictionary<string, string>`. -/
def dictionaryProperty (sanitizeFieldNames : List WildcardMatcher)
    (attributes : List PropertyAttribute) (value : Option StringDictionary) : Option Json :=
  value.map fun dictionary =>
    match createProperty .stringDictionary attributes with
    | .headerDictionarySanitizer =>
      headerDictionarySanitizerConverter sanitizeFieldNames dictionary
    | _ => writeDictionary dictionary

end

/-! ### The classes of a context -/

def socketJson (socket : Socket) : Json :=
  .ofPresent
    [("encrypted", boolProperty socket.encrypted),
      ("remote_address", stringProperty [] socket.remoteAddress)]

def urlJson (url : Url) : Json :=
  .ofPresent
    [("full", stringProperty [maxLength] url.full),
      ("hostname", stringProperty [maxLength] url.hostName),
      ("pathname", stringProperty [maxLength] url.pathName),
      ("protocol", stringProperty [maxLength] url.protocol),
      ("raw", stringProperty [maxLength] url.raw),
      ("search", stringProperty [maxLength] url.search)]

def nameAndVersionJson (value : NameAndVersion) : Json :=
  .ofPresent
    [("name", stringProperty [maxLength] value.name),
      ("version", stringProperty [maxLength] value.version)]

def serviceJson (service : Service) : Json :=
  .ofPresent
    [("agent", service.agent.map nameAndVersionJson),
      ("environment", stringProperty [maxLength] service.environment),
      ("framework", service.framework.map nameAndVersionJson),
      ("language", service.language.map fun language =>
        .ofPresent [("name", stringProperty [maxLength] language.name)]),
      ("name", stringProperty [maxLength] service.name),
      ("node", service.node.map fun node =>
        .ofPresent [("configured_name", stringProperty [maxLength] node.configuredName)]),
      ("runtime", service.runtime.map nameAndVersionJson),
      ("version", stringProperty [maxLength] service.version)]

def userJson (user : User) : Json :=
  .ofPresent
    [("email", stringProperty [maxLength] user.email),
      ("id", stringProperty [maxLength] user.id),
      ("username", stringProperty [maxLength] user.userName)]

section
variable [InvariantCulture] [JsonNet] (sanitizeFieldNames : List WildcardMatcher)

/-- `Request`. `Body` is of type `object`, so its `[Sanitize]` has no effect. -/
def requestJson (request : Request) : Json :=
  .ofPresent
    [("body", request.body.map fun body => .string body.content),
      ("headers", dictionaryProperty sanitizeFieldNames [.sanitize] request.headers),
      ("http_version", stringProperty [maxLength] request.httpVersion),
      ("method", stringProperty [maxLength] request.method),
      ("socket", request.socket.map socketJson),
      ("url", request.url.map urlJson)]

/-- `Response`. `Headers` is declared without attributes. -/
def responseJson (response : Response) : Json :=
  .ofPresent
    [("finished", boolProperty response.finished),
      ("headers", dictionaryProperty sanitizeFieldNames [] response.headers),
      ("status_code", intProperty response.statusCode)]

def contextJson (context : Context) : Json :=
  .ofPresent
    [("custom", if context.shouldSerializeCustom then some (customJsonConverter context.custom)
        else none),
      ("tags", if context.shouldSerializeLabels then
          some (labelsJsonConverter context.internalLabels)
        else none),
      ("request", context.request.map (requestJson sanitizeFieldNames)),
      ("response", context.response.map (responseJson sanitizeFieldNames)),
      ("service", context.service.map serviceJson),
      ("user", context.user.map userJson)]

end

/-! ### Events -/

inductive Outcome where
  | unknown
  | success
  | failure
  deriving DecidableEq

/-- The `EnumMember` values. -/
def Outcome.name : Outcome → String
  | .unknown => "unknown"
  | .success => "success"
  | .failure => "failure"

/-- What is sent of a `Transaction`. -/
structure TransactionItem where
  context : Context
  duration : Option NumberToken
  id : Option String
  isSampled : Bool
  name : Option String
  outcome : Outcome
  parentId : Option String
  result : Option String
  sampleRate : NumberToken
  spanCount : SpanCount
  timestamp : Int
  traceId : Option String
  type : Option String

/-- `Error.TransactionData`. -/
structure TransactionData where
  isSampled : Bool
  type : Option String

/-- What is sent of an `Error`; the captured exception with its stack trace as it is written. -/
structure ErrorItem where
  context : Option Context
  culprit : Option String
  exception : Option Json
  id : Option String
  parentId : Option String
  timestamp : Int
  traceId : Option String
  transaction : TransactionData
  transactionId : Option String

/-- An event with a context. -/
inductive ContextItem where
  | transaction (item : TransactionItem)
  | error (item : ErrorItem)

section
variable [InvariantCulture] [JsonNet] (sanitizeFieldNames : List WildcardMatcher)

def transactionJson (item : TransactionItem) : Json :=
  .ofPresent
    [("context", if item.isSampled then some (contextJson sanitizeFieldNames item.context)
        else none),
      ("duration", item.duration.map .number),
      ("id", stringProperty [maxLength] item.id),
      ("sampled", boolProperty item.isSampled),
      ("name", stringProperty [maxLength] item.name),
      ("outcome", some (.string item.outcome.name)),
      ("parent_id", stringProperty [maxLength] item.parentId),
      ("result", stringProperty [maxLength] item.result),
      ("sample_rate", some (.number item.sampleRate)),
      ("span_count", some (.ofPresent
        [("dropped", intProperty item.spanCount.dropped.toInt),
          ("started", intProperty item.spanCount.started.toInt)])),
      ("timestamp", intProperty item.timestamp),
      ("trace_id", stringProperty [maxLength] item.traceId),
      ("type", stringProperty [maxLength] item.type)]

def errorJson (item : ErrorItem) : Json :=
  .ofPresent
    [("context", if item.transaction.isSampled then
          item.context.map (contextJson sanitizeFieldNames)
        else none),
      ("culprit", stringProperty [maxLength] item.culprit),
      ("exception", item.exception),
      ("id", stringProperty [maxLength] item.id),
      ("parent_id", stringProperty [maxLength] item.parentId),
      ("timestamp", intProperty item.timestamp),
      ("trace_id", stringProperty [maxLength] item.traceId),
      ("transaction", some (.ofPresent
        [("sampled", boolProperty item.transaction.isSampled),
          ("type", stringProperty [maxLength] item.transaction.type)])),
      ("transaction_id", stringProperty [maxLength] item.transactionId)]

/-- What `SerializeObject` writes for an event. -/
def ContextItem.json : ContextItem → Json
  | .transaction item => transactionJson sanitizeFieldNames item
  | .error item => errorJson sanitizeFieldNames item

/-- `PayloadItemSerializer.SerializeObject`. -/
def serializeObject (item : ContextItem) : String :=
  String.ofList (Json.text JsonNet.escaping (item.json sanitizeFieldNames))

theorem serializeObject_eq_iff {item item' : ContextItem} :
    serializeObject sanitizeFieldNames item = serializeObject sanitizeFieldNames item' ↔
      item.json sanitizeFieldNames = item'.json sanitizeFieldNames := by
  constructor
  · intro h
    exact Json.text_injective JsonNet.escaping (String.ofList_injective h)
  · intro h
    rw [serializeObject, serializeObject, h]

end

end ApmAgent
