import ApmAgent.Config.ConfigurationReader
import ApmAgent.Framework.Dict

/-! # Parsers of local options

  The parsers of `AbstractConfigurationReader` for the options that only a
  local source sets. As for the other options a parser gets the raw text,
  `none` for a missing one. What the lazily filled fields of the reader hold is
  produced by the functions here whose names end in `Impl`.
-/

namespace ApmAgent

/-- What the parsers get from the runtime and from the process. -/
structure ReaderHost where
  /-- The local function `TryParseUri`: well formed, absolute, of scheme http or https. -/
  tryParseUri : String → Bool
  discoverServiceName : Option String
  discoverServiceVersion : Option String

namespace DefaultValues

def cloudProvider : String := "auto"

def flushIntervalInMilliseconds : Int := 10000

def maxBatchEventCount : Int32 := 10

def maxQueueEventCount : Int32 := 1000

def metricsInterval : String := "30s"

def metricsIntervalInMilliseconds : Double := 30000

def unknownServiceName : String := "unknown"

def applicationNamespaces : List String := []

def disableMetrics : List WildcardMatcher := []

def serverUri : String := "http://localhost:8200"

end DefaultValues

/-! ### Texts and flags -/

/-- A text that is null when nothing is configured. -/
def parseNonEmpty (value : Option String) : Option String :=
  if isNullOrEmpty value then none else value

/-- `ParseSecretToken`. -/
def parseSecretToken : Option String → Option String := parseNonEmpty

/-- `ParseApiKey`. -/
def parseApiKey : Option String → Option String := parseNonEmpty

/-- `ParseEnvironment`. -/
def parseEnvironment : Option String → Option String := parseNonEmpty

/-- `ParseHostName`. -/
def parseHostName : Option String → Option String := parseNonEmpty

/-- `ParseServiceNodeName`. -/
def parseServiceNodeName (value : Option String) : Option String :=
  if isNullOrWhiteSpace value then none else value

/-- `AdaptServiceName`: `Regex.Replace(originalName, "[^a-zA-Z0-9 _-]", "_")`. -/
def adaptServiceName (originalName : String) : String :=
  String.ofList <| originalName.toList.flatMap fun c =>
    if c.isAlphanum || c = ' ' || c = '_' || c = '-' then [c]
    -- The pattern takes a character beyond the basic plane as two.
    else if 0x10000 ≤ c.toNat then ['_', '_']
    else ['_']

/-- `ParseServiceName`. -/
def parseServiceName (host : ReaderHost) (value : Option String) : String :=
  if isNullOrEmpty value then
    (host.discoverServiceName.map adaptServiceName).getD DefaultValues.unknownServiceName
  else adaptServiceName (value.getD "")

/-- `ParseServiceVersion`. -/
def parseServiceVersion (host : ReaderHost) (value : Option String) : Option String :=
  if isNullOrEmpty value then host.discoverServiceVersion else value

section
variable [InvariantCulture]

/-- `ParseEnabled`. -/
def parseEnabled (value : Option String) : Bool :=
  if isNullOrEmpty value then true else (tryParseBool (value.getD "")).getD true

/-- `ParseVerifyServerCert`. -/
def parseVerifyServerCert (value : Option String) : Bool :=
  if isNullOrEmpty value then true else (tryParseBool (value.getD "")).getD true

/-- `ParseUseElasticTraceparentHeader`. -/
def parseUseElasticTraceparentHeader (value : Option String) : Bool := parseBoolOption value true

/-- `ParseCentralConfig`. -/
def parseCentralConfig (value : Option String) : Bool := parseBoolOption value true

/-- `SupportedValues.CloudProviders`, a set that ignores case. -/
def cloudProviders : List String := ["auto", "aws", "azure", "gcp", "none"]

/-- `ParseCloudProvider`. -/
def parseCloudProvider (value : Option String) : String :=
  if isNullOrEmpty value then DefaultValues.cloudProvider
  else
    let cloudProvider := value.getD ""
    if cloudProviders.any fun p => equalsOrdinalIgnoreCase p.toList cloudProvider.toList then
      toLowerInvariantStr cloudProvider
    else DefaultValues.cloudProvider

end

/-! ### Numbers and intervals -/

/-- `ParseMaxXyzEventCount`. -/
def parseMaxXyzEventCount (value : Option String) (defaultValue : Int32) : Int32 :=
  if isNullOrWhiteSpace value then defaultValue
  else
    match tryParseInt (value.getD "") with
    | none => defaultValue
    | some parsedValue => if parsedValue ≤ 0 then defaultValue else parsedValue

/-- What `ParseMaxBatchEventCount` stores. -/
def parseMaxBatchEventCountImpl (value : Option String) : Int32 :=
  parseMaxXyzEventCount value DefaultValues.maxBatchEventCount

/-- What `ParseMaxQueueEventCount` stores. -/
def parseMaxQueueEventCountImpl (value : Option String) : Int32 :=
  parseMaxXyzEventCount value DefaultValues.maxQueueEventCount

/-- `x < y`; every comparison with NaN is false. -/
def Double.lt (x y : Double) : Bool := Double.le x y && !Double.le y x

/-- `Constraints.MinMetricsIntervalInMilliseconds`. -/
def minMetricsIntervalInMilliseconds : Double := 1000

section
variable [InvariantCulture]

/-- `ParseMetricsInterval`: zero stands for metrics that are not collected. -/
def parseMetricsInterval (value : Option String) : Except RuntimeException Double :=
  let text := if isNullOrWhiteSpace value then DefaultValues.metricsInterval else value.getD ""
  match tryParseTimeInterval text .s with
  | .ok (some valueInMilliseconds) =>
    if valueInMilliseconds = 0 then .ok valueInMilliseconds
    else if Double.lt valueInMilliseconds 0 then .ok 0
    else if Double.lt valueInMilliseconds minMetricsIntervalInMilliseconds then .ok 0
    else .ok valueInMilliseconds
  | .ok none => .ok DefaultValues.metricsIntervalInMilliseconds
  | .error .argument => .ok DefaultValues.metricsIntervalInMilliseconds
  | .error e => .error e

/-- `ParseTimeIntervalImpl`: what `TimeSpan.FromMilliseconds` throws at the end leaves the
    parser. -/
def parseTimeIntervalImpl (value : Option String) (defaultSuffix : TimeSuffix)
    (defaultValue : TimeSpan) : Except RuntimeException TimeSpan :=
  if isNullOrWhiteSpace value then .ok defaultValue
  else
    match tryParseTimeInterval (value.getD "") defaultSuffix with
    | .ok (some valueInMilliseconds) =>
      TimeSpan.interval valueInMilliseconds TimeSpan.ticksPerMillisecond
    | .ok none => .ok defaultValue
    | .error .argument => .ok defaultValue
    | .error e => .error e

/-- `ParsePositiveOrZeroTimeIntervalInMillisecondsImpl`. -/
def parsePositiveOrZeroTimeInterval (value : Option String) (defaultSuffix : TimeSuffix)
    (defaultValue : TimeSpan) : Except RuntimeException TimeSpan := do
  let t ← parseTimeIntervalImpl value defaultSuffix defaultValue
  pure (if t < 0 then defaultValue else t)

/-- `ParseFlushInterval`. -/
def parseFlushInterval (value : Option String) : Except RuntimeException TimeSpan :=
  parsePositiveOrZeroTimeInterval value .s
    (DefaultValues.flushIntervalInMilliseconds * TimeSpan.ticksPerMillisecond)

end

/-! ### Lists -/

/-- A list of matchers, separated by commas. -/
def parseWildcardMatchers (defaultValue : List WildcardMatcher) (value : Option String) :
    List WildcardMatcher :=
  match value with
  | none => defaultValue
  | some text => ((split ',' text).filter (· ≠ "")).map fun item => .valueOf (trim item)

/-- `ParseSanitizeFieldNamesImpl`. -/
def parseSanitizeFieldNamesImpl : Option String → List WildcardMatcher :=
  parseWildcardMatchers DefaultValues.sanitizeFieldNames

/-- `ParseDisableMetricsImpl`. -/
def parseDisableMetricsImpl : Option String → List WildcardMatcher :=
  parseWildcardMatchers DefaultValues.disableMetrics

/-- `ParseTransactionIgnoreUrlsImpl`. -/
def parseTransactionIgnoreUrlsImpl : Option String → List WildcardMatcher :=
  parseWildcardMatchers DefaultValues.transactionIgnoreUrls

/-- A list of namespaces, separated by commas. -/
def parseNamespaces (defaultValue : List String) (value : Option String) : List String :=
  if isNullOrEmpty value then defaultValue else (split ',' (value.getD "")).map trim

/-- `ParseExcludedNamespacesImpl`. -/
def parseExcludedNamespacesImpl : Option String → List String :=
  parseNamespaces DefaultValues.excludedNamespaces

/-- `ParseApplicationNamespacesImpl`. -/
def parseApplicationNamespacesImpl : Option String → List String :=
  parseNamespaces DefaultValues.applicationNamespaces

/-- `ParseServerUrlsImpl`. -/
def parseServerUrlsImpl (host : ReaderHost) (value : Option String) : List String :=
  if isNullOrEmpty value then [DefaultValues.serverUri]
  else
    let list := (split ',' (value.getD "")).filter host.tryParseUri
    if list = [] then [DefaultValues.serverUri] else list

/-! ### Labels -/

/-- The pairs of `ParseKeyValuePairs` from the current one on, `none` where one of them has no
    delimiter or a key that is there. -/
def addKeyValuePairs : List (List Char) → Dict String String → Option (Dict String String)
  | [], result => some result
  | pair :: pairs, result =>
    if '=' ∉ pair then none
    else
      let key := String.ofList (pair.takeWhile (· ≠ '='))
      if key ∈ Entries.keys result.entries then none
      else
        let value := String.ofList ((pair.dropWhile (· ≠ '=')).drop 1)
        addKeyValuePairs pairs (result.set key value)

/-- `ParseKeyValuePairs`. -/
def parseKeyValuePairs (value : Option String) : Dict String String :=
  match value with
  | none => .empty
  | some text =>
    let pairs := if text = "" then [] else text.toList.splitOn ','
    (addKeyValuePairs pairs .empty).getD .empty

/-- `ParseGlobalLabels`. -/
def parseGlobalLabels : Option String → Dict String String := parseKeyValuePairs

end ApmAgent
