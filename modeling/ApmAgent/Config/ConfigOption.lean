import ApmAgent.Config.OptionParsers
import ApmAgent.Framework.LazyInit

/-! # Configuration options

  The options a configuration reader has a property for, the keys they are
  read from, and their parsers. Some parsers keep what they produced at the
  first call in a field of the reader (`LazyContextualInit`, `Lazy`) and hand
  that out from then on, whatever text they are called with.
-/

namespace ApmAgent

/-! ### Options and keys -/

inductive ConfigOption where
  | apiKey
  | applicationNamespaces
  | captureBody
  | captureBodyContentTypes
  | captureHeaders
  | centralConfig
  | cloudProvider
  | disableMetrics
  | enabled
  | environment
  | excludedNamespaces
  | flushInterval
  | globalLabels
  | hostName
  | logLevel
  | maxBatchEventCount
  | maxQueueEventCount
  | metricsInterval
  | recording
  | sanitizeFieldNames
  | secretToken
  | serverUrls
  | serviceName
  | serviceNodeName
  | serviceVersion
  | spanFramesMinDuration
  | stackTraceLimit
  | transactionIgnoreUrls
  | transactionMaxSpans
  | transactionSampleRate
  | useElasticTraceparentHeader
  | verifyServerCert
  deriving DecidableEq, Repr

namespace ConfigOption

/-- The type of the property. -/
def Value : ConfigOption → Type
  | apiKey => Option String
  | applicationNamespaces => List String
  | captureBody => String
  | captureBodyContentTypes => List String
  | captureHeaders => Bool
  | centralConfig => Bool
  | cloudProvider => String
  | disableMetrics => List WildcardMatcher
  | enabled => Bool
  | environment => Option String
  | excludedNamespaces => List String
  | flushInterval => TimeSpan
  | globalLabels => Dict String String
  | hostName => Option String
  | logLevel => LogLevel
  | maxBatchEventCount => Int32
  | maxQueueEventCount => Int32
  | metricsInterval => Double
  | recording => Bool
  | sanitizeFieldNames => List WildcardMatcher
  | secretToken => Option String
  | serverUrls => List String
  | serviceName => String
  | serviceNodeName => Option String
  | serviceVersion => Option String
  | spanFramesMinDuration => Double
  | stackTraceLimit => Int32
  | transactionIgnoreUrls => List WildcardMatcher
  | transactionMaxSpans => Int32
  | transactionSampleRate => Double
  | useElasticTraceparentHeader => Bool
  | verifyServerCert => Bool

/-- The name in `KeyNames`, and after the prefix the one in `EnvVarNames`. -/
def names : ConfigOption → String × String
  | apiKey => ("ApiKey", "API_KEY")
  | applicationNamespaces => ("ApplicationNamespaces", "APPLICATION_NAMESPACES")
  | captureBody => ("CaptureBody", "CAPTURE_BODY")
  | captureBodyContentTypes => ("CaptureBodyContentTypes", "CAPTURE_BODY_CONTENT_TYPES")
  | captureHeaders => ("CaptureHeaders", "CAPTURE_HEADERS")
  | centralConfig => ("CentralConfig", "CENTRAL_CONFIG")
  | cloudProvider => ("CloudProvider", "CLOUD_PROVIDER")
  | disableMetrics => ("DisableMetrics", "DISABLE_METRICS")
  | enabled => ("Enabled", "ENABLED")
  | environment => ("Environment", "ENVIRONMENT")
  | excludedNamespaces => ("ExcludedNamespaces", "EXCLUDED_NAMESPACES")
  | flushInterval => ("FlushInterval", "FLUSH_INTERVAL")
  | globalLabels => ("GlobalLabels", "GLOBAL_LABELS")
  | hostName => ("HostName", "HOSTNAME")
  | logLevel => ("LogLevel", "LOG_LEVEL")
  | maxBatchEventCount => ("MaxBatchEventCount", "MAX_BATCH_EVENT_COUNT")
  | maxQueueEventCount => ("MaxQueueEventCount", "MAX_QUEUE_EVENT_COUNT")
  | metricsInterval => ("MetricsInterval", "METRICS_INTERVAL")
  | recording => ("Recording", "RECORDING")
  | sanitizeFieldNames => ("SanitizeFieldNames", "SANITIZE_FIELD_NAMES")
  | secretToken => ("SecretToken", "SECRET_TOKEN")
  | serverUrls => ("ServerUrls", "SERVER_URLS")
  | serviceName => ("ServiceName", "SERVICE_NAME")
  | serviceNodeName => ("ServiceNodeName", "SERVICE_NODE_NAME")
  | serviceVersion => ("ServiceVersion", "SERVICE_VERSION")
  | spanFramesMinDuration => ("SpanFramesMinDuration", "SPAN_FRAMES_MIN_DURATION")
  | stackTraceLimit => ("StackTraceLimit", "STACK_TRACE_LIMIT")
  | transactionIgnoreUrls => ("TransactionIgnoreUrls", "TRANSACTION_IGNORE_URLS")
  | transactionMaxSpans => ("TransactionMaxSpans", "TRANSACTION_MAX_SPANS")
  | transactionSampleRate => ("TransactionSampleRate", "TRANSACTION_SAMPLE_RATE")
  | useElasticTraceparentHeader =>
    ("UseElasticTraceparentHeader", "USE_ELASTIC_TRACEPARENT_HEADER")
  | verifyServerCert => ("VerifyServerCert", "VERIFY_SERVER_CERT")

/-- The key in the primary source. -/
def keyName (o : ConfigOption) : String := "ElasticApm:" ++ o.names.1

/-- The environment variable. -/
def envVarName (o : ConfigOption) : String := "ELASTIC_APM_" ++ o.names.2

end ConfigOption

/-! ### Parsers that keep their value -/

/-- The lazily filled fields of a reader. -/
structure ReaderFields where
  cachedMaxBatchEventCount : LazyInit Int32 := {}
  cachedMaxQueueEventCount : LazyInit Int32 := {}
  cachedServerUrls : LazyInit (List String) := {}
  cachedWildcardMatchersDisableMetrics : LazyInit (List WildcardMatcher) := {}
  cachedWildcardMatchersSanitizeFieldNames : LazyInit (List WildcardMatcher) := {}
  cachedWildcardMatchersTransactionIgnoreUrls : LazyInit (List WildcardMatcher) := {}
  cachedExcludedNamespaces : LazyInit (List String) := {}
  cachedApplicationNamespaces : LazyInit (List String) := {}
  stackTraceLimit : LazyInit Int32 := {}
  /-- A `Lazy` keeps an exception of its factory too. -/
  spanFramesMinDurationInMilliseconds : LazyInit (Except RuntimeException Double) := {}
  /-- Of `MicrosoftExtensionsConfig`. -/
  logLevel : LazyInit LogLevel := {}

namespace ReaderFields

/-- A request for one of the fields. -/
def initOrGet {β : Type} (field : ReaderFields → LazyInit β)
    (store : ReaderFields → LazyInit β → ReaderFields) (produced : β) (s : ReaderFields) :
    β × ReaderFields :=
  let r := (field s).initOrGet produced
  (r.1, store s r.2)

/-- `ParseMaxBatchEventCount`. -/
def parseMaxBatchEventCount (value : Option String) : ReaderFields → Int32 × ReaderFields :=
  initOrGet cachedMaxBatchEventCount (fun s c => { s with cachedMaxBatchEventCount := c })
    (parseMaxBatchEventCountImpl value)

/-- `ParseMaxQueueEventCount`. -/
def parseMaxQueueEventCount (value : Option String) : ReaderFields → Int32 × ReaderFields :=
  initOrGet cachedMaxQueueEventCount (fun s c => { s with cachedMaxQueueEventCount := c })
    (parseMaxQueueEventCountImpl value)

/-- `ParseServerUrls`. -/
def parseServerUrls (host : ReaderHost) (value : Option String) :
    ReaderFields → List String × ReaderFields :=
  initOrGet cachedServerUrls (fun s c => { s with cachedServerUrls := c })
    (parseServerUrlsImpl host value)

/-- `ParseDisableMetrics`. -/
def parseDisableMetrics (value : Option String) :
    ReaderFields → List WildcardMatcher × ReaderFields :=
  initOrGet cachedWildcardMatchersDisableMetrics
    (fun s c => { s with cachedWildcardMatchersDisableMetrics := c })
    (parseDisableMetricsImpl value)

/-- `ParseSanitizeFieldNames`. -/
def parseSanitizeFieldNames (value : Option String) :
    ReaderFields → List WildcardMatcher × ReaderFields :=
  initOrGet cachedWildcardMatchersSanitizeFieldNames
    (fun s c => { s with cachedWildcardMatchersSanitizeFieldNames := c })
    (parseSanitizeFieldNamesImpl value)

/-- `ParseTransactionIgnoreUrls`. -/
def parseTransactionIgnoreUrls (value : Option String) :
    ReaderFields → List WildcardMatcher × ReaderFields :=
  initOrGet cachedWildcardMatchersTransactionIgnoreUrls
    (fun s c => { s with cachedWildcardMatchersTransactionIgnoreUrls := c })
    (parseTransactionIgnoreUrlsImpl value)

/-- `ParseExcludedNamespaces`. -/
def parseExcludedNamespaces (value : Option String) : ReaderFields → List String × ReaderFields :=
  initOrGet cachedExcludedNamespaces (fun s c => { s with cachedExcludedNamespaces := c })
    (parseExcludedNamespacesImpl value)

/-- `ParseApplicationNamespaces`. -/
def parseApplicationNamespaces (value : Option String) :
    ReaderFields → List String × ReaderFields :=
  initOrGet cachedApplicationNamespaces (fun s c => { s with cachedApplicationNamespaces := c })
    (parseApplicationNamespacesImpl value)

/-- `_stackTraceLimit.Value`. -/
def getStackTraceLimit (value : Option String) : ReaderFields → Int32 × ReaderFields :=
  initOrGet stackTraceLimit (fun s c => { s with stackTraceLimit := c })
    (parseStackTraceLimit value)

variable [InvariantCulture]

/-- `_spanFramesMinDurationInMilliseconds.Value`. -/
def getSpanFramesMinDurationInMilliseconds (value : Option String) :
    ReaderFields → Except RuntimeException Double × ReaderFields :=
  initOrGet spanFramesMinDurationInMilliseconds
    (fun s c => { s with spanFramesMinDurationInMilliseconds := c })
    (parseSpanFramesMinDurationInMilliseconds value)

/-- The property `LogLevel` of `MicrosoftExtensionsConfig`. -/
def getLogLevel (value : Option String) : ReaderFields → LogLevel × ReaderFields :=
  initOrGet logLevel (fun s c => { s with logLevel := c }) (parseLogLevel value)

end ReaderFields

/-! ### The parser of an option -/

namespace ConfigOption

variable [InvariantCulture] (host : ReaderHost)

/-- What the parser of an option makes of a text. -/
def parsed (value : Option String) : (o : ConfigOption) → Except RuntimeException o.Value
  | apiKey => .ok (parseApiKey value)
  | applicationNamespaces => .ok (parseApplicationNamespacesImpl value)
  | captureBody => .ok (parseCaptureBody value)
  | captureBodyContentTypes => .ok (parseCaptureBodyContentTypes value)
  | captureHeaders => .ok (parseCaptureHeaders value)
  | centralConfig => .ok (parseCentralConfig value)
  | cloudProvider => .ok (parseCloudProvider value)
  | disableMetrics => .ok (parseDisableMetricsImpl value)
  | enabled => .ok (parseEnabled value)
  | environment => .ok (parseEnvironment value)
  | excludedNamespaces => .ok (parseExcludedNamespacesImpl value)
  | flushInterval => parseFlushInterval value
  | globalLabels => .ok (parseGlobalLabels value)
  | hostName => .ok (parseHostName value)
  | logLevel => .ok (parseLogLevel value)
  | maxBatchEventCount => .ok (parseMaxBatchEventCountImpl value)
  | maxQueueEventCount => .ok (parseMaxQueueEventCountImpl value)
  | metricsInterval => parseMetricsInterval value
  | recording => .ok (parseRecording value)
  | sanitizeFieldNames => .ok (parseSanitizeFieldNamesImpl value)
  | secretToken => .ok (parseSecretToken value)
  | serverUrls => .ok (parseServerUrlsImpl host value)
  | serviceName => .ok (parseServiceName host value)
  | serviceNodeName => .ok (parseServiceNodeName value)
  | serviceVersion => .ok (parseServiceVersion host value)
  | spanFramesMinDuration => parseSpanFramesMinDurationInMilliseconds value
  | stackTraceLimit => .ok (parseStackTraceLimit value)
  | transactionIgnoreUrls => .ok (parseTransactionIgnoreUrlsImpl value)
  | transactionMaxSpans => .ok (parseTransactionMaxSpans value)
  | transactionSampleRate => .ok (parseTransactionSampleRate value)
  | useElasticTraceparentHeader => .ok (parseUseElasticTraceparentHeader value)
  | verifyServerCert => .ok (parseVerifyServerCert value)

/-- Calling the parser of an option on a reader. -/
def parse (value : Option String) (s : ReaderFields) :
    (o : ConfigOption) → Except RuntimeException o.Value × ReaderFields
  | applicationNamespaces => (s.parseApplicationNamespaces value).map .ok id
  | disableMetrics => (s.parseDisableMetrics value).map .ok id
  | excludedNamespaces => (s.parseExcludedNamespaces value).map .ok id
  | maxBatchEventCount => (s.parseMaxBatchEventCount value).map .ok id
  | maxQueueEventCount => (s.parseMaxQueueEventCount value).map .ok id
  | sanitizeFieldNames => (s.parseSanitizeFieldNames value).map .ok id
  | serverUrls => (s.parseServerUrls host value).map .ok id
  | spanFramesMinDuration => s.getSpanFramesMinDurationInMilliseconds value
  | stackTraceLimit => (s.getStackTraceLimit value).map .ok id
  | transactionIgnoreUrls => (s.parseTransactionIgnoreUrls value).map .ok id
  -- The others keep nothing.
  | o => (o.parsed host value, s)

end ConfigOption

end ApmAgent
