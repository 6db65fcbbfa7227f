import ApmAgent.Helpers.Numbers
import ApmAgent.Helpers.WildcardMatcher

/-! # Configuration snapshots

  The values of all configuration options at one moment (`IConfigSnapshot`).
  A snapshot is immutable. URLs are kept as text.
-/

namespace ApmAgent

inductive LogLevel where
  | trace
  | debug
  | information
  | warning
  | error
  | critical
  | none
  deriving DecidableEq, Repr

/-- `IConfigSnapshot`. -/
structure ConfigSnapshot where
  apiKey : Option String
  applicationNamespaces : List String
  captureBody : String
  captureBodyContentTypes : List String
  captureHeaders : Bool
  centralConfig : Bool
  cloudProvider : String
  /-- Not an option: where the values come from, for the log. -/
  dbgDescription : String
  disableMetrics : List WildcardMatcher
  enabled : Bool
  environment : Option String
  excludedNamespaces : List String
  flushInterval : TimeSpan
  globalLabels : List (String × String)
  hostName : Option String
  logLevel : LogLevel
  maxBatchEventCount : Int32
  maxQueueEventCount : Int32
  metricsIntervalInMilliseconds : Double
  recording : Bool
  sanitizeFieldNames : List WildcardMatcher
  secretToken : Option String
  serverUrls : List String
  serviceName : String
  serviceNodeName : Option String
  serviceVersion : Option String
  spanFramesMinDurationInMilliseconds : Double
  stackTraceLimit : Int32
  transactionIgnoreUrls : List WildcardMatcher
  transactionMaxSpans : Int32
  transactionSampleRate : Double
  useElasticTraceparentHeader : Bool
  verifyServerCert : Bool

/-! ### Default values -/

namespace DefaultValues

def captureBody : String := "off"

def captureBodyContentTypes : String :=
  "application/x-www-form-urlencoded*, text/*, application/json*, application/xml*"

def captureHeaders : Bool := true

def spanFramesMinDuration : String := "5ms"

def spanFramesMinDurationInMilliseconds : Double := 5

def stackTraceLimit : Int32 := 50

def transactionMaxSpans : Int32 := 500

def transactionSampleRate : Double := 1

/-- `ConsoleLogger.DefaultLogLevel`. -/
def logLevel : LogLevel := .error

def excludedNamespaces : List String :=
  ["System.", "Microsoft.", "MS.", "FSharp.", "Newtonsoft.Json", "Serilog", "NLog", "Giraffe."]

def sanitizeFieldNames : List WildcardMatcher :=
  ["password", "passwd", "pwd", "secret", "*key", "*token*", "*session*", "*credit*", "*card*",
    "authorization", "set-cookie"].map .valueOf

def transactionIgnoreUrls : List WildcardMatcher :=
  ["/VAADIN/*", "/heartbeat*", "/favicon.ico", "*.js", "*.css", "*.jpg", "*.jpeg", "*.png",
    "*.gif", "*.webp", "*.svg", "*.woff", "*.woff2"].map .valueOf

end DefaultValues

/-- `ConfigConsts.SupportedValues.CaptureBodySupportedValues`. -/
def captureBodySupportedValues : List String := ["off", "all", "errors", "transactions"]

/-- The snapshot of an agent on which no option is set. -/
def ConfigSnapshot.defaults : ConfigSnapshot where
  apiKey := none
  applicationNamespaces := []
  captureBody := DefaultValues.captureBody
  captureBodyContentTypes := (split ',' DefaultValues.captureBodyContentTypes).map trim
  captureHeaders := DefaultValues.captureHeaders
  centralConfig := true
  cloudProvider := "auto"
  dbgDescription := "local"
  disableMetrics := []
  enabled := true
  environment := none
  excludedNamespaces := DefaultValues.excludedNamespaces
  flushInterval := 10000 * TimeSpan.ticksPerMillisecond
  globalLabels := []
  hostName := none
  logLevel := DefaultValues.logLevel
  maxBatchEventCount := 10
  maxQueueEventCount := 1000
  metricsIntervalInMilliseconds := 30000
  recording := true
  sanitizeFieldNames := DefaultValues.sanitizeFieldNames
  secretToken := none
  serverUrls := ["http://localhost:8200"]
  serviceName := "unknown"
  serviceNodeName := none
  serviceVersion := none
  spanFramesMinDurationInMilliseconds := DefaultValues.spanFramesMinDurationInMilliseconds
  stackTraceLimit := DefaultValues.stackTraceLimit
  transactionIgnoreUrls := DefaultValues.transactionIgnoreUrls
  transactionMaxSpans := DefaultValues.transactionMaxSpans
  transactionSampleRate := DefaultValues.transactionSampleRate
  useElasticTraceparentHeader := true
  verifyServerCert := true

end ApmAgent
