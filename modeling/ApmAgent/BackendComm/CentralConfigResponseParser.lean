import ApmAgent.Config.ConfigurationReader

/-! # Responses with a central configuration

  `CentralConfigResponseParser` and `CentralConfigReader`: what a response of
  the APM Server says about the configuration, and how long to wait until the
  next request. Text that only goes to the log is left out, and so is the dump
  of the response that ends some of the reasons.

  The JSON library is a parameter: `JsonConvert` is what
  `DeserializeObject<IDictionary<string, string>>` does.
-/

namespace ApmAgent

/-- `JsonConvert.DeserializeObject<IDictionary<string, string>>`: the entries of an object, or
    `none` for null. -/
class JsonConvert where
  deserializeDictionary :
    String → Except RuntimeException (Option (List (String × Option String)))

/-! ### Responses -/

/-- `EntityTagHeaderValue`; the tag includes its quotes. -/
structure EntityTag where
  isWeak : Bool
  tag : String
  deriving DecidableEq, Repr

def EntityTag.toString (e : EntityTag) : String := if e.isWeak then "W/" ++ e.tag else e.tag

/-- What is read of an `HttpResponseMessage`. -/
structure HttpResponse where
  statusCode : Nat
  reasonPhrase : String
  /-- `Headers.CacheControl.MaxAge`. -/
  maxAge : Option TimeSpan
  /-- `Headers.ETag`. -/
  eTag : Option EntityTag
  deriving DecidableEq, Repr

def HttpResponse.isSuccessStatusCode (r : HttpResponse) : Bool :=
  200 ≤ r.statusCode && r.statusCode ≤ 299

/-- `WaitInfoS`. -/
structure WaitInfo where
  interval : TimeSpan
  reason : String
  deriving DecidableEq, Repr

/-- Whose cancellation an `OperationCanceledException` reports. -/
inductive CancellationCause where
  /-- The token that `Dispose` signals. -/
  | disposal
  /-- `HttpClient.Timeout`. -/
  | httpClientTimeout
  deriving DecidableEq, Repr

/-- The exceptions that the fetcher tells apart. -/
inductive FetchException where
  | failedToFetchConfig (message : String) (waitInfo : WaitInfo) (severity : LogLevel)
  | operationCanceled (cause : CancellationCause)
  | other (e : RuntimeException)
  deriving DecidableEq, Repr

/-! ### The payload -/

/-- `CentralConfigPayload`. -/
structure CentralConfigPayload where
  keyValues : List (String × Option String)
  deriving DecidableEq, Repr

namespace CentralConfigPayload

def captureBodyContentTypesKey : String := "capture_body_content_types"
def captureBodyKey : String := "capture_body"
def transactionMaxSpansKey : String := "transaction_max_spans"
def transactionSampleRateKey : String := "transaction_sample_rate"
def captureHeadersKey : String := "capture_headers"
def logLevelKey : String := "log_level"
def spanFramesMinDurationKey : String := "span_frames_min_duration"
def stackTraceLimitKey : String := "stack_trace_limit"
def recordingKey : String := "recording"

/-- The indexer: null for a missing key. -/
def get (payload : CentralConfigPayload) (key : String) : Option String :=
  (payload.keyValues.lookup key).join

end CentralConfigPayload

/-- `CentralConfigReader`; an option the payload does not have is `none`. -/
structure CentralConfigReader where
  eTag : String
  captureBody : Option String
  captureBodyContentTypes : Option (List String)
  transactionMaxSpans : Option Int32
  transactionSampleRate : Option Double
  captureHeaders : Option Bool
  logLevel : Option LogLevel
  spanFramesMinDurationInMilliseconds : Option Double
  stackTraceLimit : Option Int32
  recording : Option Bool

variable [InvariantCulture]

namespace CentralConfigReader

omit [InvariantCulture] in
/-- `GetConfigurationValue` and `GetSimpleConfigurationValue`. -/
def getConfigurationValue {α : Type} (payload : CentralConfigPayload) (key : String)
    (parser : Option String → α) : Option α :=
  (payload.get key).map fun value => parser (some value)

/-- The one parser that can throw. -/
def getSpanFramesMinDuration (payload : CentralConfigPayload) :
    Except RuntimeException (Option Double) :=
  match payload.get CentralConfigPayload.spanFramesMinDurationKey with
  | none => .ok none
  | some value => (parseSpanFramesMinDurationInMilliseconds (some value)).map some

/-- `new CentralConfigReader(…)`. -/
def new (payload : CentralConfigPayload) (eTag : String) :
    Except RuntimeException CentralConfigReader := do
  let spanFramesMinDurationInMilliseconds ← getSpanFramesMinDuration payload
  pure
    { eTag := eTag
      captureBody :=
        getConfigurationValue payload CentralConfigPayload.captureBodyKey parseCaptureBody
      captureBodyContentTypes :=
        getConfigurationValue payload CentralConfigPayload.captureBodyContentTypesKey
          parseCaptureBodyContentTypes
      transactionMaxSpans :=
        getConfigurationValue payload CentralConfigPayload.transactionMaxSpansKey
          parseTransactionMaxSpans
      transactionSampleRate :=
        getConfigurationValue payload CentralConfigPayload.transactionSampleRateKey
          parseTransactionSampleRate
      captureHeaders :=
        getConfigurationValue payload CentralConfigPayload.captureHeadersKey parseCaptureHeaders
      logLevel := getConfigurationValue payload CentralConfigPayload.logLevelKey parseLogLevel
      spanFramesMinDurationInMilliseconds := spanFramesMinDurationInMilliseconds
      stackTraceLimit :=
        getConfigurationValue payload CentralConfigPayload.stackTraceLimitKey
          parseStackTraceLimit
      recording :=
        getConfigurationValue payload CentralConfigPayload.recordingKey parseRecording }

end CentralConfigReader

/-! ### The parser -/

def waitTimeIfNoCacheControlMaxAge : TimeSpan := 5 * TimeSpan.ticksPerMinute

omit [InvariantCulture] in
/-- `ExtractWaitInfo`. -/
def extractWaitInfo (r : HttpResponse) : WaitInfo :=
  match r.maxAge with
  | some maxAge =>
    { interval := maxAge
      reason :=
        "Wait time is taken from max-age directive in Cache-Control header in APM Server's response" }
  | none =>
    { interval := waitTimeIfNoCacheControlMaxAge
      reason := "Default wait time is used because there's no valid Cache-Control header with" ++
        " max-age directive in APM Server's response." }

omit [InvariantCulture] in
/-- `InterpretResponseStatusCode`: whether there is a configuration to parse. -/
def interpretResponseStatusCode (r : HttpResponse) (waitInfo : WaitInfo) :
    Except FetchException Bool :=
  if r.isSuccessStatusCode then .ok true
  else
    let severity : LogLevel :=
      if 400 ≤ r.statusCode ∧ r.statusCode < 500 then .debug else .error
    let statusAsString :=
      "HTTP status code is " ++ r.reasonPhrase ++ " (" ++ toString r.statusCode ++ ")"
    let msgPrefix := statusAsString ++ " which most likely means that "
    match r.statusCode with
    | 304 => .ok false
    | 400 =>
      .error (.failedToFetchConfig (statusAsString ++ " which is unexpected") waitInfo .error)
    | 403 =>
      .error (.failedToFetchConfig (msgPrefix ++
        "APM Server supports the central configuration endpoint" ++
        " but Kibana connection is not enabled") waitInfo severity)
    | 404 =>
      .error (.failedToFetchConfig (msgPrefix ++
        "APM Server is an old (pre 7.3) version" ++
        " which doesn't support the central configuration endpoint") waitInfo severity)
    | 503 =>
      .error (.failedToFetchConfig (msgPrefix ++
        "APM Server supports the central configuration endpoint and Kibana connection is" ++
        " enabled, but Kibana connection is unavailable") waitInfo severity)
    | _ =>
      .error (.failedToFetchConfig (statusAsString ++ " signifies a failure") waitInfo severity)

/-- `ParseConfigPayload`: listing the unknown keys of a null dictionary throws. -/
def parseConfigPayload (eTag : EntityTag) (keyValues : Option (List (String × Option String))) :
    Except RuntimeException CentralConfigReader :=
  match keyValues with
  | none => .error .argumentNull
  | some keyValues => CentralConfigReader.new ⟨keyValues⟩ eTag.toString

variable [JsonConvert]

/-- `ParseHttpResponse`: every exception that leaves it carries the wait information. -/
def parseHttpResponse (r : HttpResponse) (body : String) :
    Except FetchException (Option CentralConfigReader × WaitInfo) :=
  let waitInfo := extractWaitInfo r
  match interpretResponseStatusCode r waitInfo with
  | .error e => .error e
  | .ok false => .ok (none, waitInfo)
  | .ok true =>
    match r.eTag with
    | none =>
      .error (.failedToFetchConfig "Response from APM Server doesn't have ETag header"
        waitInfo .error)
    | some eTag =>
      -- Whatever the payload throws is wrapped, to carry the wait information.
      match JsonConvert.deserializeDictionary body >>= parseConfigPayload eTag with
      | .ok centralConfigReader => .ok (some centralConfigReader, waitInfo)
      | .error _ =>
        .error (.failedToFetchConfig
          "Exception was thrown while parsing response from APM Server" waitInfo .error)

/-! ### What the parser returns and throws -/

omit [InvariantCulture] [JsonConvert] in
/-- A status code says that there is a configuration, that there is no new one, or throws an
    exception with the wait information of the response. -/
theorem interpretResponseStatusCode_cases (r : HttpResponse) (waitInfo : WaitInfo) :
    (r.isSuccessStatusCode ∧ interpretResponseStatusCode r waitInfo = .ok true) ∨
    (¬ r.isSuccessStatusCode ∧ interpretResponseStatusCode r waitInfo = .ok false) ∨
    (¬ r.isSuccessStatusCode ∧ ∃ message severity, interpretResponseStatusCode r waitInfo =
      .error (.failedToFetchConfig message waitInfo severity)) := by
  unfold interpretResponseStatusCode
  by_cases hsuccess : r.isSuccessStatusCode
  · simp [hsuccess]
  · -- 304 is the one other code that throws nothing.
    rw [if_neg hsuccess]
    extract_lets severity statusAsString msgPrefix
    split <;> simp [hsuccess]

end ApmAgent
