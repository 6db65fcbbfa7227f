import ApmAgent.BackendComm.CentralConfigResponseParser
import ApmAgent.Framework.LTS

/-! # CentralConfigFetcher

  The loop that polls the APM Server for a configuration. One iteration sends
  a request, parses the response, updates the configuration store and the
  ETag, and waits. An exception that leaves an iteration ends the loop for
  good: `BackendCommComponentBase.WorkLoop` swallows it outside of the loop.

  What the server, the network, the clock and `Dispose` do during an iteration
  is a `Poll`.
-/

namespace ApmAgent

/-! ### Time -/

namespace TimeSpan

/-- The result of an operation on time spans, if a time span can hold it. -/
def checked (ticks : Int) : Except RuntimeException TimeSpan :=
  if minTicks ≤ ticks ∧ ticks ≤ maxTicks then .ok ticks else .error .overflow

end TimeSpan

/-- The longest delay `Task.Delay` accepts, in milliseconds. -/
def maxDelayMilliseconds : Int := Int32.maxValue.toInt

/-- What the clock and `Dispose` do while the fetcher waits. -/
structure Waiting where
  /-- `Now` when the end of the waiting time is computed. -/
  now : TimeSpan
  /-- `Now` in `DelayAsyncImpl`. -/
  nowInDelay : TimeSpan
  /-- The token is signalled when `DelayAsyncImpl` starts. -/
  cancelledBefore : Bool
  /-- The token is signalled while the timer runs. -/
  cancelledDuring : Bool
  deriving DecidableEq, Repr

/-- `Task.Delay`, which takes the delay in whole milliseconds. -/
def taskDelay (delay : TimeSpan) (cancelled : Bool) : Except FetchException Unit :=
  if delay.tdiv TimeSpan.ticksPerMillisecond > maxDelayMilliseconds then
    .error (.other .argumentOutOfRange)
  else if cancelled then .error (.operationCanceled .disposal)
  else .ok ()

/-- `AgentTimer.DelayAsyncImpl`. -/
def delayAsyncImpl (until_ : TimeSpan) (w : Waiting) : Except FetchException Unit :=
  if w.cancelledBefore then .error (.operationCanceled .disposal)
  else
    match TimeSpan.checked (until_ - w.nowInDelay) with
    | .error e => .error (.other e)
    | .ok delayRemainder =>
      if delayRemainder ≤ 0 then .ok () else taskDelay delayRemainder w.cancelledDuring

/-- `_agentTimer.Delay(_agentTimer.Now + interval, token)`. -/
def agentTimerDelay (interval : TimeSpan) (w : Waiting) : Except FetchException Unit :=
  match TimeSpan.checked (w.now + interval) with
  | .error e => .error (.other e)
  | .ok until_ => delayAsyncImpl until_ w

/-! ### Fetching -/

/-- How `HttpClientInstance.SendAsync`, raced against `GetConfigHttpRequestTimeout` and the
    token, comes out. -/
inductive FetchOutcome where
  | response (r : HttpResponse) (body : String)
  | nullResponse
  /-- The transport fails, or reading the body does. -/
  | transportError (e : RuntimeException)
  /-- `AwaitOrTimeout` throws a `TimeoutException`. -/
  | requestTimeout
  /-- `HttpClient.Timeout` elapses: a `TaskCanceledException`. -/
  | httpClientTimeout
  /-- `Dispose` signals the token. -/
  | disposed
  deriving DecidableEq, Repr

/-- What happens around one iteration. -/
structure Poll where
  outcome : FetchOutcome
  waiting : Waiting
  deriving DecidableEq, Repr

def waitTimeIfAnyError : TimeSpan := 5 * TimeSpan.ticksPerMinute

/-- `FetchConfigHttpResponseAsync`. -/
def fetchConfigHttpResponse : FetchOutcome → Except FetchException (HttpResponse × String)
  | .response r body => .ok (r, body)
  | .nullResponse =>
    .error (.failedToFetchConfig
      "HTTP client API call for request to APM Server returned null."
      { interval := waitTimeIfAnyError
        reason := "HttpResponseMessage from APM Server is equal to null" } .error)
  | .transportError e => .error (.other e)
  | .requestTimeout => .error (.other .timeout)
  | .httpClientTimeout => .error (.operationCanceled .httpClientTimeout)
  | .disposed => .error (.operationCanceled .disposal)

/-- What is set on a request. -/
structure HttpRequest where
  ifNoneMatch : List EntityTag
  deriving DecidableEq, Repr

/-- `BuildHttpRequest`. -/
def buildHttpRequest (eTag : Option EntityTag) : HttpRequest := ⟨eTag.toList⟩

/-! ### The configuration store -/

/-- `WrappingConfigSnapshot`. -/
def wrappingConfigSnapshot (wrapped : ConfigSnapshot) (centralConfig : CentralConfigReader)
    (dbgDescription : String) : ConfigSnapshot :=
  { wrapped with
    captureBody := centralConfig.captureBody.getD wrapped.captureBody
    captureBodyContentTypes :=
      centralConfig.captureBodyContentTypes.getD wrapped.captureBodyContentTypes
    captureHeaders := centralConfig.captureHeaders.getD wrapped.captureHeaders
    dbgDescription := dbgDescription
    logLevel := centralConfig.logLevel.getD wrapped.logLevel
    recording := centralConfig.recording.getD wrapped.recording
    spanFramesMinDurationInMilliseconds :=
      centralConfig.spanFramesMinDurationInMilliseconds.getD
        wrapped.spanFramesMinDurationInMilliseconds
    stackTraceLimit := centralConfig.stackTraceLimit.getD wrapped.stackTraceLimit
    transactionMaxSpans := centralConfig.transactionMaxSpans.getD wrapped.transactionMaxSpans
    transactionSampleRate :=
      centralConfig.transactionSampleRate.getD wrapped.transactionSampleRate }

/-- The fetcher, with the snapshot of the store it updates. -/
structure CentralConfigFetcher where
  initialSnapshot : ConfigSnapshot
  /-- `_configStore.CurrentSnapshot`. -/
  currentSnapshot : ConfigSnapshot
  eTag : Option EntityTag

namespace CentralConfigFetcher

/-- The fetcher of a freshly started agent. -/
def new (initialSnapshot : ConfigSnapshot) : CentralConfigFetcher where
  initialSnapshot := initialSnapshot
  currentSnapshot := initialSnapshot
  eTag := none

/-- `UpdateConfigStore`. -/
def updateConfigStore (f : CentralConfigFetcher) (centralConfigReader : CentralConfigReader) :
    CentralConfigFetcher :=
  { f with
    currentSnapshot := wrappingConfigSnapshot f.initialSnapshot centralConfigReader
      (f.initialSnapshot.dbgDescription ++ " + central (ETag: `" ++
        centralConfigReader.eTag ++ "')") }

variable [InvariantCulture] [JsonConvert]

/-- The body of the `try` block: the fetcher it leaves and the wait information or the
    exception it ends with. -/
def fetchAndUpdate (f : CentralConfigFetcher) (outcome : FetchOutcome) :
    CentralConfigFetcher × Except FetchException WaitInfo :=
  match fetchConfigHttpResponse outcome with
  | .error e => (f, .error e)
  | .ok (httpResponse, httpResponseBody) =>
    match parseHttpResponse httpResponse httpResponseBody with
    | .error e => (f, .error e)
    | .ok (none, waitInfo) => (f, .ok waitInfo)
    | .ok (some centralConfigReader, waitInfo) =>
      -- The store is updated first, then the ETag.
      ({ f.updateConfigStore centralConfigReader with eTag := httpResponse.eTag }, .ok waitInfo)

/-- The `catch` blocks: cancellations are thrown again, anything else gives a wait time. -/
def handleException : Except FetchException WaitInfo → Except FetchException WaitInfo
  | .ok waitInfo => .ok waitInfo
  | .error (.operationCanceled cause) => .error (.operationCanceled cause)
  | .error (.failedToFetchConfig _ waitInfo _) => .ok waitInfo
  | .error (.other _) =>
    .ok
      { interval := waitTimeIfAnyError
        reason := "Default wait time is used because exception was thrown" ++
          " while fetching configuration from APM Server and parsing it." }

/-- `WorkLoopIteration`. -/
def workLoopIteration (f : CentralConfigFetcher) (poll : Poll) :
    CentralConfigFetcher × Except FetchException Unit :=
  let fetched := f.fetchAndUpdate poll.outcome
  match handleException fetched.2 with
  | .error e => (fetched.1, .error e)
  -- The delay is outside of the `try` block.
  | .ok waitInfo => (fetched.1, agentTimerDelay waitInfo.interval poll.waiting)

end CentralConfigFetcher

/-! ### The work loop -/

/-- The work loop; `exited` is the exception that ended it. -/
structure WorkLoop where
  fetcher : CentralConfigFetcher
  exited : Option FetchException

variable [InvariantCulture] [JsonConvert]

omit [InvariantCulture] [JsonConvert] in
/-- The work loop of a freshly started agent. -/
def WorkLoop.start (initialSnapshot : ConfigSnapshot) : WorkLoop where
  fetcher := .new initialSnapshot
  exited := none

/-- One turn of `while (true) await WorkLoopIteration()`. -/
def WorkLoop.step (s : WorkLoop) (poll : Poll) : Option WorkLoop :=
  match s.exited with
  | some _ => none
  | none =>
    let iteration := s.fetcher.workLoopIteration poll
    some
      { fetcher := iteration.1
        exited :=
          match iteration.2 with
          | .ok () => none
          | .error e => some e }

/-- The work loop of an agent whose initial snapshot is given. -/
def workLoopSystem (initialSnapshot : ConfigSnapshot) : LTS.System WorkLoop Poll where
  init s := s = .start initialSnapshot
  step := WorkLoop.step

end ApmAgent
