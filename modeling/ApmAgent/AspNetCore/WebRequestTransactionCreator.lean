import ApmAgent.DistributedTracing.TraceContext
import ApmAgent.Helpers.WildcardMatcher

/-! # Incoming requests

  How the two web frameworks start the transaction of an incoming request:
  `WebRequestTransactionCreator.StartTransactionAsync` on ASP.NET Core and
  `ElasticApmModule.ProcessBeginRequest` on the full framework. Both read the
  tracing headers of the request; the name of the transaction and what is filled
  into its context are left out.
-/

namespace ApmAgent

open TraceContext

/-! ### Headers -/

/-- The headers of a request, as they were received. -/
abbrev RequestHeaders := List (String × String)

/-- `TraceContext.TraceParentHeaderName`. -/
def traceParentHeaderName : String := "traceparent"

/-- `TraceContext.TraceParentHeaderNamePrefixed`. -/
def traceParentHeaderNamePrefixed : String := "elastic-apm-traceparent"

/-- `TraceContext.TraceStateHeaderName`. -/
def traceStateHeaderName : String := "tracestate"

/-- What the two frameworks read of a request. -/
structure IncomingRequest where
  path : String
  headers : RequestHeaders

namespace RequestHeaders

variable [InvariantCulture]

/-- The values of a header; names are compared ignoring case. -/
def values (headers : RequestHeaders) (name : String) : List String :=
  (headers.filter fun header => equalsOrdinalIgnoreCase header.1.toList name.toList).map (·.2)

/-- `Headers.ContainsKey(name)`. -/
def containsKey (headers : RequestHeaders) (name : String) : Bool :=
  !(headers.values name).isEmpty

/-- `Headers[name].ToString()`: the values of a header that was sent more than once are joined. -/
def item (headers : RequestHeaders) (name : String) : String :=
  String.intercalate "," (headers.values name)

/-- `Headers.Get(name)` of a `NameValueCollection`, null where there is no such header. -/
def get (headers : RequestHeaders) (name : String) : Option String :=
  if headers.containsKey name then some (headers.item name) else none

end RequestHeaders

section

variable [InvariantCulture]

/-! ### ASP.NET Core -/

namespace WebRequestTransactionCreator

/-- The tracing data `StartTransactionAsync` starts a transaction with. -/
def tracingData (headers : RequestHeaders) :
    Except RuntimeException (Option DistributedTracingData) :=
  if headers.containsKey traceParentHeaderNamePrefixed ||
      headers.containsKey traceParentHeaderName then
    let headerValue :=
      if headers.containsKey traceParentHeaderName then headers.item traceParentHeaderName
      else headers.item traceParentHeaderNamePrefixed
    if headers.containsKey traceStateHeaderName then
      tryExtractTracingData (some headerValue) (some (headers.item traceStateHeaderName))
    else tryExtractTracingData (some headerValue) none
  else .ok none

/-- `StartTransactionAsync`: a request that is ignored gets no transaction, nor does one whose
    headers make the reader throw. -/
def startTransactionAsync (σ : Tracer) (configSnapshot : ConfigSnapshot)
    (request : IncomingRequest) (a : TransactionStart) : Tracer :=
  if isAnyMatch configSnapshot.transactionIgnoreUrls (some request.path) then σ
  else
    match tracingData request.headers with
    | .ok data => σ.startTransaction { a with distributedTracingData := data }
    | .error _ => σ

end WebRequestTransactionCreator

/-! ### The full framework -/

namespace ElasticApmModule

/-- `ExtractIncomingDistributedTracingData`. -/
def extractIncomingDistributedTracingData (headers : RequestHeaders) :
    Except RuntimeException (Option DistributedTracingData) :=
  match (headers.get traceParentHeaderName).orElse fun _ =>
    headers.get traceParentHeaderNamePrefixed with
  | none => .ok none
  | some traceParentHeaderValue =>
    match headers.get traceStateHeaderName with
    | some traceStateHeaderValue =>
      tryExtractTracingData (some traceParentHeaderValue) (some traceStateHeaderValue)
    | none => tryExtractTracingData (some traceParentHeaderValue) none

/-- `ProcessBeginRequest`, whose exceptions `OnBeginRequest` catches. -/
def processBeginRequest (σ : Tracer) (transactionIgnoreUrls : List WildcardMatcher)
    (request : IncomingRequest) (a : TransactionStart) : Tracer :=
  if isAnyMatch transactionIgnoreUrls (some request.path) then σ
  else
    match extractIncomingDistributedTracingData request.headers with
    | .ok data => σ.startTransaction { a with distributedTracingData := data }
    | .error _ => σ

end ElasticApmModule

/-! ### What both read -/

/-- The `traceparent` of a request: the plain header goes before the prefixed one. -/
def RequestHeaders.traceparent (headers : RequestHeaders) : Option String :=
  (headers.get traceParentHeaderName).orElse fun _ => headers.get traceParentHeaderNamePrefixed

theorem extractIncomingDistributedTracingData_eq (headers : RequestHeaders) :
    ElasticApmModule.extractIncomingDistributedTracingData headers =
      match headers.traceparent with
      | none => .ok none
      | some v => tryExtractTracingData (some v) (headers.get traceStateHeaderName) := by
  unfold ElasticApmModule.extractIncomingDistributedTracingData RequestHeaders.traceparent
  split
  · rfl
  · cases headers.get traceStateHeaderName <;> rfl

/-- The two frameworks read the same data. -/
theorem tracingData_eq (headers : RequestHeaders) :
    WebRequestTransactionCreator.tracingData headers =
      ElasticApmModule.extractIncomingDistributedTracingData headers := by
  unfold WebRequestTransactionCreator.tracingData
    ElasticApmModule.extractIncomingDistributedTracingData RequestHeaders.get
  -- Which of the three headers there are decides.
  by_cases hplain : headers.containsKey traceParentHeaderName <;>
    by_cases hprefixed : headers.containsKey traceParentHeaderNamePrefixed <;>
      by_cases hstate : headers.containsKey traceStateHeaderName <;>
        simp [hplain, hprefixed, hstate]

/-- A server that handles incoming requests. -/
inductive WebFramework where
  | aspNetCore
  | aspNetFullFramework
  deriving DecidableEq, Repr

/-- The tracer after a request has come in. -/
def WebFramework.beginRequest (framework : WebFramework) (σ : Tracer)
    (configSnapshot : ConfigSnapshot) (request : IncomingRequest) (a : TransactionStart) :
    Tracer :=
  match framework with
  | .aspNetCore => WebRequestTransactionCreator.startTransactionAsync σ configSnapshot request a
  | .aspNetFullFramework =>
    ElasticApmModule.processBeginRequest σ configSnapshot.transactionIgnoreUrls request a

/-- A request that comes in starts no transaction, or one with the data its headers hold. -/
theorem beginRequest_cases (framework : WebFramework) (σ : Tracer)
    (configSnapshot : ConfigSnapshot) (request : IncomingRequest) (a : TransactionStart) :
    framework.beginRequest σ configSnapshot request a = σ ∨
      ∃ data, framework.beginRequest σ configSnapshot request a =
          σ.startTransaction { a with distributedTracingData := data } ∧
        (data = none ∨ ∃ v d, request.headers.traceparent = some v ∧ data = some d ∧
          tryExtractTracingData (some v) (request.headers.get traceStateHeaderName) =
            .ok (some d)) := by
  have hsame : framework.beginRequest σ configSnapshot request a =
      ElasticApmModule.processBeginRequest σ configSnapshot.transactionIgnoreUrls request a := by
    cases framework with
    | aspNetFullFramework => rfl
    | aspNetCore =>
      unfold WebFramework.beginRequest WebRequestTransactionCreator.startTransactionAsync
        ElasticApmModule.processBeginRequest
      rw [tracingData_eq]
  rw [hsame]
  unfold ElasticApmModule.processBeginRequest
  split
  · exact .inl rfl
  · rcases hread : ElasticApmModule.extractIncomingDistributedTracingData request.headers
      with e | data
    · exact .inl rfl
    · refine .inr ⟨data, rfl, ?_⟩
      rw [extractIncomingDistributedTracingData_eq] at hread
      rcases htraceparent : request.headers.traceparent with _ | v
      · rw [htraceparent] at hread
        cases hread
        exact .inl rfl
      · rw [htraceparent] at hread
        cases data with
        | none => exact .inl rfl
        | some d => exact .inr ⟨v, d, rfl, rfl, hread⟩

end

end ApmAgent
