import ApmAgent.DiagnosticListeners.SpanTracking
import ApmAgent.DistributedTracing.TraceContext
import ApmAgent.Model.SpanDestination
import ApmAgent.Report.PayloadItemSerializer

/-! # HttpDiagnosticListenerImplBase

  The spans of outgoing HTTP requests. A start event of a request starts a span
  and adds the tracing headers to the request, its stop event ends the span. On
  the full framework a request that fails has an event of its own, which ends
  the span too; elsewhere the exception is captured on the transaction.

  What is reported to the log is left out.
-/

namespace ApmAgent

open TraceContext (buildTraceparent)

/-! ### Events -/

/-- The two subclasses of `HttpDiagnosticListenerImplBase`. -/
inductive HttpDiagnosticListenerImpl where
  | core
  | fullFramework
  deriving DecidableEq, Repr

namespace HttpDiagnosticListenerImpl

def startEventKey : HttpDiagnosticListenerImpl → String
  | core => "System.Net.Http.HttpRequestOut.Start"
  | fullFramework => "System.Net.Http.Desktop.HttpRequestOut.Start"

def stopEventKey : HttpDiagnosticListenerImpl → String
  | core => "System.Net.Http.HttpRequestOut.Stop"
  | fullFramework => "System.Net.Http.Desktop.HttpRequestOut.Stop"

def exceptionEventKey : HttpDiagnosticListenerImpl → String
  | core => "System.Net.Http.Exception"
  | fullFramework => "System.Net.Http.Desktop.HttpRequestOut.Ex.Stop"

end HttpDiagnosticListenerImpl

/-- What reflection finds for a property of the value of an event. -/
inductive EventProperty (α : Type) where
  /-- There is no such property, or it is null. -/
  | null
  | ofType (a : α)
  | otherType
  deriving DecidableEq, Repr

def EventProperty.ofType? {α : Type} : EventProperty α → Option α
  | ofType a => some a
  | _ => none

/-- The value of an event, with what the methods of the subclass read of its request. -/
structure HttpEventValue (TRequest : Type) where
  /-- `Request`. -/
  request : EventProperty TRequest
  requestGetUri : Option Uri
  /-- `IsRequestFilteredOut` of the URL. -/
  isRequestFilteredOut : Bool
  requestGetMethod : String
  requestHeadersContain : String → Bool
  /-- `Response`, by its status code. -/
  response : EventProperty Int32
  /-- `Exception`. -/
  exception : EventProperty Unit
  /-- `StatusCode`, which the full framework has on the event itself. -/
  statusCode : EventProperty Int32

/-- An event, with the choices of the environment while it is processed. -/
structure HttpEvent (TRequest : Type) where
  key : Option String
  value : Option (HttpEventValue TRequest)
  spanStart : SpanStart
  now : Int

inductive HttpEventKind where
  | start
  | stop
  | exception
  deriving DecidableEq, Repr

/-- How `OnNext` tells the events apart. -/
def HttpDiagnosticListenerImpl.kind (impl : HttpDiagnosticListenerImpl) (key : String) :
    Option HttpEventKind :=
  if key = impl.startEventKey then some .start
  else if key = impl.stopEventKey then some .stop
  else if key = impl.exceptionEventKey then some .exception
  else none

/-- An event that `OnNext` processes. -/
structure ReceivedHttpEvent (TRequest : Type) where
  kind : HttpEventKind
  value : HttpEventValue TRequest
  request : TRequest
  requestUrl : Uri

/-- The checks of `OnNext`. -/
def HttpEvent.received {TRequest : Type} (impl : HttpDiagnosticListenerImpl)
    (kv : HttpEvent TRequest) : Option (ReceivedHttpEvent TRequest) := do
  let key ← kv.key
  guard (key ≠ "")
  let value ← kv.value
  let request ← value.request.ofType?
  let requestUrl ← value.requestGetUri
  guard (!value.isRequestFilteredOut)
  let kind ← impl.kind key
  return { kind := kind, value := value, request := request, requestUrl := requestUrl }

/-! ### The listener -/

/-- What the listener writes to and reads from `Context.Http`. -/
structure HttpContext where
  method : String
  originalUrl : Uri
  statusCode : Int32
  deriving DecidableEq, Repr

/-- A listener, with what it has written to requests and spans. -/
structure HttpDiagnosticListener (TRequest : Type) where
  /-- The agent, and `ProcessingRequests`. -/
  spans : ListenerState TRequest Unit
  headersAdded : List (TRequest × String × String)
  /-- `Context.Http`; all no-op spans have one context, the one under `none`. -/
  contextHttp : Option SpanRef → Option HttpContext
  outcome : SpanRef → Outcome

/-- `Span.ShouldBeSentToApmServer`, where the span is a `Span`. -/
def Tracer.spanShouldBeSent? (σ : Tracer) (k : SpanRef) : Option Bool :=
  match σ.resolve (.span k) with
  | some (.span _ s t) => some (s.shouldBeSentToApmServer t)
  | _ => none

/-- The name of the context of a span. -/
def Tracer.contextOf (σ : Tracer) (k : SpanRef) : Option SpanRef :=
  (σ.span? k).map fun _ => k

/-- `RequestHeadersAdd`, which adds no empty headers, unless the request has the header. -/
def addMissingHeader (requestHeadersContain : String → Bool) (headerName : String)
    (headerValue : Option String) : List (String × String) :=
  if requestHeadersContain headerName then []
  else
    match headerValue with
    | none => []
    | some v => if v = "" then [] else [(headerName, v)]

/-- The headers a start event adds to its request. -/
def tracingHeaders (σ : Tracer) (transaction : TransactionRef) (span : SpanRef)
    (requestHeadersContain : String → Bool) : List (String × String) :=
  let outgoing (seg : Segment) := (σ.resolve seg).bind (·.outgoingDistributedTracingData)
  let traceparent := buildTraceparent (outgoing (.span span))
  let useElasticTraceparentHeader :=
    (σ.transaction? transaction).any (·.configSnapshot.useElasticTraceparentHeader)
  addMissingHeader requestHeadersContain "traceparent" traceparent ++
    (if useElasticTraceparentHeader then
      addMissingHeader requestHeadersContain "elastic-apm-traceparent" traceparent
    else []) ++
    addMissingHeader requestHeadersContain "tracestate"
      ((outgoing (.transaction transaction)).bind (·.traceState))

namespace HttpDiagnosticListener

section

variable {TRequest : Type} [DecidableEq TRequest]

/-- `Context.Http = new Http { … }` and `SetUrl`. -/
def setHttp (s : HttpDiagnosticListener TRequest) (span : SpanRef) (method : String)
    (originalUrl : Uri) : HttpDiagnosticListener TRequest :=
  { s with
    contextHttp :=
      Function.update s.contextHttp (s.spans.tracer.contextOf span)
        (some { method := method, originalUrl := originalUrl, statusCode := 0 }) }

/-- `ProcessStartEvent`. -/
def processStartEvent (s : HttpDiagnosticListener TRequest) (value : HttpEventValue TRequest)
    (request : TRequest) (requestUrl : Uri) (a : SpanStart) :
    Option (HttpDiagnosticListener TRequest) :=
  match s.spans.tracer.currentTransaction with
  | none => some s
  | some transaction =>
    -- `Host` of a relative URL throws.
    if !requestUrl.isAbsoluteUri then some s
    else
      (s.spans.startSpan .httpClient a).map fun (spans, span) =>
        match span with
        -- There is a current segment, if only the transaction.
        | none => { s with spans := spans }
        | some span =>
          match spans.tryAdd request span () with
          -- "Failed to add to ProcessingRequests - ???"
          | none => { s with spans := spans }
          | some spans =>
            let headers :=
              tracingHeaders spans.tracer transaction span value.requestHeadersContain
            let s :=
              { s with
                spans := spans
                headersAdded := s.headersAdded ++ headers.map (request, ·) }
            if spans.tracer.spanShouldBeSent? span = some false then s
            else s.setHttp span value.requestGetMethod requestUrl

/-- `Context.Http.StatusCode = …`, where there is a `Context.Http`. -/
def setStatusCode (s : HttpDiagnosticListener TRequest) (span : SpanRef) (statusCode : Int32) :
    HttpDiagnosticListener TRequest :=
  let context := s.spans.tracer.contextOf span
  { s with
    contextHttp :=
      Function.update s.contextHttp context
        ((s.contextHttp context).map ({ · with statusCode := statusCode })) }

/-- A call on the agent. -/
def call (s : HttpDiagnosticListener TRequest) (op : Op) :
    Option (HttpDiagnosticListener TRequest) :=
  (s.spans.call op).map fun spans => { s with spans := spans }

/-- The status code of the response, and the outcome it stands for. -/
def readResponse (s : HttpDiagnosticListener TRequest) (value : HttpEventValue TRequest)
    (span : SpanRef) : HttpDiagnosticListener TRequest :=
  if (s.contextHttp (s.spans.tracer.contextOf span)).isSome then
    match value.response with
    | .ofType statusCode =>
      let s := s.setStatusCode span statusCode
      { s with
        outcome :=
          Function.update s.outcome span (if statusCode < 400 then .success else .failure) }
    | _ => s
  else s

/-- `ProcessStopEvent`. -/
def processStopEvent (s : HttpDiagnosticListener TRequest) (value : HttpEventValue TRequest)
    (request : TRequest) (now : Int) : Option (HttpDiagnosticListener TRequest) :=
  match s.spans.tryRemove request with
  | none => some s
  | some (spans, span, _) =>
    ({ s with spans := spans }.readResponse value span).call (.endSegment (.span span) now)

/-- `ProcessExceptionEvent` of the base class. -/
def processExceptionEvent (s : HttpDiagnosticListener TRequest)
    (value : HttpEventValue TRequest) : Option (HttpDiagnosticListener TRequest) :=
  match value.exception with
  | .ofType _ =>
    match s.spans.tracer.currentTransaction with
    | none => some s
    | some transaction => s.call (.captureException (.transaction transaction) none)
  | _ => some s

/-- The status code of the event, with an error for one that stands for a failure. -/
def readStatusCode (s : HttpDiagnosticListener TRequest) (value : HttpEventValue TRequest)
    (span : SpanRef) : Option (HttpDiagnosticListener TRequest) :=
  if (s.contextHttp (s.spans.tracer.contextOf span)).isSome then
    match value.statusCode with
    | .ofType statusCode =>
      let s := s.setStatusCode span statusCode
      if 300 ≤ statusCode then s.call (.captureError (.span span) none) else some s
    | _ => some s
  else some s

/-- `ProcessExceptionEvent` of the full framework. -/
def processStopExEvent (s : HttpDiagnosticListener TRequest) (value : HttpEventValue TRequest)
    (request : TRequest) (now : Int) : Option (HttpDiagnosticListener TRequest) :=
  match s.spans.tryRemove request with
  | none => some s
  | some (spans, span, _) => do
    let s ← { s with spans := spans }.readStatusCode value span
    s.call (.endSegment (.span span) now)

/-- `OnNext`. -/
def onNext (impl : HttpDiagnosticListenerImpl) (s : HttpDiagnosticListener TRequest)
    (kv : HttpEvent TRequest) : Option (HttpDiagnosticListener TRequest) :=
  match kv.received impl with
  | none => some s
  | some e =>
    match e.kind with
    | .start => s.processStartEvent e.value e.request e.requestUrl kv.spanStart
    | .stop => s.processStopEvent e.value e.request kv.now
    | .exception =>
      match impl with
      | .core => s.processExceptionEvent e.value
      | .fullFramework => s.processStopExEvent e.value e.request kv.now

/-- One event, or something that happens elsewhere. -/
def step (impl : HttpDiagnosticListenerImpl) (s : HttpDiagnosticListener TRequest) :
    ListenerLabel (HttpEvent TRequest) → Option (HttpDiagnosticListener TRequest)
  | .event kv => s.onNext impl kv
  | .elsewhere e => (s.spans.elsewhere e).map fun spans => { s with spans := spans }

/-- A listener that has been subscribed to a running agent. -/
def system (impl : HttpDiagnosticListenerImpl) :
    LTS.System (HttpDiagnosticListener TRequest) (ListenerLabel (HttpEvent TRequest)) where
  init s := s.spans.IsNew
  step := step impl

/-! ### Start and stop events -/

/-- The start events of a request. -/
def IsStart (impl : HttpDiagnosticListenerImpl) :
    ListenerLabel (HttpEvent TRequest) → TRequest → Prop
  | .event kv, request =>
    ∃ e, kv.received impl = some e ∧ e.kind = .start ∧ e.request = request
  | .elsewhere _, _ => False

/-- The stop events of a request, whatever its URL is by then; on the full framework also those of
    requests that failed. -/
def IsStop (impl : HttpDiagnosticListenerImpl) :
    ListenerLabel (HttpEvent TRequest) → TRequest → Prop
  | .event kv, request =>
    ∃ key value kind, kv.key = some key ∧ kv.value = some value ∧ impl.kind key = some kind ∧
      value.request = .ofType request ∧
      (kind = .stop ∨ (kind = .exception ∧ impl = .fullFramework))
  | .elsewhere _, _ => False

/-- `OnNext` returns before it looks at the key: the URL of the request is null or filtered out. -/
def HasNoUrl (value : HttpEventValue TRequest) : Prop :=
  value.requestGetUri = none ∨ value.isRequestFilteredOut = true

/-- A start event that finds a current transaction, for a request that is in the table. -/
def StartOverlaps (impl : HttpDiagnosticListenerImpl) (s : HttpDiagnosticListener TRequest) :
    ListenerLabel (HttpEvent TRequest) → Prop
  | .event kv =>
    ∃ e, kv.received impl = some e ∧ e.kind = .start ∧ e.requestUrl.isAbsoluteUri = true ∧
      s.spans.tracer.currentTransaction ≠ none ∧ s.spans.processing e.request ≠ none
  | .elsewhere _ => False

/-- A stop event of a request that is in the table, and that has lost its URL. -/
def StopIsDropped (impl : HttpDiagnosticListenerImpl) (s : HttpDiagnosticListener TRequest) :
    ListenerLabel (HttpEvent TRequest) → Prop
  | .event kv =>
    ∃ value request, kv.value = some value ∧ HasNoUrl value ∧ IsStop impl (.event kv) request ∧
      s.spans.processing request ≠ none
  | .elsewhere _ => False

variable {s s' : HttpDiagnosticListener TRequest} {value : HttpEventValue TRequest}
  {request : TRequest}

omit [DecidableEq TRequest] in
theorem received_eq_none {impl : HttpDiagnosticListenerImpl} {kv : HttpEvent TRequest}
    (hvalue : kv.value = some value) (h : HasNoUrl value) : kv.received impl = none := by
  unfold HttpEvent.received
  cases kv.key with
  | none => rfl
  | some key =>
    rcases h with huri | hfiltered
    · simp [hvalue, huri]
    · simp [hvalue, hfiltered]

omit [DecidableEq TRequest] in
/-- A stop event is processed, if its request has its URL. -/
theorem received_of_isStop {impl : HttpDiagnosticListenerImpl} {kv : HttpEvent TRequest}
    (h : IsStop impl (.event kv) request) :
    (∃ value, kv.value = some value ∧ HasNoUrl value ∧ kv.received impl = none) ∨
      ∃ e, kv.received impl = some e ∧ e.request = request ∧
        (e.kind = .stop ∨ (e.kind = .exception ∧ impl = .fullFramework)) := by
  obtain ⟨key, value, kind, hkey, hvalue, hkind, hrequest, hstop⟩ := h
  by_cases hurl : HasNoUrl value
  · exact .inl ⟨value, hvalue, hurl, received_eq_none hvalue hurl⟩
  · right
    obtain ⟨huri, hfiltered⟩ := not_or.mp hurl
    obtain ⟨requestUrl, huri⟩ := Option.ne_none_iff_exists'.mp huri
    have hne : key ≠ "" := by
      rintro rfl
      cases impl <;> cases hkind
    refine ⟨⟨kind, value, request, requestUrl⟩, ?_, rfl, hstop⟩
    simp [HttpEvent.received, hkey, hvalue, hkind, hrequest, huri, hfiltered, hne,
      EventProperty.ofType?]

theorem processStartEvent_effect (hs : s.spans.WellFormed) {requestUrl : Uri} {a : SpanStart}
    (h : s.processStartEvent value request requestUrl a = some s') :
    ListenerEffect (· = request)
      (requestUrl.isAbsoluteUri = true ∧ s.spans.tracer.currentTransaction ≠ none ∧
        s.spans.processing request ≠ none) s.spans s'.spans := by
  unfold processStartEvent at h
  rcases hcurrent : s.spans.tracer.currentTransaction with _ | transaction
  · rw [hcurrent] at h
    cases h
    exact .quiet (.refl _) fun hloses => hloses.2.1 rfl
  · simp only [hcurrent] at h
    by_cases habsolute : requestUrl.isAbsoluteUri = true
    · rw [habsolute, if_neg (by decide)] at h
      obtain ⟨⟨spans, span⟩, hstart, rfl⟩ := Option.map_eq_some_iff.mp h
      obtain ⟨hnone, _, _⟩ | ⟨_, rfl, hstarted⟩ := ListenerState.startSpan_cases hs hstart
      · -- The transaction is a current segment.
        unfold Tracer.getCurrentExecutionSegment at hnone
        rw [hcurrent] at hnone
        cases hspan : s.spans.tracer.currentSpan <;> rw [hspan] at hnone <;> cases hnone
      · simp only
        rcases hadd : spans.tryAdd request s.spans.tracer.spans.size () with _ | spans'
        · have hoverlaps := ListenerState.tryAdd_eq_none_iff.mp hadd
          rw [hstarted.processing] at hoverlaps
          exact .lose hstarted ⟨habsolute, nofun, hoverlaps⟩
        · have hfree := (ListenerState.tryAdd_eq_some hadd).1
          rw [hstarted.processing] at hfree
          have hspans : ListenerEffect (· = request)
              (requestUrl.isAbsoluteUri = true ∧ some transaction ≠ none ∧
                s.spans.processing request ≠ none) s.spans spans' :=
            .put rfl hstarted hadd fun hloses => hloses.2.2 hfree
          simp only
          split <;> exact hspans
    · rw [if_pos (by simpa using habsolute)] at h
      cases h
      exact .quiet (.refl _) fun hloses => habsolute hloses.1

omit [DecidableEq TRequest] in
theorem call_spans {op : Op} (h : s.call op = some s') : s.spans.call op = some s'.spans := by
  obtain ⟨spans, hcall, rfl⟩ := Option.map_eq_some_iff.mp h
  exact hcall

omit [DecidableEq TRequest] in
theorem readResponse_spans (s : HttpDiagnosticListener TRequest)
    (value : HttpEventValue TRequest) (span : SpanRef) :
    (s.readResponse value span).spans = s.spans := by
  unfold readResponse
  split
  · split <;> rfl
  · rfl

omit [DecidableEq TRequest] in
theorem readStatusCode_spans {span : SpanRef} (h : s.readStatusCode value span = some s') :
    s'.spans = s.spans ∨
      s.spans.call (.captureError (.span span) none) = some s'.spans := by
  unfold readStatusCode at h
  split at h
  · split at h
    · simp only at h
      split at h
      · have hcall := call_spans h
        exact .inr hcall
      · cases h
        exact .inl rfl
    · cases h
      exact .inl rfl
  · cases h
    exact .inl rfl

omit [DecidableEq TRequest] in
theorem call_isSome {op : Op} (h : (s.spans.call op).isSome) : (s.call op).isSome := by
  unfold call
  rw [Option.isSome_map]
  exact h

theorem processStopEvent_isSome (hs : s.spans.WellFormed) (value : HttpEventValue TRequest)
    (request : TRequest) (now : Int) : (s.processStopEvent value request now).isSome := by
  unfold processStopEvent
  rcases hremove : s.spans.tryRemove request with _ | ⟨spans, span, data⟩
  · rfl
  · refine call_isSome ?_
    rw [readResponse_spans]
    exact ListenerState.call_isSome (ListenerState.resolve_of_tryRemove hs hremove)
      (.inl ⟨now, rfl⟩)

omit [DecidableEq TRequest] in
/-- The span can still be called when the status code has been read. -/
theorem readStatusCode_isSome {span : SpanRef}
    (h : (s.spans.tracer.resolve (.span span)).isSome) (value : HttpEventValue TRequest) :
    ∃ s', s.readStatusCode value span = some s' ∧
      (s'.spans.tracer.resolve (.span span)).isSome := by
  have hsome : (s.readStatusCode value span).isSome := by
    unfold readStatusCode
    split
    · split
      · simp only
        split
        · exact call_isSome (ListenerState.call_isSome h (.inr rfl))
        · rfl
      · rfl
    · rfl
  obtain ⟨s', hread⟩ := Option.isSome_iff_exists.mp hsome
  refine ⟨s', hread, ?_⟩
  obtain hsame | hcapture := readStatusCode_spans hread
  · rw [hsame]
    exact h
  · exact (ListenerState.keepsSpans_call hcapture).resolves span h

theorem processStopExEvent_isSome (hs : s.spans.WellFormed) (value : HttpEventValue TRequest)
    (request : TRequest) (now : Int) : (s.processStopExEvent value request now).isSome := by
  unfold processStopExEvent
  rcases hremove : s.spans.tryRemove request with _ | ⟨spans, span, data⟩
  · rfl
  · obtain ⟨s', hread, hspan⟩ := readStatusCode_isSome (s := { s with spans := spans })
      (ListenerState.resolve_of_tryRemove hs hremove) value
    simp only [hread, Option.bind_eq_bind, Option.bind_some]
    exact call_isSome (ListenerState.call_isSome hspan (.inl ⟨now, rfl⟩))

theorem processStopEvent_endsSpan {now : Int}
    (h : s.processStopEvent value request now = some s') : EndsSpan spans s s' request := by
  unfold processStopEvent at h
  rcases hremove : s.spans.tryRemove request with _ | ⟨spans, span, data⟩
  · rw [hremove] at h
    cases h
    exact endsSpan_of_tryRemove_eq_none hremove
  · rw [hremove] at h
    have hend := call_spans h
    rw [readResponse_spans] at hend
    exact endsSpan_of_ends hremove
      (ListenerState.ends_of_call hremove rfl rfl (.refl _ _) hend)

theorem processStopExEvent_endsSpan {now : Int}
    (h : s.processStopExEvent value request now = some s') : EndsSpan spans s s' request := by
  unfold processStopExEvent at h
  rcases hremove : s.spans.tryRemove request with _ | ⟨spans, span, data⟩
  · rw [hremove] at h
    cases h
    exact endsSpan_of_tryRemove_eq_none hremove
  · rw [hremove] at h
    obtain ⟨s₁, hread, hcall⟩ := Option.bind_eq_some_iff.mp h
    have hend := call_spans hcall
    refine endsSpan_of_ends hremove ?_
    -- An error may be captured on the span before it ends.
    obtain hsame | hcapture := readStatusCode_spans hread
    · rw [hsame] at hend
      exact ListenerState.ends_of_call hremove rfl rfl (.refl _ _) hend
    · obtain ⟨_, hprocessing, hstarted⟩ := ListenerState.call_eq_some hcapture
      exact ListenerState.ends_of_call hremove hprocessing hstarted
        (ListenerState.keepsSpans_call hcapture) hend

theorem processExceptionEvent_effect {isStart : TRequest → Prop} {loses : Prop}
    (hs : s.spans.WellFormed) (h : s.processExceptionEvent value = some s') (hloses : ¬loses) :
    ListenerEffect isStart loses s.spans s'.spans := by
  unfold processExceptionEvent at h
  split at h
  · split at h
    · cases h
      exact .quiet (.refl _) hloses
    · exact .quiet (ListenerState.quiet_call hs rfl (call_spans h)) hloses
  · cases h
    exact .quiet (.refl _) hloses

/-! ### The listener as a whole -/

theorem step_effect (impl : HttpDiagnosticListenerImpl) {l : ListenerLabel (HttpEvent TRequest)}
    (hs : s.spans.WellFormed) (h : step impl s l = some s') :
    ListenerEffect (IsStart impl l) (StartOverlaps impl s l) s.spans s'.spans := by
  cases l with
  | elsewhere e =>
    obtain ⟨spans, helsewhere, rfl⟩ := Option.map_eq_some_iff.mp h
    exact .quiet (ListenerState.quiet_elsewhere hs helsewhere) id
  | event kv =>
    change s.onNext impl kv = some s' at h
    unfold onNext at h
    rcases hreceived : kv.received impl with _ | e
    · rw [hreceived] at h
      cases h
      refine .quiet (.refl _) ?_
      rintro ⟨e, he, _⟩
      rw [hreceived] at he
      cases he
    · simp only [hreceived] at h
      have hnot (hkind : e.kind ≠ .start) : ¬StartOverlaps impl s (.event kv) := by
        rintro ⟨e', he', hstart, _⟩
        rw [hreceived] at he'
        cases he'
        exact hkind hstart
      cases hkind : e.kind with
      | start =>
        rw [hkind] at h
        have hloses : StartOverlaps impl s (.event kv) ↔
            e.requestUrl.isAbsoluteUri = true ∧ s.spans.tracer.currentTransaction ≠ none ∧
              s.spans.processing e.request ≠ none := by
          constructor
          · rintro ⟨e', he', _, h'⟩
            rw [hreceived] at he'
            cases he'
            exact h'
          · exact fun h' => ⟨e, hreceived, hkind, h'⟩
        refine (processStartEvent_effect hs h).imp ?_ hloses.symm
        rintro _ rfl
        exact ⟨e, hreceived, hkind, rfl⟩
      | stop =>
        rw [hkind] at h
        exact (processStopEvent_endsSpan h).effect (hnot (hkind ▸ nofun))
      | exception =>
        rw [hkind] at h
        cases impl with
        | core => exact processExceptionEvent_effect hs h (hnot (hkind ▸ nofun))
        | fullFramework => exact (processStopExEvent_endsSpan h).effect (hnot (hkind ▸ nofun))

/-- A stop event ends the span of its request, if there is one and the request has its URL. -/
theorem step_endsSpan (impl : HttpDiagnosticListenerImpl)
    {l : ListenerLabel (HttpEvent TRequest)} (hstop : IsStop impl l request)
    (h : step impl s l = some s') (hdropped : ¬StopIsDropped impl s l) :
    EndsSpan spans s s' request := by
  cases l with
  | elsewhere e => exact hstop.elim
  | event kv =>
    change s.onNext impl kv = some s' at h
    unfold onNext at h
    obtain ⟨value, hvalue, hurl, hreceived⟩ | ⟨e, hreceived, rfl, hkind⟩ := received_of_isStop hstop
    · rw [hreceived] at h
      cases h
      have hunknown : s.spans.processing request = none := by
        by_contra hkey
        exact hdropped ⟨value, request, hvalue, hurl, hstop, hkey⟩
      unfold EndsSpan
      rw [table_eq_none_iff.mpr hunknown]
    · simp only [hreceived] at h
      obtain hkind | ⟨hkind, rfl⟩ := hkind
      · rw [hkind] at h
        exact processStopEvent_endsSpan h
      · rw [hkind] at h
        exact processStopExEvent_endsSpan h

theorem step_isSome (impl : HttpDiagnosticListenerImpl)
    {l : ListenerLabel (HttpEvent TRequest)} (hs : s.spans.WellFormed)
    (hstop : IsStop impl l request) : (step impl s l).isSome := by
  cases l with
  | elsewhere e => exact hstop.elim
  | event kv =>
    show (s.onNext impl kv).isSome
    unfold onNext
    obtain ⟨_, _, _, hreceived⟩ | ⟨e, hreceived, rfl, hkind⟩ := received_of_isStop hstop
    · rw [hreceived]
      rfl
    · simp only [hreceived]
      obtain hkind | ⟨hkind, rfl⟩ := hkind
      · rw [hkind]
        exact processStopEvent_isSome hs _ _ _
      · rw [hkind]
        exact processStopExEvent_isSome hs _ _ _

/-- A stop event that is dropped leaves the span open, and its request in the table. -/
theorem step_of_stopIsDropped (impl : HttpDiagnosticListenerImpl)
    {l : ListenerLabel (HttpEvent TRequest)} (h : step impl s l = some s')
    (hdropped : StopIsDropped impl s l) :
    s' = s ∧ ∃ request, IsStop impl l request ∧ s.spans.processing request ≠ none := by
  cases l with
  | elsewhere e => exact hdropped.elim
  | event kv =>
    obtain ⟨value, request, hvalue, hurl, hstop, hkey⟩ := hdropped
    refine ⟨?_, request, hstop, hkey⟩
    change s.onNext impl kv = some s' at h
    unfold onNext at h
    rw [received_eq_none hvalue hurl] at h
    exact (Option.some.inj h).symm

/-- The listener, which misses the stop of a request that has lost its URL. -/
def listener (impl : HttpDiagnosticListenerImpl) :
    SpanListener (HttpDiagnosticListener TRequest) (HttpEvent TRequest) TRequest Unit where
  system := system impl
  spans := spans
  isNew _ h := h
  isStart := IsStart impl
  isStop := IsStop impl
  Loses := StartOverlaps impl
  Misses := StopIsDropped impl
  effect hs h := step_effect impl hs h
  enabled hs hstop := step_isSome impl hs hstop
  stop hstop h hdropped := step_endsSpan impl hstop h hdropped
  missed h hdropped := step_of_stopIsDropped impl h hdropped

end

end HttpDiagnosticListener

end ApmAgent
