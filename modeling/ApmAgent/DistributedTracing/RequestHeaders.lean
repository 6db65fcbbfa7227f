import ApmAgent.AspNetCore.WebRequestTransactionCreator
import ApmAgent.DiagnosticListeners.HttpDiagnosticListener
import ApmAgent.DistributedTracing.ParentData
import Mathlib.Logic.Relation

/-! # The tracing headers of outgoing requests

  Each step of the HTTP listener comes to a few calls on the tracer, and only
  one that starts a span adds headers to a request. The `traceparent` it adds is
  what that span hands out, so it names a transaction of the service as long as
  the service runs: `NamedHeaders.step`.
-/

namespace ApmAgent

open TraceContext

namespace HttpDiagnosticListener

variable {TRequest : Type} [DecidableEq TRequest] {allowed : Op → Prop}
  {s s' s₁ : HttpDiagnosticListener TRequest} {value : HttpEventValue TRequest}
  {request : TRequest}

/-! ### The calls of a step -/

/-- A few calls on the tracer. -/
abbrev Moves (allowed : Op → Prop) (s s' : HttpDiagnosticListener TRequest) : Prop :=
  Relation.ReflTransGen (Tracer.Move allowed) s.spans.tracer s'.spans.tracer

/-- Calls on the tracer that add no headers. -/
structure Silent (allowed : Op → Prop) (s s' : HttpDiagnosticListener TRequest) : Prop where
  moves : Moves allowed s s'
  headersAdded : s'.headersAdded = s.headersAdded

omit [DecidableEq TRequest] in
theorem Silent.refl (s : HttpDiagnosticListener TRequest) : Silent allowed s s := ⟨.refl, rfl⟩

omit [DecidableEq TRequest] in
theorem Silent.trans (h : Silent allowed s s₁) (h' : Silent allowed s₁ s') :
    Silent allowed s s' :=
  ⟨h.moves.trans h'.moves, h'.headersAdded.trans h.headersAdded⟩

omit [DecidableEq TRequest] in
theorem silent_call {op : Op} (hop : allowed op) (h : s.call op = some s') :
    Silent allowed s s' := by
  obtain ⟨spans, hcall, rfl⟩ := Option.map_eq_some_iff.mp h
  exact ⟨.single (.call hop (ListenerState.call_eq_some hcall).1), rfl⟩

omit [DecidableEq TRequest] in
/-- What is written to the context of a span is no call. -/
theorem silent_readResponse (s : HttpDiagnosticListener TRequest)
    (value : HttpEventValue TRequest) (span : SpanRef) :
    Silent allowed s (s.readResponse value span) where
  moves := by
    unfold Moves
    rw [readResponse_spans]
  headersAdded := by
    unfold readResponse
    split
    · split <;> rfl
    · rfl

omit [DecidableEq TRequest] in
theorem silent_readStatusCode {span : SpanRef}
    (hallowed : ∀ op : Op, op.generatedId = none → allowed op)
    (h : s.readStatusCode value span = some s') : Silent allowed s s' := by
  unfold readStatusCode at h
  split at h
  · split at h
    · next statusCode _ =>
      have hset : Silent allowed s (s.setStatusCode span statusCode) := ⟨.refl, rfl⟩
      simp only at h
      split at h
      · exact hset.trans (silent_call (hallowed (.captureError _ _) rfl) h)
      · cases h
        exact hset
    · cases h
      exact .refl _
  · cases h
    exact .refl _

omit [DecidableEq TRequest] in
theorem silent_processExceptionEvent (hallowed : ∀ op : Op, op.generatedId = none → allowed op)
    (h : s.processExceptionEvent value = some s') : Silent allowed s s' := by
  unfold processExceptionEvent at h
  split at h
  · split at h
    · cases h
      exact .refl _
    · exact silent_call (hallowed (.captureException _ _) rfl) h
  · cases h
    exact .refl _

theorem silent_tryRemove {spans : ListenerState TRequest Unit} {item : SpanRef × Unit}
    (h : s.spans.tryRemove request = some (spans, item)) :
    Silent allowed s { s with spans := spans } := by
  obtain ⟨_, _, hitem⟩ := Option.map_eq_some_iff.mp h
  cases hitem
  exact ⟨.refl, rfl⟩

theorem silent_processStopEvent {now : Int}
    (hallowed : ∀ op : Op, op.generatedId = none → allowed op)
    (h : s.processStopEvent value request now = some s') : Silent allowed s s' := by
  unfold processStopEvent at h
  rcases hremove : s.spans.tryRemove request with _ | ⟨spans, span, data⟩
  · rw [hremove] at h
    cases h
    exact .refl _
  · rw [hremove] at h
    exact ((silent_tryRemove hremove).trans (silent_readResponse _ value span)).trans
      (silent_call (hallowed (.endSegment _ _) rfl) h)

theorem silent_processStopExEvent {now : Int}
    (hallowed : ∀ op : Op, op.generatedId = none → allowed op)
    (h : s.processStopExEvent value request now = some s') : Silent allowed s s' := by
  unfold processStopExEvent at h
  rcases hremove : s.spans.tryRemove request with _ | ⟨spans, span, data⟩
  · rw [hremove] at h
    cases h
    exact .refl _
  · rw [hremove] at h
    obtain ⟨s₁, hread, hcall⟩ := Option.bind_eq_some_iff.mp h
    exact ((silent_tryRemove hremove).trans (silent_readStatusCode hallowed hread)).trans
      (silent_call (hallowed (.endSegment _ _) rfl) hcall)

omit [DecidableEq TRequest] in
/-- Starting a span is one call, also where there is nothing to start it on. -/
theorem startSpan_step {spans spans' : ListenerState TRequest Unit} {flag : InstrumentationFlag}
    {a : SpanStart} {span : Option SpanRef} (h : spans.startSpan flag a = some (spans', span)) :
    spans.tracer.step (.startSpanOnCurrentExecutionSegment a) = some spans'.tracer := by
  unfold ListenerState.startSpan Instrumented.startSpanOnCurrentExecutionSegment at h
  simp only [Option.map_map, Option.map_eq_some_iff, Function.comp_apply] at h
  obtain ⟨σ, hstep, h⟩ := h
  rcases hcurrent : spans.agent.tracer.getCurrentExecutionSegment with _ | seg
  · simp only [hcurrent] at h
    cases h
    have hsame : spans.agent.tracer.startSpanOnCurrentExecutionSegment a =
        some spans.agent.tracer := by
      unfold Tracer.startSpanOnCurrentExecutionSegment
      rw [hcurrent]
    exact hsame
  · simp only [hcurrent] at h
    cases h
    exact hstep

/-- Headers are added only for a span, and from what the tracer has then. -/
theorem processStartEvent_moves {requestUrl : Uri} {a : SpanStart}
    (hallowed : allowed (.startSpanOnCurrentExecutionSegment a))
    (h : s.processStartEvent value request requestUrl a = some s') :
    Moves allowed s s' ∧
      (s'.headersAdded = s.headersAdded ∨ ∃ transaction span,
        s'.headersAdded = s.headersAdded ++
          (tracingHeaders s'.spans.tracer transaction span value.requestHeadersContain).map
            (request, ·)) := by
  unfold processStartEvent at h
  split at h
  · cases h
    exact ⟨.refl, .inl rfl⟩
  · next transaction _ =>
    split at h
    · cases h
      exact ⟨.refl, .inl rfl⟩
    · obtain ⟨⟨spans, span⟩, hstart, rfl⟩ := Option.map_eq_some_iff.mp h
      have hmove : Relation.ReflTransGen (Tracer.Move allowed) s.spans.tracer spans.tracer :=
        .single (.call hallowed (startSpan_step hstart))
      rcases span with _ | span
      · exact ⟨hmove, .inl rfl⟩
      · simp only
        rcases hadd : spans.tryAdd request span () with _ | spans'
        · exact ⟨hmove, .inl rfl⟩
        · obtain ⟨-, rfl⟩ := ListenerState.tryAdd_eq_some hadd
          simp only
          -- Whether the context of the span is filled makes no difference here.
          split
          · exact ⟨hmove, .inr ⟨transaction, span, rfl⟩⟩
          · exact ⟨hmove, .inr ⟨transaction, span, rfl⟩⟩

/-! ### One step of the listener -/

/-- What happens is inside the service: ids are valid, and no transaction continues a trace. -/
def StaysInside (op : Op) : Prop :=
  Tracer.GeneratesValidIds op ∧ ∀ a, op = .startTransaction a → a.distributedTracingData = none

theorem staysInside_of_generatedId {op : Op} (h : op.generatedId = none) : StaysInside op := by
  have hno : ∀ a, op ≠ .startTransaction a := by
    rintro a rfl
    cases h
  refine ⟨⟨?_, fun a ha => absurd ha (hno a)⟩, fun a ha => absurd ha (hno a)⟩
  intro id hid
  rw [h] at hid
  cases hid

theorem staysInside_startSpan {a : SpanStart} (h : IsHexId a.id.toList 16) :
    StaysInside (.startSpanOnCurrentExecutionSegment a) := by
  have hno (b : TransactionStart) :
      Op.startSpanOnCurrentExecutionSegment a ≠ .startTransaction b := nofun
  refine ⟨⟨?_, fun b hb => absurd hb (hno b)⟩, fun b hb => absurd hb (hno b)⟩
  intro id hid
  have hid : a.id = id := Option.some.inj hid
  rwa [← hid]

/-- A label whose calls stay inside. -/
def LabelStaysInside : ListenerLabel (HttpEvent TRequest) → Prop
  | .event kv => IsHexId kv.spanStart.id.toList 16
  | .elsewhere (.call op _) => StaysInside op
  | .elsewhere (.flow _ _) => True

theorem step_moves (impl : HttpDiagnosticListenerImpl) {l : ListenerLabel (HttpEvent TRequest)}
    (hl : LabelStaysInside l) (h : step impl s l = some s') :
    Moves StaysInside s s' ∧
      ∀ entry ∈ s'.headersAdded, entry ∈ s.headersAdded ∨ ∃ transaction span contain,
        entry.2 ∈ tracingHeaders s'.spans.tracer transaction span contain := by
  have hsilent (h : Silent StaysInside s s') : Moves StaysInside s s' ∧
      ∀ entry ∈ s'.headersAdded, entry ∈ s.headersAdded ∨ ∃ transaction span contain,
        entry.2 ∈ tracingHeaders s'.spans.tracer transaction span contain := by
    refine ⟨h.moves, fun entry hentry => .inl ?_⟩
    rwa [h.headersAdded] at hentry
  have hallowed : ∀ op : Op, op.generatedId = none → StaysInside op :=
    fun _ => staysInside_of_generatedId
  cases l with
  | elsewhere e =>
    obtain ⟨spans, he, rfl⟩ := Option.map_eq_some_iff.mp h
    refine hsilent ⟨?_, rfl⟩
    cases e with
    | flow currentTransaction currentSpan =>
      cases he
      exact .single (.flow currentTransaction currentSpan)
    | call op flag =>
      simp only [ListenerState.elsewhere, Option.ite_none_left_eq_some,
        Option.map_eq_some_iff] at he
      obtain ⟨-, σ, hstep, rfl⟩ := he
      exact .single (.call hl hstep)
  | event kv =>
    change s.onNext impl kv = some s' at h
    unfold onNext at h
    rcases hreceived : kv.received impl with _ | e
    · rw [hreceived] at h
      cases h
      exact hsilent (.refl _)
    · simp only [hreceived] at h
      cases hkind : e.kind with
      | start =>
        rw [hkind] at h
        obtain ⟨hmoves, hsame | ⟨transaction, span, hadded⟩⟩ :=
          processStartEvent_moves (staysInside_startSpan hl) h
        · exact hsilent ⟨hmoves, hsame⟩
        · refine ⟨hmoves, fun entry hentry => ?_⟩
          rw [hadded, List.mem_append, List.mem_map] at hentry
          obtain hold | ⟨header, hheader, rfl⟩ := hentry
          · exact .inl hold
          · exact .inr ⟨transaction, span, _, hheader⟩
      | stop =>
        rw [hkind] at h
        exact hsilent (silent_processStopEvent hallowed h)
      | exception =>
        rw [hkind] at h
        cases impl with
        | core => exact hsilent (silent_processExceptionEvent hallowed h)
        | fullFramework => exact hsilent (silent_processStopExEvent hallowed h)

/-! ### What the headers say -/

/-- The names of the two headers that hold a `traceparent`. -/
def IsTraceparentName (name : String) : Prop :=
  name = traceParentHeaderName ∨ name = traceParentHeaderNamePrefixed

/-- Every `traceparent` added to a request names a transaction. -/
def NamedHeaders (s : HttpDiagnosticListener TRequest) : Prop :=
  ∀ request name v, (request, name, v) ∈ s.headersAdded → IsTraceparentName name →
    ∃ r d, s.spans.tracer.NamesTransaction r d ∧ buildTraceparent (some d) = some v

theorem mem_addMissingHeader {contain : String → Bool} {headerName name v : String}
    {headerValue : Option String} (h : (name, v) ∈ addMissingHeader contain headerName headerValue) :
    name = headerName ∧ headerValue = some v := by
  unfold addMissingHeader at h
  split at h
  · cases h
  · split at h
    · cases h
    · split at h
      · cases h
      · cases List.mem_singleton.mp h
        exact ⟨rfl, rfl⟩

/-- A `traceparent` header is what the span hands out. -/
theorem namesTransaction_of_mem_tracingHeaders {σ : Tracer} (htraced : σ.Traced)
    {transaction : TransactionRef} {span : SpanRef} {contain : String → Bool} {name v : String}
    (h : (name, v) ∈ tracingHeaders σ transaction span contain) (hname : IsTraceparentName name) :
    ∃ r d, σ.NamesTransaction r d ∧ buildTraceparent (some d) = some v := by
  have hfrom : buildTraceparent
      ((σ.resolve (.span span)).bind (·.outgoingDistributedTracingData)) = some v := by
    unfold tracingHeaders at h
    simp only [List.mem_append] at h
    rcases h with (h | h) | h
    · exact (mem_addMissingHeader h).2
    · split at h
      · exact (mem_addMissingHeader h).2
      · cases h
    · obtain ⟨rfl, -⟩ := mem_addMissingHeader h
      -- `tracestate` is neither of the two names.
      rcases hname with hname | hname <;> exact absurd hname (by decide)
  rcases hdata : (σ.resolve (.span span)).bind (·.outgoingDistributedTracingData) with _ | d
  · rw [hdata] at hfrom
    cases hfrom
  · rw [hdata] at hfrom
    obtain ⟨seg, hseg, hd⟩ := Option.bind_eq_some_iff.mp hdata
    exact ⟨_, d, Tracer.namesTransaction_outgoing htraced hseg hd, hfrom⟩

/-- Nothing that happens inside a service makes the headers it has sent wrong. -/
theorem NamedHeaders.step (impl : HttpDiagnosticListenerImpl)
    {l : ListenerLabel (HttpEvent TRequest)} (hl : LabelStaysInside l)
    (htraced : s.spans.tracer.Traced) (h : s.NamedHeaders) (hstep : step impl s l = some s') :
    s'.NamedHeaders := by
  obtain ⟨hmoves, hheaders⟩ := step_moves impl hl hstep
  intro request name v hmem hname
  rcases hheaders _ hmem with hold | ⟨transaction, span, contain, hnew⟩
  · obtain ⟨r, d, hd, hv⟩ := h request name v hold hname
    exact ⟨r, d, Tracer.Move.keeps (fun _ _ => Tracer.NamesTransaction.move) hmoves hd, hv⟩
  · exact namesTransaction_of_mem_tracingHeaders
      (Tracer.Move.keeps (fun _ _ => Tracer.Traced.move) hmoves htraced) hnew hname

end HttpDiagnosticListener

end ApmAgent
