import ApmAgent.DistributedTracing.TraceContext
import ApmAgent.Model.TraceIdentity

/-! # Trace continuity

  A transaction that is started from an incoming `traceparent` hands the trace
  on: what it and its spans send out is read back with the trace id and the
  recorded flag of the incoming header.
-/

namespace ApmAgent

open TraceContext

namespace Tracer

/-! ### One transaction along a run -/

/-- The transaction `r` as it was started, and the generated ids of its spans. -/
structure Continues (σ : Tracer) (r : TransactionRef) (trace : TransactionTrace) : Prop where
  transaction : ∃ t, σ.transactions.get? r = some (.transaction t) ∧ t.trace = trace
  spanIds : ∀ k s, σ.spans.get? k = some (.span s) → s.enclosingTransaction = r →
    IsHexId s.id.toList 16

/-- Generated ids are 16 hex digits, not all zero. -/
def GeneratesIds (ops : List Op) : Prop :=
  ∀ op ∈ ops, ∀ id, op.generatedId = some id → IsHexId id.toList 16

theorem Continues.step {σ σ' : Tracer} {op : Op} {r : TransactionRef} {trace : TransactionTrace}
    (h : σ.Continues r trace) (hid : ∀ id, op.generatedId = some id → IsHexId id.toList 16)
    (hstep : σ.step op = some σ') : σ'.Continues r trace where
  transaction := by
    obtain ⟨t, ht, htrace⟩ := h.transaction
    obtain ⟨t', ht', htrace'⟩ := step_transaction_trace hstep ht
    rcases t' with t' | n
    · have : t'.trace = t.trace := by simpa [ITransaction.trace?] using htrace'
      exact ⟨t', ht', by rw [this, htrace]⟩
    · cases htrace'
  spanIds := by
    intro k s hs hr
    rcases step_span_trace hstep with ⟨receiver, seg, a, s', hseg, ha, hspans, hcreated⟩ | hkeep
    · rw [hspans, Store.get?_alloc] at hs
      split at hs
      · cases hs
        rw [(hcreated.ids s.id s.traceId rfl).1]
        exact hid a.id ha
      · exact h.spanIds k s hs hr
    · obtain ⟨s', hs', htrace⟩ := hkeep k _ hs
      rcases s' with s' | n
      · have hids : (s.id, s.traceId) = (s'.id, s'.traceId) :=
          Option.some.inj (congrArg SpanTrace.ids htrace)
        have hstarted : s.enclosingTransaction = s'.enclosingTransaction :=
          congrArg SpanTrace.startedIn htrace
        have := h.spanIds k s' hs' (by rw [← hstarted, hr])
        rwa [(Prod.mk.inj hids).1]
      · have hids := congrArg SpanTrace.ids htrace
        cases hids

theorem Continues.run {σ σ' : Tracer} {ops : List Op} {r : TransactionRef}
    {trace : TransactionTrace} (h : σ.Continues r trace) (hids : GeneratesIds ops)
    (hrun : tracerSystem.run σ ops = some σ') : σ'.Continues r trace := by
  induction ops generalizing σ with
  | nil =>
    cases hrun
    exact h
  | cons op ops ih =>
    obtain ⟨σ₁, hstep, hrest⟩ := LTS.System.run_cons_eq_some.mp hrun
    have h₁ := h.step (hids op List.mem_cons_self) hstep
    exact ih h₁ (fun op' hop' => hids op' (List.mem_cons_of_mem op hop')) hrest

/-- A new transaction: no span of it exists. -/
theorem continues_startTransaction {σ : Tracer} {a : TransactionStart} (h : σ.Traced)
    (hrecorded : a.enabledSnapshot.enabled && a.recordingSnapshot.recording) :
    (σ.startTransaction a).Continues σ.transactions.size (Transaction.ofStart a).trace := by
  have hstart : σ.startTransaction a = Transaction.new σ a := if_pos hrecorded
  rw [hstart]
  constructor
  · exact ⟨.ofStart a, Store.get?_alloc_size .., rfl⟩
  · intro k s hs hr
    obtain ⟨t, ht, -⟩ := h k _ hs
    have hlt : s.enclosingTransaction < σ.transactions.size := Store.lt_size ht
    exact absurd hr (Nat.ne_of_lt hlt)

end Tracer

/-! ### Continuity -/

/-- The agent is enabled and recording at every read of its configuration. -/
def TransactionStart.AgentRecording (a : TransactionStart) : Prop :=
  a.enabledSnapshot.enabled ∧ a.recordingSnapshot.recording ∧
    a.currentConfig.enabled ∧ a.currentConfig.recording

namespace Tracer

/-- What a segment of a traced transaction hands out is read back as a part of the trace. -/
theorem Continues.outgoing {σ : Tracer} {r : TransactionRef} {trace : TransactionTrace}
    (h : σ.Continues r trace) (htraced : σ.Traced) (hid : IsHexId trace.id.toList 16)
    (htraceId : IsHexId trace.traceId.toList 32) (hrecording : trace.isRecording)
    {receiver : Segment} {seg : IExecutionSegment} (hseg : σ.resolve receiver = some seg)
    (hr : seg.transactionRef = r) :
    ∃ out d, seg.outgoingDistributedTracingData = some out ∧
      tryExtractTracingData (buildTraceparent (some out)) none = .ok (some d) ∧
      d.traceId = trace.traceId ∧ d.flagRecorded = trace.isSampled ∧
      (d.parentId = trace.id ∨ ∃ k s, σ.spans.get? k = some (.span s) ∧
        s.enclosingTransaction = r ∧ d.parentId = s.id) := by
  obtain ⟨t, ht, rfl⟩ := h.transaction
  obtain ⟨t', ht', hof⟩ := htraced.resolve hseg
  rw [hr, ht, Option.some.injEq] at ht'
  subst ht'
  -- The parent id handed out is a generated one.
  have hparent : ∃ out, seg.outgoingDistributedTracingData = some out ∧
      IsHexId out.parentId.toList 16 ∧
      (out.parentId = t.id ∨ ∃ k s, σ.spans.get? k = some (.span s) ∧
        s.enclosingTransaction = r ∧ out.parentId = s.id) := by
    have hspec := resolve_spec hseg
    cases seg with
    | transaction q u =>
      cases hof.real u rfl
      exact ⟨_, rfl, hid, .inl rfl⟩
    | span k s u =>
      cases hof.real u rfl
      refine ⟨_, rfl, ?_⟩
      by_cases hsent : s.shouldBeSentToApmServer t
      · have hout : (s.outgoingDistributedTracingData t).parentId = s.id := if_pos hsent
        rw [hout]
        exact ⟨h.spanIds k s hspec.2.1 hr, .inr ⟨k, s, hspec.2.1, hr, rfl⟩⟩
      · have hout : (s.outgoingDistributedTracingData t).parentId = t.id := if_neg hsent
        rw [hout]
        exact ⟨hid, .inl rfl⟩
    | noopTransaction q =>
      rw [hof.noop rfl _ rfl] at hrecording
      cases hrecording
    | noopSpan k s =>
      rw [hof.noop rfl _ rfl] at hrecording
      cases hrecording
  obtain ⟨out, hout, hparentId, hwhose⟩ := hparent
  obtain ⟨u, hu, houtTraceId, houtFlag⟩ := hof.outgoing out hout
  cases hu
  have hread := tryExtractTracingData_buildTraceparent (d := out)
    (by rw [houtTraceId]; exact htraceId) hparentId
  exact ⟨out, _, hout, hread, houtTraceId, houtFlag, hwhose⟩

/-- A transaction started from an accepted `traceparent` continues its trace, and so does every
    span of it, in every state of every run. -/
theorem trace_continuity {h : String} {traceState : Option String} {d : DistributedTracingData}
    (hread : tryExtractTracingData (some h) traceState = .ok (some d))
    {before : List Op} {σ₀ : Tracer} (hbefore : tracerSystem.run .new before = some σ₀)
    {a : TransactionStart} (hincoming : a.distributedTracingData = some d)
    (hrecording : a.AgentRecording) {after : List Op} {σ : Tracer}
    (hafter : tracerSystem.run (σ₀.startTransaction a) after = some σ)
    (hid : IsHexId a.id.toList 16) (hids : GeneratesIds after) :
    (∀ receiver seg, σ.resolve receiver = some seg →
      seg.transactionRef = σ₀.transactions.size →
      ∃ out d', seg.outgoingDistributedTracingData = some out ∧
        tryExtractTracingData (buildTraceparent (some out)) none = .ok (some d') ∧
        d'.traceId = d.traceId ∧ d'.flagRecorded = d.flagRecorded ∧
        (d'.parentId = a.id ∨ ∃ k s, σ.spans.get? k = some (.span s) ∧
          s.enclosingTransaction = σ₀.transactions.size ∧ d'.parentId = s.id)) ∧
    ∃ t, σ.transactions.get? σ₀.transactions.size = some (.transaction t) ∧ t.id = a.id ∧
      t.outgoingDistributedTracingData.traceState = traceState.bind validateTracestate := by
  obtain ⟨henabled, hrecorded, henabled', hrecorded'⟩ := hrecording
  have htraced₀ := traced_new.run hbefore
  have hcontinues₀ := continues_startTransaction (a := a) htraced₀ (by simp [henabled, hrecorded])
  have hstart : σ₀.step (.startTransaction a) = some (σ₀.startTransaction a) := rfl
  have htraced := (htraced₀.step hstart).run hafter
  have hcontinues := hcontinues₀.run hids hafter
  obtain ⟨hgrammar, hd⟩ := tryExtractTracingData_eq_some hread
  constructor
  · intro receiver seg hseg hr
    obtain ⟨out, d', hout, hread', htraceId, hflag, hparent⟩ := hcontinues.outgoing htraced hid
      (by simp [Transaction.trace, Transaction.ofStart, hincoming, hd, dataOf, hgrammar.traceId])
      (by simp [Transaction.trace, Transaction.ofStart, Transaction.isRecording, henabled',
        hrecorded']) hseg hr
    refine ⟨out, d', hout, hread', ?_, ?_, hparent⟩
    · rw [htraceId]
      simp [Transaction.trace, Transaction.ofStart, hincoming]
    · rw [hflag]
      simp [Transaction.trace, Transaction.ofStart, hincoming]
  · obtain ⟨t, ht, htrace⟩ := hcontinues.transaction
    refine ⟨t, ht, congrArg TransactionTrace.id htrace, ?_⟩
    have hstate : t.traceState = (Transaction.ofStart a).traceState :=
      congrArg TransactionTrace.traceState htrace
    simp [Transaction.outgoingDistributedTracingData, hstate, Transaction.ofStart, hincoming, hd,
      dataOf]

/-- A sampled trace with a validated `tracestate`. -/
def incomingData : DistributedTracingData where
  traceId := "0AF7651916CD43DD8448EB211C80319C"
  parentId := "b7ad6b7169203331"
  flagRecorded := true
  traceState := some "es=s:1"

/-- A transaction of `incomingData` that keeps one span. -/
def incomingStart : TransactionStart :=
  { TransactionStart.sampled with
    currentConfig := { ConfigSnapshot.defaults with transactionMaxSpans := 1 }
    distributedTracingData := some incomingData }

/-- The second span is dropped, and hands out the id of the transaction. -/
theorem trace_continuity_droppedSpan :
    ∃ σ, tracerSystem.run (Tracer.new.startTransaction incomingStart)
        [.startSpan (.transaction 0) ⟨"a1b2c3d4e5f60718", 1⟩,
          .startSpan (.span 0) ⟨"a1b2c3d4e5f60719", 2⟩] = some σ ∧
      ∃ out d', (σ.resolve (.span 1)).bind (·.outgoingDistributedTracingData) = some out ∧
        tryExtractTracingData (buildTraceparent (some out)) none = .ok (some d') ∧
        d'.traceId = "0AF7651916CD43DD8448EB211C80319C" ∧ d'.flagRecorded = true := by
  have hread : tryExtractTracingData
      (some "00-0AF7651916CD43DD8448EB211C80319C-b7ad6b7169203331-01") (some "es=s:1") =
      .ok (some incomingData) := by decide +kernel
  have hids : GeneratesIds [.startSpan (.transaction 0) ⟨"a1b2c3d4e5f60718", 1⟩,
      .startSpan (.span 0) ⟨"a1b2c3d4e5f60719", 2⟩] := by
    intro op hop id hid
    simp only [List.mem_cons, List.not_mem_nil, or_false] at hop
    rcases hop with rfl | rfl <;> cases hid <;>
      exact isTraceParentValid_iff.mp (by decide)
  refine ⟨_, rfl, ?_⟩
  obtain ⟨out, d', hout, hread', htraceId, hflag, -⟩ :=
    (trace_continuity hread (show tracerSystem.run .new [] = some Tracer.new from rfl)
      (a := incomingStart) rfl ⟨rfl, rfl, rfl, rfl⟩ rfl
      (isTraceParentValid_iff.mp (by decide)) hids).1 (.span 1) _ rfl rfl
  exact ⟨out, d', hout, hread', htraceId, hflag⟩

end Tracer

end ApmAgent
