import ApmAgent.Model.Tracer

/-! # What one call on the tracer does

  Every invariant of the tracer is proved by cases on `Tracer.Transition`: the
  calls dispatch over four kinds of segments and two ways to start a span, but
  the state changes in only nine ways. `step_transition` is the one place where
  the dispatch is unfolded.
-/

namespace ApmAgent

namespace Tracer

/-! ### References -/

theorem transaction?_eq_some {σ : Tracer} {r : TransactionRef} {t : Transaction} :
    σ.transaction? r = some t ↔ σ.transactions.get? r = some (.transaction t) := by
  unfold transaction?
  split
  · next t' h => simp [h]
  · next h =>
    constructor
    · intro hn
      cases hn
    · intro ht
      exact absurd ht (h t)

/-- What a segment found by `resolve` says about the two stores. -/
theorem resolve_spec {σ : Tracer} {receiver : Segment} {seg : IExecutionSegment}
    (h : σ.resolve receiver = some seg) :
    match seg with
    | .transaction r t =>
      receiver = .transaction r ∧ σ.transactions.get? r = some (.transaction t)
    | .noopTransaction r =>
      receiver = .transaction r ∧ ∃ n, σ.transactions.get? r = some (.noop n)
    | .span k s t =>
      receiver = .span k ∧ σ.spans.get? k = some (.span s) ∧
        σ.transactions.get? s.enclosingTransaction = some (.transaction t)
    | .noopSpan k s => receiver = .span k ∧ σ.spans.get? k = some (.noop s) := by
  cases receiver with
  | transaction r =>
    simp only [resolve] at h
    split at h
    · next t ht => cases h; exact ⟨rfl, ht⟩
    · next n hn => cases h; exact ⟨rfl, n, hn⟩
    · cases h
  | span k =>
    simp only [resolve] at h
    split at h
    · next s hs =>
      obtain ⟨t, ht, rfl⟩ := Option.map_eq_some_iff.mp h
      exact ⟨rfl, hs, transaction?_eq_some.mp ht⟩
    · next s hs => cases h; exact ⟨rfl, hs⟩
    · cases h

end Tracer

/-! ### The effect of `End` on each part of the state -/

section EndEffects

variable (σ : Tracer) (r : TransactionRef) (t : Transaction) (k : SpanRef) (s : Span)
  (now : Int)

/-- `Transaction.End`, field by field. -/
theorem Transaction.endTransaction_eq :
    Transaction.endTransaction σ r t now =
      { σ with
        transactions := σ.transactions.update r fun _ => .transaction (t.ended now)
        currentTransaction := if t.isEnded then σ.currentTransaction else none
        queued := if t.isEnded then σ.queued else σ.queued ++ [.transaction r] } := by
  unfold Transaction.endTransaction Tracer.queue
  cases t.isEnded <;> rfl

/-- `Span.End`, field by field. -/
theorem Span.endSpan_eq :
    Span.endSpan σ k s t now =
      { σ with
        spans := σ.spans.update k fun _ => .span (s.ended now)
        currentSpan := if s.isEnded then σ.currentSpan else s.parentSpan
        queued :=
          if s.shouldBeSentToApmServer t && !s.isEnded then σ.queued ++ [.span k]
          else σ.queued } := by
  unfold Span.endSpan Tracer.queue
  cases s.isEnded <;> cases s.shouldBeSentToApmServer t <;> rfl

@[simp] theorem Transaction.endTransaction_transactions :
    (Transaction.endTransaction σ r t now).transactions =
      σ.transactions.update r fun _ => .transaction (t.ended now) := by
  rw [endTransaction_eq]

@[simp] theorem Transaction.endTransaction_spans :
    (Transaction.endTransaction σ r t now).spans = σ.spans := by
  rw [endTransaction_eq]

@[simp] theorem Transaction.endTransaction_currentSpan :
    (Transaction.endTransaction σ r t now).currentSpan = σ.currentSpan := by
  rw [endTransaction_eq]

@[simp] theorem Transaction.endTransaction_currentTransaction :
    (Transaction.endTransaction σ r t now).currentTransaction =
      if t.isEnded then σ.currentTransaction else none := by
  rw [endTransaction_eq]

@[simp] theorem Span.endSpan_transactions :
    (Span.endSpan σ k s t now).transactions = σ.transactions := by
  rw [endSpan_eq]

@[simp] theorem Span.endSpan_spans :
    (Span.endSpan σ k s t now).spans = σ.spans.update k fun _ => .span (s.ended now) := by
  rw [endSpan_eq]

@[simp] theorem Span.endSpan_currentTransaction :
    (Span.endSpan σ k s t now).currentTransaction = σ.currentTransaction := by
  rw [endSpan_eq]

@[simp] theorem Span.endSpan_currentSpan :
    (Span.endSpan σ k s t now).currentSpan =
      if s.isEnded then σ.currentSpan else s.parentSpan := by
  rw [endSpan_eq]

@[simp] theorem NoopSpan.endSpan_spans (n : NoopSpan) :
    (NoopSpan.endSpan σ k n).spans =
      σ.spans.update k fun _ => .noop { n with isEnded := true } := rfl

end EndEffects

/-! ### What a call is about -/

/-- The enclosing `Transaction` of a `Span`, and a `Transaction` itself. -/
def IExecutionSegment.transaction? : IExecutionSegment → Option Transaction
  | .transaction _ t => some t
  | .span _ _ t => some t
  | .noopTransaction _ | .noopSpan _ _ => none

namespace Op

/-- The segment a call starts a span on. -/
def startsSpanOn (σ : Tracer) : Op → Option IExecutionSegment
  | .startSpan receiver _ => σ.resolve receiver
  | .startSpanInternal receiver _ => σ.resolve receiver
  | .startSpanOnCurrentExecutionSegment _ =>
    σ.getCurrentExecutionSegment.bind σ.resolve
  | _ => none

/-- The transaction in which a call creates a `Span`, and not a `NoopSpan`. -/
def createsSpanIn (σ : Tracer) : Op → Option Transaction
  | .startSpan receiver _ =>
    ((σ.resolve receiver).bind (·.transaction?)).filter (·.isRecording)
  | .startSpanInternal receiver _ => (σ.resolve receiver).bind (·.transaction?)
  | .startSpanOnCurrentExecutionSegment _ =>
    (σ.getCurrentExecutionSegment.bind σ.resolve).bind (·.transaction?)
  | _ => none

/-- The parent span a call hands to the span it creates: the receiver when that is a span,
    except where `Span.StartSpan` creates a no-op span. -/
def parentSpanHandedOn (σ : Tracer) (op : Op) : Option SpanRef :=
  match op.startsSpanOn σ with
  | some (.noopSpan k _) => some k
  | some (.span k _ _) => if (op.createsSpanIn σ).isSome then some k else none
  | _ => none

end Op

namespace Tracer

/-- The parent of a span created in `t`, named `r`: the transaction, or a span of it. -/
def IsParent (σ : Tracer) (r : TransactionRef) (t : Transaction) (parentId : String)
    (parentSpan : Option SpanRef) : Prop :=
  (parentSpan = none ∧ parentId = t.id) ∨
  ∃ k s, parentSpan = some k ∧ σ.spans.get? k = some (.span s) ∧
    s.enclosingTransaction = r ∧ parentId = s.id

/-! ### Transitions -/

/-- The ways a call can change the state. -/
inductive Transition (σ : Tracer) : Op → Tracer → Prop where
  | newTransaction (a : TransactionStart) :
      Transition σ (.startTransaction a) (Transaction.new σ a)
  | newNoopTransaction (a : TransactionStart) :
      Transition σ (.startTransaction a) (NoopTransaction.new σ)
  | newSpan {op : Op} {seg : IExecutionSegment} {t : Transaction} {parentId traceId : String}
      {parentSpan : Option SpanRef} (a : SpanStart)
      (hon : op.startsSpanOn σ = some seg)
      (hreal : op.createsSpanIn σ = some t)
      (ht : σ.transactions.get? seg.transactionRef = some (.transaction t))
      (hhanded : op.parentSpanHandedOn σ = parentSpan)
      (hparent : σ.IsParent seg.transactionRef t parentId parentSpan) :
      Transition σ op (Span.new σ parentId traceId seg.transactionRef t parentSpan a)
  | newNoopSpan {op : Op} {seg : IExecutionSegment} {parentId traceId : Option String}
      {parentSpan : Option SpanRef}
      (hon : op.startsSpanOn σ = some seg)
      (hnoop : op.createsSpanIn σ = none)
      (hhanded : op.parentSpanHandedOn σ = parentSpan)
      (hparent : ∀ k, parentSpan = some k →
        ∃ s, σ.spans.get? k = some (.noop s) ∧ s.startedIn = seg.transactionRef) :
      Transition σ op (NoopSpan.new σ parentId traceId seg.transactionRef parentSpan)
  | startNothing (a : SpanStart) (hnone : σ.getCurrentExecutionSegment = none) :
      Transition σ (.startSpanOnCurrentExecutionSegment a) σ
  | error {op : Op} {receiver : Segment} {parentId : Option String} {t : Transaction}
      {seg : IExecutionSegment} {id : String}
      (hop : op = .captureException receiver parentId ∨ op = .captureError receiver parentId)
      (hseg : σ.resolve receiver = some seg)
      (ht : σ.transactions.get? seg.transactionRef = some (.transaction t))
      (hid : seg.outgoingDistributedTracingData.map (·.parentId) = some id) :
      Transition σ op (σ.queue (.error seg.transactionRef
        { traceId := t.traceId, transactionId := t.id, parentId := parentId.getD id }))
  | noError {op : Op} {receiver : Segment} {parentId : Option String}
      {seg : IExecutionSegment}
      (hop : op = .captureException receiver parentId ∨ op = .captureError receiver parentId)
      (hseg : σ.resolve receiver = some seg)
      (hnone : seg.outgoingDistributedTracingData = none) :
      Transition σ op σ
  | endTransaction {r : TransactionRef} {t : Transaction} (now : Int)
      (ht : σ.transactions.get? r = some (.transaction t)) :
      Transition σ (.endSegment (.transaction r) now) (Transaction.endTransaction σ r t now)
  | endNoopTransaction {r : TransactionRef} {n : NoopTransaction} (now : Int)
      (hn : σ.transactions.get? r = some (.noop n)) :
      Transition σ (.endSegment (.transaction r) now) (NoopTransaction.endTransaction σ r)
  | endSpan {k : SpanRef} {s : Span} {t : Transaction} (now : Int)
      (hs : σ.spans.get? k = some (.span s))
      (ht : σ.transactions.get? s.enclosingTransaction = some (.transaction t)) :
      Transition σ (.endSegment (.span k) now) (Span.endSpan σ k s t now)
  | endNoopSpan {k : SpanRef} {s : NoopSpan} (now : Int)
      (hs : σ.spans.get? k = some (.noop s)) :
      Transition σ (.endSegment (.span k) now) (NoopSpan.endSpan σ k s)

/-- `StartSpanInternal`, whichever call runs it. -/
theorem startSpanInternal_transition {σ : Tracer} {op : Op} {seg : IExecutionSegment}
    {receiver : Segment} (a : SpanStart)
    (hon : op.startsSpanOn σ = some seg) (hseg : σ.resolve receiver = some seg)
    (hreal : op.createsSpanIn σ = seg.transaction?) :
    Transition σ op (seg.startSpanInternal σ a) := by
  have hspec := resolve_spec hseg
  -- The two real classes create a `Span`, the two no-op classes a `NoopSpan`; only the spans
  -- hand themselves on as the parent span.
  cases seg with
  | transaction r t =>
    exact .newSpan a hon hreal hspec.2 (by simp [Op.parentSpanHandedOn, hon])
      (.inl ⟨rfl, rfl⟩)
  | noopTransaction r =>
    exact .newNoopSpan hon hreal (by simp [Op.parentSpanHandedOn, hon]) (by simp)
  | span k s t =>
    exact .newSpan a hon hreal hspec.2.2
      (by simp [Op.parentSpanHandedOn, hon, hreal, IExecutionSegment.transaction?])
      (.inr ⟨k, s, rfl, hspec.2.1, rfl, rfl⟩)
  | noopSpan k s =>
    refine .newNoopSpan hon hreal (by simp [Op.parentSpanHandedOn, hon]) ?_
    rintro _ ⟨rfl⟩
    exact ⟨s, hspec.2, rfl⟩

/-- `StartSpan`: the snapshot of the transaction decides which class is created. -/
theorem startSpan_transition {σ : Tracer} {receiver : Segment} {seg : IExecutionSegment}
    (a : SpanStart) (hseg : σ.resolve receiver = some seg) :
    Transition σ (.startSpan receiver a) (seg.startSpan σ a) := by
  have hspec := resolve_spec hseg
  have hon : (Op.startSpan receiver a).startsSpanOn σ = some seg := hseg
  have hreal : (Op.startSpan receiver a).createsSpanIn σ =
      seg.transaction?.filter (·.isRecording) := by
    simp [Op.createsSpanIn, hseg]
  cases seg with
  | transaction r t =>
    -- When recording is on this is `StartSpanInternal`, which the lemma above covers.
    by_cases hrec : t.isRecording
    · have hstart : Transaction.startSpan σ r t a = Transaction.startSpanInternal σ r t a :=
        if_pos hrec
      simp only [IExecutionSegment.startSpan, hstart]
      exact startSpanInternal_transition a hon hseg
        (by simp [hreal, IExecutionSegment.transaction?, hrec])
    · simp only [IExecutionSegment.startSpan, Transaction.startSpan, if_neg hrec]
      exact .newNoopSpan hon (by simp [hreal, IExecutionSegment.transaction?, hrec])
        (by simp [Op.parentSpanHandedOn, hon]) (by simp)
  | noopTransaction r =>
    exact startSpanInternal_transition a hon hseg
      (by simp [hreal, IExecutionSegment.transaction?])
  | span k s t =>
    by_cases hrec : t.isRecording
    · have hstart : Span.startSpan σ k s t a = Span.startSpanInternal σ k s t a :=
        if_pos hrec
      simp only [IExecutionSegment.startSpan, hstart]
      exact startSpanInternal_transition a hon hseg
        (by simp [hreal, IExecutionSegment.transaction?, hrec])
    · -- The constructor call of `Span.StartSpan` leaves the `parentSpan` argument out.
      have hnoop : (Op.startSpan receiver a).createsSpanIn σ = none := by
        simp [hreal, IExecutionSegment.transaction?, hrec]
      simp only [IExecutionSegment.startSpan, Span.startSpan, if_neg hrec]
      exact .newNoopSpan hon hnoop (by simp [Op.parentSpanHandedOn, hon, hnoop]) (by simp)
  | noopSpan k s =>
    exact startSpanInternal_transition a hon hseg
      (by simp [hreal, IExecutionSegment.transaction?])

/-- The id an error captured on a span gets unless one is given is the id the span hands out. -/
theorem errorParentId_getD (s : Span) (t : Transaction) (parentId : Option String) :
    (s.errorParentId t parentId).getD s.id =
      parentId.getD (s.outgoingDistributedTracingData t).parentId := by
  cases parentId with
  | some p => rfl
  | none =>
    -- Both fall back to the transaction on the one test.
    by_cases hsent : s.shouldBeSentToApmServer t <;>
      simp [Span.errorParentId, Span.outgoingDistributedTracingData, hsent]

/-- `CaptureException` and `CaptureError`. -/
theorem captureException_transition {σ : Tracer} {op : Op} {receiver : Segment}
    {parentId : Option String} {seg : IExecutionSegment}
    (hop : op = .captureException receiver parentId ∨ op = .captureError receiver parentId)
    (hseg : σ.resolve receiver = some seg) :
    Transition σ op (seg.captureException σ parentId) := by
  have hspec := resolve_spec hseg
  cases seg with
  | transaction r t => exact .error hop hseg hspec.2 rfl
  | noopTransaction r => exact .noError hop hseg rfl
  | span k s t =>
    simp only [IExecutionSegment.captureException, ExecutionSegmentCommon.captureException,
      ExecutionSegmentCommon.queueError, errorParentId_getD]
    exact .error hop hseg hspec.2.2 rfl
  | noopSpan k s => exact .noError hop hseg rfl

/-- Every call is one of the transitions. -/
theorem step_transition {σ σ' : Tracer} {op : Op} (h : σ.step op = some σ') :
    Transition σ op σ' := by
  cases op with
  | startTransaction a =>
    simp only [step, startTransaction, Option.some.injEq] at h
    subst h
    -- `Enabled` and `Recording` decide the class.
    split
    · exact .newTransaction a
    · exact .newNoopTransaction a
  | startSpan receiver a =>
    obtain ⟨seg, hseg, rfl⟩ := Option.map_eq_some_iff.mp h
    exact startSpan_transition a hseg
  | startSpanInternal receiver a =>
    obtain ⟨seg, hseg, rfl⟩ := Option.map_eq_some_iff.mp h
    exact startSpanInternal_transition a hseg hseg (by simp [Op.createsSpanIn, hseg])
  | startSpanOnCurrentExecutionSegment a =>
    simp only [step, startSpanOnCurrentExecutionSegment] at h
    split at h
    · next hnone => cases h; exact .startNothing a hnone
    · next receiver hcur =>
      obtain ⟨seg, hseg, rfl⟩ := Option.map_eq_some_iff.mp h
      -- The current segment is the receiver.
      have hon : (Op.startSpanOnCurrentExecutionSegment a).startsSpanOn σ = some seg := by
        simp [Op.startsSpanOn, hcur, hseg]
      exact startSpanInternal_transition a hon hseg (by simp [Op.createsSpanIn, hcur, hseg])
  | captureException receiver parentId =>
    obtain ⟨seg, hseg, rfl⟩ := Option.map_eq_some_iff.mp h
    exact captureException_transition (.inl rfl) hseg
  | captureError receiver parentId =>
    obtain ⟨seg, hseg, rfl⟩ := Option.map_eq_some_iff.mp h
    exact captureException_transition (.inr rfl) hseg
  | endSegment receiver now =>
    obtain ⟨seg, hseg, rfl⟩ := Option.map_eq_some_iff.mp h
    have hspec := resolve_spec hseg
    cases seg with
    | transaction r t =>
      obtain ⟨rfl, ht⟩ := hspec
      exact .endTransaction now ht
    | noopTransaction r =>
      obtain ⟨rfl, n, hn⟩ := hspec
      exact .endNoopTransaction now hn
    | span k s t =>
      obtain ⟨rfl, hs, ht⟩ := hspec
      exact .endSpan now hs ht
    | noopSpan k s =>
      obtain ⟨rfl, hs⟩ := hspec
      exact .endNoopSpan now hs

end Tracer

end ApmAgent
