import ApmAgent.Model.TracerSteps

/-! # What never changes of a segment

  A transaction keeps its ids, its sampling decision and its snapshot, a span
  its ids and its transaction. `step_transaction_trace` and `step_span_trace`
  say so for one call, with what a call creates; the invariant `Traced` ties
  every span to the transaction it was started in.
-/

namespace ApmAgent

/-! ### What tracing depends on -/

/-- The part of a transaction that outgoing data depends on. -/
structure TransactionTrace where
  id : String
  traceId : String
  traceState : Option String
  isSampled : Bool
  isRecording : Bool
  deriving DecidableEq, Repr

def Transaction.trace (t : Transaction) : TransactionTrace where
  id := t.id
  traceId := t.traceId
  traceState := t.traceState
  isSampled := t.isSampled
  isRecording := t.isRecording

@[simp] theorem Transaction.trace_countSpan (t : Transaction) : t.countSpan.trace = t.trace := by
  unfold countSpan
  split <;> rfl

def ITransaction.trace? : ITransaction → Option TransactionTrace
  | .transaction t => some t.trace
  | .noop _ => none

/-- The part of a span that outgoing data depends on: the transaction it was started in, and
    for a `Span` its id and trace id. -/
structure SpanTrace where
  startedIn : TransactionRef
  ids : Option (String × String)

def ISpan.trace (s : ISpan) : SpanTrace where
  startedIn := s.startedIn
  ids :=
    match s with
    | .span s => some (s.id, s.traceId)
    | .noop _ => none

/-- What ties a span to the transaction it was started in: a `Span` has its trace id, and a
    `NoopSpan` is started only where nothing is recorded. -/
def SpanTrace.Follows (s : SpanTrace) (t : Option TransactionTrace) : Prop :=
  match s.ids, t with
  | some (_, traceId), some t => traceId = t.traceId
  | some _, none => False
  | none, some t => t.isRecording = false
  | none, none => True

/-- The id a call generates for the segment it creates. -/
def Op.generatedId : Op → Option String
  | .startTransaction a => some a.id
  | .startSpan _ a | .startSpanInternal _ a | .startSpanOnCurrentExecutionSegment a => some a.id
  | .captureException _ _ | .captureError _ _ | .endSegment _ _ => none

namespace Tracer

/-- Every span is tied to its transaction. -/
def Traced (σ : Tracer) : Prop :=
  ∀ k s, σ.spans.get? k = some s →
    ∃ t, σ.transactions.get? s.startedIn = some t ∧ s.trace.Follows t.trace?

/-! ### What a step does to the trace -/

/-- A transaction keeps everything that counting a span and ending leave as it is. -/
theorem step_transaction_keeps {σ σ' : Tracer} {op : Op} {β : Type} {f : ITransaction → β}
    (hcount : ∀ t : Transaction, f (.transaction t.countSpan) = f (.transaction t))
    (hended : ∀ (t : Transaction) (now : Int),
      f (.transaction (t.ended now)) = f (.transaction t))
    (hnoop : ∀ n n' : NoopTransaction, f (.noop n) = f (.noop n'))
    (hstep : σ.step op = some σ') {r : TransactionRef} {t : ITransaction}
    (ht : σ.transactions.get? r = some t) :
    ∃ t', σ'.transactions.get? r = some t' ∧ f t' = f t := by
  have hupdate {q : TransactionRef} {u u' : ITransaction}
      (hu : σ.transactions.get? q = some u) (hsame : f u' = f u) :
      ∃ t', (σ.transactions.update q fun _ => u').get? r = some t' ∧ f t' = f t :=
    Store.exists_update (P := fun v => f v = f t) (a := u) hu (fun h => hsame.trans h)
      ⟨t, ht, rfl⟩
  cases step_transition hstep with
  | newTransaction a => exact ⟨t, Store.get?_alloc_of_some ht _, rfl⟩
  | newNoopTransaction a => exact ⟨t, Store.get?_alloc_of_some ht _, rfl⟩
  | newSpan a hon hreal ht' hhanded hparent => exact hupdate ht' (hcount _)
  | newNoopSpan hon hnoop hhanded hparent => exact ⟨t, ht, rfl⟩
  | startNothing a hnone => exact ⟨t, ht, rfl⟩
  | error hop hseg ht' hid => exact ⟨t, ht, rfl⟩
  | noError hop hseg hnone => exact ⟨t, ht, rfl⟩
  | endTransaction now ht' =>
    rw [Transaction.endTransaction_transactions]
    exact hupdate ht' (hended _ now)
  | endNoopTransaction now hn => exact hupdate hn (hnoop _ _)
  | endSpan now hs ht' => exact ⟨t, by rw [Span.endSpan_transactions, ht], rfl⟩
  | endNoopSpan now hs => exact ⟨t, ht, rfl⟩

/-- A transaction keeps what tracing depends on. -/
theorem step_transaction_trace {σ σ' : Tracer} {op : Op} (hstep : σ.step op = some σ')
    {r : TransactionRef} {t : ITransaction} (ht : σ.transactions.get? r = some t) :
    ∃ t', σ'.transactions.get? r = some t' ∧ t'.trace? = t.trace? :=
  step_transaction_keeps (f := ITransaction.trace?)
    (fun t => by simp [ITransaction.trace?]) (fun _ _ => rfl) (fun _ _ => rfl) hstep ht

/-- The span `StartSpan` or `StartSpanInternal` creates on a segment. -/
structure CreatedOn (seg : IExecutionSegment) (a : SpanStart) (s : ISpan) : Prop where
  startedIn : s.startedIn = seg.transactionRef
  ids : ∀ id traceId, s.trace.ids = some (id, traceId) →
    id = a.id ∧ seg.outgoingDistributedTracingData.map (·.traceId) = some traceId
  noop : s.trace.ids = none → ∀ t, seg.transaction? = some t → t.isRecording = false

theorem CreatedOn.of_ids {seg : IExecutionSegment} {a : SpanStart} {s : ISpan} {traceId : String}
    (hstarted : s.startedIn = seg.transactionRef) (hids : s.trace.ids = some (a.id, traceId))
    (htrace : seg.outgoingDistributedTracingData.map (·.traceId) = some traceId) :
    CreatedOn seg a s := by
  refine ⟨hstarted, ?_, ?_⟩
  · intro id traceId' h
    rw [hids] at h
    cases h
    exact ⟨rfl, htrace⟩
  · intro h
    rw [hids] at h
    cases h

theorem CreatedOn.of_noop {seg : IExecutionSegment} {a : SpanStart} {s : ISpan}
    (hstarted : s.startedIn = seg.transactionRef) (hids : s.trace.ids = none)
    (hrec : ∀ t, seg.transaction? = some t → t.isRecording = false) : CreatedOn seg a s := by
  refine ⟨hstarted, ?_, fun _ => hrec⟩
  intro id traceId h
  rw [hids] at h
  cases h

theorem startSpanInternal_created (σ : Tracer) (seg : IExecutionSegment) (a : SpanStart) :
    ∃ s, (seg.startSpanInternal σ a).spans = σ.spans.alloc s ∧ CreatedOn seg a s := by
  have hnone {seg : IExecutionSegment} (hseg : seg.transaction? = none) :
      ∀ t, seg.transaction? = some t → t.isRecording = false := by
    intro t ht
    rw [hseg] at ht
    cases ht
  cases seg with
  | transaction r t => exact ⟨_, rfl, .of_ids rfl rfl rfl⟩
  | noopTransaction r => exact ⟨_, rfl, .of_noop rfl rfl (hnone rfl)⟩
  | span k s t => exact ⟨_, rfl, .of_ids rfl rfl rfl⟩
  | noopSpan k s => exact ⟨_, rfl, .of_noop rfl rfl (hnone rfl)⟩

theorem startSpan_created (σ : Tracer) (seg : IExecutionSegment) (a : SpanStart) :
    ∃ s, (seg.startSpan σ a).spans = σ.spans.alloc s ∧ CreatedOn seg a s := by
  -- Only on a real segment that does not record is this not `StartSpanInternal`.
  by_cases hrec : ∃ t, seg.transaction? = some t ∧ t.isRecording = false
  · obtain ⟨t, ht, hrec⟩ := hrec
    have hnoop : ∀ t', seg.transaction? = some t' → t'.isRecording = false := by
      intro t' ht'
      rw [ht] at ht'
      cases ht'
      exact hrec
    cases seg with
    | transaction r t' =>
      cases ht
      simp only [IExecutionSegment.startSpan, Transaction.startSpan, hrec, Bool.false_eq_true,
        if_false]
      exact ⟨_, rfl, .of_noop rfl rfl hnoop⟩
    | span k s t' =>
      cases ht
      simp only [IExecutionSegment.startSpan, Span.startSpan, hrec, Bool.false_eq_true,
        if_false]
      exact ⟨_, rfl, .of_noop rfl rfl hnoop⟩
    | noopTransaction r => cases ht
    | noopSpan k s => cases ht
  · have hsame : seg.startSpan σ a = seg.startSpanInternal σ a := by
      cases seg with
      | transaction r t => exact if_pos (by simpa [IExecutionSegment.transaction?] using hrec)
      | span k s t => exact if_pos (by simpa [IExecutionSegment.transaction?] using hrec)
      | noopTransaction r => rfl
      | noopSpan k s => rfl
    rw [hsame]
    exact startSpanInternal_created σ seg a

/-- Every span of `σ'` was in `σ`, with what tracing depends on. -/
def KeepsSpanTraces (σ σ' : Tracer) : Prop :=
  ∀ k s', σ'.spans.get? k = some s' → ∃ s, σ.spans.get? k = some s ∧ s'.trace = s.trace

theorem KeepsSpanTraces.of_eq {σ σ' : Tracer} (h : σ'.spans = σ.spans) :
    KeepsSpanTraces σ σ' :=
  fun k s' hs' => ⟨s', by rw [← h, hs'], rfl⟩

theorem KeepsSpanTraces.of_update {σ σ' : Tracer} {k : SpanRef} {s s' : ISpan}
    (hs : σ.spans.get? k = some s) (h : σ'.spans = σ.spans.update k fun _ => s')
    (htrace : s'.trace = s.trace) : KeepsSpanTraces σ σ' := by
  intro j u hu
  rw [h, Store.get?_update_eq_some] at hu
  obtain ⟨v, hv, rfl⟩ := hu
  by_cases hk : k = j
  · subst hk
    rw [hs] at hv
    cases hv
    exact ⟨s, hs, by rw [if_pos rfl, htrace]⟩
  · exact ⟨v, hv, by rw [if_neg hk]⟩

/-- A call that starts no span creates none. -/
theorem keepsSpanTraces_of_startsSpanOn {σ σ' : Tracer} {op : Op}
    (hstart : op.startsSpanOn σ = none) (hstep : σ.step op = some σ') :
    KeepsSpanTraces σ σ' := by
  cases step_transition hstep with
  | newSpan a hon hreal ht hhanded hparent =>
    rw [hstart] at hon
    cases hon
  | newNoopSpan hon hnoop hhanded hparent =>
    rw [hstart] at hon
    cases hon
  | endTransaction now ht => exact .of_eq (Transaction.endTransaction_spans ..)
  | endSpan now hs ht => exact .of_update hs (Span.endSpan_spans ..) rfl
  | endNoopSpan now hs => exact .of_update hs (NoopSpan.endSpan_spans ..) rfl
  | _ => exact .of_eq rfl

/-- What a call does to the spans: it creates one, or changes nothing tracing depends on. -/
theorem step_span_trace {σ σ' : Tracer} {op : Op} (hstep : σ.step op = some σ') :
    (∃ receiver seg a s, σ.resolve receiver = some seg ∧ op.generatedId = some a.id ∧
      σ'.spans = σ.spans.alloc s ∧ CreatedOn seg a s) ∨ KeepsSpanTraces σ σ' := by
  cases op with
  | startSpan receiver a =>
    left
    obtain ⟨seg, hseg, rfl⟩ := Option.map_eq_some_iff.mp hstep
    obtain ⟨s, hspans, hcreated⟩ := startSpan_created σ seg a
    exact ⟨receiver, seg, a, s, hseg, rfl, hspans, hcreated⟩
  | startSpanInternal receiver a =>
    left
    obtain ⟨seg, hseg, rfl⟩ := Option.map_eq_some_iff.mp hstep
    obtain ⟨s, hspans, hcreated⟩ := startSpanInternal_created σ seg a
    exact ⟨receiver, seg, a, s, hseg, rfl, hspans, hcreated⟩
  | startSpanOnCurrentExecutionSegment a =>
    simp only [step, startSpanOnCurrentExecutionSegment] at hstep
    split at hstep
    · cases hstep
      exact .inr (.of_eq rfl)
    · next receiver hcurrent =>
      left
      obtain ⟨seg, hseg, rfl⟩ := Option.map_eq_some_iff.mp hstep
      obtain ⟨s, hspans, hcreated⟩ := startSpanInternal_created σ seg a
      exact ⟨receiver, seg, a, s, hseg, rfl, hspans, hcreated⟩
  | startTransaction a => exact .inr (keepsSpanTraces_of_startsSpanOn rfl hstep)
  | captureException receiver parentId =>
    exact .inr (keepsSpanTraces_of_startsSpanOn rfl hstep)
  | captureError receiver parentId => exact .inr (keepsSpanTraces_of_startsSpanOn rfl hstep)
  | endSegment receiver now => exact .inr (keepsSpanTraces_of_startsSpanOn rfl hstep)

/-- What a segment knows of the transaction it is, or belongs to. -/
structure TransactionOf (seg : IExecutionSegment) (t : ITransaction) : Prop where
  outgoing : ∀ d, seg.outgoingDistributedTracingData = some d →
    ∃ u, t.trace? = some u ∧ d.traceId = u.traceId ∧ d.flagRecorded = u.isSampled
  noop : seg.transaction? = none → ∀ u, t.trace? = some u → u.isRecording = false
  real : ∀ u, seg.transaction? = some u → t = .transaction u

theorem TransactionOf.of_real {seg : IExecutionSegment} {t : Transaction}
    {d : DistributedTracingData} (hseg : seg.transaction? = some t)
    (hdata : seg.outgoingDistributedTracingData = some d) (htraceId : d.traceId = t.traceId)
    (hflag : d.flagRecorded = t.isSampled) : TransactionOf seg (.transaction t) := by
  refine ⟨?_, ?_, ?_⟩
  · intro d' hd'
    rw [hdata] at hd'
    cases hd'
    exact ⟨t.trace, rfl, htraceId, hflag⟩
  · intro hnone
    rw [hseg] at hnone
    cases hnone
  · intro u hu
    rw [hseg] at hu
    cases hu
    rfl

theorem TransactionOf.of_noop {seg : IExecutionSegment} {t : ITransaction}
    (hseg : seg.transaction? = none) (hdata : seg.outgoingDistributedTracingData = none)
    (hrec : ∀ u, t.trace? = some u → u.isRecording = false) : TransactionOf seg t := by
  refine ⟨?_, fun _ => hrec, ?_⟩
  · intro d hd
    rw [hdata] at hd
    cases hd
  · intro u hu
    rw [hseg] at hu
    cases hu

/-- The trace of the transaction a segment is, or belongs to. -/
theorem Traced.resolve {σ : Tracer} (h : σ.Traced) {receiver : Segment}
    {seg : IExecutionSegment} (hseg : σ.resolve receiver = some seg) :
    ∃ t, σ.transactions.get? seg.transactionRef = some t ∧ TransactionOf seg t := by
  have hspec := resolve_spec hseg
  cases seg with
  | transaction r t => exact ⟨_, hspec.2, .of_real rfl rfl rfl rfl⟩
  | noopTransaction r =>
    obtain ⟨-, n, hn⟩ := hspec
    refine ⟨_, hn, .of_noop rfl rfl ?_⟩
    intro u hu
    cases hu
  | span k s t =>
    obtain ⟨-, hs, ht⟩ := hspec
    obtain ⟨t', ht', hfollows⟩ := h k _ hs
    rw [show σ.transactions.get? (ISpan.startedIn (.span s)) = _ from ht] at ht'
    cases ht'
    exact ⟨_, ht, .of_real rfl rfl hfollows rfl⟩
  | noopSpan k s =>
    obtain ⟨-, hs⟩ := hspec
    obtain ⟨t, ht, hfollows⟩ := h k _ hs
    refine ⟨t, ht, .of_noop rfl rfl ?_⟩
    intro u hu
    rw [hu] at hfollows
    exact hfollows

/-- A new span is tied to the transaction of the segment it was started on. -/
theorem CreatedOn.follows {seg : IExecutionSegment} {a : SpanStart} {s : ISpan} {t : ITransaction}
    (h : CreatedOn seg a s) (ht : TransactionOf seg t) : s.trace.Follows t.trace? := by
  unfold SpanTrace.Follows
  rcases hids : s.trace.ids with _ | ⟨id, traceId⟩
  · -- A no-op span: nothing is recorded in the transaction.
    rcases hu : t.trace? with _ | u
    · trivial
    · rcases hseg : seg.transaction? with _ | t'
      · exact ht.noop hseg u hu
      · rw [ht.real t' hseg] at hu
        cases hu
        exact h.noop hids t' hseg
  · obtain ⟨-, htraceId⟩ := h.ids id traceId hids
    obtain ⟨d, hd, rfl⟩ := Option.map_eq_some_iff.mp htraceId
    obtain ⟨u, hu, htraceId, -⟩ := ht.outgoing d hd
    rw [hu]
    exact htraceId

theorem Traced.step {σ σ' : Tracer} {op : Op} (h : σ.Traced) (hstep : σ.step op = some σ') :
    σ'.Traced := by
  have hold {k : SpanRef} {s s' : ISpan} (hs : σ.spans.get? k = some s)
      (htrace : s'.trace = s.trace) :
      ∃ t, σ'.transactions.get? s'.startedIn = some t ∧ s'.trace.Follows t.trace? := by
    obtain ⟨t, ht, hfollows⟩ := h k s hs
    obtain ⟨t', ht', htrace'⟩ := step_transaction_trace hstep ht
    have hstarted : s'.startedIn = s.startedIn := congrArg SpanTrace.startedIn htrace
    exact ⟨t', by rw [hstarted, ht'], by rw [htrace, htrace']; exact hfollows⟩
  intro k s' hs'
  rcases step_span_trace hstep with ⟨receiver, seg, a, s, hseg, -, hspans, hcreated⟩ | hkeep
  · rw [hspans, Store.get?_alloc] at hs'
    split at hs'
    · cases hs'
      obtain ⟨t, ht, hof⟩ := h.resolve hseg
      obtain ⟨t', ht', htrace⟩ := step_transaction_trace hstep ht
      exact ⟨t', by rw [hcreated.startedIn, ht'], by rw [htrace]; exact hcreated.follows hof⟩
    · exact hold hs' rfl
  · obtain ⟨s, hs, htrace⟩ := hkeep k s' hs'
    exact hold hs htrace

theorem traced_new : Tracer.new.Traced := by
  intro k s hs
  cases hs

/-- Every state a run reaches is traced. -/
theorem Traced.run {σ σ' : Tracer} {ops : List Op} (h : σ.Traced)
    (hrun : tracerSystem.run σ ops = some σ') : σ'.Traced :=
  (LTS.System.always_of_invariant (P := Traced) (fun _ _ _ h hstep => h.step hstep) h ops).last
    hrun

end Tracer

end ApmAgent
