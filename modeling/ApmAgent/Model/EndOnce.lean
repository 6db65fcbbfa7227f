import ApmAgent.Model.TraceIdentity

/-! # End takes effect once

  `End` may be called any number of times on a segment, directly or by
  `DbSpanCommon.EndSpan`, which writes `Duration` before it calls `End` twice.

  `endSystem` has the calls of the tracer and `EndSpan`. What `End` reads and
  writes of a segment is its `EndState`; `EndStep` is the effect of a call on
  these. `endOnce_iff_keepsEnded` says when a later `End` changes nothing.
-/

namespace ApmAgent

/-! ### DbSpanCommon.EndSpan -/

/-- What `EndSpan` reads of an `IDbCommand` before the span is ended. -/
structure DbCommand where
  /-- The class name of `Connection`, null when the command has none. -/
  connection : Option String
  commandText : Option String

namespace DbSpanCommon

/-- `capturedSpan.Duration = …`. -/
def setDuration (σ : Tracer) (k : SpanRef) (s : Span) (duration : Option Int) : Tracer :=
  match duration with
  | some d => { σ with spans := σ.spans.update k fun _ => .span { s with duration := some d } }
  | none => σ

/-- A `NullReferenceException` leaves `EndSpan` before it ends the span: the class of the
    connection is read first, the text of the command only for a span that is sent. -/
def throwsOn (dbCommand : DbCommand) (s : Span) (t : Transaction) : Bool :=
  dbCommand.connection.isNone ||
    (s.shouldBeSentToApmServer t && dbCommand.commandText.isNone)

/-- `DbSpanCommon.EndSpan`; `duration` is its argument in the unit of `Duration`. -/
def endSpan (σ : Tracer) (dbCommand : DbCommand) (duration : Option Int) (now : Int) :
    IExecutionSegment → Tracer
  | .span k s t =>
    let capturedSpan := { s with duration := duration.orElse fun _ => s.duration }
    let σ := setDuration σ k s duration
    if throwsOn dbCommand s t then σ
    else
      let σ := Span.endSpan σ k capturedSpan t now
      -- `span.End()` once more, on the same object.
      Span.endSpan σ k (capturedSpan.ended now) t now
  | .noopSpan k s => NoopSpan.endSpan σ k s
  | .transaction _ _ | .noopTransaction _ => σ

end DbSpanCommon

/-- A call on the tracer, or `DbSpanCommon.EndSpan`. -/
inductive EndCall where
  | op (op : Op)
  | dbEndSpan (span : SpanRef) (dbCommand : DbCommand) (duration : Option Int) (now : Int)

namespace Tracer

def endStep (σ : Tracer) : EndCall → Option Tracer
  | .op op => σ.step op
  | .dbEndSpan span dbCommand duration now =>
    (σ.resolve (.span span)).map (DbSpanCommon.endSpan σ dbCommand duration now)

end Tracer

/-- The tracer with both ways to end a segment. -/
def endSystem : LTS.System Tracer EndCall where
  init σ := σ = .new
  step := Tracer.endStep

/-! ### What End reads and writes -/

/-- The flag, the duration, and whether the segment is sent at all. -/
structure EndState where
  isEnded : Bool
  duration : Option Int
  isSent : Bool
  deriving DecidableEq

/-- After `End` at `now`, for a segment that started at `timestamp`. -/
def EndState.ended (e : EndState) (timestamp now : Int) : EndState :=
  { e with isEnded := true, duration := durationOnEnd e.duration timestamp now }

/-- How often the segment has to be queued. -/
def EndState.timesQueued (e : EndState) : Nat := if e.isEnded && e.isSent then 1 else 0

/-- Only real segments are queued; transactions always are. -/
def IExecutionSegment.endState? : IExecutionSegment → Option EndState
  | .transaction _ t => some ⟨t.isEnded, t.duration, true⟩
  | .span _ s t => some ⟨s.isEnded, s.duration, s.shouldBeSentToApmServer t⟩
  | .noopTransaction _ | .noopSpan _ _ => none

/-- The event a segment is queued as. -/
def Segment.event : Segment → Event
  | .transaction r => .transaction r
  | .span k => .span k

theorem Segment.event_inj {a b : Segment} : a.event = b.event ↔ a = b := by
  cases a <;> cases b <;> simp [event]

namespace Tracer

def endState? (σ : Tracer) (seg : Segment) : Option EndState :=
  (σ.resolve seg).bind (·.endState?)

/-- `IsSampled` of a real transaction. -/
def isSampled? (σ : Tracer) (r : TransactionRef) : Option Bool :=
  ((σ.transactions.get? r).bind (·.trace?)).map (·.isSampled)

end Tracer

/-- What `End` reads and writes of a transaction. -/
def ITransaction.endState? : ITransaction → Option EndState
  | .transaction t => some ⟨t.isEnded, t.duration, true⟩
  | .noop _ => none

/-- What `End` reads and writes of a span, given whether its transaction is sampled. -/
def ISpan.endState? (isSampled : Option Bool) : ISpan → Option EndState
  | .span s => isSampled.map fun b => ⟨s.isEnded, s.duration, b && !s.isDropped⟩
  | .noop _ => none

namespace Tracer

theorem endState?_transaction (σ : Tracer) (r : TransactionRef) :
    σ.endState? (.transaction r) = (σ.transactions.get? r).bind (·.endState?) := by
  simp only [endState?, resolve]
  rcases σ.transactions.get? r with _ | t | n <;> rfl

theorem endState?_span (σ : Tracer) (k : SpanRef) :
    σ.endState? (.span k) =
      (σ.spans.get? k).bind fun s => s.endState? (σ.isSampled? s.startedIn) := by
  simp only [endState?, resolve]
  rcases σ.spans.get? k with _ | s | n
  · rfl
  · simp only [isSampled?, transaction?, Option.bind_some, ISpan.startedIn]
    rcases σ.transactions.get? s.enclosingTransaction with _ | t | n <;> rfl
  · rfl

/-! ### The effect of a call on the end states -/

/-- A call ends one real segment, or leaves all end states as they are but for the segments it
    creates; only the first `End` of a segment that is sent queues it. -/
inductive EndStep (σ σ' : Tracer) : Prop where
  | quiet (hstates : ∀ seg, σ'.endState? seg = σ.endState? seg ∨
        σ.endState? seg = none ∧ ∀ e, σ'.endState? seg = some e → e.isEnded = false)
      (hqueued : ∀ seg : Segment, σ'.queued.count seg.event = σ.queued.count seg.event)
  | ended (seg : Segment) (e : EndState) (timestamp now : Int)
      (he : σ.endState? seg = some e)
      (hstates : ∀ s, σ'.endState? s = if s = seg then some (e.ended timestamp now)
        else σ.endState? s)
      (hqueued : σ'.queued = if e.isSent && !e.isEnded then σ.queued ++ [seg.event]
        else σ.queued)

section
variable {σ σ' : Tracer} {op : Op}

/-- Sampling never changes. -/
theorem isSampled?_step (hstep : σ.step op = some σ') {r : TransactionRef} {t : ITransaction}
    (ht : σ.transactions.get? r = some t) : σ'.isSampled? r = σ.isSampled? r := by
  obtain ⟨t', ht', htrace⟩ := step_transaction_trace hstep ht
  unfold isSampled?
  rw [ht, ht', Option.bind_some, Option.bind_some, htrace]

/-- A span that is the same object in the same state. -/
theorem endState?_span_of_get? (htraced : σ.Traced) (hstep : σ.step op = some σ')
    {k : SpanRef} (h : σ'.spans.get? k = σ.spans.get? k) :
    σ'.endState? (.span k) = σ.endState? (.span k) := by
  rw [endState?_span, endState?_span, h]
  rcases hs : σ.spans.get? k with _ | s
  · rfl
  · obtain ⟨t, ht, -⟩ := htraced k s hs
    rw [Option.bind_some, Option.bind_some, isSampled?_step hstep ht]

theorem endState?_transaction_of_get? {r : TransactionRef}
    (h : σ'.transactions.get? r = σ.transactions.get? r) :
    σ'.endState? (.transaction r) = σ.endState? (.transaction r) := by
  rw [endState?_transaction, endState?_transaction, h]

/-- A transaction that is replaced by one in the same end state. -/
theorem endState?_transaction_of_update {r : TransactionRef} {t t' : ITransaction}
    (ht : σ.transactions.get? r = some t)
    (htxs : σ'.transactions = σ.transactions.update r fun _ => t')
    (hstate : t'.endState? = t.endState?) (q : TransactionRef) :
    σ'.endState? (.transaction q) = σ.endState? (.transaction q) := by
  by_cases hq : r = q
  · subst hq
    rw [endState?_transaction, endState?_transaction, htxs, Store.get?_update_self, ht]
    exact hstate
  · exact endState?_transaction_of_get? (by rw [htxs, Store.get?_update_ne _ hq])

/-- A new span is not ended. -/
theorem endState?_span_of_alloc (htraced : σ.Traced) (hstep : σ.step op = some σ') {s : ISpan}
    (hspans : σ'.spans = σ.spans.alloc s) (hopen : s.isEnded = false) (k : SpanRef) :
    σ'.endState? (.span k) = σ.endState? (.span k) ∨
      σ.endState? (.span k) = none ∧
        ∀ e, σ'.endState? (.span k) = some e → e.isEnded = false := by
  by_cases hk : k = σ.spans.size
  · right
    subst hk
    rw [endState?_span, endState?_span, hspans, Store.get?_size, Store.get?_alloc_size]
    refine ⟨rfl, fun e he => ?_⟩
    rw [Option.bind_some] at he
    cases s with
    | span s =>
      obtain ⟨b, -, rfl⟩ := Option.map_eq_some_iff.mp he
      exact hopen
    | noop n => cases he
  · left
    exact endState?_span_of_get? htraced hstep (by rw [hspans, Store.get?_alloc, if_neg hk])

/-- A new transaction is not ended. -/
theorem endState?_transaction_of_alloc {t : ITransaction}
    (htxs : σ'.transactions = σ.transactions.alloc t) (hopen : t.isEnded = false)
    (r : TransactionRef) :
    σ'.endState? (.transaction r) = σ.endState? (.transaction r) ∨
      σ.endState? (.transaction r) = none ∧
        ∀ e, σ'.endState? (.transaction r) = some e → e.isEnded = false := by
  by_cases hr : r = σ.transactions.size
  · right
    subst hr
    rw [endState?_transaction, endState?_transaction, htxs, Store.get?_size,
      Store.get?_alloc_size]
    refine ⟨rfl, fun e he => ?_⟩
    cases t with
    | transaction t =>
      cases he
      exact hopen
    | noop n => cases he
  · left
    exact endState?_transaction_of_get? (by rw [htxs, Store.get?_alloc, if_neg hr])

/-- A call that leaves both stores as they are, or only changes what `End` does not read. -/
theorem EndStep.quiet_of_eq (htraced : σ.Traced) (hstep : σ.step op = some σ')
    (htxs : ∀ r, σ'.endState? (.transaction r) = σ.endState? (.transaction r))
    (hspans : σ'.spans = σ.spans)
    (hqueued : ∀ seg : Segment, σ'.queued.count seg.event = σ.queued.count seg.event) :
    EndStep σ σ' := by
  refine .quiet (fun seg => .inl ?_) hqueued
  cases seg with
  | transaction r => exact htxs r
  | span k => exact endState?_span_of_get? htraced hstep (by rw [hspans])

theorem count_queue_error (σ : Tracer) (r : TransactionRef) (e : Error) (seg : Segment) :
    (σ.queue (.error r e)).queued.count seg.event = σ.queued.count seg.event := by
  have hne : Event.error r e ≠ seg.event := by cases seg <;> simp [Segment.event]
  rw [queue, List.count_append, List.count_singleton, if_neg (by simpa using hne), Nat.add_zero]

/-- `End` of a transaction. -/
theorem endStep_endTransaction (htraced : σ.Traced) {r : TransactionRef} {t : Transaction}
    {now : Int} (hstep : σ.step op = some (Transaction.endTransaction σ r t now))
    (ht : σ.transactions.get? r = some (.transaction t)) :
    EndStep σ (Transaction.endTransaction σ r t now) := by
  refine .ended (.transaction r) ⟨t.isEnded, t.duration, true⟩ t.timestamp now ?_ ?_ ?_
  · rw [endState?_transaction, ht]
    rfl
  · intro seg
    cases seg with
    | transaction q =>
      by_cases hq : r = q
      · subst hq
        rw [if_pos rfl, endState?_transaction, Transaction.endTransaction_transactions,
          Store.get?_update_self, ht]
        rfl
      · rw [if_neg (by simpa using Ne.symm hq)]
        exact endState?_transaction_of_get?
          (by rw [Transaction.endTransaction_transactions, Store.get?_update_ne _ hq])
    | span k =>
      rw [if_neg (by simp)]
      exact endState?_span_of_get? htraced hstep (by rw [Transaction.endTransaction_spans])
  · rw [Transaction.endTransaction_eq]
    cases t.isEnded <;> rfl

/-- `End` of a span; whether it is sent depends on its transaction, which stays as it is. -/
theorem endStep_endSpan (htraced : σ.Traced) {k : SpanRef} {s : Span} {t : Transaction}
    {now : Int} (hstep : σ.step op = some (Span.endSpan σ k s t now))
    (hs : σ.spans.get? k = some (.span s))
    (ht : σ.transactions.get? s.enclosingTransaction = some (.transaction t)) :
    EndStep σ (Span.endSpan σ k s t now) := by
  have hsampled : σ.isSampled? s.enclosingTransaction = some t.isSampled := by
    rw [isSampled?, ht]
    rfl
  refine .ended (.span k) ⟨s.isEnded, s.duration, s.shouldBeSentToApmServer t⟩ s.timestamp now
    ?_ ?_ ?_
  · rw [endState?_span, hs, Option.bind_some, ISpan.startedIn, hsampled]
    rfl
  · intro seg
    cases seg with
    | transaction q =>
      rw [if_neg (by simp)]
      exact endState?_transaction_of_get? (by rw [Span.endSpan_transactions])
    | span j =>
      by_cases hj : k = j
      · subst hj
        rw [if_pos rfl, endState?_span, Span.endSpan_spans, Store.get?_update_self, hs,
          Option.map_some, Option.bind_some]
        have hsampled' := isSampled?_step hstep ht
        rw [show (ISpan.span (s.ended now)).startedIn = s.enclosingTransaction from rfl,
          hsampled', hsampled]
        rfl
      · rw [if_neg (by simpa using Ne.symm hj)]
        exact endState?_span_of_get? htraced hstep
          (by rw [Span.endSpan_spans, Store.get?_update_ne _ hj])
  · rw [Span.endSpan_eq]
    rfl

/-- Every call of the tracer, as the end states see it. -/
theorem step_endStep (htraced : σ.Traced) (hstep : σ.step op = some σ') : EndStep σ σ' := by
  cases step_transition hstep with
  | newTransaction a =>
    refine .quiet (fun seg => ?_) (fun _ => rfl)
    cases seg with
    | transaction r => exact endState?_transaction_of_alloc rfl rfl r
    | span k => exact .inl (endState?_span_of_get? htraced hstep rfl)
  | newNoopTransaction a =>
    refine .quiet (fun seg => ?_) (fun _ => rfl)
    cases seg with
    | transaction r => exact endState?_transaction_of_alloc rfl rfl r
    | span k => exact .inl (endState?_span_of_get? htraced hstep rfl)
  | @newSpan op seg t parentId traceId parentSpan a hon hreal ht hhanded hparent =>
    -- The transaction is updated too: its counters, which `End` does not read.
    have hcount : (ITransaction.transaction t.countSpan).endState? =
        (ITransaction.transaction t).endState? := by
      unfold Transaction.countSpan
      split <;> rfl
    refine .quiet (fun seg => ?_) (fun _ => rfl)
    cases seg with
    | transaction r => exact .inl (endState?_transaction_of_update ht rfl hcount r)
    | span k => exact endState?_span_of_alloc htraced hstep rfl rfl k
  | newNoopSpan hon hnoop hhanded hparent =>
    refine .quiet (fun seg => ?_) (fun _ => rfl)
    cases seg with
    | transaction r => exact .inl (endState?_transaction_of_get? rfl)
    | span k => exact endState?_span_of_alloc htraced hstep rfl rfl k
  | startNothing a hnone => exact .quiet (fun _ => .inl rfl) (fun _ => rfl)
  | error hop hseg ht hid =>
    exact .quiet_of_eq htraced hstep (fun r => endState?_transaction_of_get? rfl) rfl
      (count_queue_error σ _ _)
  | noError hop hseg hnone => exact .quiet (fun _ => .inl rfl) (fun _ => rfl)
  | endTransaction now ht => exact endStep_endTransaction htraced hstep ht
  | endNoopTransaction now hn =>
    exact .quiet_of_eq htraced hstep (endState?_transaction_of_update hn rfl rfl) rfl
      (fun _ => rfl)
  | endSpan now hs ht => exact endStep_endSpan htraced hstep hs ht
  | @endNoopSpan k s now hs =>
    refine .quiet (fun seg => .inl ?_) (fun _ => rfl)
    cases seg with
    | transaction q => exact endState?_transaction_of_get? rfl
    | span j =>
      by_cases hj : k = j
      · subst hj
        rw [endState?_span, endState?_span, NoopSpan.endSpan_spans, Store.get?_update_self, hs]
        rfl
      · exact endState?_span_of_get? htraced hstep
          (by rw [NoopSpan.endSpan_spans, Store.get?_update_ne _ hj])

end

/-! ### EndSpan as a write of the duration and two Ends -/

section
variable {σ : Tracer} {k : SpanRef} {s : Span} {t : Transaction}

/-- The span `EndSpan` ends: `Duration` is overwritten when there is an argument. -/
def withDuration (s : Span) (duration : Option Int) : Span :=
  { s with duration := duration.orElse fun _ => s.duration }

theorem resolve_span_eq_some {k' : SpanRef} :
    σ.resolve (.span k) = some (.span k' s t) ↔
      k' = k ∧ σ.spans.get? k = some (.span s) ∧
        σ.transactions.get? s.enclosingTransaction = some (.transaction t) := by
  constructor
  · intro h
    obtain ⟨hk, hs, ht⟩ := resolve_spec h
    cases hk
    exact ⟨rfl, hs, ht⟩
  · rintro ⟨rfl, hs, ht⟩
    simp only [resolve, hs, transaction?_eq_some.mpr ht, Option.map_some]

theorem setDuration_spans (hs : σ.spans.get? k = some (.span s)) (duration : Option Int)
    (j : SpanRef) :
    (DbSpanCommon.setDuration σ k s duration).spans.get? j =
      if k = j then some (.span (withDuration s duration)) else σ.spans.get? j := by
  cases duration with
  | none =>
    by_cases hj : k = j
    · subst hj
      rw [if_pos rfl]
      exact hs
    · rw [if_neg hj]
      rfl
  | some d =>
    rw [DbSpanCommon.setDuration, Store.get?_update]
    by_cases hj : k = j
    · subst hj
      rw [if_pos rfl, if_pos rfl, hs]
      rfl
    · rw [if_neg hj, if_neg hj]

theorem setDuration_transactions (σ : Tracer) (k : SpanRef) (s : Span) (duration : Option Int) :
    (DbSpanCommon.setDuration σ k s duration).transactions = σ.transactions := by
  cases duration <;> rfl

theorem resolve_setDuration (hseg : σ.resolve (.span k) = some (.span k s t))
    (duration : Option Int) :
    (DbSpanCommon.setDuration σ k s duration).resolve (.span k) =
      some (.span k (withDuration s duration) t) := by
  obtain ⟨-, hs, ht⟩ := resolve_span_eq_some.mp hseg
  refine resolve_span_eq_some.mpr ⟨rfl, ?_, ?_⟩
  · rw [setDuration_spans hs, if_pos rfl]
  · rw [setDuration_transactions]
    exact ht

/-- `EndSpan` on a `Span` that does not throw: the duration, then `End` and `End` again. -/
theorem endStep_dbEndSpan_span (hseg : σ.resolve (.span k) = some (.span k s t))
    (dbCommand : DbCommand) (duration : Option Int) (now : Int) :
    σ.endStep (.dbEndSpan k dbCommand duration now) =
      if DbSpanCommon.throwsOn dbCommand s t then some (DbSpanCommon.setDuration σ k s duration)
      else ((DbSpanCommon.setDuration σ k s duration).step (.endSegment (.span k) now)).bind
        (·.step (.endSegment (.span k) now)) := by
  obtain ⟨-, hs, ht⟩ := resolve_span_eq_some.mp hseg
  rw [endStep, hseg, Option.map_some, DbSpanCommon.endSpan]
  by_cases hthrows : DbSpanCommon.throwsOn dbCommand s t
  · simp only [hthrows, if_true]
  · -- Each `End` finds the span as the previous write left it.
    have hresolve := resolve_setDuration hseg duration
    have hresolve' : (Span.endSpan (DbSpanCommon.setDuration σ k s duration) k
        (withDuration s duration) t now).resolve (.span k) =
        some (.span k ((withDuration s duration).ended now) t) := by
      refine resolve_span_eq_some.mpr ⟨rfl, ?_, ?_⟩
      · rw [Span.endSpan_spans, Store.get?_update_self, setDuration_spans hs, if_pos rfl]
        rfl
      · rw [Span.endSpan_transactions, setDuration_transactions]
        exact ht
    simp only [hthrows, Bool.false_eq_true, if_false, step, hresolve, Option.map_some,
      Option.bind_some, IExecutionSegment.endSegment, hresolve']
    rfl

/-- Writing the duration of a span is seen in its end state only. -/
theorem setDuration_endState? (hseg : σ.resolve (.span k) = some (.span k s t))
    (duration : Option Int) (seg : Segment) :
    (DbSpanCommon.setDuration σ k s duration).endState? seg =
      if seg = .span k then some ⟨s.isEnded, duration.orElse fun _ => s.duration,
        s.shouldBeSentToApmServer t⟩ else σ.endState? seg := by
  obtain ⟨-, hs, ht⟩ := resolve_span_eq_some.mp hseg
  have hsampled (r : TransactionRef) :
      (DbSpanCommon.setDuration σ k s duration).isSampled? r = σ.isSampled? r := by
    rw [isSampled?, isSampled?, setDuration_transactions]
  cases seg with
  | transaction r =>
    rw [if_neg (by simp), endState?_transaction, endState?_transaction, setDuration_transactions]
  | span j =>
    rw [endState?_span, setDuration_spans hs]
    by_cases hj : k = j
    · subst hj
      rw [if_pos rfl, if_pos rfl, Option.bind_some, hsampled, ISpan.startedIn, isSampled?]
      rw [show (withDuration s duration).enclosingTransaction = s.enclosingTransaction from rfl,
        ht]
      rfl
    · rw [if_neg hj, if_neg (by simpa using Ne.symm hj), endState?_span]
      simp only [hsampled]

theorem Traced.setDuration (htraced : σ.Traced) (hs : σ.spans.get? k = some (.span s))
    (duration : Option Int) : (DbSpanCommon.setDuration σ k s duration).Traced := by
  intro j u hu
  rw [setDuration_spans hs] at hu
  rw [setDuration_transactions]
  split at hu
  · cases hu
    exact htraced k (.span s) hs
  · exact htraced j u hu

end

/-! ### Every segment is queued once -/

/-- Transactions and sampled spans that are not dropped are queued exactly when they are ended,
    and then once; all other spans never. -/
structure QueuedOnce (σ : Tracer) : Prop where
  transaction : ∀ r t, σ.transactions.get? r = some (.transaction t) →
    σ.queued.count (.transaction r) = if t.isEnded then 1 else 0
  span : ∀ k s, σ.spans.get? k = some (.span s) →
    ∃ t, σ.transactions.get? s.enclosingTransaction = some (.transaction t) ∧
      σ.queued.count (.span k) = if s.isEnded && (t.isSampled && !s.isDropped) then 1 else 0
  noop : ∀ k n, σ.spans.get? k = some (.noop n) → .span k ∉ σ.queued

/-- The invariant behind it, over all segments, with the durations `End` writes. -/
structure EndsCounted (σ : Tracer) : Prop where
  traced : σ.Traced
  count : ∀ seg : Segment,
    σ.queued.count seg.event = ((σ.endState? seg).map (·.timesQueued)).getD 0
  duration : ∀ seg e, σ.endState? seg = some e → e.isEnded → e.duration.isSome

theorem endsCounted_new : Tracer.new.EndsCounted where
  traced := traced_new
  count seg := by cases seg <;> rfl
  duration seg e he := by cases seg <;> cases he

theorem EndsCounted.step {σ σ' : Tracer} {op : Op} (h : σ.EndsCounted)
    (hstep : σ.step op = some σ') : σ'.EndsCounted := by
  have htraced := h.traced.step hstep
  cases step_endStep h.traced hstep with
  | quiet hstates hqueued =>
    refine ⟨htraced, fun seg => ?_, fun seg e he hended => ?_⟩
    · rw [hqueued, h.count]
      rcases hstates seg with hsame | ⟨hnone, hopen⟩
      · rw [hsame]
      · -- A new segment was never queued and is not ended.
        rw [hnone]
        rcases he : σ'.endState? seg with _ | e
        · rfl
        · simp [EndState.timesQueued, hopen e he]
    · rcases hstates seg with hsame | ⟨-, hopen⟩
      · exact h.duration seg e (by rw [← hsame, he]) hended
      · rw [hopen e he] at hended
        cases hended
  | ended seg e timestamp now he hstates hqueued =>
    refine ⟨htraced, fun seg' => ?_, fun seg' e' he' hended => ?_⟩
    · have hcount := h.count seg'
      rw [hstates, hqueued]
      by_cases hseg : seg' = seg
      · subst hseg
        rw [he] at hcount
        simp only [Option.map_some, Option.getD_some] at hcount
        rw [if_pos rfl, Option.map_some, Option.getD_some]
        -- Queued now, queued before, or not sent.
        rcases hsent : e.isSent <;> rcases hended : e.isEnded <;>
          simp [EndState.timesQueued, EndState.ended, hsent, hended] at hcount ⊢ <;> omega
      · rw [if_neg hseg]
        have hne : seg.event ≠ seg'.event := fun heq =>
          hseg (Segment.event_inj.mp heq).symm
        rw [← hcount]
        split
        · rw [List.count_append, List.count_singleton, if_neg (by simpa using hne), Nat.add_zero]
        · rfl
    · rw [hstates] at he'
      split at he'
      · cases he'
        rcases hduration : e.duration with _ | d <;>
          simp [EndState.ended, durationOnEnd, hduration]
      · exact h.duration seg' e' he' hended

theorem EndsCounted.setDuration {σ : Tracer} {k : SpanRef} {s : Span} {t : Transaction}
    (h : σ.EndsCounted) (hseg : σ.resolve (.span k) = some (.span k s t))
    (duration : Option Int) : (DbSpanCommon.setDuration σ k s duration).EndsCounted := by
  obtain ⟨-, hs, ht⟩ := resolve_span_eq_some.mp hseg
  have he : σ.endState? (.span k) =
      some ⟨s.isEnded, s.duration, s.shouldBeSentToApmServer t⟩ := by
    rw [endState?, hseg]
    rfl
  refine ⟨h.traced.setDuration hs duration, fun seg => ?_, fun seg e he' hended => ?_⟩
  · have hqueued : (DbSpanCommon.setDuration σ k s duration).queued = σ.queued := by
      cases duration <;> rfl
    rw [hqueued, h.count, setDuration_endState? hseg]
    split
    · next hk =>
      subst hk
      rw [he]
      rfl
    · rfl
  · rw [setDuration_endState? hseg] at he'
    split at he'
    · cases he'
      have := h.duration _ _ he hended
      cases duration with
      | none => exact this
      | some d => rfl
    · exact h.duration seg e he' hended

/-- `EndSpan` on anything but a `Span` is `End`. -/
theorem endStep_dbEndSpan_noop {σ : Tracer} {k : SpanRef} {n : NoopSpan}
    (hs : σ.spans.get? k = some (.noop n)) (dbCommand : DbCommand) (duration : Option Int)
    (now : Int) :
    σ.endStep (.dbEndSpan k dbCommand duration now) = σ.step (.endSegment (.span k) now) := by
  simp only [endStep, step, resolve, hs, Option.map_some]
  rfl

theorem EndsCounted.endStep {σ σ' : Tracer} {c : EndCall} (h : σ.EndsCounted)
    (hstep : σ.endStep c = some σ') : σ'.EndsCounted := by
  cases c with
  | op op => exact h.step hstep
  | dbEndSpan k dbCommand duration now =>
    rcases hs : σ.spans.get? k with _ | s | n
    · simp [Tracer.endStep, resolve, hs] at hstep
    · obtain ⟨t, ht, hfollows⟩ := h.traced k _ hs
      rcases t with t | n
      · have hseg := resolve_span_eq_some.mpr ⟨rfl, hs, ht⟩
        rw [endStep_dbEndSpan_span hseg] at hstep
        split at hstep
        · cases hstep
          exact h.setDuration hseg duration
        · obtain ⟨σ₁, hfirst, hsecond⟩ := Option.bind_eq_some_iff.mp hstep
          exact ((h.setDuration hseg duration).step hfirst).step hsecond
      · exact absurd hfollows (by simp [SpanTrace.Follows, ISpan.trace, ITransaction.trace?])
    · rw [endStep_dbEndSpan_noop hs] at hstep
      exact h.step hstep

theorem EndsCounted.queuedOnce {σ : Tracer} (h : σ.EndsCounted) : σ.QueuedOnce where
  transaction r t ht := by
    have hcount := h.count (.transaction r)
    rw [endState?_transaction, ht] at hcount
    simpa [EndState.timesQueued, ITransaction.endState?, Segment.event] using hcount
  span k s hs := by
    obtain ⟨t, ht, hfollows⟩ := h.traced k _ hs
    rcases t with t | n
    · refine ⟨t, ht, ?_⟩
      have hcount := h.count (.span k)
      rw [endState?, resolve_span_eq_some.mpr ⟨rfl, hs, ht⟩] at hcount
      exact hcount
    · exact absurd hfollows (by simp [SpanTrace.Follows, ISpan.trace, ITransaction.trace?])
  noop k n hs := by
    have hcount := h.count (.span k)
    rw [endState?_span, hs] at hcount
    exact List.count_eq_zero.mp hcount

/-- A no-op transaction is not queued either. -/
theorem EndsCounted.noopTransaction {σ : Tracer} (h : σ.EndsCounted) {r : TransactionRef}
    {n : NoopTransaction} (hn : σ.transactions.get? r = some (.noop n)) :
    .transaction r ∉ σ.queued := by
  have hcount := h.count (.transaction r)
  rw [endState?_transaction, hn] at hcount
  exact List.count_eq_zero.mp hcount

/-! ### A later End changes nothing -/

/-- `End` was called on the segment. -/
def isEnded (σ : Tracer) : Segment → Bool
  | .transaction r => ((σ.transactions.get? r).map (·.isEnded)).getD false
  | .span k => ((σ.spans.get? k).map (·.isEnded)).getD false

theorem isEnded_transaction_iff {σ : Tracer} {r : TransactionRef} :
    σ.isEnded (.transaction r) ↔ ∃ t, σ.transactions.get? r = some t ∧ t.isEnded := by
  simp only [isEnded]
  cases σ.transactions.get? r <;> simp

theorem isEnded_span_iff {σ : Tracer} {k : SpanRef} :
    σ.isEnded (.span k) ↔ ∃ s, σ.spans.get? k = some s ∧ s.isEnded := by
  simp only [isEnded]
  cases σ.spans.get? k <;> simp

/-- Once ended, a segment stays ended: it is replaced, if at all, by one that is. -/
theorem isEnded_step {σ σ' : Tracer} {op : Op} (hstep : σ.step op = some σ') {seg : Segment}
    (h : σ.isEnded seg) : σ'.isEnded seg := by
  cases seg with
  | transaction r =>
    rw [isEnded_transaction_iff] at h ⊢
    cases step_transition hstep with
    | newTransaction a => exact Store.exists_alloc _ h
    | newNoopTransaction a => exact Store.exists_alloc _ h
    | @newSpan op seg t parentId traceId parentSpan a hon hreal ht hhanded hparent =>
      refine Store.exists_update ht (fun hended => ?_) h
      unfold Transaction.countSpan
      split <;> exact hended
    | endTransaction now ht =>
      rw [Transaction.endTransaction_transactions]
      exact Store.exists_update ht (fun _ => rfl) h
    | endNoopTransaction now hn => exact Store.exists_update hn (fun _ => rfl) h
    | endSpan now hs ht => rwa [Span.endSpan_transactions]
    | _ => exact h
  | span k =>
    rw [isEnded_span_iff] at h ⊢
    cases step_transition hstep with
    | newSpan a hon hreal ht hhanded hparent => exact Store.exists_alloc _ h
    | newNoopSpan hon hnoop hhanded hparent => exact Store.exists_alloc _ h
    | endTransaction now ht => rwa [Transaction.endTransaction_spans]
    | endSpan now hs ht =>
      rw [Span.endSpan_spans]
      exact Store.exists_update hs (fun _ => rfl) h
    | endNoopSpan now hs => exact Store.exists_update hs (fun _ => rfl) h
    | _ => exact h

/-- `End` ends its segment. -/
theorem isEnded_endSegment {σ σ' : Tracer} {seg : Segment} {now : Int}
    (hstep : σ.step (.endSegment seg now) = some σ') : σ'.isEnded seg := by
  obtain ⟨s, hseg, rfl⟩ := Option.map_eq_some_iff.mp hstep
  have hspec := resolve_spec hseg
  cases s with
  | transaction r t =>
    obtain ⟨rfl, ht⟩ := hspec
    simp [isEnded, IExecutionSegment.endSegment, ht, Transaction.ended, ITransaction.isEnded]
  | noopTransaction r =>
    obtain ⟨rfl, n, hn⟩ := hspec
    simp [isEnded, IExecutionSegment.endSegment, NoopTransaction.endTransaction, hn,
      ITransaction.isEnded]
  | span k s t =>
    obtain ⟨rfl, hs, ht⟩ := hspec
    simp [isEnded, IExecutionSegment.endSegment, hs, Span.ended, ISpan.isEnded]
  | noopSpan k n =>
    obtain ⟨rfl, hs⟩ := hspec
    simp [isEnded, IExecutionSegment.endSegment, hs, ISpan.isEnded]

/-- A run in which `End` is called on a segment leaves it ended. -/
theorem isEnded_of_mem {σ σ' : Tracer} {ops : List Op} {seg : Segment} {now : Int}
    (hmem : .endSegment seg now ∈ ops) (hrun : tracerSystem.run σ ops = some σ') :
    σ'.isEnded seg := by
  induction ops generalizing σ with
  | nil => cases hmem
  | cons op ops ih =>
    obtain ⟨σ₁, hstep, hrest⟩ := LTS.System.run_cons_eq_some.mp hrun
    rcases List.mem_cons.mp hmem with rfl | hmem
    · exact (LTS.System.always_of_invariant (P := fun σ => σ.isEnded seg)
        (fun _ _ _ h hstep => isEnded_step hstep h) (isEnded_endSegment hstep) ops).last hrest
    · exact ih hmem hrest

/-- `Duration`, which `End` never writes on a no-op segment. -/
def duration? (σ : Tracer) (seg : Segment) : Option Int :=
  (σ.endState? seg).bind (·.duration)

def spanCount? (σ : Tracer) (r : TransactionRef) : Option SpanCount :=
  (σ.transaction? r).map (·.spanCount)

/-- What a later `End` has to leave as it is. -/
structure Unchanged (σ σ' : Tracer) (seg : Segment) : Prop where
  queued : σ'.queued = σ.queued
  duration : σ'.duration? seg = σ.duration? seg
  currentSpan : σ'.currentSpan = σ.currentSpan
  currentTransaction : σ'.currentTransaction = σ.currentTransaction
  spanCount : ∀ r, σ'.spanCount? r = σ.spanCount? r

end Tracer

/-- The segment a call ends. -/
def EndCall.receiver : EndCall → Option Segment
  | .op (.endSegment receiver _) => some receiver
  | .dbEndSpan span _ _ _ => some (.span span)
  | .op _ => none

namespace Tracer

/-- A call that ends a segment once more leaves everything as it is. -/
def LaterEndIsIdle (σ : Tracer) (c : EndCall) : Prop :=
  ∀ seg σ', c.receiver = some seg → σ.isEnded seg → σ.endStep c = some σ' →
    Unchanged σ σ' seg

/-- Ending a no-op segment once more finds the slot as its `End` sets it. -/
def RestoresNothing (σ : Tracer) : Segment → Prop
  | .transaction r => ∀ n, σ.transactions.get? r = some (.noop n) → n.isEnded →
      σ.currentTransaction = none
  | .span k => ∀ n, σ.spans.get? k = some (.noop n) → n.isEnded →
      σ.currentSpan = n.parentSpan

/-- The calls that leave an ended segment as it is: `EndSpan` on a span that is ended must not
    bring another duration, and the no-op segments must not restore anything. -/
def KeepsEnded (σ : Tracer) : EndCall → Prop
  | .op (.endSegment receiver _) => σ.RestoresNothing receiver
  | .dbEndSpan k _ duration _ => σ.RestoresNothing (.span k) ∧
      ∀ s, σ.spans.get? k = some (.span s) → s.isEnded → ∀ d, duration = some d →
        s.duration = some d
  | .op _ => True

theorem Unchanged.trans {σ₁ σ₂ σ₃ : Tracer} {seg : Segment} (h : Unchanged σ₁ σ₂ seg)
    (h' : Unchanged σ₂ σ₃ seg) : Unchanged σ₁ σ₃ seg where
  queued := h'.queued.trans h.queued
  duration := h'.duration.trans h.duration
  currentSpan := h'.currentSpan.trans h.currentSpan
  currentTransaction := h'.currentTransaction.trans h.currentTransaction
  spanCount r := (h'.spanCount r).trans (h.spanCount r)

theorem spanCount?_update {σ σ' : Tracer} {r : TransactionRef} {t t' : Transaction}
    (ht : σ.transactions.get? r = some (.transaction t))
    (htxs : σ'.transactions = σ.transactions.update r fun _ => .transaction t')
    (hcount : t'.spanCount = t.spanCount) (q : TransactionRef) :
    σ'.spanCount? q = σ.spanCount? q := by
  unfold spanCount? transaction?
  by_cases hq : r = q
  · subst hq
    rw [htxs, Store.get?_update_self, ht]
    simp [hcount]
  · rw [htxs, Store.get?_update_ne _ hq]

theorem spanCount?_of_eq {σ σ' : Tracer} (htxs : σ'.transactions = σ.transactions)
    (q : TransactionRef) : σ'.spanCount? q = σ.spanCount? q := by
  unfold spanCount? transaction?
  rw [htxs]

/-- `End` on an ended transaction. -/
theorem unchanged_endTransaction {σ : Tracer} {r : TransactionRef} {t : Transaction} {now : Int}
    (ht : σ.transactions.get? r = some (.transaction t)) (hended : t.isEnded)
    (hduration : t.duration.isSome) :
    Unchanged σ (Transaction.endTransaction σ r t now) (.transaction r) where
  queued := by rw [Transaction.endTransaction_eq, if_pos hended, if_pos hended]
  duration := by
    obtain ⟨d, hd⟩ := Option.isSome_iff_exists.mp hduration
    simp [duration?, endState?_transaction, ht, ITransaction.endState?, Transaction.ended,
      durationOnEnd, hd]
  currentSpan := Transaction.endTransaction_currentSpan ..
  currentTransaction := by rw [Transaction.endTransaction_currentTransaction, if_pos hended]
  spanCount := spanCount?_update ht (Transaction.endTransaction_transactions ..) rfl

/-- `End` on an ended span. -/
theorem unchanged_endSpan {σ : Tracer} {k : SpanRef} {s : Span} {t : Transaction} {now : Int}
    (hseg : σ.resolve (.span k) = some (.span k s t)) (hended : s.isEnded)
    (hduration : s.duration.isSome) : Unchanged σ (Span.endSpan σ k s t now) (.span k) where
  queued := by
    rw [Span.endSpan_eq]
    simp [hended]
  duration := by
    obtain ⟨-, hs, ht⟩ := resolve_span_eq_some.mp hseg
    obtain ⟨d, hd⟩ := Option.isSome_iff_exists.mp hduration
    have hseg' : (Span.endSpan σ k s t now).resolve (.span k) =
        some (.span k (s.ended now) t) := by
      refine resolve_span_eq_some.mpr ⟨rfl, ?_, ?_⟩
      · rw [Span.endSpan_spans, Store.get?_update_self, hs]
        rfl
      · rw [Span.endSpan_transactions]
        exact ht
    simp [duration?, endState?, hseg, hseg', IExecutionSegment.endState?, Span.ended,
      durationOnEnd, hd]
  currentSpan := by rw [Span.endSpan_currentSpan, if_pos hended]
  currentTransaction := Span.endSpan_currentTransaction ..
  spanCount := spanCount?_of_eq (Span.endSpan_transactions ..)

theorem duration?_noop {σ : Tracer} {k : SpanRef} {n : NoopSpan}
    (hs : σ.spans.get? k = some (.noop n)) : σ.duration? (.span k) = none := by
  rw [duration?, endState?_span, hs]
  rfl

/-- `End` on a no-op span. -/
theorem unchanged_endNoopSpan_iff {σ : Tracer} {k : SpanRef} {n : NoopSpan}
    (hs : σ.spans.get? k = some (.noop n)) :
    Unchanged σ (NoopSpan.endSpan σ k n) (.span k) ↔ σ.currentSpan = n.parentSpan := by
  constructor
  · intro h
    exact h.currentSpan.symm
  · intro hcurrent
    refine ⟨rfl, ?_, hcurrent.symm, rfl, spanCount?_of_eq rfl⟩
    rw [duration?_noop hs]
    exact duration?_noop (n := { n with isEnded := true })
      (by rw [NoopSpan.endSpan_spans, Store.get?_update_self, hs]; rfl)

/-- `End` on a no-op transaction. -/
theorem unchanged_endNoopTransaction_iff {σ : Tracer} {r : TransactionRef} {n : NoopTransaction}
    (hn : σ.transactions.get? r = some (.noop n)) :
    Unchanged σ (NoopTransaction.endTransaction σ r) (.transaction r) ↔
      σ.currentTransaction = none := by
  constructor
  · intro h
    exact h.currentTransaction.symm
  · intro hcurrent
    refine ⟨rfl, ?_, rfl, hcurrent.symm, fun q => ?_⟩
    · simp [duration?, endState?_transaction, NoopTransaction.endTransaction, hn,
        ITransaction.endState?]
    · unfold spanCount? transaction?
      by_cases hq : r = q
      · subst hq
        simp [NoopTransaction.endTransaction, hn]
      · simp [NoopTransaction.endTransaction, Store.get?_update_ne _ hq]

/-- `End` called directly: on a real segment nothing changes, on a no-op segment only a slot
    that stands differently. -/
theorem laterEndIsIdle_endSegment_iff {σ : Tracer} (h : σ.EndsCounted) {receiver : Segment}
    {now : Int} {σ' : Tracer} (hstep : σ.step (.endSegment receiver now) = some σ') :
    (σ.isEnded receiver → Unchanged σ σ' receiver) ↔ σ.RestoresNothing receiver := by
  obtain ⟨seg, hseg, rfl⟩ := Option.map_eq_some_iff.mp hstep
  have hspec := resolve_spec hseg
  cases seg with
  | transaction r t =>
    obtain ⟨rfl, ht⟩ := hspec
    have hduration := h.duration (.transaction r) ⟨t.isEnded, t.duration, true⟩
      (by rw [endState?, hseg]; rfl)
    refine iff_of_true (fun hended => ?_) (fun n hn => by rw [ht] at hn; cases hn)
    have hended' : t.isEnded := by simpa [isEnded, ht, ITransaction.isEnded] using hended
    exact unchanged_endTransaction ht hended' (hduration hended')
  | noopTransaction r =>
    obtain ⟨rfl, n, hn⟩ := hspec
    rw [show σ.isEnded (.transaction r) = n.isEnded by simp [isEnded, hn, ITransaction.isEnded]]
    rw [show IExecutionSegment.endSegment σ now (.noopTransaction r) =
      NoopTransaction.endTransaction σ r from rfl, unchanged_endNoopTransaction_iff hn]
    constructor
    · intro hidle n' hn' hended
      rw [hn] at hn'
      cases hn'
      exact hidle hended
    · intro hrestores hended
      exact hrestores n hn hended
  | span k s t =>
    obtain ⟨rfl, hs, ht⟩ := hspec
    have hduration := h.duration (.span k) ⟨s.isEnded, s.duration, s.shouldBeSentToApmServer t⟩
      (by rw [endState?, hseg]; rfl)
    refine iff_of_true (fun hended => ?_) (fun n hn => by rw [hs] at hn; cases hn)
    have hended' : s.isEnded := by simpa [isEnded, hs, ISpan.isEnded] using hended
    exact unchanged_endSpan hseg hended' (hduration hended')
  | noopSpan k n =>
    obtain ⟨rfl, hs⟩ := hspec
    rw [show σ.isEnded (.span k) = n.isEnded by simp [isEnded, hs, ISpan.isEnded]]
    rw [show IExecutionSegment.endSegment σ now (.noopSpan k n) = NoopSpan.endSpan σ k n from rfl,
      unchanged_endNoopSpan_iff hs]
    constructor
    · intro hidle n' hn' hended
      rw [hs] at hn'
      cases hn'
      exact hidle hended
    · intro hrestores hended
      exact hrestores n hs hended

/-- Writing the duration is the one thing `EndSpan` adds to `End`. -/
theorem unchanged_setDuration_iff {σ : Tracer} {k : SpanRef} {s : Span} {t : Transaction}
    (hseg : σ.resolve (.span k) = some (.span k s t)) (duration : Option Int) :
    Unchanged σ (DbSpanCommon.setDuration σ k s duration) (.span k) ↔
      ∀ d, duration = some d → s.duration = some d := by
  have hbefore : σ.duration? (.span k) = s.duration := by
    rw [duration?, endState?, hseg]
    rfl
  have hafter : (DbSpanCommon.setDuration σ k s duration).duration? (.span k) =
      duration.orElse fun _ => s.duration := by
    rw [duration?, setDuration_endState? hseg, if_pos rfl]
    rfl
  constructor
  · intro h d hd
    have := h.duration
    rw [hbefore, hafter, hd] at this
    exact this.symm
  · intro h
    have hduration : (DbSpanCommon.setDuration σ k s duration).duration? (.span k) =
        σ.duration? (.span k) := by
      rw [hbefore, hafter]
      rcases duration with _ | d
      · rfl
      · exact (h d rfl).symm
    cases duration with
    | none => exact ⟨rfl, rfl, rfl, rfl, fun r => rfl⟩
    | some d => exact ⟨rfl, hduration, rfl, rfl, spanCount?_of_eq rfl⟩

/-- `End` and `End` again on a span that is ended. -/
theorem unchanged_endTwice {σ σ₁ σ' : Tracer} {k : SpanRef} {s : Span} {t : Transaction}
    {now : Int} (h : σ.EndsCounted) (hseg : σ.resolve (.span k) = some (.span k s t))
    (hended : s.isEnded) (hfirst : σ.step (.endSegment (.span k) now) = some σ₁)
    (hsecond : σ₁.step (.endSegment (.span k) now) = some σ') : Unchanged σ σ' (.span k) := by
  obtain ⟨-, hs, ht⟩ := resolve_span_eq_some.mp hseg
  have hrestores : σ.RestoresNothing (.span k) := by
    intro n hn
    rw [hs] at hn
    cases hn
  have hunchanged := (laterEndIsIdle_endSegment_iff h hfirst).mpr hrestores
    (by simpa [isEnded, hs, ISpan.isEnded] using hended)
  -- The first `End` leaves the span ended, and a span.
  have hs₁ : σ₁.spans.get? k = some (.span (s.ended now)) := by
    obtain ⟨seg, hseg', rfl⟩ := Option.map_eq_some_iff.mp hfirst
    rw [hseg] at hseg'
    cases hseg'
    rw [show IExecutionSegment.endSegment σ now (.span k s t) = Span.endSpan σ k s t now from rfl,
      Span.endSpan_spans, Store.get?_update_self, hs]
    rfl
  have hrestores₁ : σ₁.RestoresNothing (.span k) := by
    intro n hn
    rw [hs₁] at hn
    cases hn
  exact hunchanged.trans ((laterEndIsIdle_endSegment_iff (h.step hfirst) hsecond).mpr hrestores₁
    (by simp [isEnded, hs₁, ISpan.isEnded, Span.ended]))

theorem laterEndIsIdle_dbEndSpan_iff {σ : Tracer} (h : σ.EndsCounted) {k : SpanRef} {s : Span}
    {dbCommand : DbCommand} {duration : Option Int} {now : Int} {σ' : Tracer}
    (hs : σ.spans.get? k = some (.span s))
    (hstep : σ.endStep (.dbEndSpan k dbCommand duration now) = some σ') :
    (σ.isEnded (.span k) → Unchanged σ σ' (.span k)) ↔
      (s.isEnded → ∀ d, duration = some d → s.duration = some d) := by
  rw [show σ.isEnded (.span k) = s.isEnded by simp [isEnded, hs, ISpan.isEnded]]
  refine forall_congr' fun hended => ?_
  obtain ⟨t, ht, hfollows⟩ := h.traced k _ hs
  rcases t with t | n
  swap
  · exact absurd hfollows (by simp [SpanTrace.Follows, ISpan.trace, ITransaction.trace?])
  have hseg := resolve_span_eq_some.mpr ⟨rfl, hs, ht⟩
  rw [endStep_dbEndSpan_span hseg] at hstep
  rw [← unchanged_setDuration_iff hseg]
  split at hstep
  · cases hstep
    exact Iff.rfl
  · obtain ⟨σ₁, hfirst, hsecond⟩ := Option.bind_eq_some_iff.mp hstep
    have hresolve := resolve_setDuration hseg duration
    -- After the write the two `End`s change nothing.
    have hends := unchanged_endTwice (h.setDuration hseg duration) hresolve hended hfirst hsecond
    constructor
    · intro hunchanged
      rw [unchanged_setDuration_iff hseg]
      intro d hd
      have hduration := hunchanged.duration
      rw [hends.duration, duration?, setDuration_endState? hseg, if_pos rfl, duration?,
        endState?, hseg, hd] at hduration
      exact hduration.symm
    · intro hunchanged
      exact hunchanged.trans hends

/-- Exactly the calls that keep an ended segment are idle on it. -/
theorem laterEndIsIdle_iff {σ σ' : Tracer} (h : σ.EndsCounted) {c : EndCall}
    (hstep : σ.endStep c = some σ') : σ.LaterEndIsIdle c ↔ σ.KeepsEnded c := by
  -- The state after the call is determined, and so is the receiver.
  have hreceiver {seg : Segment} (hc : c.receiver = some seg) :
      σ.LaterEndIsIdle c ↔ (σ.isEnded seg → Unchanged σ σ' seg) := by
    constructor
    · intro hidle hended
      exact hidle seg σ' hc hended hstep
    · intro hidle seg' σ'' hc' hended hstep'
      rw [hc] at hc'
      rw [hstep] at hstep'
      cases hc'
      cases hstep'
      exact hidle hended
  cases c with
  | op op =>
    cases op with
    | endSegment receiver now =>
      rw [hreceiver rfl]
      exact laterEndIsIdle_endSegment_iff h hstep
    | _ => exact iff_of_true (fun _ _ hc => by cases hc) trivial
  | dbEndSpan k dbCommand duration now =>
    rw [hreceiver rfl]
    rcases hs : σ.spans.get? k with _ | s | n
    · simp [Tracer.endStep, resolve, hs] at hstep
    · rw [laterEndIsIdle_dbEndSpan_iff h hs hstep]
      constructor
      · intro hkeeps
        refine ⟨fun n hn => (by rw [hs] at hn; cases hn), fun s' hs' => ?_⟩
        rw [hs] at hs'
        cases hs'
        exact hkeeps
      · rintro ⟨-, hkeeps⟩
        exact hkeeps s hs
    · rw [endStep_dbEndSpan_noop hs] at hstep
      rw [laterEndIsIdle_endSegment_iff h hstep]
      constructor
      · intro hrestores
        exact ⟨hrestores, fun s hs' => by rw [hs] at hs'; cases hs'⟩
      · rintro ⟨hrestores, -⟩
        exact hrestores

/-- A database span that is ended, and ended again with the duration of the command. -/
def endSpanAfterEnd : List EndCall :=
  [.op (.startTransaction .sampled), .op (.startSpan (.transaction 0) ⟨"a1b2c3d4e5f60718", 1⟩),
    .op (.endSegment (.span 0) 3),
    .dbEndSpan 0 ⟨some "Microsoft.Data.SqlClient.SqlConnection", some "SELECT 1"⟩ (some 7) 9]

end Tracer

end ApmAgent
