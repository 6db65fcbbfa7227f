import ApmAgent.Config.ConfigSnapshot
import ApmAgent.Framework.LTS
import ApmAgent.Framework.Store

/-! # Transactions, spans and the tracer

  The execution segments of one flow of control: the transactions and spans
  created so far, the two slots of `CurrentExecutionSegmentsContainer`, and
  what was handed to the payload sender, in order.

  * Objects are named by references into a `Store`, so that "the value
    `CurrentSpan` had" is a reference, as in the source.
  * What the environment decides (ids, clock readings, the sampling decision,
    the configuration snapshots read) is a parameter of the operation.
  * The no-op segments keep next to no data. What statements need to know of
    them is added as ghost fields, which no function reads to decide anything.
-/

namespace ApmAgent

/-- Names an `ITransaction` object. -/
abbrev TransactionRef := Nat

/-- Names an `ISpan` object. -/
abbrev SpanRef := Nat

/-! ### Data -/

structure DistributedTracingData where
  traceId : String
  parentId : String
  flagRecorded : Bool
  traceState : Option String
  deriving DecidableEq, Repr

/-- The three `int` counters of `SpanCount`; increments wrap around. -/
structure SpanCount where
  dropped : Int32
  started : Int32
  total : Int32
  deriving DecidableEq, Repr

namespace SpanCount

def new : SpanCount := ⟨0, 0, 0⟩

def incrementStarted (c : SpanCount) : SpanCount := { c with started := c.started + 1 }

def incrementDropped (c : SpanCount) : SpanCount := { c with dropped := c.dropped + 1 }

def incrementTotal (c : SpanCount) : SpanCount := { c with total := c.total + 1 }

/-- The drop decision of the `Span` constructor on the next span:
    `IncrementTotal() > TransactionMaxSpans && TransactionMaxSpans >= 0`. -/
def isOverLimit (c : SpanCount) (transactionMaxSpans : Int32) : Bool :=
  transactionMaxSpans < c.incrementTotal.total && 0 ≤ transactionMaxSpans

/-- The counters after the next span. -/
def countSpan (c : SpanCount) (transactionMaxSpans : Int32) : SpanCount :=
  if c.isOverLimit transactionMaxSpans then c.incrementTotal.incrementDropped
  else c.incrementTotal.incrementStarted

end SpanCount

structure Transaction where
  id : String
  traceId : String
  parentId : Option String
  traceState : Option String
  isSampled : Bool
  configSnapshot : ConfigSnapshot
  timestamp : Int
  spanCount : SpanCount
  /-- In microseconds, the unit of the timestamps. -/
  duration : Option Int
  isEnded : Bool

structure NoopTransaction where
  /-- Ghost: `End` was called. -/
  isEnded : Bool

inductive ITransaction where
  | transaction (t : Transaction)
  | noop (t : NoopTransaction)

def ITransaction.isEnded : ITransaction → Bool
  | .transaction t => t.isEnded
  | .noop t => t.isEnded

structure Span where
  id : String
  parentId : String
  traceId : String
  enclosingTransaction : TransactionRef
  parentSpan : Option SpanRef
  isDropped : Bool
  timestamp : Int
  duration : Option Int
  isEnded : Bool

structure NoopSpan where
  parentId : Option String
  traceId : Option String
  parentSpan : Option SpanRef
  /-- Ghost: the transaction it was started in. -/
  startedIn : TransactionRef
  /-- Ghost: `End` was called. -/
  isEnded : Bool

inductive ISpan where
  | span (s : Span)
  | noop (s : NoopSpan)

namespace ISpan

def isEnded : ISpan → Bool
  | .span s => s.isEnded
  | .noop s => s.isEnded

def parentSpan : ISpan → Option SpanRef
  | .span s => s.parentSpan
  | .noop s => s.parentSpan

/-- The transaction the span belongs to. -/
def startedIn : ISpan → TransactionRef
  | .span s => s.enclosingTransaction
  | .noop s => s.startedIn

end ISpan

/-- What the statements need of `Error`; its context is modelled in `Api.Context`. -/
structure Error where
  traceId : String
  transactionId : String
  parentId : String
  deriving DecidableEq, Repr

/-- What is handed to the payload sender: a transaction or a span by reference, or an error
    captured in a transaction. -/
inductive Event where
  | transaction (r : TransactionRef)
  | span (k : SpanRef)
  | error (r : TransactionRef) (e : Error)
  deriving DecidableEq, Repr

/-- The state of the tracer, with the objects it created. -/
structure Tracer where
  transactions : Store ITransaction
  spans : Store ISpan
  /-- `CurrentExecutionSegmentsContainer.CurrentTransaction`. -/
  currentTransaction : Option TransactionRef
  /-- `CurrentExecutionSegmentsContainer.CurrentSpan`. -/
  currentSpan : Option SpanRef
  /-- What `QueueTransaction`, `QueueSpan` and `QueueError` were called with. -/
  queued : List Event

namespace Tracer

def new : Tracer where
  transactions := .empty
  spans := .empty
  currentTransaction := none
  currentSpan := none
  queued := []

def queue (σ : Tracer) (e : Event) : Tracer := { σ with queued := σ.queued ++ [e] }

/-- The `Transaction` a reference names, when it names one. -/
def transaction? (σ : Tracer) (r : TransactionRef) : Option Transaction :=
  match σ.transactions.get? r with
  | some (.transaction t) => some t
  | _ => none

/-- The `Span` a reference names, when it names one. -/
def span? (σ : Tracer) (k : SpanRef) : Option Span :=
  match σ.spans.get? k with
  | some (.span s) => some s
  | _ => none

end Tracer

/-! ### Starting segments -/

/-- What the environment decides about a new transaction. -/
structure TransactionStart where
  /-- `CurrentSnapshot` when `Enabled` is read. -/
  enabledSnapshot : ConfigSnapshot
  /-- `CurrentSnapshot` when `Recording` is read. -/
  recordingSnapshot : ConfigSnapshot
  /-- `CurrentSnapshot` when the transaction is created. -/
  currentConfig : ConfigSnapshot
  distributedTracingData : Option DistributedTracingData
  /-- The id of the activity, or a random one. -/
  id : String
  /-- The trace id of the activity, or a random one. -/
  traceId : String
  /-- `Sampler.DecideIfToSample`. -/
  decidedToSample : Bool
  now : Int

/-- A transaction that is sampled, under the default configuration. -/
def TransactionStart.sampled : TransactionStart where
  enabledSnapshot := .defaults
  recordingSnapshot := .defaults
  currentConfig := .defaults
  distributedTracingData := none
  id := "00f067aa0ba902b7"
  traceId := "4bf92f3577b34da6a3ce929d0e0e4736"
  decidedToSample := true
  now := 0

/-- What the environment decides about a new span. -/
structure SpanStart where
  id : String
  now : Int

namespace Transaction

/-- The data of a new transaction. -/
def ofStart (a : TransactionStart) : Transaction where
  id := a.id
  traceId := (a.distributedTracingData.map (·.traceId)).getD a.traceId
  parentId := a.distributedTracingData.map (·.parentId)
  traceState := a.distributedTracingData.bind (·.traceState)
  isSampled := (a.distributedTracingData.map (·.flagRecorded)).getD a.decidedToSample
  configSnapshot := a.currentConfig
  timestamp := a.now
  spanCount := .new
  duration := none
  isEnded := false

/-- The drop decision on the next span; only sampled transactions count. -/
def dropsNextSpan (t : Transaction) : Bool :=
  t.isSampled && t.spanCount.isOverLimit t.configSnapshot.transactionMaxSpans

/-- The transaction with its next span counted. -/
def countSpan (t : Transaction) : Transaction :=
  if t.isSampled then
    { t with spanCount := t.spanCount.countSpan t.configSnapshot.transactionMaxSpans }
  else t

/-- `ConfigSnapshot.Enabled && ConfigSnapshot.Recording`. -/
def isRecording (t : Transaction) : Bool :=
  t.configSnapshot.enabled && t.configSnapshot.recording

end Transaction

/-- `new Transaction(…)`: it becomes the current transaction. -/
def Transaction.new (σ : Tracer) (a : TransactionStart) : Tracer :=
  { σ with
    transactions := σ.transactions.alloc (.transaction (.ofStart a))
    currentTransaction := some σ.transactions.size }

/-- `new NoopTransaction(…)`. -/
def NoopTransaction.new (σ : Tracer) : Tracer :=
  { σ with
    transactions := σ.transactions.alloc (.noop { isEnded := false })
    currentTransaction := some σ.transactions.size }

/-- `Tracer.StartTransaction`. -/
def Tracer.startTransaction (σ : Tracer) (a : TransactionStart) : Tracer :=
  -- `Enabled` and `Recording` are two reads of `CurrentSnapshot`, which may change in between.
  if a.enabledSnapshot.enabled && a.recordingSnapshot.recording then Transaction.new σ a
  else NoopTransaction.new σ

/-- `new Span(…)` in the transaction `t`, named `r`: the drop decision is taken and counted,
    and the new span becomes the current one. -/
def Span.new (σ : Tracer) (parentId traceId : String) (r : TransactionRef) (t : Transaction)
    (parentSpan : Option SpanRef) (a : SpanStart) : Tracer :=
  { σ with
    spans := σ.spans.alloc <| .span
      { id := a.id
        parentId := parentId
        traceId := traceId
        enclosingTransaction := r
        parentSpan := parentSpan
        isDropped := t.dropsNextSpan
        timestamp := a.now
        duration := none
        isEnded := false }
    transactions := σ.transactions.update r fun _ => .transaction t.countSpan
    currentSpan := some σ.spans.size }

/-- `new NoopSpan(…)`: it becomes the current span. -/
def NoopSpan.new (σ : Tracer) (parentId traceId : Option String) (r : TransactionRef)
    (parentSpan : Option SpanRef) : Tracer :=
  { σ with
    spans := σ.spans.alloc <| .noop
      { parentId := parentId
        traceId := traceId
        parentSpan := parentSpan
        startedIn := r
        isEnded := false }
    currentSpan := some σ.spans.size }

/-- `Transaction.StartSpanInternal`: no parent span is passed on. -/
def Transaction.startSpanInternal (σ : Tracer) (r : TransactionRef) (t : Transaction)
    (a : SpanStart) : Tracer :=
  Span.new σ t.id t.traceId r t none a

/-- `Transaction.StartSpan`. -/
def Transaction.startSpan (σ : Tracer) (r : TransactionRef) (t : Transaction)
    (a : SpanStart) : Tracer :=
  if t.isRecording then Transaction.startSpanInternal σ r t a
  else NoopSpan.new σ (some t.id) (some t.traceId) r none

/-- `NoopTransaction.StartSpan`. -/
def NoopTransaction.startSpan (σ : Tracer) (r : TransactionRef) : Tracer :=
  NoopSpan.new σ none none r none

/-- `Span.StartSpanInternal`: the receiver is the parent span. -/
def Span.startSpanInternal (σ : Tracer) (k : SpanRef) (s : Span) (t : Transaction)
    (a : SpanStart) : Tracer :=
  Span.new σ s.id s.traceId s.enclosingTransaction t (some k) a

/-- `Span.StartSpan`: the no-op span it may create has no parent span. -/
def Span.startSpan (σ : Tracer) (k : SpanRef) (s : Span) (t : Transaction)
    (a : SpanStart) : Tracer :=
  if t.isRecording then Span.startSpanInternal σ k s t a
  else NoopSpan.new σ (some s.id) (some s.traceId) s.enclosingTransaction none

/-- `NoopSpan.StartSpan`: the `Id` of a no-op span is null. -/
def NoopSpan.startSpan (σ : Tracer) (k : SpanRef) (s : NoopSpan) : Tracer :=
  NoopSpan.new σ none s.traceId s.startedIn (some k)

/-! ### Ending segments -/

/-- `TimeUtils.DurationBetweenTimestamps`. -/
def durationBetweenTimestamps (startTimestamp endTimestamp : Int) : Int :=
  endTimestamp - startTimestamp

/-- `Duration` as `End` leaves it: computed unless it was set. -/
def durationOnEnd (duration : Option Int) (timestamp now : Int) : Option Int :=
  duration.orElse fun _ => some (durationBetweenTimestamps timestamp now)

/-- The transaction after `End`. -/
def Transaction.ended (t : Transaction) (now : Int) : Transaction :=
  { t with duration := durationOnEnd t.duration t.timestamp now, isEnded := true }

/-- The span after `End`. -/
def Span.ended (s : Span) (now : Int) : Span :=
  { s with duration := durationOnEnd s.duration s.timestamp now, isEnded := true }

/-- `Span.ShouldBeSentToApmServer`. -/
def Span.shouldBeSentToApmServer (s : Span) (t : Transaction) : Bool :=
  t.isSampled && !s.isDropped

/-- `Transaction.End`: only the first call queues the transaction and clears the slot. -/
def Transaction.endTransaction (σ : Tracer) (r : TransactionRef) (t : Transaction)
    (now : Int) : Tracer :=
  -- `Duration`, unless it was set, and `_isEnded` are written before the early return.
  let σ := { σ with transactions := σ.transactions.update r fun _ => .transaction (t.ended now) }
  if t.isEnded then σ
  else { σ.queue (.transaction r) with currentTransaction := none }

/-- `NoopTransaction.End`. -/
def NoopTransaction.endTransaction (σ : Tracer) (r : TransactionRef) : Tracer :=
  { σ with
    transactions := σ.transactions.update r fun _ => .noop { isEnded := true }
    currentTransaction := none }

/-- `Span.End`: only the first call queues the span and restores its parent span. -/
def Span.endSpan (σ : Tracer) (k : SpanRef) (s : Span) (t : Transaction)
    (now : Int) : Tracer :=
  let isFirstEndCall := !s.isEnded
  let σ := { σ with spans := σ.spans.update k fun _ => .span (s.ended now) }
  let σ := if s.shouldBeSentToApmServer t && isFirstEndCall then σ.queue (.span k) else σ
  -- The slot gets the parent span whether or not that span is still open.
  if isFirstEndCall then { σ with currentSpan := s.parentSpan } else σ

/-- `NoopSpan.End`: every call restores the parent span. -/
def NoopSpan.endSpan (σ : Tracer) (k : SpanRef) (s : NoopSpan) : Tracer :=
  { σ with
    spans := σ.spans.update k fun _ => .noop { s with isEnded := true }
    currentSpan := s.parentSpan }

/-! ### Errors and outgoing tracing data -/

namespace ExecutionSegmentCommon

/-- The error `CaptureException` and `CaptureError` build on the segment with id
    `executionSegmentId`; they differ in the exception it describes. -/
def queueError (σ : Tracer) (executionSegmentId : String) (r : TransactionRef)
    (t : Transaction) (parentId : Option String) : Tracer :=
  σ.queue <| .error r
    { traceId := t.traceId
      transactionId := t.id
      parentId := parentId.getD executionSegmentId }

def captureException (σ : Tracer) (executionSegmentId : String) (r : TransactionRef)
    (t : Transaction) (parentId : Option String) : Tracer :=
  queueError σ executionSegmentId r t parentId

def captureError (σ : Tracer) (executionSegmentId : String) (r : TransactionRef)
    (t : Transaction) (parentId : Option String) : Tracer :=
  queueError σ executionSegmentId r t parentId

end ExecutionSegmentCommon

/-- The parent id `Span.CaptureException` and `Span.CaptureError` pass on:
    `parentId ?? (ShouldBeSentToApmServer ? null : _enclosingTransaction.Id)`. -/
def Span.errorParentId (s : Span) (t : Transaction) (parentId : Option String) :
    Option String :=
  parentId.orElse fun _ => if s.shouldBeSentToApmServer t then none else some t.id

def Transaction.outgoingDistributedTracingData (t : Transaction) : DistributedTracingData where
  traceId := t.traceId
  parentId := t.id
  flagRecorded := t.isSampled
  traceState := t.traceState

def Span.outgoingDistributedTracingData (s : Span) (t : Transaction) :
    DistributedTracingData where
  traceId := s.traceId
  -- The id of a span that is never sent would name a parent the server does not have.
  parentId := if s.shouldBeSentToApmServer t then s.id else t.id
  flagRecorded := t.isSampled
  traceState := none

/-! ### Dispatch over the four kinds of segment -/

/-- A reference of type `IExecutionSegment`. -/
inductive Segment where
  | transaction (r : TransactionRef)
  | span (k : SpanRef)
  deriving DecidableEq, Repr

/-- The object behind a reference, with the enclosing transaction of a span. -/
inductive IExecutionSegment where
  | transaction (r : TransactionRef) (t : Transaction)
  | noopTransaction (r : TransactionRef)
  | span (k : SpanRef) (s : Span) (t : Transaction)
  | noopSpan (k : SpanRef) (s : NoopSpan)

/-- Look a receiver up; `none` when there is no such object. -/
def Tracer.resolve (σ : Tracer) : Segment → Option IExecutionSegment
  | .transaction r =>
    match σ.transactions.get? r with
    | some (.transaction t) => some (.transaction r t)
    | some (.noop _) => some (.noopTransaction r)
    | none => none
  | .span k =>
    match σ.spans.get? k with
    | some (.span s) => (σ.transaction? s.enclosingTransaction).map (.span k s ·)
    | some (.noop s) => some (.noopSpan k s)
    | none => none

namespace IExecutionSegment

/-- The transaction the segment is, or belongs to. -/
def transactionRef : IExecutionSegment → TransactionRef
  | .transaction r _ => r
  | .noopTransaction r => r
  | .span _ s _ => s.enclosingTransaction
  | .noopSpan _ s => s.startedIn

def startSpan (σ : Tracer) (a : SpanStart) : IExecutionSegment → Tracer
  | .transaction r t => Transaction.startSpan σ r t a
  | .noopTransaction r => NoopTransaction.startSpan σ r
  | .span k s t => Span.startSpan σ k s t a
  | .noopSpan k s => NoopSpan.startSpan σ k s

/-- How `CaptureSpan` and the instrumentations start a span: by `StartSpanInternal` where the
    class has it. -/
def startSpanInternal (σ : Tracer) (a : SpanStart) : IExecutionSegment → Tracer
  | .transaction r t => Transaction.startSpanInternal σ r t a
  | .noopTransaction r => NoopTransaction.startSpan σ r
  | .span k s t => Span.startSpanInternal σ k s t a
  | .noopSpan k s => NoopSpan.startSpan σ k s

def endSegment (σ : Tracer) (now : Int) : IExecutionSegment → Tracer
  | .transaction r t => Transaction.endTransaction σ r t now
  | .noopTransaction r => NoopTransaction.endTransaction σ r
  | .span k s t => Span.endSpan σ k s t now
  | .noopSpan k s => NoopSpan.endSpan σ k s

def captureException (σ : Tracer) (parentId : Option String) : IExecutionSegment → Tracer
  | .transaction r t => ExecutionSegmentCommon.captureException σ t.id r t parentId
  | .span _ s t =>
    ExecutionSegmentCommon.captureException σ s.id s.enclosingTransaction t
      (s.errorParentId t parentId)
  | .noopTransaction _ | .noopSpan _ _ => σ

def captureError (σ : Tracer) (parentId : Option String) : IExecutionSegment → Tracer
  | .transaction r t => ExecutionSegmentCommon.captureError σ t.id r t parentId
  | .span _ s t =>
    ExecutionSegmentCommon.captureError σ s.id s.enclosingTransaction t
      (s.errorParentId t parentId)
  | .noopTransaction _ | .noopSpan _ _ => σ

/-- `OutgoingDistributedTracingData`, null on the no-op segments. -/
def outgoingDistributedTracingData : IExecutionSegment → Option DistributedTracingData
  | .transaction _ t => some t.outgoingDistributedTracingData
  | .span _ s t => some (s.outgoingDistributedTracingData t)
  | .noopTransaction _ | .noopSpan _ _ => none

end IExecutionSegment

/-- `ExecutionSegmentCommon.GetCurrentExecutionSegment`. -/
def Tracer.getCurrentExecutionSegment (σ : Tracer) : Option Segment :=
  (σ.currentSpan.map .span).orElse fun _ => σ.currentTransaction.map .transaction

/-- `ExecutionSegmentCommon.StartSpanOnCurrentExecutionSegment`: without a current segment
    nothing is started. -/
def Tracer.startSpanOnCurrentExecutionSegment (σ : Tracer) (a : SpanStart) : Option Tracer :=
  match σ.getCurrentExecutionSegment with
  | none => some σ
  | some receiver => (σ.resolve receiver).map (·.startSpanInternal σ a)

/-! ### The system -/

/-- The calls of the public interface and of the instrumentations that change the state. -/
inductive Op where
  | startTransaction (a : TransactionStart)
  | startSpan (receiver : Segment) (a : SpanStart)
  | startSpanInternal (receiver : Segment) (a : SpanStart)
  | startSpanOnCurrentExecutionSegment (a : SpanStart)
  | captureException (receiver : Segment) (parentId : Option String)
  | captureError (receiver : Segment) (parentId : Option String)
  | endSegment (receiver : Segment) (now : Int)

/-- One call; `none` when the receiver does not exist. -/
def Tracer.step (σ : Tracer) : Op → Option Tracer
  | .startTransaction a => some (σ.startTransaction a)
  | .startSpan receiver a => (σ.resolve receiver).map (·.startSpan σ a)
  | .startSpanInternal receiver a => (σ.resolve receiver).map (·.startSpanInternal σ a)
  | .startSpanOnCurrentExecutionSegment a => σ.startSpanOnCurrentExecutionSegment a
  | .captureException receiver parentId =>
    (σ.resolve receiver).map (·.captureException σ parentId)
  | .captureError receiver parentId => (σ.resolve receiver).map (·.captureError σ parentId)
  | .endSegment receiver now => (σ.resolve receiver).map (·.endSegment σ now)

/-- The tracer of a freshly started agent and the calls made on it. -/
def tracerSystem : LTS.System Tracer Op where
  init σ := σ = .new
  step := Tracer.step

end ApmAgent
