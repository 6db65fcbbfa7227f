import ApmAgent.Config.ConfigSnapshot
import ApmAgent.Framework.LTS
import ApmAgent.Framework.Store

/-! # The event queue

  `PayloadSenderV2.EnqueueEvent`, called by any number of threads, against the
  `ReceiveBatchAsync` of the work loop. The block with the events and the
  counter that bounds it are updated by separate atomic steps, so a state
  records how far each call has come.

  * An event is named by the call that enqueues it: two calls with the same
    object are two events.
  * The block is a FIFO queue. A batch is a non-empty prefix of it of at most
    the batch size, whatever filled or triggered it.
  * The counter is an unbounded integer: `Balanced.count_le` bounds it by the
    limit and the number of calls under way, so the 64 bits it has do not run
    out.
-/

namespace ApmAgent

/-! ### Configuration -/

/-- The options of the queue. -/
structure QueueConfig where
  maxQueueEventCount : Int32
  maxBatchEventCount : Int32
  /-- `BatchBlock` does not accept another batch size. -/
  maxBatchEventCount_pos : 0 < maxBatchEventCount

namespace QueueConfig

def ofSnapshot (config : ConfigSnapshot) : Option QueueConfig :=
  if h : 0 < config.maxBatchEventCount then
    some ⟨config.maxQueueEventCount, config.maxBatchEventCount, h⟩
  else none

/-- `_maxQueueEventCount`. -/
def limit (cfg : QueueConfig) : Int32 :=
  if cfg.maxQueueEventCount < cfg.maxBatchEventCount then cfg.maxBatchEventCount
  else cfg.maxQueueEventCount

end QueueConfig

/-! ### State -/

/-- Names a call of `EnqueueEvent`, and the event it enqueues. -/
abbrev CallRef := Nat

/-- How far a call of `EnqueueEvent` has come. -/
inductive CallPhase where
  | entered
  /-- `ThrowIfDisposed` has thrown. -/
  | threw
  | checked
  | incremented (newEventQueueCount : Int)
  /-- Too many events: the counter is to be decremented. -/
  | overLimit
  /-- The event is to be posted. -/
  | underLimit
  | posted
  /-- `Post` has returned false: the counter is to be decremented. -/
  | postFailed
  | returned (result : Bool)
  deriving DecidableEq, Repr

structure EventQueue where
  calls : Store CallPhase
  /-- The events in the block, the oldest first. -/
  queue : List CallRef
  /-- `_eventQueueCount`. -/
  count : Int
  /-- The size of the batch that was received but not subtracted yet. -/
  received : Option Nat
  /-- The batches received so far. -/
  batches : List (List CallRef)
  disposed : Bool
  completed : Bool

namespace EventQueue

def new : EventQueue where
  calls := .empty
  queue := []
  count := 0
  received := none
  batches := []
  disposed := false
  completed := false

def setPhase (q : EventQueue) (c : CallRef) (phase : CallPhase) : EventQueue :=
  { q with calls := q.calls.update c fun _ => phase }

end EventQueue

/-! ### Steps -/

inductive QueueStep where
  /-- A thread calls `EnqueueEvent`. -/
  | call
  | throwIfDisposed (c : CallRef)
  /-- `Interlocked.Increment`. -/
  | increment (c : CallRef)
  /-- `newEventQueueCount > _maxQueueEventCount`. -/
  | test (c : CallRef)
  /-- `Interlocked.Decrement` after the test, and `return false`. -/
  | discard (c : CallRef)
  | post (c : CallRef)
  /-- `Interlocked.Decrement` after `Post`, and `return false`. -/
  | undo (c : CallRef)
  /-- `return true`. -/
  | finish (c : CallRef)
  /-- The sender receives a batch of `size` events. -/
  | receive (size : Nat)
  /-- `Interlocked.Add` of minus the size of the batch. -/
  | subtract
  | dispose
  /-- The block is completed. -/
  | complete
  deriving DecidableEq, Repr

namespace EventQueue

/-- One step of a call or of the sender; `none` when it is not that step's turn. -/
def step (cfg : QueueConfig) (q : EventQueue) : QueueStep → Option EventQueue
  | .call => some { q with calls := q.calls.alloc .entered }
  | .throwIfDisposed c =>
    match q.calls.get? c with
    | some .entered => some (q.setPhase c (if q.disposed then .threw else .checked))
    | _ => none
  | .increment c =>
    match q.calls.get? c with
    | some .checked =>
      some { q.setPhase c (.incremented (q.count + 1)) with count := q.count + 1 }
    | _ => none
  | .test c =>
    match q.calls.get? c with
    | some (.incremented newEventQueueCount) =>
      some (q.setPhase c
        (if newEventQueueCount > cfg.limit.toInt then .overLimit else .underLimit))
    | _ => none
  | .discard c =>
    match q.calls.get? c with
    | some .overLimit => some { q.setPhase c (.returned false) with count := q.count - 1 }
    | _ => none
  | .post c =>
    match q.calls.get? c with
    | some .underLimit =>
      -- A completed block declines every message.
      if q.completed then some (q.setPhase c .postFailed)
      else some { q.setPhase c .posted with queue := q.queue ++ [c] }
    | _ => none
  | .undo c =>
    match q.calls.get? c with
    | some .postFailed => some { q.setPhase c (.returned false) with count := q.count - 1 }
    | _ => none
  | .finish c =>
    match q.calls.get? c with
    | some .posted => some (q.setPhase c (.returned true))
    | _ => none
  | .receive size =>
    -- The sender is one task: it subtracts a batch before it receives the next one.
    if q.received = none ∧ 0 < size ∧ size ≤ cfg.maxBatchEventCount.toInt ∧
        size ≤ q.queue.length then
      some { q with
        queue := q.queue.drop size
        batches := q.batches ++ [q.queue.take size]
        received := some size }
    else none
  | .subtract =>
    match q.received with
    | some size => some { q with count := q.count - size, received := none }
    | none => none
  | .dispose => some { q with disposed := true }
  | .complete => some { q with completed := true }

end EventQueue

/-- The queue of a freshly started agent, its callers and its sender. -/
def eventQueueSystem (cfg : QueueConfig) : LTS.System EventQueue QueueStep where
  init q := q = .new
  step := EventQueue.step cfg

end ApmAgent
