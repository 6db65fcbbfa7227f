import ApmAgent.Model.EndOnce

/-! # The Capture helpers

  `CaptureSpan` and `CaptureTransaction` start a segment, run a delegate and end
  the segment. The eight overloads fall into two groups: delegates that return
  are run inside `try … finally`, delegates that return a task get a
  continuation registered on that task.

  A helper is a computation that may throw and that records the calls made on
  the agent: those of the user's delegate and its own on the segment. A task is
  given by what it does until it ends and by how it ends, so a recorded run
  reaches to the end of the returned task and of its continuation.
-/

namespace ApmAgent

/-! ### Exceptions and tasks -/

/-- An exception object. -/
inductive Exception where
  | nullReference
  | thrown (id : Nat)
  | aggregate (innerExceptions : List Exception)

namespace Exception

mutual

/-- How deep aggregates are nested. -/
def depth : Exception → Nat
  | .nullReference | .thrown _ => 0
  | .aggregate es => depthAll es + 1

def depthAll : List Exception → Nat
  | [] => 0
  | e :: es => max e.depth (depthAll es)

end

/-- The exceptions that are not aggregates, `n` aggregates down. -/
def leavesAt : Nat → Exception → List Exception
  | 0, .aggregate _ => []
  | 0, e => [e]
  | n + 1, .aggregate es => es.flatMap (leavesAt n)
  | _ + 1, _ => []

/-- `AggregateException.Flatten`, level by level. -/
def flatten (innerExceptions : List Exception) : Exception :=
  .aggregate <| (List.range (depthAll innerExceptions + 1)).flatMap fun n =>
    innerExceptions.flatMap (leavesAt n)

end Exception

/-- How a task ends. A faulted task has at least one inner exception. -/
inductive TaskStatus (α : Type) where
  | ranToCompletion (result : α)
  | faulted (first : Exception) (others : List Exception)
  | canceled

/-- A task that ends: the calls on the agent until then, and its final status. -/
structure Task (α : Type) where
  ops : List Op
  status : TaskStatus α

/-! ### Computations on the agent -/

/-- What a helper calls on the segment it started. -/
inductive SegmentCall where
  | captureException (e : Exception)
  | captureError (message culprit : String)
  | endSegment

/-- A call on the agent, by the user's code or by the helper. -/
inductive Call where
  | user (op : Op)
  | helper (c : SegmentCall)

/-- A computation that may throw, by the calls it makes and what its caller observes. -/
structure Run (α : Type) where
  calls : List Call
  result : Except Exception α

namespace Run

/-- One computation after the other; an exception leaves at once. -/
def andThen {α β : Type} (x : Run α) (f : α → Run β) : Run β :=
  match x.result with
  | .ok a => { f a with calls := x.calls ++ (f a).calls }
  | .error e => { calls := x.calls, result := .error e }

instance : Monad Run where
  pure a := { calls := [], result := .ok a }
  bind := andThen

def tell (calls : List Call) : Run Unit := { calls := calls, result := .ok () }

def throw {α : Type} (e : Exception) : Run α := { calls := [], result := .error e }

/-- `try { … } catch (Exception e) when (…) { } finally { … }`, with the value the variable
    assigned in the block has before. -/
def tryFilterFinally {α : Type} (block : Run α) (defaultValue : α) (filter : Exception → Run Bool)
    (finallyBlock : Run Unit) : Run α :=
  match block.result with
  | .ok a => do
    tell block.calls
    finallyBlock
    return a
  | .error e => do
    tell block.calls
    tell (filter e).calls
    finallyBlock
    -- An exception thrown in the filter counts as false.
    match (filter e).result with
    | .ok true => return defaultValue
    | _ => throw e

end Run

/-- The user's code: what it calls on the agent, and how it ends. -/
structure UserCode (α : Type) where
  ops : List Op
  result : Except Exception α

def UserCode.invoke {α : Type} (u : UserCode α) : Run α where
  calls := u.ops.map .user
  result := u.result

/-! ### The eight overloads -/

/-- The delegate types the helpers are overloaded on, for `T := α`. -/
inductive Delegate (α : Type) where
  | action (capturedAction : UserCode Unit)
  | actionOfSegment (capturedAction : Segment → UserCode Unit)
  | func (func : UserCode α)
  | funcOfSegment (func : Segment → UserCode α)
  | funcTask (func : UserCode (Option (Task Unit)))
  | funcTaskOfSegment (func : Segment → UserCode (Option (Task Unit)))
  | funcTaskT (func : UserCode (Option (Task α)))
  | funcTaskTOfSegment (func : Segment → UserCode (Option (Task α)))

/-- What a call returns. -/
inductive Returned (α : Type) where
  | void
  | value (a : α)
  | task (t : Option (Task Unit))
  | taskT (t : Option (Task α))

/-- `ExceptionFilter.Capture`. -/
def exceptionFilterCapture (e : Exception) : Run Bool := do
  Run.tell [.helper (.captureException e)]
  return false

/-- `RegisterContinuation`: the task runs to its end, then the continuation. -/
def registerContinuation {α : Type} (task : Option (Task α)) : Run Unit :=
  match task with
  -- `task.ContinueWith` on null.
  | none => Run.throw .nullReference
  | some t => do
    Run.tell (t.ops.map .user)
    match t.status with
    | .faulted first others =>
      -- The other branches of the source are for a faulted task without an exception.
      let _ ← exceptionFilterCapture
        (if others.isEmpty then first else .flatten (first :: others))
    | .canceled => Run.tell [.helper (.captureError "Task canceled" "A task was canceled")]
    | .ranToCompletion _ => pure ()
    Run.tell [.helper .endSegment]

/-- The body of the overloads that return: run, capture what is thrown, end. -/
def captureReturning {α : Type} (block : Run α) (defaultValue : α) : Run α :=
  Run.tryFilterFinally block defaultValue exceptionFilterCapture
    (Run.tell [.helper .endSegment])

/-- The body of the overloads that return a task. -/
def captureTask {α : Type} (func : Run (Option (Task α))) : Run (Option (Task α)) := do
  let task ← func
  registerContinuation task
  return task

/-- `ExecutionSegmentCommon.CaptureSpan(span, …)`, which every `CaptureSpan` calls on the span
    it starts. -/
def ExecutionSegmentCommon.captureSpan {α : Type} [Inhabited α] (span : Segment) :
    Delegate α → Run (Returned α)
  | .action capturedAction => (fun _ => .void) <$> captureReturning capturedAction.invoke ()
  | .actionOfSegment capturedAction =>
    (fun _ => .void) <$> captureReturning (capturedAction span).invoke ()
  | .func func => .value <$> captureReturning func.invoke default
  | .funcOfSegment func => .value <$> captureReturning (func span).invoke default
  | .funcTask func => .task <$> captureTask func.invoke
  | .funcTaskOfSegment func => .task <$> captureTask (func span).invoke
  | .funcTaskT func => .taskT <$> captureTask func.invoke
  | .funcTaskTOfSegment func => .taskT <$> captureTask (func span).invoke

/-- `Tracer.CaptureTransaction(…)` once the transaction is started. -/
def Tracer.captureTransaction {α : Type} [Inhabited α] (transaction : Segment) :
    Delegate α → Run (Returned α)
  | .actionOfSegment action =>
    (fun _ => .void) <$> captureReturning (action transaction).invoke ()
  | .action action => (fun _ => .void) <$> captureReturning action.invoke ()
  | .funcOfSegment func => .value <$> captureReturning (func transaction).invoke default
  | .func func => .value <$> captureReturning func.invoke default
  | .funcTask func => .task <$> captureTask func.invoke
  | .funcTaskOfSegment func => .task <$> captureTask (func transaction).invoke
  | .funcTaskT func => .taskT <$> captureTask func.invoke
  | .funcTaskTOfSegment func => .taskT <$> captureTask (func transaction).invoke

/-! ### Ending exactly once -/

/-- The error to capture for what user code threw. -/
def UserCode.failure {α : Type} (u : UserCode α) : Option SegmentCall :=
  match u.result with
  | .ok _ => none
  | .error e => some (.captureException e)

/-- The error to capture for a task: its one exception, or all of them; a cancelled task has
    none and is reported as such. -/
def TaskStatus.failure {α : Type} : TaskStatus α → Option SegmentCall
  | .ranToCompletion _ => none
  | .faulted first others =>
    some (.captureException (if others.isEmpty then first else .flatten (first :: others)))
  | .canceled => some (.captureError "Task canceled" "A task was canceled")

def UserCode.taskFailure {α : Type} (u : UserCode (Option (Task α))) : Option SegmentCall :=
  match u.result with
  | .ok none => none
  | .ok (some t) => t.status.failure
  | .error e => some (.captureException e)

namespace Delegate

variable {α : Type}

/-- What the delegate itself gives whoever calls it. -/
def result (segment : Segment) : Delegate α → Except Exception (Returned α)
  | .action f => f.result.map fun _ => .void
  | .actionOfSegment f => (f segment).result.map fun _ => .void
  | .func f => f.result.map .value
  | .funcOfSegment f => (f segment).result.map .value
  | .funcTask f => f.result.map .task
  | .funcTaskOfSegment f => (f segment).result.map .task
  | .funcTaskT f => f.result.map .taskT
  | .funcTaskTOfSegment f => (f segment).result.map .taskT

/-- The error to capture, if the delegate fails by itself or through its task. -/
def failure (segment : Segment) : Delegate α → Option SegmentCall
  | .action f => f.failure
  | .actionOfSegment f => (f segment).failure
  | .func f => f.failure
  | .funcOfSegment f => (f segment).failure
  | .funcTask f => f.taskFailure
  | .funcTaskOfSegment f => (f segment).taskFailure
  | .funcTaskT f => f.taskFailure
  | .funcTaskTOfSegment f => (f segment).taskFailure

/-- A delegate that is to return a task hands one over: it does not throw before and does not
    return null. -/
def HandsOverTask (segment : Segment) : Delegate α → Prop
  | .action _ | .actionOfSegment _ | .func _ | .funcOfSegment _ => True
  | .funcTask f => ∃ t, f.result = .ok (some t)
  | .funcTaskOfSegment f => ∃ t, (f segment).result = .ok (some t)
  | .funcTaskT f => ∃ t, f.result = .ok (some t)
  | .funcTaskTOfSegment f => ∃ t, (f segment).result = .ok (some t)

end Delegate

def SegmentCall.isEnd : SegmentCall → Bool
  | .endSegment => true
  | .captureException _ | .captureError _ _ => false

/-- The helper's own calls on the segment. -/
def helperCalls (calls : List Call) : List SegmentCall :=
  calls.filterMap fun
    | .helper c => some c
    | .user _ => none

/-- The segment is ended once, one error is captured if the delegate failed and none otherwise,
    and the caller observes what the delegate gave. -/
structure EndsOnce {α : Type} (d : Delegate α) (segment : Segment) (helper : Run (Returned α)) :
    Prop where
  ended : (helperCalls helper.calls).countP (·.isEnd) = 1
  errors : (helperCalls helper.calls).filter (!·.isEnd) = (d.failure segment).toList
  observed : helper.result = d.result segment

/-! ### What the helpers do -/

@[simp] theorem helperCalls_user (ops : List Op) : helperCalls (ops.map .user) = [] := by
  induction ops with
  | nil => rfl
  | cons op ops ih => exact ih

section
variable {α β : Type}

/-- Wrapping what is returned changes nothing else. -/
theorem run_map (f : α → β) (x : Run α) :
    f <$> x = { calls := x.calls, result := x.result.map f } := by
  obtain ⟨calls, result⟩ := x
  cases result <;> simp [Functor.map, Run.andThen, Except.map]

/-- The calls of a run of the helper: the user's, the error, and the end. -/
def recorded (ops : List Op) (failure : Option SegmentCall) : List Call :=
  ops.map .user ++ failure.toList.map .helper ++ [.helper .endSegment]

/-- The overloads that return: whatever the delegate does, one error at most, then one `End`. -/
theorem captureReturning_eq (u : UserCode α) (defaultValue : α) :
    captureReturning u.invoke defaultValue =
      { calls := recorded u.ops u.failure, result := u.result } := by
  obtain ⟨ops, result⟩ := u
  cases result <;>
    simp [captureReturning, Run.tryFilterFinally, UserCode.invoke, exceptionFilterCapture,
      Run.tell, Run.throw, UserCode.failure, recorded, bind, Run.andThen, pure]

/-- The overloads that return a task, on a task. -/
theorem captureTask_of_some {u : UserCode (Option (Task α))} {t : Task α}
    (h : u.result = .ok (some t)) :
    captureTask u.invoke =
      { calls := recorded (u.ops ++ t.ops) u.taskFailure, result := u.result } := by
  obtain ⟨ops, result⟩ := u
  obtain ⟨ops', status⟩ := t
  cases h
  cases status <;>
    simp [captureTask, registerContinuation, UserCode.invoke, exceptionFilterCapture, Run.tell,
      UserCode.taskFailure, TaskStatus.failure, recorded, bind, Run.andThen, pure]

/-- Without a task nothing is called on the segment. -/
theorem captureTask_of_not {u : UserCode (Option (Task α))}
    (h : ¬ ∃ t, u.result = .ok (some t)) :
    (captureTask u.invoke).calls = u.ops.map .user := by
  obtain ⟨ops, result⟩ := u
  rcases result with e | t | t
  · simp [captureTask, UserCode.invoke, bind, Run.andThen]
  · simp [captureTask, registerContinuation, UserCode.invoke, Run.throw, bind, Run.andThen]
  · exact absurd ⟨t, rfl⟩ h

theorem helperCalls_recorded (ops : List Op) (failure : Option SegmentCall) :
    helperCalls (recorded ops failure) = failure.toList ++ [.endSegment] := by
  cases failure <;> simp [recorded, helperCalls]

/-- What is captured for a failure is not an `End`. -/
theorem UserCode.failure_isEnd (u : UserCode α) : ∀ c ∈ u.failure, c.isEnd = false := by
  obtain ⟨ops, result⟩ := u
  cases result <;> simp [UserCode.failure, SegmentCall.isEnd]

theorem UserCode.taskFailure_isEnd (u : UserCode (Option (Task α))) :
    ∀ c ∈ u.taskFailure, c.isEnd = false := by
  obtain ⟨ops, result⟩ := u
  rcases result with e | _ | ⟨ops', status⟩
  · simp [UserCode.taskFailure, SegmentCall.isEnd]
  · simp [UserCode.taskFailure]
  · cases status <;> simp [UserCode.taskFailure, TaskStatus.failure, SegmentCall.isEnd]

/-- A recorded run ends the segment once, and captures the failure. -/
theorem recorded_endsOnce (ops : List Op) {failure : Option SegmentCall}
    (h : ∀ c ∈ failure, c.isEnd = false) :
    (helperCalls (recorded ops failure)).countP (·.isEnd) = 1 ∧
      (helperCalls (recorded ops failure)).filter (!·.isEnd) = failure.toList := by
  rw [helperCalls_recorded, List.countP_append, List.filter_append]
  rcases failure with _ | c
  · exact ⟨rfl, rfl⟩
  · have hc := h c rfl
    simp only [Option.toList_some, List.countP_cons, List.countP_nil, List.filter_cons,
      List.filter_nil, hc]
    exact ⟨rfl, rfl⟩

variable {d : Delegate α} {segment : Segment}

theorem endsOnce_returning {u : UserCode β} {f : β → Returned α} (defaultValue : β)
    (hresult : d.result segment = u.result.map f) (hfailure : d.failure segment = u.failure) :
    EndsOnce d segment (f <$> captureReturning u.invoke defaultValue) := by
  obtain ⟨hended, herrors⟩ := recorded_endsOnce u.ops u.failure_isEnd
  rw [captureReturning_eq, run_map]
  exact ⟨hended, by rw [hfailure]; exact herrors, hresult.symm⟩

theorem endsOnce_task_iff {u : UserCode (Option (Task β))} {f : Option (Task β) → Returned α}
    (hresult : d.result segment = u.result.map f)
    (hfailure : d.failure segment = u.taskFailure) :
    EndsOnce d segment (f <$> captureTask u.invoke) ↔ ∃ t, u.result = .ok (some t) := by
  rw [run_map]
  constructor
  · intro h
    by_contra hnone
    have hended := h.ended
    simp [captureTask_of_not hnone] at hended
  · rintro ⟨t, ht⟩
    obtain ⟨hended, herrors⟩ := recorded_endsOnce (u.ops ++ t.ops) u.taskFailure_isEnd
    rw [captureTask_of_some ht]
    exact ⟨hended, by rw [hfailure]; exact herrors, hresult.symm⟩

end

/-! ### The helpers on the tracer -/

/-- A helper's call on the segment it started. -/
def SegmentCall.op (segment : Segment) (now : Int) : SegmentCall → Op
  | .captureException _ => .captureException segment none
  | .captureError _ _ => .captureError segment none
  | .endSegment => .endSegment segment now

def Call.op (segment : Segment) (now : Int) : Call → Op
  | .user op => op
  | .helper c => c.op segment now

/-- A helper that ends its segment once leaves it ended, whatever the user's code did. -/
theorem isEnded_of_endsOnce {α : Type} {d : Delegate α} {segment : Segment}
    {helper : Run (Returned α)} (h : EndsOnce d segment helper) {now : Int} {σ σ' : Tracer}
    (hrun : tracerSystem.run σ (helper.calls.map (·.op segment now)) = some σ') :
    σ'.isEnded segment := by
  -- One of the helper's calls is the `End`.
  have hcount : 0 < (helperCalls helper.calls).countP (·.isEnd) := by
    rw [h.ended]
    omega
  obtain ⟨c, hc, hend⟩ := List.countP_pos_iff.mp hcount
  obtain ⟨call, hcall, hhelper⟩ := List.mem_filterMap.mp hc
  have hcall' : call = .helper .endSegment := by
    cases call with
    | user op => cases hhelper
    | helper c' =>
      cases hhelper
      cases c <;> simp [SegmentCall.isEnd] at hend ⊢
  subst hcall'
  exact Tracer.isEnded_of_mem (List.mem_map.mpr ⟨_, hcall, rfl⟩) hrun

end ApmAgent
