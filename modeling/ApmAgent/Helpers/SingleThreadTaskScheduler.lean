import ApmAgent.Helpers.DisposableHelper
import Mathlib.Data.List.Nodup

/-! # SingleThreadTaskScheduler

  One thread takes the tasks out of a queue and executes them, one after the
  other. A task that waits for another one, which was not queued, may execute it
  inline. `Dispose` lets no more tasks in and waits for the thread.

  `disposeDrains`: whatever the scheduler of the threads does, queued tasks
  begin in the order in which they were accepted, no task begins twice, and who
  has disposed of the scheduler finds each task it has accepted executed.
-/

namespace ApmAgent

namespace SingleThreadTaskScheduler

/-- Where `ThreadMain` is. -/
inductive ThreadMain (Task : Type) where
  | starting
  /-- `_taskQueue.GetConsumingEnumerable()` is to give the next task. -/
  | taking
  /-- `TryExecuteTask` executes the task, and on top of it the inlined ones. -/
  | executing (task : Task) (inlined : List Task)
  /-- The loop is over, or an exception of it was swallowed. -/
  | leaving
  | exited
  deriving DecidableEq, Repr

/-- The tasks that are being executed. -/
def ThreadMain.running {Task : Type} : ThreadMain Task → List Task
  | .executing task inlined => inlined ++ [task]
  | _ => []

/-- `_isExecuting.Value` of the thread. -/
def ThreadMain.isExecuting {Task : Type} : ThreadMain Task → Bool
  | .taking | .executing _ _ => true
  | _ => false

structure State (Task : Type) where
  taskQueue : List Task
  isAddingCompleted : Bool
  /-- `_taskQueue.Dispose()` was called. -/
  queueDisposed : Bool
  thread : ThreadMain Task
  /-- Ghost: the tasks `QueueTask` has accepted, those the thread has taken, those that were
      inlined, and those whose execution has ended, in this order. -/
  accepted : List Task
  taken : List Task
  inlined : List Task
  finished : List Task
  /-- Ghost: the loop of the thread has ended with an exception. -/
  loopThrew : Bool

variable {Task : Type}

/-- The constructor, which starts the thread. -/
def new : State Task where
  taskQueue := []
  isAddingCompleted := false
  queueDisposed := false
  thread := .starting
  accepted := []
  taken := []
  inlined := []
  finished := []
  loopThrew := false

inductive QueueException where
  | objectDisposed
  | invalidOperation
  deriving DecidableEq, Repr

def queueTask (task : Task) (m : State Task) : Except QueueException (State Task) :=
  if m.queueDisposed then .error .objectDisposed
  else if m.isAddingCompleted then .error .invalidOperation
  else .ok { m with taskQueue := m.taskQueue ++ [task], accepted := m.accepted ++ [task] }

section

variable [DecidableEq Task]

/-- `TaskScheduler.TryExecuteTask` refuses a task that was executed before. -/
def WasExecuted (task : Task) (m : State Task) : Prop := task ∈ m.taken ∨ task ∈ m.inlined

instance (task : Task) (m : State Task) : Decidable (WasExecuted task m) :=
  inferInstanceAs (Decidable (_ ∨ _))

/-- `TryExecuteTaskInline`, called in the thread or in another one. -/
def tryExecuteTaskInline (inThread : Bool) (task : Task) (taskWasPreviouslyQueued : Bool)
    (m : State Task) : Bool × State Task :=
  if taskWasPreviouslyQueued then (false, m)
  else if !(inThread && m.thread.isExecuting) then (false, m)
  else
    match m.thread with
    | .executing current inlined =>
      if WasExecuted task m then (false, m)
      else
        (true,
          { m with thread := .executing current (task :: inlined), inlined := m.inlined ++ [task] })
    | _ => (false, m)

/-- The next step of the thread, `none` while it waits for a task. -/
def threadMain (m : State Task) : Option (State Task) :=
  match m.thread with
  | .starting => some { m with thread := .taking }
  | .taking =>
    if m.queueDisposed then some { m with thread := .leaving, loopThrew := true }
    else
      match m.taskQueue with
      | task :: rest =>
        if WasExecuted task m then some { m with taskQueue := rest }
        else
          some
            { m with
              taskQueue := rest
              thread := .executing task []
              taken := m.taken ++ [task] }
      | [] => if m.isAddingCompleted then some { m with thread := .leaving } else none
  | .executing task (inlined :: rest) =>
    some { m with thread := .executing task rest, finished := m.finished ++ [inlined] }
  | .executing task [] => some { m with thread := .taking, finished := m.finished ++ [task] }
  | .leaving => some { m with thread := .exited }
  | .exited => none

/-- Where the dispose action is. -/
inductive Disposing where
  | completeAdding
  /-- `_thread.Join()`. -/
  | joining
  | disposingQueue
  deriving DecidableEq, Repr

/-- What else happens to the scheduler. -/
inductive Event (Task : Type) where
  | queueTask (task : Task)
  | tryExecuteTaskInline (inThread : Bool) (task : Task)
  | threadMain

/-- The scheduler as an object that is disposed of. A task is queued at most once, and not after
    it was inlined. -/
def disposeOwner : DisposeOwner (State Task) Disposing (Event Task) where
  start := .completeAdding
  act m
    | .completeAdding => some ({ m with isAddingCompleted := true }, some .joining)
    | .joining => if m.thread = .exited then some (m, some .disposingQueue) else none
    | .disposingQueue => some ({ m with queueDisposed := true }, none)
  other
    | .queueTask task, m =>
      if task ∈ m.accepted ∨ task ∈ m.inlined then none
      else
        match queueTask task m with
        | .ok m' => some m'
        | .error _ => some m
    | .tryExecuteTaskInline inThread task, m =>
      some (tryExecuteTaskInline inThread task (task ∈ m.accepted) m).2
    | .threadMain, m => threadMain m

end

/-! ### The order of the tasks -/

/-- What every step of the thread, and of the others, keeps. -/
structure Ordered (m : State Task) : Prop where
  order : m.accepted = m.taken ++ m.taskQueue
  accepted : m.accepted.Nodup
  inlined : m.inlined.Nodup
  apart : ∀ t ∈ m.inlined, t ∉ m.accepted
  executed : ∀ t, WasExecuted t m ↔ t ∈ m.thread.running ∨ t ∈ m.finished
  loop : m.loopThrew = false
  left : m.thread = .leaving ∨ m.thread = .exited → m.isAddingCompleted = true ∧ m.taskQueue = []
  disposed : m.queueDisposed = true → m.thread = .exited

theorem ordered_new : Ordered (new : State Task) where
  order := rfl
  accepted := List.nodup_nil
  inlined := List.nodup_nil
  apart := nofun
  executed t := by simp [WasExecuted, new, ThreadMain.running]
  loop := rfl
  left := by simp [new]
  disposed := nofun

/-- A step that only moves the thread, or ends the execution of a task. -/
theorem Ordered.move {m m' : State Task} (h : Ordered m) (hqueue : m'.taskQueue = m.taskQueue)
    (haccepted : m'.accepted = m.accepted) (htaken : m'.taken = m.taken)
    (hinlined : m'.inlined = m.inlined)
    (hrunning : ∀ t, t ∈ m'.thread.running ∨ t ∈ m'.finished ↔
      t ∈ m.thread.running ∨ t ∈ m.finished)
    (hloop : m'.loopThrew = false)
    (hleft : m'.thread = .leaving ∨ m'.thread = .exited →
      m'.isAddingCompleted = true ∧ m'.taskQueue = [])
    (hdisposed : m'.queueDisposed = true → m'.thread = .exited) : Ordered m' where
  order := by rw [haccepted, htaken, hqueue, h.order]
  accepted := haccepted ▸ h.accepted
  inlined := hinlined ▸ h.inlined
  apart := by
    rw [haccepted, hinlined]
    exact h.apart
  executed t := by
    rw [hrunning, ← h.executed t, WasExecuted, WasExecuted, htaken, hinlined]
  loop := hloop
  left := hleft
  disposed := hdisposed

/-- A task in the queue was not executed. -/
theorem Ordered.not_wasExecuted {m : State Task} (h : Ordered m) {t : Task}
    (ht : t ∈ m.taskQueue) : ¬WasExecuted t m := by
  rintro (htaken | hinlined)
  · have hnodup := h.accepted
    rw [h.order, List.nodup_append] at hnodup
    exact hnodup.2.2 t htaken t ht rfl
  · refine h.apart t hinlined ?_
    rw [h.order]
    exact List.mem_append_right _ ht

variable [DecidableEq Task]

theorem Ordered.threadMain {m m' : State Task} (h : Ordered m)
    (hstep : threadMain m = some m') : Ordered m' := by
  have hrunning := h.executed
  unfold SingleThreadTaskScheduler.threadMain at hstep
  split at hstep
  · next hthread =>
    cases hstep
    refine h.move rfl rfl rfl rfl (by simp [hthread, ThreadMain.running]) h.loop (by simp) ?_
    intro hdisposed
    rw [h.disposed hdisposed] at hthread
    cases hthread
  · next hthread =>
    have hdisposed : m.queueDisposed = false := by
      by_contra hd
      rw [h.disposed (by simpa using hd)] at hthread
      cases hthread
    simp only [hdisposed, Bool.false_eq_true, if_false] at hstep
    split at hstep
    · next task rest hqueue =>
      have hnot := h.not_wasExecuted (t := task) (by simp [hqueue])
      rw [if_neg hnot] at hstep
      cases hstep
      refine ⟨by simp [h.order, hqueue], h.accepted, h.inlined, h.apart, fun t => ?_, h.loop,
        by simp, by simp⟩
      have ht := h.executed t
      simp only [WasExecuted, hthread, ThreadMain.running, List.not_mem_nil, false_or] at ht
      simp only [WasExecuted, ThreadMain.running, List.nil_append, List.mem_append,
        List.mem_singleton, ← ht]
      tauto
    · next hqueue =>
      split at hstep
      · next hcompleted =>
        cases hstep
        exact h.move rfl rfl rfl rfl (by simp [hthread, ThreadMain.running]) h.loop
          (fun _ => ⟨hcompleted, hqueue⟩) (by simp)
      · cases hstep
  · next task inlined rest hthread =>
    cases hstep
    refine h.move rfl rfl rfl rfl (fun t => ?_) h.loop (by simp) ?_
    · simp only [hthread, ThreadMain.running, List.mem_append, List.mem_cons]
      tauto
    · intro hdisposed
      rw [h.disposed hdisposed] at hthread
      cases hthread
  · next task hthread =>
    cases hstep
    refine h.move rfl rfl rfl rfl (fun t => ?_) h.loop (by simp) ?_
    · simp only [hthread, ThreadMain.running, List.mem_append, List.mem_singleton,
        List.not_mem_nil]
      tauto
    · intro hdisposed
      rw [h.disposed hdisposed] at hthread
      cases hthread
  · next hthread =>
    cases hstep
    exact h.move rfl rfl rfl rfl (by simp [hthread, ThreadMain.running]) h.loop
      (fun _ => h.left (.inl hthread)) (fun _ => rfl)
  · cases hstep

omit [DecidableEq Task] in
theorem Ordered.queueTask {m m' : State Task} (h : Ordered m) {task : Task}
    (hnew : ¬(task ∈ m.accepted ∨ task ∈ m.inlined)) (hstep : queueTask task m = .ok m') :
    Ordered m' := by
  unfold SingleThreadTaskScheduler.queueTask at hstep
  rw [not_or] at hnew
  split at hstep
  · cases hstep
  · split at hstep
    · cases hstep
    · next hdisposed hcompleted =>
      cases hstep
      refine ⟨by simp [h.order], ?_, h.inlined, ?_, h.executed, h.loop, ?_, h.disposed⟩
      · simpa only [List.concat_eq_append] using List.Nodup.concat hnew.1 h.accepted
      · intro t ht
        simp only [List.mem_append, List.mem_singleton, not_or]
        refine ⟨h.apart t ht, ?_⟩
        rintro rfl
        exact hnew.2 ht
      · intro hthread
        exact absurd (h.left hthread).1 hcompleted

theorem Ordered.tryExecuteTaskInline {m : State Task} (h : Ordered m) (inThread : Bool)
    (task : Task) :
    Ordered (tryExecuteTaskInline inThread task (task ∈ m.accepted) m).2 := by
  unfold SingleThreadTaskScheduler.tryExecuteTaskInline
  split
  · exact h
  · next hqueued =>
    split
    · exact h
    · split
      · next current inlined hthread =>
        split
        · exact h
        · next hnot =>
          rw [WasExecuted, not_or] at hnot
          refine ⟨h.order, h.accepted, ?_, ?_, fun t => ?_, h.loop, by simp, ?_⟩
          · simpa only [List.concat_eq_append] using List.Nodup.concat hnot.2 h.inlined
          · intro t ht
            obtain ht | ht := List.mem_append.mp ht
            · exact h.apart t ht
            · rw [List.mem_singleton.mp ht]
              simpa using hqueued
          · have ht := h.executed t
            simp only [WasExecuted, hthread, ThreadMain.running, List.mem_append,
              List.cons_append, List.mem_cons] at ht ⊢
            tauto
          · intro hdisposed
            have hexited := h.disposed hdisposed
            rw [hthread] at hexited
            cases hexited
      · exact h

/-! ### Disposing of it -/

theorem tryExecuteTaskInline_keeps (inThread : Bool) (task : Task) (queued : Bool) (m : State Task) :
    (tryExecuteTaskInline inThread task queued m).2.isAddingCompleted = m.isAddingCompleted ∧
      (tryExecuteTaskInline inThread task queued m).2.queueDisposed = m.queueDisposed := by
  unfold tryExecuteTaskInline
  split
  · exact ⟨rfl, rfl⟩
  · split
    · exact ⟨rfl, rfl⟩
    · split
      · split <;> exact ⟨rfl, rfl⟩
      · exact ⟨rfl, rfl⟩

theorem threadMain_keeps {m m' : State Task} (h : threadMain m = some m') :
    m'.isAddingCompleted = m.isAddingCompleted ∧ m'.queueDisposed = m.queueDisposed ∧
      m.thread ≠ .exited := by
  unfold threadMain at h
  split at h
  · next hthread =>
    cases h
    exact ⟨rfl, rfl, by simp [hthread]⟩
  · next hthread =>
    refine ⟨?_, ?_, by simp [hthread]⟩ <;> (repeat' split at h) <;> cases h <;> rfl
  · next hthread =>
    cases h
    exact ⟨rfl, rfl, by simp [hthread]⟩
  · next hthread =>
    cases h
    exact ⟨rfl, rfl, by simp [hthread]⟩
  · next hthread =>
    cases h
    exact ⟨rfl, rfl, by simp [hthread]⟩
  · cases h

/-- What happens to the scheduler keeps the order, and neither completes nor disposes of the
    queue; a thread that has ended stays so. -/
theorem Ordered.event {m m' : State Task} (h : Ordered m) {b : Event Task}
    (hstep : disposeOwner.other b m = some m') :
    Ordered m' ∧ m'.isAddingCompleted = m.isAddingCompleted ∧
      m'.queueDisposed = m.queueDisposed ∧ (m.thread = .exited → m'.thread = .exited) := by
  cases b with
  | queueTask task =>
    simp only [disposeOwner] at hstep
    split at hstep
    · cases hstep
    · next hnew =>
      split at hstep
      · next m₁ hqueue =>
        cases hstep
        refine ⟨h.queueTask hnew hqueue, ?_⟩
        unfold SingleThreadTaskScheduler.queueTask at hqueue
        split at hqueue
        · cases hqueue
        · split at hqueue
          · cases hqueue
          · cases hqueue
            exact ⟨rfl, rfl, id⟩
      · cases hstep
        exact ⟨h, rfl, rfl, id⟩
  | tryExecuteTaskInline inThread task =>
    cases hstep
    obtain ⟨hadding, hdisposed⟩ :=
      tryExecuteTaskInline_keeps inThread task (task ∈ m.accepted) m
    refine ⟨h.tryExecuteTaskInline inThread task, hadding, hdisposed, fun hexited => ?_⟩
    unfold SingleThreadTaskScheduler.tryExecuteTaskInline
    simp only [hexited]
    repeat' split
    all_goals exact hexited
  | threadMain =>
    obtain ⟨hadding, hdisposed, hthread⟩ := threadMain_keeps hstep
    exact ⟨h.threadMain hstep, hadding, hdisposed, fun hexited => absurd hexited hthread⟩

/-- The scheduler before, during and after the dispose action. -/
def phases : DisposableHelper.Phases (@disposeOwner Task _) where
  before m := Ordered m ∧ m.queueDisposed = false
  during m a := Ordered m ∧ m.queueDisposed = false ∧
    (a ≠ .completeAdding → m.isAddingCompleted = true) ∧ (a = .disposingQueue → m.thread = .exited)
  after m := Ordered m ∧ m.queueDisposed = true
  starts m h := ⟨h.1, h.2, absurd rfl, nofun⟩
  goesOn m a m' a' h hact := by
    obtain ⟨hordered, hdisposed, hadding, -⟩ := h
    cases a with
    | completeAdding =>
      cases hact
      exact ⟨{ hordered with left := fun hthread => ⟨rfl, (hordered.left hthread).2⟩ }, hdisposed,
        fun _ => rfl, nofun⟩
    | joining =>
      simp only [disposeOwner] at hact
      split at hact
      · next hexited =>
        cases hact
        exact ⟨hordered, hdisposed, fun _ => hadding nofun, fun _ => hexited⟩
      · cases hact
    | disposingQueue => cases hact
  returns m a m' h hact := by
    obtain ⟨hordered, -, -, hexited⟩ := h
    cases a with
    | disposingQueue =>
      cases hact
      exact ⟨{ hordered with disposed := fun _ => hexited rfl }, rfl⟩
    | completeAdding => cases hact
    | joining =>
      simp only [disposeOwner] at hact
      split at hact <;> cases hact
  before_other b m m' h hother := by
    obtain ⟨hordered, -, hdisposed, -⟩ := h.1.event hother
    exact ⟨hordered, hdisposed.trans h.2⟩
  during_other b m m' a h hother := by
    obtain ⟨hordered, hadding, hdisposed, hexited⟩ := h.1.event hother
    exact ⟨hordered, hdisposed.trans h.2.1, fun ha => hadding.trans (h.2.2.1 ha),
      fun ha => hexited (h.2.2.2 ha)⟩
  after_other b m m' h hother := by
    obtain ⟨hordered, -, hdisposed, -⟩ := h.1.event hother
    exact ⟨hordered, hdisposed.trans h.2⟩

/-- What is true of the scheduler while calls of `Dispose` overlap with everything else. -/
structure Drains {ι : Type} (s : LTS.Threads (Option ι)
    (Disposable (State Task) ι) (DisposableHelper.Place Disposing)) : Prop where
  /-- Tasks are taken in the order in which they were accepted, and none is lost. -/
  order : s.shared.owner.accepted = s.shared.owner.taken ++ s.shared.owner.taskQueue
  /-- No task begins twice, be it inlined or not. -/
  once : (s.shared.owner.taken ++ s.shared.owner.inlined).Nodup
  /-- Each task that has begun is being executed, or has come to its end. -/
  executed : ∀ t, WasExecuted t s.shared.owner ↔
    t ∈ s.shared.owner.thread.running ∨ t ∈ s.shared.owner.finished
  /-- The thread never finds its queue disposed of. -/
  loop : s.shared.owner.loopThrew = false
  /-- Who has disposed of the scheduler finds the thread ended, and every task executed. -/
  drained : ∀ i, s.place i = .returned true → s.shared.owner.thread = .exited ∧
    s.shared.owner.queueDisposed = true ∧
    ∀ t, t ∈ s.shared.owner.accepted ∨ t ∈ s.shared.owner.inlined → t ∈ s.shared.owner.finished
  /-- `Dispose` waits only while the thread can go on. -/
  live : ∀ i a, s.place i = .disposing a →
    (disposeOwner.act s.shared.owner a).isSome ∨ (threadMain s.shared.owner).isSome

omit [DecidableEq Task] in
theorem Ordered.nodup {m : State Task} (h : Ordered m) : (m.taken ++ m.inlined).Nodup := by
  have haccepted := h.accepted
  rw [h.order, List.nodup_append] at haccepted
  refine List.nodup_append.mpr ⟨haccepted.1, h.inlined, ?_⟩
  rintro t ht _ hinlined rfl
  refine h.apart t hinlined ?_
  rw [h.order]
  exact List.mem_append_left _ ht

omit [DecidableEq Task] in
/-- When the thread has ended, nothing is left to do. -/
theorem Ordered.drained {m : State Task} (h : Ordered m) (hthread : m.thread = .exited) {t : Task}
    (ht : t ∈ m.accepted ∨ t ∈ m.inlined) : t ∈ m.finished := by
  have hbegun : WasExecuted t m := by
    refine ht.imp_left fun haccepted => ?_
    rwa [h.order, (h.left (.inr hthread)).2, List.append_nil] at haccepted
  simpa [hthread, ThreadMain.running] using (h.executed t).mp hbegun

theorem threadMain_isSome {m : State Task} (hadding : m.isAddingCompleted = true)
    (hthread : m.thread ≠ .exited) : (threadMain m).isSome := by
  unfold threadMain
  split
  · rfl
  · split
    · rfl
    · split
      · split <;> rfl
      · simp [hadding]
  · rfl
  · rfl
  · rfl
  · contradiction

theorem disposeDrains {ι : Type} [DecidableEq ι] (ls : List (Option ι × Option (Event Task))) :
    (DisposableHelper.system disposeOwner (new : State Task) ι).Always Drains
      { shared := DisposableHelper.new new, place := fun _ => .called } ls := by
  have hbefore : phases.before (new : State Task) := ⟨ordered_new, rfl⟩
  have halways := DisposableHelper.always_disposesOnce (ι := ι) (P := phases) hbefore ls
  refine halways.mono fun s h => ?_
  have hordered : Ordered s.shared.owner := by
    obtain h | ⟨a, h⟩ | h := h.phase
    · exact h.1
    · exact h.1
    · exact h.1
  refine ⟨hordered.order, hordered.nodup, hordered.executed, hordered.loop, ?_, ?_⟩
  · intro i hi
    have hdisposed := (h.returned i hi).2
    have hthread := hordered.disposed hdisposed
    exact ⟨hthread, hdisposed, fun t ht => hordered.drained hthread ht⟩
  · intro i a hi
    obtain ⟨-, -, hadding, -⟩ := h.during i a hi
    cases a with
    | completeAdding => exact .inl rfl
    | joining =>
      by_cases hthread : s.shared.owner.thread = .exited
      · left
        simp [disposeOwner, hthread]
      · exact .inr (threadMain_isSome (hadding nofun) hthread)
    | disposingQueue => exact .inl rfl

end SingleThreadTaskScheduler

end ApmAgent
