import ApmAgent.Helpers.DisposableHelper

/-! # BackendCommComponentBase

  A component runs its work loop on a thread of its own until an iteration
  throws. `Dispose` has another thread cancel the iteration, waits until the
  loop has completed, and only then disposes of what the loop uses.

  `shutsDown`: in every interleaving the loop never finds its `HttpClient` or
  its `CancellationTokenSource` disposed of, `Dispose` does not wait forever,
  and who returns true from it has disposed of everything.
-/

namespace ApmAgent

namespace BackendCommComponentBase

/-- Where `WorkLoop` is. -/
inductive WorkLoop where
  /-- Before an iteration. -/
  | looping
  /-- In `WorkLoopIteration`, which began after cancellation was requested or before. -/
  | iterating (cancelled : Bool)
  /-- The exception of an iteration was swallowed. -/
  | left
  /-- `_loopCompleted.Set()` was called. -/
  | signalled
  | returned
  deriving DecidableEq, Repr

structure State where
  workLoop : WorkLoop
  /-- `_loopCompleted` is set. -/
  loopCompleted : Bool
  /-- `CtsInstance.Cancel()` was posted, and has run. -/
  cancelPosted : Bool
  cancelCalled : Bool
  isCancellationRequested : Bool
  schedulerDisposed : Bool
  httpClientDisposed : Bool
  ctsDisposed : Bool
  /-- Ghost: `Cancel` has thrown, as it was called after `Dispose`. -/
  cancelThrew : Bool
  /-- Ghost: the loop was left although no cancellation was requested. -/
  leftEarly : Bool
  /-- Ghost: an iteration has found disposed what it uses. -/
  usedDisposed : Bool
  deriving DecidableEq, Repr

/-- A component whose work loop was started. -/
def new : State where
  workLoop := .looping
  loopCompleted := false
  cancelPosted := false
  cancelCalled := false
  isCancellationRequested := false
  schedulerDisposed := false
  httpClientDisposed := false
  ctsDisposed := false
  cancelThrew := false
  leftEarly := false
  usedDisposed := false

/-- An iteration uses the `HttpClient` and the token. -/
def State.use (m : State) : State :=
  { m with usedDisposed := m.usedDisposed || m.httpClientDisposed || m.ctsDisposed }

/-- The next step of `WorkLoop`. The work loops pass the token to what they wait for, so an
    iteration that began after cancellation was requested throws. -/
def workLoop (throws : Bool) (m : State) : Option State :=
  match m.workLoop with
  | .looping => some { m.use with workLoop := .iterating m.isCancellationRequested }
  | .iterating cancelled =>
    if throws then
      some
        { m.use with
          workLoop := .left
          leftEarly := m.leftEarly || !m.isCancellationRequested }
    else if cancelled then none
    else some { m.use with workLoop := .looping }
  | .left => some { m with workLoop := .signalled, loopCompleted := true }
  | .signalled => some { m with workLoop := .returned }
  | .returned => none

/-- `CtsInstance.Cancel()`, in a thread of the pool. -/
def cancel (m : State) : Option State :=
  if !m.cancelPosted || m.cancelCalled then none
  else if m.ctsDisposed then some { m with cancelCalled := true, cancelThrew := true }
  else some { m with cancelCalled := true, isCancellationRequested := true }

/-- Where the dispose action is. -/
inductive Disposing where
  | postingCancel
  /-- `_loopCompleted.Wait()`. -/
  | waiting
  /-- `_singleThreadTaskScheduler.Dispose()`, which waits for the thread. -/
  | disposingScheduler
  | disposingHttpClient
  | disposingCts
  deriving DecidableEq, Repr

inductive Event where
  | workLoop (throws : Bool)
  | cancel
  deriving DecidableEq, Repr

def disposeOwner : DisposeOwner State Disposing Event where
  start := .postingCancel
  act m
    | .postingCancel => some ({ m with cancelPosted := true }, some .waiting)
    | .waiting => if m.loopCompleted then some (m, some .disposingScheduler) else none
    | .disposingScheduler =>
      if m.workLoop = .returned then
        some ({ m with schedulerDisposed := true }, some .disposingHttpClient)
      else none
    | .disposingHttpClient => some ({ m with httpClientDisposed := true }, some .disposingCts)
    | .disposingCts => some ({ m with ctsDisposed := true }, none)
  other
    | .workLoop throws, m => workLoop throws m
    | .cancel, m => cancel m

/-- Any number of calls of `Dispose`, the work loop and the thread of the pool. -/
def system (ι : Type) [DecidableEq ι] :
    LTS.System (LTS.Threads (Option ι) (Disposable State ι) (DisposableHelper.Place Disposing))
      (Option ι × Option Event) :=
  DisposableHelper.system disposeOwner new ι

/-! ### The loop -/

/-- What the work loop and the thread of the pool keep. -/
structure Sound (m : State) : Prop where
  used : m.usedDisposed = false
  completed : m.loopCompleted = true ↔ m.workLoop = .signalled ∨ m.workLoop = .returned
  disposed : m.httpClientDisposed = true ∨ m.ctsDisposed = true → m.workLoop = .returned
  iterating : m.workLoop = .iterating true → m.isCancellationRequested = true
  /-- The loop is left when cancellation was requested, or early. -/
  left : m.workLoop = .left ∨ m.loopCompleted = true →
    m.leftEarly = true ∨ m.isCancellationRequested = true
  requested : m.isCancellationRequested = true → m.cancelCalled = true
  called : m.cancelCalled = true → m.isCancellationRequested = true ∨ m.cancelThrew = true
  threw : m.cancelThrew = true → m.leftEarly = true ∧ m.ctsDisposed = true

theorem sound_new : Sound new := by
  constructor <;> simp [new]

theorem Sound.not_disposed {m : State} (h : Sound m) (hloop : m.workLoop ≠ .returned) :
    m.httpClientDisposed = false ∧ m.ctsDisposed = false := by
  constructor
  · by_contra hd
    exact hloop (h.disposed (.inl (by simpa using hd)))
  · by_contra hd
    exact hloop (h.disposed (.inr (by simpa using hd)))

theorem Sound.use {m : State} (h : Sound m) (hloop : m.workLoop ≠ .returned) : m.use = m := by
  obtain ⟨hclient, hcts⟩ := h.not_disposed hloop
  have hsame : (m.usedDisposed || m.httpClientDisposed || m.ctsDisposed) = m.usedDisposed := by
    simp [hclient, hcts]
  unfold State.use
  rw [hsame]

theorem Sound.workLoop {m m' : State} (h : Sound m) {throws : Bool}
    (hstep : workLoop throws m = some m') : Sound m' := by
  have hcompleted := h.completed
  unfold BackendCommComponentBase.workLoop at hstep
  split at hstep
  · next hloop =>
    obtain ⟨hclient, hcts⟩ := h.not_disposed (by simp [hloop])
    rw [h.use (by simp [hloop])] at hstep
    cases hstep
    simp only [hloop, reduceCtorEq, or_self, iff_false] at hcompleted
    exact ⟨h.used, by simp [hcompleted], by simp [hclient, hcts], by simp, by simp [hcompleted],
      h.requested, h.called, h.threw⟩
  · next cancelled hloop =>
    obtain ⟨hclient, hcts⟩ := h.not_disposed (by simp [hloop])
    rw [h.use (by simp [hloop])] at hstep
    simp only [hloop, reduceCtorEq, or_self, iff_false] at hcompleted
    split at hstep
    · cases hstep
      refine ⟨h.used, by simp [hcompleted], by simp [hclient, hcts], by simp, fun _ => ?_,
        h.requested, h.called, fun hthrew => ⟨by simp [(h.threw hthrew).1], (h.threw hthrew).2⟩⟩
      cases hrequested : m.isCancellationRequested <;> simp
    · split at hstep
      · cases hstep
      · cases hstep
        exact ⟨h.used, by simp [hcompleted], by simp [hclient, hcts], by simp, by simp [hcompleted],
          h.requested, h.called, h.threw⟩
  · next hloop =>
    cases hstep
    obtain ⟨hclient, hcts⟩ := h.not_disposed (by simp [hloop])
    exact ⟨h.used, by simp, by simp [hclient, hcts], by simp, fun _ => h.left (.inl hloop),
      h.requested, h.called, h.threw⟩
  · next hloop =>
    cases hstep
    obtain ⟨hclient, hcts⟩ := h.not_disposed (by simp [hloop])
    have hset := hcompleted.mpr (.inl hloop)
    exact ⟨h.used, by simp [hset], by simp, by simp, fun _ => h.left (.inr hset), h.requested,
      h.called, h.threw⟩
  · cases hstep

theorem Sound.cancel {m m' : State} (h : Sound m) (hstep : cancel m = some m') : Sound m' := by
  unfold BackendCommComponentBase.cancel at hstep
  split at hstep
  · cases hstep
  · next hposted =>
    simp only [Bool.or_eq_true, Bool.not_eq_true', not_or, Bool.not_eq_false,
      Bool.not_eq_true] at hposted
    -- It was not called before, so no cancellation was requested.
    have hrequested : m.isCancellationRequested = false := by
      by_contra hr
      have hcalled := hposted.2
      rw [h.requested (by simpa using hr)] at hcalled
      cases hcalled
    split at hstep
    · next hcts =>
      cases hstep
      have hloop := h.disposed (.inr hcts)
      have hearly : m.leftEarly = true := by
        obtain hearly | hr := h.left (.inr (h.completed.mpr (.inr hloop)))
        · exact hearly
        · rw [hrequested] at hr
          cases hr
      exact ⟨h.used, h.completed, h.disposed, h.iterating, h.left, fun _ => rfl, fun _ => .inr rfl,
        fun _ => ⟨hearly, hcts⟩⟩
    · cases hstep
      exact ⟨h.used, h.completed, h.disposed, fun _ => rfl, fun _ => .inr rfl, fun _ => rfl,
        fun _ => .inl rfl, h.threw⟩

/-! ### Disposing of it -/

/-- What the loop and the thread of the pool leave alone. -/
theorem other_keeps {m m' : State} {b : Event} (h : disposeOwner.other b m = some m') :
    m'.cancelPosted = m.cancelPosted ∧ m'.schedulerDisposed = m.schedulerDisposed ∧
      m'.httpClientDisposed = m.httpClientDisposed ∧ m'.ctsDisposed = m.ctsDisposed ∧
      (m.workLoop = .returned → m'.workLoop = .returned) := by
  cases b with
  | workLoop throws =>
    simp only [disposeOwner, workLoop] at h
    split at h
    · next hloop =>
      cases h
      exact ⟨rfl, rfl, rfl, rfl, by simp [hloop]⟩
    · next hloop =>
      split at h
      · cases h
        exact ⟨rfl, rfl, rfl, rfl, by simp [hloop]⟩
      · split at h
        · cases h
        · cases h
          exact ⟨rfl, rfl, rfl, rfl, by simp [hloop]⟩
    · next hloop =>
      cases h
      exact ⟨rfl, rfl, rfl, rfl, by simp [hloop]⟩
    · cases h
      exact ⟨rfl, rfl, rfl, rfl, fun _ => rfl⟩
    · cases h
  | cancel =>
    simp only [disposeOwner, cancel] at h
    split at h
    · cases h
    · split at h <;> cases h <;> exact ⟨rfl, rfl, rfl, rfl, id⟩

theorem Sound.other {m m' : State} (h : Sound m) {b : Event}
    (hstep : disposeOwner.other b m = some m') : Sound m' := by
  cases b with
  | workLoop throws => exact h.workLoop hstep
  | cancel => exact h.cancel hstep

/-- What has been disposed of when the action is at a place. -/
structure Reached (a : Disposing) (m : State) : Prop where
  posted : m.cancelPosted = true ↔ a ≠ .postingCancel
  scheduler : m.schedulerDisposed = true ↔ a = .disposingHttpClient ∨ a = .disposingCts
  httpClient : m.httpClientDisposed = true ↔ a = .disposingCts
  cts : m.ctsDisposed = false
  returned : m.schedulerDisposed = true → m.workLoop = .returned

/-- Everything has been disposed of. -/
structure AllDisposed (m : State) : Prop where
  workLoop : m.workLoop = .returned
  scheduler : m.schedulerDisposed = true
  httpClient : m.httpClientDisposed = true
  cts : m.ctsDisposed = true

theorem Reached.other {m m' : State} {a : Disposing} (h : Reached a m) {b : Event}
    (hstep : disposeOwner.other b m = some m') : Reached a m' := by
  obtain ⟨hposted, hscheduler, hclient, hcts, hloop⟩ := other_keeps hstep
  exact ⟨hposted ▸ h.posted, hscheduler ▸ h.scheduler, hclient ▸ h.httpClient, hcts ▸ h.cts,
    fun hs => hloop (h.returned (hscheduler ▸ hs))⟩

/-- The component before, during and after the dispose action. -/
def phases : DisposableHelper.Phases disposeOwner where
  before m := Sound m ∧ Reached .postingCancel m
  during m a := Sound m ∧ Reached a m
  after m := Sound m ∧ AllDisposed m
  starts m h := h
  goesOn m a m' a' h hact := by
    obtain ⟨hsound, hreached⟩ := h
    obtain ⟨hposted, hscheduler, hclient, hcts, hloop⟩ := hreached
    cases a with
    | postingCancel =>
      cases hact
      exact ⟨{ hsound with }, by simp, by simpa using hscheduler, by simpa using hclient, hcts,
        hloop⟩
    | waiting =>
      simp only [disposeOwner] at hact
      split at hact
      · cases hact
        exact ⟨hsound, by simpa using hposted, by simpa using hscheduler, by simpa using hclient,
          hcts, hloop⟩
      · cases hact
    | disposingScheduler =>
      simp only [disposeOwner] at hact
      split at hact
      · next hreturned =>
        cases hact
        exact ⟨{ hsound with }, by simpa using hposted, by simp, by simpa using hclient, hcts,
          fun _ => hreturned⟩
      · cases hact
    | disposingHttpClient =>
      cases hact
      have hdone : m.schedulerDisposed = true := hscheduler.mpr (.inl rfl)
      exact ⟨{ hsound with disposed := fun _ => hloop hdone }, by simpa using hposted,
        by simpa using hdone, by simp, hcts, hloop⟩
    | disposingCts => cases hact
  returns m a m' h hact := by
    obtain ⟨hsound, hreached⟩ := h
    cases a with
    | disposingCts =>
      cases hact
      have hdone : m.schedulerDisposed = true := hreached.scheduler.mpr (.inr rfl)
      have hloop := hreached.returned hdone
      exact ⟨{ hsound with
          disposed := fun _ => hloop
          threw := fun hthrew => ⟨(hsound.threw hthrew).1, rfl⟩ }, hloop, hdone, hreached.httpClient.mpr rfl,
        rfl⟩
    | postingCancel => cases hact
    | waiting =>
      simp only [disposeOwner] at hact
      split at hact <;> cases hact
    | disposingScheduler =>
      simp only [disposeOwner] at hact
      split at hact <;> cases hact
    | disposingHttpClient => cases hact
  before_other b m m' h hother := ⟨h.1.other hother, h.2.other hother⟩
  during_other b m m' a h hother := ⟨h.1.other hother, h.2.other hother⟩
  after_other b m m' h hother := by
    obtain ⟨-, hscheduler, hclient, hcts, hloop⟩ := other_keeps hother
    exact ⟨h.1.other hother, hloop h.2.workLoop, hscheduler.trans h.2.scheduler,
      hclient.trans h.2.httpClient, hcts.trans h.2.cts⟩

/-! ### The end of the loop -/

/-- How many steps the loop takes at most, once cancellation was requested. -/
def WorkLoop.remaining : WorkLoop → Nat
  | .iterating false => 5
  | .looping => 4
  | .iterating true => 3
  | .left => 2
  | .signalled => 1
  | .returned => 0

theorem workLoop_remaining {m m' : State} (hrequested : m.isCancellationRequested = true)
    {throws : Bool} (h : workLoop throws m = some m') :
    m'.isCancellationRequested = true ∧ m'.workLoop.remaining < m.workLoop.remaining := by
  unfold workLoop at h
  split at h
  · next hloop =>
    cases h
    exact ⟨hrequested, by simp [hloop, hrequested, WorkLoop.remaining]⟩
  · next cancelled hloop =>
    split at h
    · cases h
      refine ⟨hrequested, ?_⟩
      cases cancelled <;> simp [hloop, WorkLoop.remaining]
    · split at h
      · cases h
      · next hcancelled =>
        cases h
        refine ⟨hrequested, ?_⟩
        simp only [Bool.not_eq_true] at hcancelled
        simp [hloop, hcancelled, WorkLoop.remaining]
  · next hloop =>
    cases h
    exact ⟨hrequested, by simp [hloop, WorkLoop.remaining]⟩
  · next hloop =>
    cases h
    exact ⟨hrequested, by simp [hloop, WorkLoop.remaining]⟩
  · cases h

/-- As long as the loop has not completed, it can go on. -/
theorem workLoop_isSome {m : State} (hloop : m.workLoop ≠ .returned) :
    (workLoop true m).isSome := by
  unfold workLoop
  split
  · rfl
  · rfl
  · rfl
  · rfl
  · contradiction

section

variable {ι : Type} [DecidableEq ι]

/-- The step is one of the loop. -/
def isWorkLoop : Option ι × Option Event → Bool
  | (none, some (.workLoop _)) => true
  | _ => false

theorem act_keeps {m m' : State} {a : Disposing} {a' : Option Disposing}
    (h : disposeOwner.act m a = some (m', a')) :
    m'.workLoop = m.workLoop ∧ m'.isCancellationRequested = m.isCancellationRequested := by
  cases a with
  | waiting =>
    simp only [disposeOwner] at h
    split at h <;> cases h
    exact ⟨rfl, rfl⟩
  | disposingScheduler =>
    simp only [disposeOwner] at h
    split at h <;> cases h
    exact ⟨rfl, rfl⟩
  | _ =>
    cases h
    exact ⟨rfl, rfl⟩

/-- Once cancellation was requested, each step of the loop brings it closer to its end, and no
    other step takes it further away. -/
theorem step_remaining
    {s s' : LTS.Threads (Option ι) (Disposable State ι) (DisposableHelper.Place Disposing)}
    {l : Option ι × Option Event} (hrequested : s.shared.owner.isCancellationRequested = true)
    (h : (system ι).step s l = some s') :
    s'.shared.owner.isCancellationRequested = true ∧
      s'.shared.owner.workLoop.remaining + (if isWorkLoop l then 1 else 0) ≤
        s.shared.owner.workLoop.remaining := by
  obtain ⟨i, c⟩ := l
  obtain ⟨m, p, hnext, rfl⟩ := DisposableHelper.step_eq_some.mp h
  rcases i with _ | i
  · obtain ⟨owner, hother, hsame⟩ := Option.map_eq_some_iff.mp hnext
    cases hsame
    obtain ⟨b, rfl, hb⟩ := Option.bind_eq_some_iff.mp hother
    cases b with
    | workLoop throws => exact workLoop_remaining hrequested hb
    | cancel =>
      simp only [disposeOwner, cancel] at hb
      split at hb
      · cases hb
      · split at hb <;> cases hb
        · exact ⟨hrequested, Nat.le_refl _⟩
        · exact ⟨rfl, Nat.le_refl _⟩
  · have hsame : m.owner.workLoop = s.shared.owner.workLoop ∧
        m.owner.isCancellationRequested = s.shared.owner.isCancellationRequested := by
      cases hp : s.place (some i) with
      | called =>
        rw [hp] at hnext
        simp only [DisposableHelper.doOnce] at hnext
        split at hnext <;> cases hnext <;> exact ⟨rfl, rfl⟩
      | disposing a =>
        rw [hp] at hnext
        obtain ⟨⟨owner, a'⟩, hact, hsame⟩ := Option.map_eq_some_iff.mp hnext
        cases hsame
        exact act_keeps hact
      | finishing =>
        rw [hp] at hnext
        simp only [DisposableHelper.doOnce] at hnext
        split at hnext <;> cases hnext <;> exact ⟨rfl, rfl⟩
      | returned b =>
        rw [hp] at hnext
        cases hnext
    refine ⟨hsame.2.trans hrequested, ?_⟩
    rw [hsame.1]
    exact Nat.le_refl _

theorem run_remaining
    {s s' : LTS.Threads (Option ι) (Disposable State ι) (DisposableHelper.Place Disposing)}
    {ls : List (Option ι × Option Event)}
    (hrequested : s.shared.owner.isCancellationRequested = true)
    (h : (system ι).run s ls = some s') :
    s'.shared.owner.workLoop.remaining + ls.countP isWorkLoop ≤
      s.shared.owner.workLoop.remaining := by
  induction ls generalizing s with
  | nil =>
    cases h
    exact Nat.le_refl _
  | cons l ls ih =>
    obtain ⟨s₁, hstep, hrun⟩ := Option.bind_eq_some_iff.mp h
    obtain ⟨hrequested₁, hfirst⟩ := step_remaining hrequested hstep
    have hrest := ih hrequested₁ hrun
    rw [List.countP_cons]
    omega

/-- What is true of the component while calls of `Dispose` overlap with its loop. -/
structure ShutsDown
    (s : LTS.Threads (Option ι) (Disposable State ι) (DisposableHelper.Place Disposing)) :
    Prop where
  /-- The loop never finds disposed what it uses. -/
  used : s.shared.owner.usedDisposed = false
  /-- `Cancel` fails only where the loop had ended on its own. -/
  cancelled : s.shared.owner.cancelThrew = true → s.shared.owner.leftEarly = true
  /-- Who returns true has disposed of everything, after the loop. -/
  disposed : ∀ i, s.place i = .returned true → AllDisposed s.shared.owner
  /-- While the action waits, the loop can go on, and so can the thread of the pool where
      cancellation was not requested yet. -/
  live : ∀ i a, s.place i = .disposing a → (disposeOwner.act s.shared.owner a).isSome ∨
    (workLoop true s.shared.owner).isSome ∧
      (s.shared.owner.isCancellationRequested = true ∨ (cancel s.shared.owner).isSome)
  /-- Once cancellation was requested, the loop takes at most five steps. -/
  bounded : s.shared.owner.isCancellationRequested = true → ∀ ls s',
    (system ι).run s ls = some s' → ls.countP isWorkLoop ≤ 5

theorem shutsDown (ls : List (Option ι × Option Event)) :
    (system ι).Always ShutsDown
      { shared := DisposableHelper.new new, place := fun _ => .called } ls := by
  have hbefore : phases.before new := ⟨sound_new, by constructor <;> simp [new]⟩
  have halways := DisposableHelper.always_disposesOnce (ι := ι) (P := phases) hbefore ls
  refine halways.mono fun s h => ?_
  have hsound : Sound s.shared.owner := by
    obtain h | ⟨a, h⟩ | h := h.phase
    · exact h.1
    · exact h.1
    · exact h.1
  refine ⟨hsound.used, fun hthrew => (hsound.threw hthrew).1, fun i hi => (h.returned i hi).2, ?_, ?_⟩
  · intro i a hi
    obtain ⟨-, hreached⟩ := h.during i a hi
    have hloop (ha : a ≠ .postingCancel) (hnot : s.shared.owner.workLoop ≠ .returned) :
        (workLoop true s.shared.owner).isSome ∧
          (s.shared.owner.isCancellationRequested = true ∨ (cancel s.shared.owner).isSome) := by
      refine ⟨workLoop_isSome hnot, ?_⟩
      have hposted := hreached.posted.mpr ha
      by_cases hcalled : s.shared.owner.cancelCalled
      · refine (hsound.called hcalled).imp_right fun hthrew => ?_
        have hcts := (hsound.threw hthrew).2
        rw [hreached.cts] at hcts
        cases hcts
      · right
        simp [cancel, hposted, hcalled, hreached.cts]
    cases a with
    | postingCancel => exact .inl rfl
    | waiting =>
      by_cases hcompleted : s.shared.owner.loopCompleted
      · left
        simp [disposeOwner, hcompleted]
      · refine .inr (hloop nofun fun hreturned => hcompleted ?_)
        exact hsound.completed.mpr (.inr hreturned)
    | disposingScheduler =>
      by_cases hreturned : s.shared.owner.workLoop = .returned
      · left
        simp [disposeOwner, hreturned]
      · exact .inr (hloop nofun hreturned)
    | disposingHttpClient => exact .inl rfl
    | disposingCts => exact .inl rfl
  · intro hrequested ls s' hrun
    have hle := run_remaining hrequested hrun
    have hmost : s.shared.owner.workLoop.remaining ≤ 5 := by
      cases s.shared.owner.workLoop with
      | iterating cancelled => cases cancelled <;> decide
      | _ => decide
    omega

end

end BackendCommComponentBase

end ApmAgent
