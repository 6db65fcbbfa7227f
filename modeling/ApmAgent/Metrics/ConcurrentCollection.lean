import ApmAgent.Framework.Threads
import ApmAgent.Metrics.MetricsCollector

/-! # Collecting metrics on several threads

  The timer calls `CollectAllMetrics` on a thread of its own each time it
  elapses, whether or not the last call has returned. A spin lock keeps the
  calls apart: a call that finds it taken returns at once.

  `collectsInRounds`: whatever the scheduler does, at most one call collects,
  `Release` never throws, and what has become of the providers and what was
  handed to the payload sender is the outcome of some rounds, one after the
  other.
-/

namespace ApmAgent

/-! ### `AgentSpinLock` -/

structure AgentSpinLock where
  /-- `_isAcquiredBoolValueAsInt`. -/
  isAcquiredBoolValueAsInt : Int32
  deriving DecidableEq, Repr

namespace AgentSpinLock

def falseValueAsInt : Int32 := 0

def trueValueAsInt : Int32 := 1

def new : AgentSpinLock := ⟨falseValueAsInt⟩

def intToBool (i : Int32) : Bool := i = trueValueAsInt

def isAcquired (l : AgentSpinLock) : Bool := intToBool l.isAcquiredBoolValueAsInt

/-- `TryAcquire`, one `CompareExchange`. -/
def tryAcquire (l : AgentSpinLock) : Bool × AgentSpinLock :=
  if l.isAcquiredBoolValueAsInt = falseValueAsInt then (true, ⟨trueValueAsInt⟩) else (false, l)

/-- The write of `Release`, after its check. -/
def release (_ : AgentSpinLock) : AgentSpinLock := ⟨falseValueAsInt⟩

theorem tryAcquire_cases (l : AgentSpinLock) :
    (l.isAcquired = false ∧ (l.tryAcquire).1 = true ∧ (l.tryAcquire).2.isAcquired = true) ∨
      l.tryAcquire = (false, l) := by
  unfold tryAcquire
  split
  · next h =>
    refine .inl ⟨?_, rfl, by decide⟩
    unfold isAcquired
    rw [h]
    decide
  · exact .inr rfl

theorem isAcquired_new : new.isAcquired = false := by decide

theorem isAcquired_release (l : AgentSpinLock) : l.release.isAcquired = false := by
  unfold release
  decide

end AgentSpinLock

/-! ### The calls -/

/-- Where a call of `CollectAllMetrics` is. -/
inductive CollectPlace (E : Type) where
  /-- The thread is in no call. -/
  | idle
  /-- `TryAcquireWithDisposable` has acquired the lock. -/
  | acquired
  /-- `CollectMetricsFromProviders` is at the provider with this index. -/
  | collecting (e : E) (index : Nat) (samples : List MetricSample)
  /-- `QueueMetrics` is called. -/
  | queueing (e : E) (samples : List MetricSample)
  /-- `Acquisition.Dispose`: before the check of `Release`. -/
  | disposing
  /-- Before the write of `Release`. -/
  | releasing

/-- What the environment decides for a call. -/
structure CollectChoice (E : Type) where
  /-- `CurrentSnapshot.Recording`. -/
  recording : Bool
  /-- What the providers find in the system. -/
  e : E
  queueMetricsThrows : Bool
  timestampNow : Int

/-- What the calls share. -/
structure CollectorState (S E : Type) where
  isCollectionInProgress : AgentSpinLock
  metricsProviders : List (ProviderState S E)
  /-- The metric sets `QueueMetrics` was called with, with their timestamps. -/
  queued : List (Int × List MetricSample)
  /-- `_timer.Stop()` was called. -/
  timerStopped : Bool
  /-- `Release` has thrown. -/
  releaseThrew : Bool

namespace CollectorState

variable {S E : Type}

/-- A collector that was just created. -/
def new (providers : List (ProviderState S E)) : CollectorState S E where
  isCollectionInProgress := .new
  metricsProviders := providers
  queued := []
  timerStopped := false
  releaseThrew := false

/-- The next step of a call. A call waits only where a provider does not return. -/
def collectAllMetrics {ι : Type} :
    LTS.ThreadStep ι (CollectChoice E) (CollectorState S E) (CollectPlace E)
  | _, _, m, .idle =>
    let acq := m.isCollectionInProgress.tryAcquire
    some ({ m with isCollectionInProgress := acq.2 }, if acq.1 then .acquired else .idle)
  | _, c, m, .acquired => some (m, if c.recording then .collecting c.e 0 [] else .disposing)
  | _, _, m, .collecting e index samples =>
    match m.metricsProviders[index]? with
    | none => some (m, if samples = [] then .disposing else .queueing e samples)
    | some provider =>
      (provider.collect e).map fun (own, provider) =>
        ({ m with metricsProviders := m.metricsProviders.set index provider },
          .collecting e (index + 1) (samples ++ own))
  | _, c, m, .queueing _ samples =>
    if c.queueMetricsThrows then some ({ m with timerStopped := true }, .disposing)
    else some ({ m with queued := m.queued ++ [(c.timestampNow, samples)] }, .disposing)
  | _, _, m, .disposing =>
    if m.isCollectionInProgress.isAcquired then some (m, .releasing)
    else some ({ m with releaseThrew := true }, .idle)
  | _, _, m, .releasing =>
    some ({ m with isCollectionInProgress := m.isCollectionInProgress.release }, .idle)

end CollectorState

/-- The calls of any number of threads on one collector. -/
def concurrentCollector {S E : Type} (ι : Type) [DecidableEq ι]
    (providers : List (ProviderState S E)) :
    LTS.System (LTS.Threads ι (CollectorState S E) (CollectPlace E)) (ι × CollectChoice E) :=
  LTS.threadSystem (· = .new providers) .idle CollectorState.collectAllMetrics

/-! ### Rounds -/

/-- A round that is not interrupted. -/
structure CollectRound (E : Type) where
  e : E
  queueMetricsThrows : Bool
  timestampNow : Int

section

variable {S E : Type}

/-- The metric set a round hands over, if any. -/
def CollectRound.metricSets (round : CollectRound E) (samples : List MetricSample) :
    List (Int × List MetricSample) :=
  if samples = [] || round.queueMetricsThrows then [] else [(round.timestampNow, samples)]

/-- Rounds one after the other: what they hand over, and what becomes of the providers. -/
def runRounds : List (CollectRound E) → List (ProviderState S E) →
    Option (List (Int × List MetricSample) × List (ProviderState S E))
  | [], providers => some ([], providers)
  | round :: rounds, providers => do
    let (samples, providers) ← collectMetricsFromProviders round.e providers
    let (sets, providers) ← runRounds rounds providers
    pure (round.metricSets samples ++ sets, providers)

/-- The providers go through the states of the sequential collector. -/
theorem runRounds_providers (rounds : List (CollectRound E))
    (providers : List (ProviderState S E)) :
    (runRounds rounds providers).map (·.2) =
      (collectorSystem S E).run providers (rounds.map (·.e)) := by
  induction rounds generalizing providers with
  | nil => rfl
  | cons round rounds ih =>
    simp only [List.map_cons, LTS.System.run_cons, runRounds, collectorSystem]
    rcases collectMetricsFromProviders round.e providers with _ | ⟨samples, providers'⟩
    · rfl
    · simp only [Option.map_some, Option.bind_some, Option.bind_eq_bind]
      have ih := ih providers'
      unfold collectorSystem at ih
      rw [← ih]
      cases runRounds rounds providers' <;> rfl

theorem runRounds_concat {rounds : List (CollectRound E)} (round : CollectRound E)
    {initial providers providers' : List (ProviderState S E)}
    {sets : List (Int × List MetricSample)} {samples : List MetricSample}
    (h : runRounds rounds initial = some (sets, providers))
    (hround : collectMetricsFromProviders round.e providers = some (samples, providers')) :
    runRounds (rounds ++ [round]) initial =
      some (sets ++ round.metricSets samples, providers') := by
  induction rounds generalizing initial sets with
  | nil =>
    cases h
    simp [runRounds, hround]
  | cons r rounds ih =>
    simp only [runRounds, Option.bind_eq_bind, Option.bind_eq_some_iff] at h
    obtain ⟨⟨samples₁, providers₁⟩, hfirst, ⟨sets₁, rest⟩, hrest, hsame⟩ := h
    cases hsame
    simp [runRounds, hfirst, ih hrest]

/-- The providers up to the one with an index have been asked, the others not. -/
def AskedUpTo (e : E) (index : Nat) (before : List (ProviderState S E))
    (samples : List MetricSample) (now : List (ProviderState S E)) : Prop :=
  ∃ asked, collectMetricsFromProviders e (before.take index) = some (samples, asked) ∧
    now = asked ++ before.drop index ∧ asked.length = index

theorem collectMetricsFromProviders_concat {e : E} {providers asked : List (ProviderState S E)}
    {p p' : ProviderState S E} {samples own : List MetricSample}
    (h : collectMetricsFromProviders e providers = some (samples, asked))
    (hp : p.collect e = some (own, p')) :
    collectMetricsFromProviders e (providers ++ [p]) = some (samples ++ own, asked ++ [p']) := by
  induction providers generalizing samples asked with
  | nil =>
    cases h
    simp [collectMetricsFromProviders, hp]
  | cons q providers ih =>
    simp only [collectMetricsFromProviders, Option.bind_eq_bind, Option.bind_eq_some_iff] at h
    obtain ⟨⟨own₁, q'⟩, hq, ⟨others, rest⟩, hrest, hsame⟩ := h
    cases hsame
    simp [collectMetricsFromProviders, hq, ih hrest]

theorem askedUpTo_zero (e : E) (providers : List (ProviderState S E)) :
    AskedUpTo e 0 providers [] providers :=
  ⟨[], rfl, rfl, rfl⟩

/-- Asking the next provider. -/
theorem AskedUpTo.next {e : E} {index : Nat} {before now : List (ProviderState S E)}
    {samples own : List MetricSample} {p p' : ProviderState S E}
    (h : AskedUpTo e index before samples now) (hindex : now[index]? = some p)
    (hp : p.collect e = some (own, p')) :
    AskedUpTo e (index + 1) before (samples ++ own) (now.set index p') := by
  obtain ⟨asked, hasked, rfl, hlen⟩ := h
  have hdrop : before.drop index = p :: before.drop (index + 1) := by
    rw [List.getElem?_append_right (by omega), hlen, Nat.sub_self, ← List.head?_eq_getElem?,
      List.head?_drop] at hindex
    obtain ⟨hlt, hget⟩ := List.getElem?_eq_some_iff.mp hindex
    rw [List.drop_eq_getElem_cons hlt, hget]
  have htake : before.take (index + 1) = before.take index ++ [p] := by
    rw [List.take_add_one, ← List.head?_drop, hdrop]
    rfl
  refine ⟨asked ++ [p'], ?_, ?_, by simp [hlen]⟩
  · rw [htake]
    exact collectMetricsFromProviders_concat hasked hp
  · rw [hdrop, List.set_append_right _ _ (by omega), hlen, Nat.sub_self, List.set_cons_zero,
      List.append_assoc, List.singleton_append]

/-- When there is no further provider, the round is complete. -/
theorem AskedUpTo.complete {e : E} {index : Nat} {before now : List (ProviderState S E)}
    {samples : List MetricSample} (h : AskedUpTo e index before samples now)
    (hindex : now[index]? = none) :
    collectMetricsFromProviders e before = some (samples, now) := by
  obtain ⟨asked, hasked, rfl, hlen⟩ := h
  have hdrop : before.drop index = [] := by
    rw [List.getElem?_eq_none_iff, List.length_append, hlen] at hindex
    exact List.length_eq_zero_iff.mp (by omega)
  have hall : before.take index = before :=
    List.take_of_length_le (List.drop_eq_nil_iff.mp hdrop)
  rw [hdrop, List.append_nil, ← hasked, hall]

/-! ### The lock keeps the rounds apart -/

/-- The call has acquired the lock. -/
def CollectPlace.HoldsLock : CollectPlace E → Prop
  | .idle => False
  | _ => True

/-- What is there is the outcome of some rounds. -/
def OutcomeOfRounds (initial : List (ProviderState S E)) (m : CollectorState S E)
    (providers : List (ProviderState S E)) : Prop :=
  ∃ rounds, runRounds rounds initial = some (m.queued, providers)

/-- What the call that holds the lock has done so far. -/
def RoundInProgress (initial : List (ProviderState S E)) (m : CollectorState S E) :
    CollectPlace E → Prop
  | .idle => True
  | .acquired | .disposing | .releasing => OutcomeOfRounds initial m m.metricsProviders
  | .collecting e index samples =>
    ∃ before, OutcomeOfRounds initial m before ∧
      AskedUpTo e index before samples m.metricsProviders
  | .queueing e samples =>
    samples ≠ [] ∧ ∃ before, OutcomeOfRounds initial m before ∧
      collectMetricsFromProviders e before = some (samples, m.metricsProviders)

variable {initial : List (ProviderState S E)}

theorem isLock_collectAllMetrics {ι : Type} :
    LTS.Threads.IsLock (fun m => m.isCollectionInProgress.isAcquired = true)
      CollectPlace.HoldsLock (fun m p => m.releaseThrew = false ∧ RoundInProgress initial m p)
      (fun m => m.releaseThrew = false ∧ OutcomeOfRounds initial m m.metricsProviders)
      (fun _ _ _ => True) (CollectorState.collectAllMetrics (S := S) (E := E) (ι := ι)) where
  knows _ _ _ _ _ _ _ _ _ := ⟨trivial, fun _ _ _ _ => trivial⟩
  other i c m p m' p' hnext hholds _ := by
    cases p with
    | idle =>
      cases hnext
      rcases m.isCollectionInProgress.tryAcquire_cases with ⟨hfree, hacquired, hlocked⟩ | hbusy
      · refine .inr ?_
        rw [if_pos hacquired]
        exact ⟨trivial, by simp [hfree], hlocked, id⟩
      · refine .inl ?_
        rw [hbusy]
        exact ⟨id, .refl m⟩
    | _ => exact absurd trivial hholds
  holder i c m p m' p' hnext hholds _ hinside hlocked := by
    obtain ⟨hthrew, hround⟩ := hinside
    cases p with
    | idle => exact hholds.elim
    | acquired =>
      cases hnext
      left
      by_cases hrecording : c.recording
      · rw [if_pos hrecording]
        exact ⟨trivial, hlocked, hthrew, _, hround, askedUpTo_zero _ _⟩
      · rw [if_neg hrecording]
        exact ⟨trivial, hlocked, hthrew, hround⟩
    | collecting e index samples =>
      left
      obtain ⟨before, hbefore, hasked⟩ := hround
      simp only [CollectorState.collectAllMetrics] at hnext
      split at hnext
      · next hindex =>
        have hcomplete := hasked.complete hindex
        cases hnext
        by_cases hsamples : samples = []
        · -- Nothing to hand over: the round has an outcome all the same.
          obtain ⟨rounds, hrounds⟩ := hbefore
          rw [if_pos hsamples]
          refine ⟨trivial, hlocked, hthrew, rounds ++ [⟨e, false, 0⟩], ?_⟩
          have hconcat := runRounds_concat ⟨e, false, 0⟩ hrounds hcomplete
          simpa [CollectRound.metricSets, hsamples] using hconcat
        · rw [if_neg hsamples]
          exact ⟨trivial, hlocked, hthrew, hsamples, before, hbefore, hcomplete⟩
      · next provider hindex =>
        obtain ⟨⟨own, provider'⟩, hcollect, hsame⟩ := Option.map_eq_some_iff.mp hnext
        cases hsame
        exact ⟨trivial, hlocked, hthrew, before, hbefore, hasked.next hindex hcollect⟩
    | queueing e samples =>
      left
      obtain ⟨hsamples, before, ⟨rounds, hrounds⟩, hcomplete⟩ := hround
      have hconcat (throws : Bool) :=
        runRounds_concat ⟨e, throws, c.timestampNow⟩ hrounds hcomplete
      simp only [CollectorState.collectAllMetrics] at hnext
      split at hnext
      · cases hnext
        refine ⟨trivial, hlocked, hthrew, rounds ++ [⟨e, true, c.timestampNow⟩], ?_⟩
        simpa [CollectRound.metricSets] using hconcat true
      · cases hnext
        refine ⟨trivial, hlocked, hthrew, rounds ++ [⟨e, false, c.timestampNow⟩], ?_⟩
        simpa [CollectRound.metricSets, hsamples] using hconcat false
    | disposing =>
      left
      simp only [CollectorState.collectAllMetrics, hlocked, if_true] at hnext
      cases hnext
      exact ⟨trivial, hlocked, hthrew, hround⟩
    | releasing =>
      right
      cases hnext
      exact ⟨id, by simp [AgentSpinLock.isAcquired_release], hthrew, hround⟩

/-! ### Every interleaving -/

variable {ι : Type} [DecidableEq ι]

/-- What is true of a collector whose calls overlap. -/
structure CollectsInRounds (initial : List (ProviderState S E))
    (s : LTS.Threads ι (CollectorState S E) (CollectPlace E)) : Prop where
  /-- At most one call is between `TryAcquire` and `Release`. -/
  exclusive : ∀ i j, (s.place i).HoldsLock → (s.place j).HoldsLock → i = j
  acquired_iff : s.shared.isCollectionInProgress.isAcquired = true ↔
    ∃ i, (s.place i).HoldsLock
  releases : s.shared.releaseThrew = false
  /-- What was handed over comes from complete rounds. -/
  queued : ∃ providers, OutcomeOfRounds initial s.shared providers
  /-- Between two rounds the providers are as complete rounds leave them. -/
  providers : (∀ i, ¬(s.place i).HoldsLock) →
    OutcomeOfRounds initial s.shared s.shared.metricsProviders

omit [DecidableEq ι] in
theorem RoundInProgress.queued {m : CollectorState S E} {p : CollectPlace E}
    (h : RoundInProgress initial m p) (hholds : p.HoldsLock) :
    ∃ providers, OutcomeOfRounds initial m providers := by
  cases p with
  | idle => exact hholds.elim
  | acquired => exact ⟨_, h⟩
  | collecting e index samples => exact ⟨h.choose, h.choose_spec.1⟩
  | queueing e samples => exact ⟨h.2.choose, h.2.choose_spec.1⟩
  | disposing => exact ⟨_, h⟩
  | releasing => exact ⟨_, h⟩

/-- The overlapping calls of any number of threads come to rounds, one after the other. -/
theorem collectsInRounds (initial : List (ProviderState S E))
    (ls : List (ι × CollectChoice E)) :
    (concurrentCollector ι initial).Always (CollectsInRounds initial)
      { shared := .new initial, place := fun _ => .idle } ls := by
  have hstart : ∀ m : CollectorState S E, m = .new initial →
      ¬m.isCollectionInProgress.isAcquired = true ∧ (m.releaseThrew = false ∧
        OutcomeOfRounds initial m m.metricsProviders) ∧ ∀ _ : ι, True := by
    rintro _ rfl
    exact ⟨Bool.eq_false_iff.mp AgentSpinLock.isAcquired_new, ⟨rfl, [], rfl⟩, fun _ => trivial⟩
  have hinit : (concurrentCollector ι initial).init ⟨.new initial, fun _ => .idle⟩ :=
    ⟨rfl, fun _ => rfl⟩
  have hguarded := LTS.Threads.always_guarded isLock_collectAllMetrics hstart id hinit ls
  refine hguarded.mono fun s h => ⟨h.exclusive, h.locked_iff, ?_, ?_, fun hnone =>
    (h.outside hnone).2⟩
  -- Some call holds the lock, or the lock is free.
  · by_cases hheld : ∃ i, (s.place i).HoldsLock
    · obtain ⟨i, hi⟩ := hheld
      exact (h.inside i hi).1
    · exact (h.outside (not_exists.mp hheld)).1
  · by_cases hheld : ∃ i, (s.place i).HoldsLock
    · obtain ⟨i, hi⟩ := hheld
      exact (h.inside i hi).2.queued hi
    · exact ⟨_, (h.outside (not_exists.mp hheld)).2⟩

end

end ApmAgent
