import ApmAgent.Framework.LTS
import ApmAgent.Framework.MachineInt
import ApmAgent.Metrics.FreeAndTotalMemoryProvider

/-! # MetricsCollector

  In every round the collector asks its providers for samples, one after the
  other. It counts how often in a row a provider has failed, and stops asking
  one that has failed `maxTryWithoutSuccess` times. The counter is a property
  of the provider, which its own code may write too.

  `countsFailures_iff` says in which runs the counter is what it is meant to
  be: exactly where no provider writes it in a round that it fails.
-/

namespace ApmAgent

/-! ### Providers -/

/-- How `GetSamples` ends; the samples it returns may be null. -/
inductive Reading where
  | throws
  | returns (samples : Option (List MetricSample))

/-- `!double.IsNaN(value) && !double.IsInfinity(value)`. -/
def MetricSample.isValid (x : MetricSample) : Bool :=
  match x.value with
  | .finite _ => true
  | _ => false

/-- The samples that are added to the metric set. -/
def Reading.validSamples : Reading → List MetricSample
  | .throws => []
  | .returns none => []
  | .returns (some samples) => samples.filter (·.isValid)

/-- `IMetricsProvider`. The fields of a provider are of type `S`; what it finds in the system in
    one round is of type `E`. -/
structure MetricsProvider (S E : Type) where
  isMetricAlreadyCaptured : E → S → Bool
  /-- `GetSamples` on the fields and `ConsecutiveNumberOfFailedReads`, with both as it leaves
      them; `none` if it does not return. -/
  getSamples : E → S → Int32 → Option (Reading × S × Int32)

/-- A provider whose code does not use `ConsecutiveNumberOfFailedReads`. -/
def MetricsProvider.ofReader {S E : Type} (isMetricAlreadyCaptured : E → S → Bool)
    (read : E → S → Option (Reading × S)) : MetricsProvider S E where
  isMetricAlreadyCaptured := isMetricAlreadyCaptured
  getSamples e own failedReads := (read e own).map fun r => (r.1, r.2, failedReads)

/-- What `FreeAndTotalMemoryProvider` finds. -/
inductive MemorySource where
  /-- What `GlobalMemoryStatus` reports. -/
  | windows (success : Bool) (totalMemory freeMemory : UInt64)
  /-- The lines of `/proc/meminfo`, `none` if it cannot be opened. -/
  | linux (meminfo : Option (List String))
  | otherPlatform

namespace FreeAndTotalMemoryProvider

variable [InvariantCulture] (p : FreeAndTotalMemoryProvider)

/-- `GetSamples`, with `ConsecutiveNumberOfFailedReads`. -/
def getSamples : MemorySource → Int32 → Option (Reading × Int32)
  | .windows success total free, failedReads =>
    if !success || total = 0 || free = 0 then some (.returns none, failedReads)
    else
      some (.returns (some
        ((if p.collectFreeMemory then [⟨freeMemory, .finite free.toNat⟩] else []) ++
          if p.collectTotalMemory then [⟨totalMemory, .finite total.toNat⟩] else [])), failedReads)
  | .linux none, failedReads => some (.throws, failedReads)
  | .linux (some meminfo), _ =>
    -- The counter is reset, also if there are no samples.
    (p.getSamplesLinux meminfo).map fun samples => (.returns (some samples), 0)
  | .otherPlatform, failedReads => some (.returns none, failedReads)

/-- The provider as the collector sees it. -/
def provider : MetricsProvider Unit MemorySource where
  isMetricAlreadyCaptured _ _ := true
  getSamples e _ failedReads := (p.getSamples e failedReads).map fun r => (r.1, (), r.2)

end FreeAndTotalMemoryProvider

/-! ### The collector -/

/-- `MetricsCollector.MaxTryWithoutSuccess`. -/
def maxTryWithoutSuccess : Int32 := 5

/-- A provider in the collector's list. -/
structure ProviderState (S E : Type) where
  provider : MetricsProvider S E
  own : S
  consecutiveNumberOfFailedReads : Int32
  /-- Ghost: the failed rounds since the last successful one. -/
  failedRounds : Nat

namespace ProviderState

variable {S E : Type}

/-- A provider that was not asked yet. -/
def new (provider : MetricsProvider S E) (own : S) : ProviderState S E where
  provider := provider
  own := own
  consecutiveNumberOfFailedReads := 0
  failedRounds := 0

/-- Is the provider passed over in a round? -/
def isSkipped (s : ProviderState S E) (e : E) : Bool :=
  s.consecutiveNumberOfFailedReads = maxTryWithoutSuccess ||
    !s.provider.isMetricAlreadyCaptured e s.own

/-- The body of the loop in `CollectMetricsFromProviders`. -/
def collect (s : ProviderState S E) (e : E) :
    Option (List MetricSample × ProviderState S E) :=
  if s.isSkipped e then some ([], s)
  else do
    let (reading, own, failedReads) ←
      s.provider.getSamples e s.own s.consecutiveNumberOfFailedReads
    let samples := reading.validSamples
    if samples ≠ [] then
      pure (samples,
        { s with own := own, consecutiveNumberOfFailedReads := 0, failedRounds := 0 })
    else
      -- Without valid samples, and where `GetSamples` has thrown.
      pure ([],
        { s with
          own := own
          consecutiveNumberOfFailedReads := failedReads + 1
          failedRounds := s.failedRounds + 1 })

end ProviderState

variable {S E : Type}

/-- `CollectMetricsFromProviders`: the samples of all providers, `none` if one of them does not
    return. -/
def collectMetricsFromProviders (e : E) :
    List (ProviderState S E) → Option (List MetricSample × List (ProviderState S E))
  | [] => some ([], [])
  | s :: providers => do
    let (samples, s) ← s.collect e
    let (others, providers) ← collectMetricsFromProviders e providers
    pure (samples ++ others, s :: providers)

/-- The collection rounds. A round in which recording is off, or that finds another one still
    going on, asks nobody and is left out. -/
def collectorSystem (S E : Type) : LTS.System (List (ProviderState S E)) E where
  init providers := ∃ ps : List (MetricsProvider S E × S),
    providers = ps.map fun p => .new p.1 p.2
  step providers e := (collectMetricsFromProviders e providers).map (·.2)

/-! ### The law of the counter -/

namespace ProviderState

variable {s s' : ProviderState S E} {e : E} {samples : List MetricSample}

/-- The counter counts the failed rounds since the last success, and decides by them whether the
    provider is asked. -/
structure CountsFailures (s : ProviderState S E) : Prop where
  nonneg : 0 ≤ s.consecutiveNumberOfFailedReads
  le_max : s.consecutiveNumberOfFailedReads ≤ maxTryWithoutSuccess
  eq_failedRounds : s.consecutiveNumberOfFailedReads.toInt = s.failedRounds
  skipped_iff : ∀ e, s.provider.isMetricAlreadyCaptured e s.own = true →
    (s.isSkipped e = true ↔ 5 ≤ s.failedRounds)

/-- In a round that the provider is asked and fails, its own code leaves the counter as it was. -/
def KeepsCounter (s : ProviderState S E) (e : E) : Prop :=
  s.isSkipped e = false → ∀ reading own failedReads,
    s.provider.getSamples e s.own s.consecutiveNumberOfFailedReads =
      some (reading, own, failedReads) →
    reading.validSamples = [] → failedReads = s.consecutiveNumberOfFailedReads

/-- The range and what the provider is asked for follow from the count. -/
theorem countsFailures_iff_count :
    s.CountsFailures ↔
      s.consecutiveNumberOfFailedReads.toInt = s.failedRounds ∧ s.failedRounds ≤ 5 := by
  have hmax : maxTryWithoutSuccess.toInt = 5 := by decide
  constructor
  · intro h
    have hle := Int32.le_iff_toInt_le.mp h.le_max
    exact ⟨h.eq_failedRounds, by have := h.eq_failedRounds; omega⟩
  · rintro ⟨heq, hle⟩
    refine ⟨Int32.le_iff_toInt_le.mpr ?_, Int32.le_iff_toInt_le.mpr (by omega), heq, ?_⟩
    · rw [heq]
      exact Int.natCast_nonneg _
    · intro e hcaptured
      have hskip : s.isSkipped e = true ↔
          s.consecutiveNumberOfFailedReads = maxTryWithoutSuccess := by
        simp [isSkipped, hcaptured]
      rw [hskip, ← Int32.toInt_inj, hmax, heq]
      omega

theorem countsFailures_new (provider : MetricsProvider S E) (own : S) :
    (new provider own).CountsFailures :=
  countsFailures_iff_count.mpr ⟨rfl, Nat.zero_le _⟩

/-- What a round does to one provider. -/
theorem collect_cases (h : s.collect e = some (samples, s')) :
    (s.isSkipped e = true ∧ samples = [] ∧ s' = s) ∨
    (s.isSkipped e = false ∧ ∃ reading own failedReads,
      s.provider.getSamples e s.own s.consecutiveNumberOfFailedReads =
        some (reading, own, failedReads) ∧
      ((reading.validSamples ≠ [] ∧ samples = reading.validSamples ∧
          s' = { s with own := own, consecutiveNumberOfFailedReads := 0, failedRounds := 0 }) ∨
        (reading.validSamples = [] ∧ samples = [] ∧
          s' = { s with
            own := own
            consecutiveNumberOfFailedReads := failedReads + 1
            failedRounds := s.failedRounds + 1 }))) := by
  unfold collect at h
  cases hskip : s.isSkipped e with
  | true =>
    rw [hskip, if_pos rfl] at h
    cases h
    exact .inl ⟨rfl, rfl, rfl⟩
  | false =>
    rw [hskip, if_neg Bool.false_ne_true] at h
    obtain ⟨⟨reading, own, failedReads⟩, hread, h⟩ := Option.bind_eq_some_iff.mp h
    refine .inr ⟨rfl, reading, own, failedReads, hread, ?_⟩
    simp only at h
    by_cases hvalid : reading.validSamples = []
    · rw [if_neg (fun hne => hne hvalid)] at h
      cases h
      exact .inr ⟨hvalid, rfl, rfl⟩
    · rw [if_pos hvalid] at h
      cases h
      exact .inl ⟨hvalid, rfl, rfl⟩

/-- A round keeps the law exactly if a failing provider leaves the counter alone. -/
theorem countsFailures_collect_iff (hs : s.CountsFailures)
    (h : s.collect e = some (samples, s')) : s'.CountsFailures ↔ s.KeepsCounter e := by
  obtain ⟨hcount, hle⟩ := countsFailures_iff_count.mp hs
  rcases collect_cases h with ⟨hskip, -, rfl⟩ | ⟨hread, reading, own, failedReads, hget, hcase⟩
  · -- Nobody is asked.
    exact ⟨fun _ hnot => absurd hskip (by simp [hnot]), fun _ => hs⟩
  rcases hcase with ⟨hvalid, -, rfl⟩ | ⟨hfailed, -, rfl⟩
  · -- A success starts from zero, whatever was written before.
    refine ⟨fun _ _ r o w hr hempty => ?_, fun _ => countsFailures_iff_count.mpr ⟨rfl, ?_⟩⟩
    · rw [hget] at hr
      cases hr
      exact absurd hempty hvalid
    · exact Nat.zero_le 5
  · have hkeeps : s.KeepsCounter e ↔ failedReads = s.consecutiveNumberOfFailedReads := by
      constructor
      · intro hkeeps
        exact hkeeps hread reading own failedReads hget hfailed
      · rintro rfl - r o w hr -
        rw [hget] at hr
        cases hr
        rfl
    -- A provider that is asked has failed less than five times.
    have hlt : s.failedRounds < 5 := by
      refine Nat.lt_of_le_of_ne hle fun hfive => ?_
      have hmax : s.consecutiveNumberOfFailedReads = maxTryWithoutSuccess :=
        Int32.toInt_inj.mp (by rw [hcount, hfive]; rfl)
      simp [isSkipped, hmax] at hread
    have hnext : (s.consecutiveNumberOfFailedReads + 1).toInt = s.failedRounds + 1 := by
      exact MachineInt.toInt_add_one hcount (by omega)
    rw [hkeeps, countsFailures_iff_count, ← Int32.add_left_inj 1, ← Int32.toInt_inj, hnext]
    exact ⟨fun hcounts => hcounts.1, fun heq => ⟨heq, hlt⟩⟩

end ProviderState

/-- Every provider of the list is collected from by itself. -/
theorem collectMetricsFromProviders_getElem? {e : E}
    {providers providers' : List (ProviderState S E)} {samples : List MetricSample}
    (h : collectMetricsFromProviders e providers = some (samples, providers')) (i : Nat) :
    Option.Rel (fun s s' => ∃ own, s.collect e = some (own, s')) providers[i]? providers'[i]? := by
  induction providers generalizing samples providers' i with
  | nil =>
    cases h
    exact .none
  | cons s providers ih =>
    obtain ⟨⟨own, s₁⟩, hs, h⟩ := Option.bind_eq_some_iff.mp h
    obtain ⟨⟨others, rest⟩, hrest, h⟩ := Option.bind_eq_some_iff.mp h
    cases h
    cases i with
    | zero => exact .some ⟨own, hs⟩
    | succ i => exact ih hrest i

/-- In all states of a run the counter of a provider is as it should be, if and only if the
    provider leaves it alone in every round of the run that it fails. -/
theorem countsFailures_iff (ps : List (MetricsProvider S E × S)) (i : Nat) (rounds : List E) :
    (collectorSystem S E).Always (fun providers => ∀ s ∈ providers[i]?, s.CountsFailures)
        (ps.map fun p => .new p.1 p.2) rounds ↔
      (collectorSystem S E).Along (fun providers e => ∀ s ∈ providers[i]?, s.KeepsCounter e)
        (ps.map fun p => .new p.1 p.2) rounds := by
  refine LTS.System.always_iff_along (I := fun _ => True) (fun _ _ _ _ _ => trivial) ?_ trivial
    ?_ rounds
  · intro providers e providers' _ hcounts hstep
    obtain ⟨⟨samples, rest⟩, hcollect, rfl⟩ := Option.map_eq_some_iff.mp hstep
    have hrel := collectMetricsFromProviders_getElem? hcollect i
    cases hi : providers[i]? with
    | none =>
      rw [hi] at hrel
      cases hi' : rest[i]? with
      | none => simp
      | some s' => simp [hi'] at hrel
    | some s =>
      rw [hi] at hrel
      cases hi' : rest[i]? with
      | none => simp [hi'] at hrel
      | some s' =>
        rw [hi'] at hrel
        obtain ⟨own, hs⟩ := Option.rel_some_some.mp hrel
        simpa [hi'] using
          ProviderState.countsFailures_collect_iff (hcounts s (by simp [hi])) hs
  · intro s hs
    obtain ⟨p, -, rfl⟩ := Option.map_eq_some_iff.mp (List.getElem?_map.symm.trans hs)
    exact ProviderState.countsFailures_new p.1 p.2

/-! ### The providers -/

/-- A provider whose code does not use the counter keeps it in every round. -/
theorem keepsCounter_ofReader {s : ProviderState S E} {isMetricAlreadyCaptured : E → S → Bool}
    {read : E → S → Option (Reading × S)}
    (h : s.provider = .ofReader isMetricAlreadyCaptured read) (e : E) : s.KeepsCounter e := by
  rintro - reading own failedReads hread -
  rw [h] at hread
  obtain ⟨r, -, hr⟩ := Option.map_eq_some_iff.mp hread
  cases hr
  rfl

namespace FreeAndTotalMemoryProvider

variable [InvariantCulture] {p : FreeAndTotalMemoryProvider} {meminfo : List String}
  {samples : List MetricSample}

/-- The samples of a line are finite numbers. -/
theorem lineSamples_isValid {line : String} {x : MetricSample} (hx : x ∈ p.lineSamples line) :
    x.isValid = true := by
  rcases List.mem_append.mp hx with h | h <;>
  · unfold entrySamples at h
    split at h
    · obtain ⟨res, -, rfl⟩ := Option.map_eq_some_iff.mp (Option.mem_toList.mp h)
      rfl
    · cases h

/-- So is everything that is returned. -/
theorem ReturnsLinux.isValid (h : p.ReturnsLinux meminfo samples) :
    ∀ x ∈ samples, x.isValid = true := by
  have hread : ∀ s : ReadState, (∀ x ∈ s.retVal, x.isValid = true) →
      ∀ x ∈ (p.readEntries s).retVal, x.isValid = true := by
    intro s hs x hx
    unfold readEntries at hx
    split at hx
    · exact hs x hx
    · rcases List.mem_append.mp hx with hold | hnew
      · exact hs x hold
      · exact lineSamples_isValid hnew
  refine Loop.Returns.of_invariant (I := fun s => ∀ x ∈ s.retVal, x.isValid = true)
    (P := fun samples => ∀ x ∈ samples, x.isValid = true) ?_ ?_ ?_ h
  · intro s s' hs hbody
    unfold loopBody at hbody
    split at hbody
    · cases hbody
    · simp only at hbody
      split at hbody
      · cases hbody
      · cases hbody
        exact hread s hs
  · intro s r hs hbody
    unfold loopBody at hbody
    split at hbody
    · cases hbody
      exact hs
    · simp only at hbody
      split at hbody
      · cases hbody
        exact hread s hs
      · cases hbody
  · simp [ReadState.start, ReadState.readLine]

/-- On Linux the memory provider keeps the counter in a round exactly if it finds a sample or
    has not failed in the round before. -/
theorem keepsCounter_linux_iff {s : ProviderState Unit MemorySource}
    (hprovider : s.provider = p.provider)
    (hasked : s.isSkipped (.linux (some meminfo)) = false)
    (hreturns : p.ReturnsLinux meminfo samples) :
    s.KeepsCounter (.linux (some meminfo)) ↔
      samples ≠ [] ∨ s.consecutiveNumberOfFailedReads = 0 := by
  have hget : ∀ failedReads, s.provider.getSamples (.linux (some meminfo)) s.own failedReads =
      some (.returns (some samples), (), 0) := by
    intro failedReads
    have hlinux := (getSamplesLinux_eq_some meminfo samples).mpr hreturns
    simp only [hprovider, provider, getSamples, hlinux, Option.map_some]
  have hempty : (Reading.returns (some samples)).validSamples = samples :=
    List.filter_eq_self.mpr hreturns.isValid
  constructor
  · intro hkeeps
    by_contra hnot
    simp only [not_or, not_not] at hnot
    exact hnot.2 (hkeeps hasked _ _ _ (hget _) (hempty.trans hnot.1)).symm
  · rintro h - reading own failedReads hread hfailed
    rw [hget] at hread
    cases hread
    exact (h.resolve_left (not_not.mpr (hempty.symm.trans hfailed))).symm

/-- A container that shows the names only. -/
def withoutValues : List String := ["MemTotal:", "MemAvailable:"]

omit [InvariantCulture] in
/-- Six rounds without a single sample, and the memory provider is still asked. -/
theorem countsFailures_counterexample :
    ¬ ∀ (_ : InvariantCulture) (p : FreeAndTotalMemoryProvider) (rounds : List MemorySource),
      (collectorSystem Unit MemorySource).Always
        (fun providers => ∀ s ∈ providers[0]?, s.CountsFailures) [.new p.provider ()] rounds := by
  intro h
  let round : MemorySource := .linux (some withoutValues)
  obtain ⟨providers, hrun, hcount⟩ : ∃ providers,
      (@collectorSystem Unit MemorySource).run
        [.new (@provider .ascii ⟨true, true⟩) ()] (.replicate 6 round) = some providers ∧
      providers[0]?.map (fun s => (s.consecutiveNumberOfFailedReads, s.failedRounds)) =
        some (1, 6) := by
    refine ⟨_, rfl, ?_⟩
    decide +kernel
  have hlast := (h .ascii ⟨true, true⟩ (.replicate 6 round)).last hrun
  obtain ⟨s, hs, hs'⟩ := Option.map_eq_some_iff.mp hcount
  have heq := (hlast s hs).eq_failedRounds
  simp only [Prod.mk.injEq] at hs'
  rw [hs'.1, hs'.2] at heq
  revert heq
  decide

end FreeAndTotalMemoryProvider

end ApmAgent
