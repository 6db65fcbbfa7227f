import ApmAgent.BackendComm.CentralConfigOverlay

/-! # What ends the polling loop

  The work loop is never restarted, so an exception that leaves an iteration
  ends central configuration for the life of the process. Disposal should be
  the only one. Two others can: the `catch` block throws every cancellation
  again, that of `HttpClient.Timeout` included, and the delay after it is not
  in a `try` block at all.
-/

namespace ApmAgent

/-- The loop goes on, or ended because the agent was disposed. -/
def WorkLoop.OnlyDisposalExits (s : WorkLoop) : Prop :=
  ∀ e, s.exited = some e → e = .operationCanceled .disposal

/-! ### The condition on a poll -/

/-- How long the fetcher means to wait: what the response asks for, or the default. -/
def FetchOutcome.waitInterval : FetchOutcome → TimeSpan
  | .response r _ => r.maxAge.getD waitTimeIfNoCacheControlMaxAge
  | _ => waitTimeIfAnyError

/-- A time span can hold the number of ticks. -/
def TimeSpan.InRange (ticks : Int) : Prop := minTicks ≤ ticks ∧ ticks ≤ maxTicks

/-- The end of the waiting time is a time span and, unless the agent was disposed before, what
    remains of it at the second clock reading is a delay that `Task.Delay` accepts. -/
structure Waiting.Accepts (w : Waiting) (interval : TimeSpan) : Prop where
  end_inRange : TimeSpan.InRange (w.now + interval)
  remainder_inRange : w.cancelledBefore = false →
    TimeSpan.InRange (w.now + interval - w.nowInDelay)
  remainder_le : w.cancelledBefore = false →
    (w.now + interval - w.nowInDelay).tdiv TimeSpan.ticksPerMillisecond ≤ maxDelayMilliseconds

/-- The request does not end with the timeout of `HttpClient`, and where the loop waits the
    delay is one it can wait for. -/
def Poll.KeepsPolling (poll : Poll) : Prop :=
  match poll.outcome with
  | .httpClientTimeout => False
  | .disposed => True
  | outcome => poll.waiting.Accepts outcome.waitInterval

/-! ### Waiting -/

theorem TimeSpan.checked_cases (ticks : Int) :
    (TimeSpan.InRange ticks ∧ TimeSpan.checked ticks = .ok ticks) ∨
    (¬ TimeSpan.InRange ticks ∧ TimeSpan.checked ticks = .error .overflow) := by
  unfold TimeSpan.checked
  split
  · next h => exact .inl ⟨h, rfl⟩
  · next h => exact .inr ⟨h, rfl⟩

/-- The outcomes that do not end the loop or end it by disposal. -/
def ExitsOnlyByDisposal (result : Except FetchException Unit) : Prop :=
  ∀ e, result = .error e → e = .operationCanceled .disposal

theorem taskDelay_exitsOnlyByDisposal_iff (delay : TimeSpan) (cancelled : Bool) :
    ExitsOnlyByDisposal (taskDelay delay cancelled) ↔
      delay.tdiv TimeSpan.ticksPerMillisecond ≤ maxDelayMilliseconds := by
  unfold taskDelay ExitsOnlyByDisposal
  split
  · next hlong =>
    refine iff_of_false (fun h => ?_) (by omega)
    cases h _ rfl
  · next hshort =>
    refine iff_of_true (fun e he => ?_) (by omega)
    cases cancelled with
    | true => cases he; rfl
    | false => cases he

theorem delayAsyncImpl_exitsOnlyByDisposal_iff (until_ : TimeSpan) (w : Waiting) :
    ExitsOnlyByDisposal (delayAsyncImpl until_ w) ↔
      (w.cancelledBefore = false → TimeSpan.InRange (until_ - w.nowInDelay) ∧
        (until_ - w.nowInDelay).tdiv TimeSpan.ticksPerMillisecond ≤ maxDelayMilliseconds) := by
  unfold delayAsyncImpl
  cases hcancelled : w.cancelledBefore with
  | true =>
    -- The token is looked at first.
    refine iff_of_true (fun e he => ?_) (by simp)
    cases he
    rfl
  | false =>
    obtain ⟨hin, hchecked⟩ | ⟨hout, hchecked⟩ := TimeSpan.checked_cases (until_ - w.nowInDelay)
    · rw [hchecked]
      simp only [Bool.false_eq_true, if_false, hin, true_and, forall_const]
      split
      · next hpast =>
        -- The time has come already: no delay, and one that would be accepted.
        refine iff_of_true (fun e he => by cases he) ?_
        have hneg : (until_ - w.nowInDelay).tdiv TimeSpan.ticksPerMillisecond ≤ 0 :=
          Int.tdiv_le_tdiv (by decide) hpast
        have hmax : (0 : Int) ≤ maxDelayMilliseconds := by decide
        omega
      · exact taskDelay_exitsOnlyByDisposal_iff _ _
    · rw [hchecked]
      refine iff_of_false (fun h => ?_) (by simp [hout])
      cases h _ rfl

theorem agentTimerDelay_exitsOnlyByDisposal_iff (interval : TimeSpan) (w : Waiting) :
    ExitsOnlyByDisposal (agentTimerDelay interval w) ↔ w.Accepts interval := by
  unfold agentTimerDelay
  obtain ⟨hin, hchecked⟩ | ⟨hout, hchecked⟩ := TimeSpan.checked_cases (w.now + interval)
  · rw [hchecked]
    simp only [delayAsyncImpl_exitsOnlyByDisposal_iff]
    constructor
    · intro h
      exact ⟨hin, fun hc => (h hc).1, fun hc => (h hc).2⟩
    · rintro ⟨-, hrange, hle⟩ hc
      exact ⟨hrange hc, hle hc⟩
  · rw [hchecked]
    refine iff_of_false (fun h => ?_) fun h => hout h.end_inRange
    cases h _ rfl

/-! ### Fetching -/

section

variable [InvariantCulture] [JsonConvert]

/-- Whatever `ParseHttpResponse` ends with, it carries the wait time of the response. -/
theorem parseHttpResponse_waitInfo (r : HttpResponse) (body : String) :
    (∃ reader, parseHttpResponse r body = .ok (reader, extractWaitInfo r)) ∨
    (∃ message severity, parseHttpResponse r body =
      .error (.failedToFetchConfig message (extractWaitInfo r) severity)) := by
  obtain ⟨hs, hcode⟩ | ⟨hs, hcode⟩ | ⟨hs, message, severity, hcode⟩ :=
    interpretResponseStatusCode_cases r (extractWaitInfo r)
  · cases he : r.eTag with
    | none => exact .inr ⟨_, _, by simp only [parseHttpResponse, hcode, he]; rfl⟩
    | some eTag =>
      cases hbody : JsonConvert.deserializeDictionary body >>= parseConfigPayload eTag with
      | error e =>
        exact .inr ⟨_, _, by simp only [parseHttpResponse, hcode, he, hbody]; rfl⟩
      | ok reader =>
        exact .inl ⟨some reader, by simp only [parseHttpResponse, hcode, he, hbody]⟩
  · exact .inl ⟨none, by simp only [parseHttpResponse, hcode]⟩
  · exact .inr ⟨message, severity, by simp only [parseHttpResponse, hcode]⟩

omit [InvariantCulture] [JsonConvert] in
theorem extractWaitInfo_interval (r : HttpResponse) (body : String) :
    (extractWaitInfo r).interval = (FetchOutcome.response r body).waitInterval := by
  cases hmaxAge : r.maxAge <;> simp [extractWaitInfo, FetchOutcome.waitInterval, hmaxAge]

/-- The `try` and `catch` blocks end with a wait time unless a cancellation is thrown again. -/
theorem handleException_fetchAndUpdate (f : CentralConfigFetcher) (outcome : FetchOutcome) :
    match outcome with
    | .httpClientTimeout =>
      CentralConfigFetcher.handleException (f.fetchAndUpdate outcome).2 =
        .error (.operationCanceled .httpClientTimeout)
    | .disposed =>
      CentralConfigFetcher.handleException (f.fetchAndUpdate outcome).2 =
        .error (.operationCanceled .disposal)
    | outcome => ∃ waitInfo,
      CentralConfigFetcher.handleException (f.fetchAndUpdate outcome).2 = .ok waitInfo ∧
        waitInfo.interval = outcome.waitInterval := by
  cases outcome with
  | response r body =>
    -- Parsed or not, the wait time is that of the response.
    refine ⟨extractWaitInfo r, ?_, extractWaitInfo_interval r body⟩
    obtain ⟨reader, hparse⟩ | ⟨message, severity, hparse⟩ := parseHttpResponse_waitInfo r body
    · cases reader <;>
        simp [CentralConfigFetcher.fetchAndUpdate, fetchConfigHttpResponse, hparse,
          CentralConfigFetcher.handleException]
    · simp [CentralConfigFetcher.fetchAndUpdate, fetchConfigHttpResponse, hparse,
        CentralConfigFetcher.handleException]
  | httpClientTimeout => rfl
  | disposed => rfl
  | _ => exact ⟨_, rfl, rfl⟩

theorem workLoopIteration_exitsOnlyByDisposal_iff (f : CentralConfigFetcher) (poll : Poll) :
    ExitsOnlyByDisposal (f.workLoopIteration poll).2 ↔ poll.KeepsPolling := by
  have hfetch := handleException_fetchAndUpdate f poll.outcome
  unfold Poll.KeepsPolling CentralConfigFetcher.workLoopIteration
  extract_lets fetched
  -- Two outcomes end the iteration before it waits; after the others the delay decides.
  cases houtcome : poll.outcome with
  | httpClientTimeout =>
    rw [houtcome] at hfetch
    simp only [fetched, houtcome, hfetch, iff_false]
    intro h
    cases h _ rfl
  | disposed =>
    rw [houtcome] at hfetch
    simp only [fetched, houtcome, hfetch, iff_true]
    intro e he
    cases he
    rfl
  | _ =>
    rw [houtcome] at hfetch
    obtain ⟨waitInfo, hok, hinterval⟩ := hfetch
    simp only [fetched, houtcome, hok, ← hinterval]
    exact agentTimerDelay_exitsOnlyByDisposal_iff _ _

/-! ### All runs -/

theorem workLoop_step_onlyDisposalExits {s s' : WorkLoop} {poll : Poll}
    (hstep : s.step poll = some s') : s'.OnlyDisposalExits ↔ poll.KeepsPolling := by
  rw [← workLoopIteration_exitsOnlyByDisposal_iff s.fetcher poll]
  unfold WorkLoop.step at hstep
  split at hstep
  · cases hstep
  · cases hstep
    unfold WorkLoop.OnlyDisposalExits ExitsOnlyByDisposal
    cases (s.fetcher.workLoopIteration poll).2 <;> simp

/-- Whatever the polls of a run, no exception but that of disposal has left an iteration, if and
    only if every poll of it is one the loop can go on after. -/
theorem onlyDisposalExits_iff_keepsPolling (initial : ConfigSnapshot) (polls : List Poll) :
    (workLoopSystem initial).Always WorkLoop.OnlyDisposalExits (.start initial) polls ↔
      (workLoopSystem initial).Along (fun _ poll => poll.KeepsPolling) (.start initial) polls := by
  have hstart : (WorkLoop.start initial).OnlyDisposalExits := by
    intro e he
    cases he
  -- A step says all there is to know, so no invariant is needed.
  refine LTS.System.always_iff_along (I := fun _ => True) ?_ ?_ trivial hstart polls
  · intro s poll s' _ _
    trivial
  · intro s poll s' _ _ hstep
    exact workLoop_step_onlyDisposalExits hstep

end

section

attribute [local instance] InvariantCulture.ascii JsonConvert.captureHeadersOff

/-- A response that asks to wait for 2147484 seconds, a little longer than the longest delay. -/
def longMaxAge : Poll :=
  ⟨.response ⟨304, "Not Modified", some (2147484 * TimeSpan.ticksPerSecond), none⟩ "",
    waitingFromStart⟩

theorem onlyDisposalExits_counterexample :
    ¬ (workLoopSystem .defaults).Always WorkLoop.OnlyDisposalExits (.start .defaults)
        [⟨.httpClientTimeout, waitingFromStart⟩] ∧
    ¬ (workLoopSystem .defaults).Always WorkLoop.OnlyDisposalExits (.start .defaults)
        [longMaxAge] := by
  constructor
  · intro h
    have hexit : ((workLoopSystem .defaults).run (.start .defaults)
        [⟨.httpClientTimeout, waitingFromStart⟩]).map (·.exited) =
        some (some (.operationCanceled .httpClientTimeout)) := by decide
    obtain ⟨s, hrun, hs⟩ := Option.map_eq_some_iff.mp hexit
    cases h.last hrun _ hs
  · -- The delay in milliseconds is larger than the largest `int`.
    intro h
    have hexit : ((workLoopSystem .defaults).run (.start .defaults) [longMaxAge]).map
        (·.exited) = some (some (.other .argumentOutOfRange)) := by decide
    obtain ⟨s, hrun, hs⟩ := Option.map_eq_some_iff.mp hexit
    cases h.last hrun _ hs

end

end ApmAgent
