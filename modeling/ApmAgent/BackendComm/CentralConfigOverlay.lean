import ApmAgent.BackendComm.CentralConfigFetcher

/-! # The current snapshot follows the responses

  What the configuration store should hold depends on the polls so far in a
  simple way: nothing but the last response that was completely parsed counts.
  `overlay` says so in terms of the payload of that response, and
  `run_follows_lastParsed` that the fetcher, which updates the snapshot and the
  ETag one after the other, keeps to it.
-/

namespace ApmAgent

/-! ### What a poll contributes -/

/-- What counts of a response that was completely parsed. -/
structure ParsedResponse where
  payload : CentralConfigPayload
  eTag : EntityTag
  deriving DecidableEq, Repr

section

variable [InvariantCulture]

/-- The value of an option, or what is inherited when the payload does not have it. -/
def CentralConfigPayload.optionOr {α : Type} (payload : CentralConfigPayload) (key : String)
    (parser : Option String → α) (inherited : α) : α :=
  match payload.get key with
  | some value => parser (some value)
  | none => inherited

/-- The duration is inherited also where the parser throws. -/
def CentralConfigPayload.durationOr (payload : CentralConfigPayload) (inherited : Double) :
    Double :=
  match payload.get CentralConfigPayload.spanFramesMinDurationKey with
  | some value =>
    match parseSpanFramesMinDurationInMilliseconds (some value) with
    | .ok valueInMilliseconds => valueInMilliseconds
    | .error _ => inherited
  | none => inherited

/-- The initial snapshot with the options of the payload laid over it. -/
def overlay (initial : ConfigSnapshot) (p : ParsedResponse) : ConfigSnapshot :=
  { initial with
    captureBody :=
      p.payload.optionOr CentralConfigPayload.captureBodyKey parseCaptureBody initial.captureBody
    captureBodyContentTypes :=
      p.payload.optionOr CentralConfigPayload.captureBodyContentTypesKey
        parseCaptureBodyContentTypes initial.captureBodyContentTypes
    captureHeaders :=
      p.payload.optionOr CentralConfigPayload.captureHeadersKey parseCaptureHeaders
        initial.captureHeaders
    dbgDescription :=
      initial.dbgDescription ++ " + central (ETag: `" ++ p.eTag.toString ++ "')"
    logLevel :=
      p.payload.optionOr CentralConfigPayload.logLevelKey parseLogLevel initial.logLevel
    recording :=
      p.payload.optionOr CentralConfigPayload.recordingKey parseRecording initial.recording
    spanFramesMinDurationInMilliseconds :=
      p.payload.durationOr initial.spanFramesMinDurationInMilliseconds
    stackTraceLimit :=
      p.payload.optionOr CentralConfigPayload.stackTraceLimitKey parseStackTraceLimit
        initial.stackTraceLimit
    transactionMaxSpans :=
      p.payload.optionOr CentralConfigPayload.transactionMaxSpansKey parseTransactionMaxSpans
        initial.transactionMaxSpans
    transactionSampleRate :=
      p.payload.optionOr CentralConfigPayload.transactionSampleRateKey
        parseTransactionSampleRate initial.transactionSampleRate }

variable [JsonConvert]

/-- A response is completely parsed if it is a success, has an ETag, its body is a dictionary,
    and the one option whose parser may throw does not make it throw. -/
def completelyParsed : FetchOutcome → Option ParsedResponse
  | .response r body =>
    if r.isSuccessStatusCode then
      match r.eTag, JsonConvert.deserializeDictionary body with
      | some eTag, .ok (some keyValues) =>
        match CentralConfigReader.getSpanFramesMinDuration ⟨keyValues⟩ with
        | .ok _ => some ⟨⟨keyValues⟩, eTag⟩
        | .error _ => none
      | _, _ => none
    else none
  | _ => none

/-- The last completely parsed response of a sequence of polls. -/
def lastParsed (polls : List Poll) : Option ParsedResponse :=
  (polls.filterMap fun poll => completelyParsed poll.outcome).getLast?

theorem lastParsed_concat (polls : List Poll) (poll : Poll) :
    lastParsed (polls ++ [poll]) =
      (completelyParsed poll.outcome).or (lastParsed polls) := by
  cases h : completelyParsed poll.outcome with
  | none => simp [lastParsed, h]
  | some p => simp [lastParsed, h]

/-! ### One iteration -/

omit [InvariantCulture] [JsonConvert] in
theorem getConfigurationValue_getD {α : Type} (payload : CentralConfigPayload) (key : String)
    (parser : Option String → α) (inherited : α) :
    (CentralConfigReader.getConfigurationValue payload key parser).getD inherited =
      payload.optionOr key parser inherited := by
  unfold CentralConfigReader.getConfigurationValue CentralConfigPayload.optionOr
  cases payload.get key <;> rfl

omit [JsonConvert] in
theorem getSpanFramesMinDuration_getD {payload : CentralConfigPayload} {d : Option Double}
    (h : CentralConfigReader.getSpanFramesMinDuration payload = .ok d) (inherited : Double) :
    d.getD inherited = payload.durationOr inherited := by
  unfold CentralConfigReader.getSpanFramesMinDuration at h
  unfold CentralConfigPayload.durationOr
  cases hget : payload.get CentralConfigPayload.spanFramesMinDurationKey with
  | none =>
    simp only [hget, Except.ok.injEq] at h
    subst h
    rfl
  | some value =>
    simp only [hget] at h
    cases hparse : parseSpanFramesMinDurationInMilliseconds (some value) with
    | error e =>
      rw [hparse] at h
      cases h
    | ok ms =>
      rw [hparse] at h
      cases h
      simp [hparse]

omit [JsonConvert] in
/-- Wrapping a snapshot with the options of a payload is laying the payload over it. -/
theorem updateConfigStore_eq {f : CentralConfigFetcher} {p : ParsedResponse}
    {centralConfigReader : CentralConfigReader}
    (h : CentralConfigReader.new p.payload p.eTag.toString = .ok centralConfigReader) :
    f.updateConfigStore centralConfigReader =
      { f with currentSnapshot := overlay f.initialSnapshot p } := by
  unfold CentralConfigReader.new at h
  cases hd : CentralConfigReader.getSpanFramesMinDuration p.payload with
  | error e =>
    rw [hd] at h
    cases h
  | ok d =>
    rw [hd] at h
    cases h
    simp [CentralConfigFetcher.updateConfigStore, wrappingConfigSnapshot, overlay,
      getConfigurationValue_getD, getSpanFramesMinDuration_getD hd]

omit [JsonConvert] in
/-- A reader is built exactly when the duration can be parsed. -/
theorem centralConfigReader_new_isOk (payload : CentralConfigPayload) (eTag : String) :
    (∃ d reader, CentralConfigReader.getSpanFramesMinDuration payload = .ok d ∧
      CentralConfigReader.new payload eTag = .ok reader) ∨
    (∃ e, CentralConfigReader.getSpanFramesMinDuration payload = .error e ∧
      CentralConfigReader.new payload eTag = .error e) := by
  unfold CentralConfigReader.new
  cases hd : CentralConfigReader.getSpanFramesMinDuration payload with
  | error e => exact .inr ⟨e, rfl, rfl⟩
  | ok d => exact .inl ⟨d, _, rfl, rfl⟩

/-- What `ParseHttpResponse` returns, by what counts of the response. -/
theorem parseHttpResponse_spec (r : HttpResponse) (body : String) :
    match completelyParsed (.response r body) with
    | some p => r.eTag = some p.eTag ∧ ∃ reader waitInfo,
        CentralConfigReader.new p.payload p.eTag.toString = .ok reader ∧
        parseHttpResponse r body = .ok (some reader, waitInfo)
    | none => ∀ reader waitInfo, parseHttpResponse r body ≠ .ok (some reader, waitInfo) := by
  -- Without a success, an ETag, a dictionary and a duration there is no reader.
  obtain ⟨hs, hcode⟩ | ⟨hs, hcode⟩ | ⟨hs, message, severity, hcode⟩ :=
    interpretResponseStatusCode_cases r (extractWaitInfo r)
  · cases he : r.eTag with
    | none => simp [completelyParsed, parseHttpResponse, hcode, hs, he]
    | some eTag =>
      cases hd : JsonConvert.deserializeDictionary body with
      | error e =>
        simp [completelyParsed, parseHttpResponse, hcode, hs, he, hd, bind, Except.bind]
      | ok keyValues =>
        cases keyValues with
        | none =>
          simp [completelyParsed, parseHttpResponse, hcode, hs, he, hd, bind, Except.bind,
            parseConfigPayload]
        | some keyValues =>
          obtain ⟨d, reader, hdur, hnew⟩ | ⟨e, hdur, hnew⟩ :=
            centralConfigReader_new_isOk ⟨keyValues⟩ eTag.toString
          · simp [completelyParsed, parseHttpResponse, hcode, hs, he, hd, bind, Except.bind,
              parseConfigPayload, hdur, hnew]
          · simp [completelyParsed, parseHttpResponse, hcode, hs, he, hd, bind, Except.bind,
              parseConfigPayload, hdur, hnew]
  · simp [completelyParsed, parseHttpResponse, hcode, hs]
  · simp [completelyParsed, parseHttpResponse, hcode, hs]

/-- The fetcher after a poll that contributes `p`. -/
def CentralConfigFetcher.follow (f : CentralConfigFetcher) :
    Option ParsedResponse → CentralConfigFetcher
  | none => f
  | some p =>
    { f with currentSnapshot := overlay f.initialSnapshot p, eTag := some p.eTag }

theorem fetchAndUpdate_fst (f : CentralConfigFetcher) (outcome : FetchOutcome) :
    (f.fetchAndUpdate outcome).1 = f.follow (completelyParsed outcome) := by
  unfold CentralConfigFetcher.fetchAndUpdate
  cases outcome with
  | response r body =>
    have hspec := parseHttpResponse_spec r body
    simp only [fetchConfigHttpResponse]
    cases hp : completelyParsed (.response r body) with
    | none =>
      rw [hp] at hspec
      cases hparse : parseHttpResponse r body with
      | error e => rfl
      | ok result =>
        obtain ⟨reader, waitInfo⟩ := result
        cases reader with
        -- Not modified: neither the store nor the ETag is touched.
        | none => rfl
        | some reader => exact absurd hparse (hspec reader waitInfo)
    | some p =>
      rw [hp] at hspec
      obtain ⟨heTag, reader, waitInfo, hnew, hparse⟩ := hspec
      -- The store and the ETag are updated from the same response.
      simp only [hparse, heTag, updateConfigStore_eq hnew]
      rfl
  | _ => rfl

theorem workLoopIteration_fst (f : CentralConfigFetcher) (poll : Poll) :
    (f.workLoopIteration poll).1 = f.follow (completelyParsed poll.outcome) := by
  rw [← fetchAndUpdate_fst]
  unfold CentralConfigFetcher.workLoopIteration
  extract_lets fetched
  cases CentralConfigFetcher.handleException fetched.2 <;> rfl

/-- The fetcher after one turn of the work loop. -/
theorem workLoop_step_fetcher {s s' : WorkLoop} {poll : Poll} (h : s.step poll = some s') :
    s'.fetcher = s.fetcher.follow (completelyParsed poll.outcome) := by
  rw [← workLoopIteration_fst]
  unfold WorkLoop.step at h
  split at h
  · cases h
  · cases h
    rfl

/-! ### All runs -/

/-- After any sequence of polls the fetcher is where the last completely parsed response alone
    would have brought it. -/
theorem run_fetcher {initial : ConfigSnapshot} {polls : List Poll} {s : WorkLoop}
    (hrun : (workLoopSystem initial).run (.start initial) polls = some s) :
    s.fetcher = (CentralConfigFetcher.new initial).follow (lastParsed polls) := by
  refine LTS.System.run_history (P := fun polls s =>
    s.fetcher = (CentralConfigFetcher.new initial).follow (lastParsed polls)) rfl ?_ hrun
  intro polls s poll s' _ hs hstep
  -- The last response that counts is that of this poll, or else that of the polls before.
  rw [workLoop_step_fetcher hstep, hs, lastParsed_concat]
  cases completelyParsed poll.outcome with
  | none => rfl
  | some p => cases lastParsed polls <;> rfl

/-- After any sequence of polls the current snapshot is the initial one and no ETag is sent, or
    it is the initial one with the payload of the last completely parsed response laid over it
    and the ETag of that response is sent; and a poll whose response is not completely parsed
    changes neither. -/
theorem run_follows_lastParsed (initial : ConfigSnapshot) (polls : List Poll) (s : WorkLoop)
    (hrun : (workLoopSystem initial).run (.start initial) polls = some s) :
    (match lastParsed polls with
      | none =>
        s.fetcher.currentSnapshot = initial ∧
          (buildHttpRequest s.fetcher.eTag).ifNoneMatch = []
      | some p =>
        s.fetcher.currentSnapshot = overlay initial p ∧
          (buildHttpRequest s.fetcher.eTag).ifNoneMatch = [p.eTag]) ∧
    ∀ poll s', s.step poll = some s' → completelyParsed poll.outcome = none →
      s'.fetcher.currentSnapshot = s.fetcher.currentSnapshot ∧
        buildHttpRequest s'.fetcher.eTag = buildHttpRequest s.fetcher.eTag := by
  constructor
  · rw [run_fetcher hrun]
    cases lastParsed polls with
    | none => exact ⟨rfl, rfl⟩
    | some p => exact ⟨rfl, rfl⟩
  · intro poll s' hstep hnone
    rw [workLoop_step_fetcher hstep, hnone]
    exact ⟨rfl, rfl⟩

end

/-- A JSON library that knows one body. -/
@[reducible] def JsonConvert.captureHeadersOff : JsonConvert where
  deserializeDictionary body :=
    if body = "\x7b\"capture_headers\":\"false\"\x7d" then
      .ok (some [("capture_headers", some "false")])
    else .error (.other "JsonReaderException")

section

attribute [local instance] InvariantCulture.ascii JsonConvert.captureHeadersOff

def waitingFromStart : Waiting := ⟨0, 0, false, false⟩

/-- A configuration, then a response that it has not changed, then a server error. -/
def okThenNotModified : List Poll :=
  [⟨.response ⟨200, "OK", none, some ⟨false, "\"a\""⟩⟩
      "\x7b\"capture_headers\":\"false\"\x7d", waitingFromStart⟩,
    ⟨.response ⟨304, "Not Modified", none, some ⟨false, "\"a\""⟩⟩ "", waitingFromStart⟩,
    ⟨.response ⟨503, "Service Unavailable", none, none⟩ "", waitingFromStart⟩]

theorem run_follows_lastParsed_okThenNotModified :
    ∃ s, (workLoopSystem .defaults).run (.start .defaults) okThenNotModified = some s ∧
      s.fetcher.currentSnapshot.captureHeaders = false ∧
      (buildHttpRequest s.fetcher.eTag).ifNoneMatch = [⟨false, "\"a\""⟩] := by
  have hsome : ((workLoopSystem .defaults).run (.start .defaults) okThenNotModified).isSome := by
    decide
  obtain ⟨s, hrun⟩ := Option.isSome_iff_exists.mp hsome
  have h := (run_follows_lastParsed .defaults okThenNotModified s hrun).1
  have hp : lastParsed okThenNotModified =
      some ⟨⟨[("capture_headers", some "false")]⟩, ⟨false, "\"a\""⟩⟩ := by decide
  rw [hp] at h
  exact ⟨s, hrun, by rw [h.1]; decide, h.2⟩

end

end ApmAgent
