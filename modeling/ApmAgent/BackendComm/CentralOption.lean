import ApmAgent.BackendComm.CentralConfigOverlay

/-! # Central values that are not valid

  The options a central configuration can change, what the parser of each makes
  of a text before it falls back, and what a snapshot reports for an option once
  it has been wrapped with the values of a payload.
-/

namespace ApmAgent

/-! ### The options -/

/-- The options `CentralConfigReader` reads. -/
inductive CentralOption where
  | captureBody
  | captureBodyContentTypes
  | captureHeaders
  | logLevel
  | recording
  | spanFramesMinDuration
  | stackTraceLimit
  | transactionMaxSpans
  | transactionSampleRate
  deriving DecidableEq, Repr

namespace CentralOption

/-- The type of the property. -/
def Value : CentralOption → Type
  | captureBody => String
  | captureBodyContentTypes => List String
  | captureHeaders => Bool
  | logLevel => LogLevel
  | recording => Bool
  | spanFramesMinDuration => Double
  | stackTraceLimit => Int32
  | transactionMaxSpans => Int32
  | transactionSampleRate => Double

/-- The key in the payload. -/
def key : CentralOption → String
  | captureBody => CentralConfigPayload.captureBodyKey
  | captureBodyContentTypes => CentralConfigPayload.captureBodyContentTypesKey
  | captureHeaders => CentralConfigPayload.captureHeadersKey
  | logLevel => CentralConfigPayload.logLevelKey
  | recording => CentralConfigPayload.recordingKey
  | spanFramesMinDuration => CentralConfigPayload.spanFramesMinDurationKey
  | stackTraceLimit => CentralConfigPayload.stackTraceLimitKey
  | transactionMaxSpans => CentralConfigPayload.transactionMaxSpansKey
  | transactionSampleRate => CentralConfigPayload.transactionSampleRateKey

/-- What a snapshot reports for the option. -/
def report (snapshot : ConfigSnapshot) : (o : CentralOption) → o.Value
  | captureBody => snapshot.captureBody
  | captureBodyContentTypes => snapshot.captureBodyContentTypes
  | captureHeaders => snapshot.captureHeaders
  | logLevel => snapshot.logLevel
  | recording => snapshot.recording
  | spanFramesMinDuration => snapshot.spanFramesMinDurationInMilliseconds
  | stackTraceLimit => snapshot.stackTraceLimit
  | transactionMaxSpans => snapshot.transactionMaxSpans
  | transactionSampleRate => snapshot.transactionSampleRate

/-- The value the agent has for the option when nobody sets it. -/
def defaultValue : (o : CentralOption) → o.Value
  | captureBody => DefaultValues.captureBody
  | captureBodyContentTypes => (split ',' DefaultValues.captureBodyContentTypes).map trim
  | captureHeaders => DefaultValues.captureHeaders
  | logLevel => DefaultValues.logLevel
  | recording => true
  | spanFramesMinDuration => DefaultValues.spanFramesMinDurationInMilliseconds
  | stackTraceLimit => DefaultValues.stackTraceLimit
  | transactionMaxSpans => DefaultValues.transactionMaxSpans
  | transactionSampleRate => DefaultValues.transactionSampleRate

/-- The defaults of the options are those of the default configuration. -/
theorem report_defaults (o : CentralOption) : o.report .defaults = o.defaultValue := by
  cases o <;> rfl

variable [InvariantCulture]

/-- The parser of the option. -/
def parse : (o : CentralOption) → String → Except RuntimeException o.Value
  | captureBody, value => .ok (parseCaptureBody (some value))
  | captureBodyContentTypes, value => .ok (parseCaptureBodyContentTypes (some value))
  | captureHeaders, value => .ok (parseCaptureHeaders (some value))
  | logLevel, value => .ok (parseLogLevel (some value))
  | recording, value => .ok (parseRecording (some value))
  | spanFramesMinDuration, value => parseSpanFramesMinDurationInMilliseconds (some value)
  | stackTraceLimit, value => .ok (parseStackTraceLimit (some value))
  | transactionMaxSpans, value => .ok (parseTransactionMaxSpans (some value))
  | transactionSampleRate, value => .ok (parseTransactionSampleRate (some value))

/-- What the parser makes of a text without the value it falls back to: `none` when it rejects
    the text. -/
def tryParse : (o : CentralOption) → String → Except RuntimeException (Option o.Value)
  | captureBody, value =>
    .ok (if isNullOrEmpty (some value) then none
      else
        let lower := toLowerInvariantStr value
        if lower ∈ captureBodySupportedValues then some lower else none)
  | captureBodyContentTypes, value =>
    .ok (if isNullOrEmpty (some value) then none else some ((split ',' value).map trim))
  | captureHeaders, value =>
    .ok (if isNullOrWhiteSpace (some value) then none else tryParseBool value)
  | logLevel, value => .ok (tryParseLogLevel (some value))
  | recording, value => .ok (if isNullOrEmpty (some value) then none else tryParseBool value)
  | spanFramesMinDuration, value =>
    if isNullOrWhiteSpace (some value) then .ok none
    else
      match tryParseTimeInterval value .ms with
      | .ok valueInMilliseconds => .ok valueInMilliseconds
      | .error .argument => .ok none
      | .error e => .error e
  | stackTraceLimit, value =>
    .ok (if isNullOrWhiteSpace (some value) then none else tryParseInt value)
  | transactionMaxSpans, value =>
    .ok ((tryParseInt value).filter fun result : Int32 => !(result < -1))
  | transactionSampleRate, value => .ok ((tryParseDouble value).filter isValidRate)

/-! ### Parsers -/

theorem parse_spanFramesMinDuration (value : String) :
    spanFramesMinDuration.parse value =
      (spanFramesMinDuration.tryParse value).map
        (·.getD DefaultValues.spanFramesMinDurationInMilliseconds) := by
  simp only [parse, tryParse, parseSpanFramesMinDurationInMilliseconds]
  by_cases hblank : isNullOrWhiteSpace (some value) = true
  · rw [if_pos hblank, if_pos hblank, tryParseTimeInterval_default]
    rfl
  · rw [if_neg hblank, if_neg hblank]
    simp only [Option.getD_some]
    cases tryParseTimeInterval value .ms with
    | ok valueInMilliseconds => cases valueInMilliseconds <;> rfl
    | error e => cases e <;> rfl

omit [InvariantCulture] in
theorem getD_guard {α : Type} (c : Bool) (parsed : Option α) (d : α) :
    (if c then d else parsed.getD d) = (if c then none else parsed).getD d := by
  cases c <;> rfl

theorem parseCaptureBody_eq (value : String) :
    parseCaptureBody (some value) =
      (if isNullOrEmpty (some value) then none
        else if toLowerInvariantStr value ∈ captureBodySupportedValues then
          some (toLowerInvariantStr value)
        else none).getD DefaultValues.captureBody := by
  rw [← getD_guard]
  unfold parseCaptureBody
  simp only [Option.getD_some]
  by_cases hmem : toLowerInvariantStr value ∈ captureBodySupportedValues
  · rw [if_pos hmem, if_pos hmem]
    rfl
  · rw [if_neg hmem, if_neg hmem]
    rfl

omit [InvariantCulture] in
theorem parseCaptureBodyContentTypes_eq (value : String) :
    parseCaptureBodyContentTypes (some value) =
      (if isNullOrEmpty (some value) then none else some ((split ',' value).map trim)).getD
        ((split ',' DefaultValues.captureBodyContentTypes).map trim) := by
  unfold parseCaptureBodyContentTypes
  cases isNullOrEmpty (some value) <;> rfl

omit [InvariantCulture] in
theorem parseTransactionMaxSpans_eq (value : String) :
    parseTransactionMaxSpans (some value) =
      ((tryParseInt value).filter fun result => !(result < -1)).getD
        DefaultValues.transactionMaxSpans := by
  simp only [parseTransactionMaxSpans]
  cases tryParseInt value with
  | none => rfl
  | some result => by_cases hlt : result < -1 <;> simp [hlt, Option.filter]

theorem parseTransactionSampleRate_eq (value : String) :
    parseTransactionSampleRate (some value) =
      ((tryParseDouble value).filter isValidRate).getD DefaultValues.transactionSampleRate := by
  simp only [parseTransactionSampleRate]
  cases tryParseDouble value with
  | none => rfl
  | some rate => by_cases hvalid : isValidRate rate <;> simp [hvalid, Option.filter]

/-- Every parser falls back to the option's default, whatever the text is that it rejects. -/
theorem parse_eq (o : CentralOption) (value : String) :
    o.parse value = (o.tryParse value).map (·.getD o.defaultValue) := by
  cases o with
  | captureBody => exact congrArg Except.ok (parseCaptureBody_eq value)
  | captureBodyContentTypes => exact congrArg Except.ok (parseCaptureBodyContentTypes_eq value)
  | captureHeaders => exact congrArg Except.ok (getD_guard _ _ _)
  | logLevel => rfl
  | recording => exact congrArg Except.ok (getD_guard _ _ _)
  | spanFramesMinDuration => exact parse_spanFramesMinDuration value
  | stackTraceLimit => exact congrArg Except.ok (getD_guard _ _ _)
  | transactionMaxSpans => exact congrArg Except.ok (parseTransactionMaxSpans_eq value)
  | transactionSampleRate => exact congrArg Except.ok (parseTransactionSampleRate_eq value)

/-! ### Snapshots -/

/-- The snapshot of a fetcher that starts with `initial`, after it has updated its store from a
    response. -/
def resultingSnapshot (initial : ConfigSnapshot) (p : ParsedResponse) :
    Except RuntimeException ConfigSnapshot := do
  let centralConfigReader ← CentralConfigReader.new p.payload p.eTag.toString
  pure ((CentralConfigFetcher.new initial).updateConfigStore centralConfigReader).currentSnapshot

/-- Without a duration at which its parser throws there is a snapshot. -/
theorem resultingSnapshot_cases (initial : ConfigSnapshot) (p : ParsedResponse) :
    (∃ d, CentralConfigReader.getSpanFramesMinDuration p.payload = .ok d ∧
      resultingSnapshot initial p = .ok (overlay initial p)) ∨
    (∃ e, CentralConfigReader.getSpanFramesMinDuration p.payload = .error e ∧
      resultingSnapshot initial p = .error e) := by
  obtain ⟨d, reader, hd, hnew⟩ | ⟨e, he, hnew⟩ :=
    centralConfigReader_new_isOk p.payload p.eTag.toString
  · have hupdate := updateConfigStore_eq (f := .new initial) hnew
    have hresult : resultingSnapshot initial p =
        .ok ((CentralConfigFetcher.new initial).updateConfigStore reader).currentSnapshot := by
      unfold resultingSnapshot
      rw [hnew]
      rfl
    rw [hupdate] at hresult
    exact .inl ⟨d, hd, hresult⟩
  · refine .inr ⟨e, he, ?_⟩
    unfold resultingSnapshot
    rw [hnew]
    rfl

omit [InvariantCulture] in
theorem optionOr_none {α : Type} {payload : CentralConfigPayload} {key : String}
    (hget : payload.get key = none) (parser : Option String → α) (inherited : α) :
    payload.optionOr key parser inherited = inherited := by
  unfold CentralConfigPayload.optionOr
  rw [hget]

omit [InvariantCulture] in
theorem optionOr_some {α : Type} {payload : CentralConfigPayload} {key raw : String}
    (hget : payload.get key = some raw) (parser : Option String → α) (inherited : α) :
    payload.optionOr key parser inherited = parser (some raw) := by
  unfold CentralConfigPayload.optionOr
  rw [hget]

/-- An option the payload does not have is inherited. -/
theorem report_overlay_none {p : ParsedResponse} {o : CentralOption}
    (hget : p.payload.get o.key = none) (initial : ConfigSnapshot) :
    o.report (overlay initial p) = o.report initial := by
  cases o with
  | spanFramesMinDuration =>
    have hget' : p.payload.get CentralConfigPayload.spanFramesMinDurationKey = none := hget
    show p.payload.durationOr initial.spanFramesMinDurationInMilliseconds = _
    unfold CentralConfigPayload.durationOr
    rw [hget']
    rfl
  | _ => exact optionOr_none hget _ _

/-- An option the payload has is what its parser makes of the text. -/
theorem report_overlay_some {p : ParsedResponse} {o : CentralOption} {raw : String}
    {v : o.Value} (hget : p.payload.get o.key = some raw) (hparse : o.parse raw = .ok v)
    (initial : ConfigSnapshot) : o.report (overlay initial p) = v := by
  cases o with
  | spanFramesMinDuration =>
    have hget' : p.payload.get CentralConfigPayload.spanFramesMinDurationKey = some raw := hget
    have hparse' : parseSpanFramesMinDurationInMilliseconds (some raw) = .ok v := hparse
    show p.payload.durationOr initial.spanFramesMinDurationInMilliseconds = _
    unfold CentralConfigPayload.durationOr
    rw [hget']
    simp only [hparse']
    rfl
  | _ =>
    cases hparse
    exact optionOr_some hget _ _

/-- Only the parser of the duration throws. -/
theorem tryParse_eq_error {o : CentralOption} {raw : String} {e : RuntimeException}
    (h : o.tryParse raw = .error e) : o = spanFramesMinDuration := by
  cases o with
  | spanFramesMinDuration => rfl
  | _ => cases h

/-- The reader cannot be built exactly when that parser throws at the text of the payload. -/
theorem getSpanFramesMinDuration_eq_error_iff {payload : CentralConfigPayload}
    {e : RuntimeException} :
    CentralConfigReader.getSpanFramesMinDuration payload = .error e ↔
      ∃ text, payload.get spanFramesMinDuration.key = some text ∧
        spanFramesMinDuration.tryParse text = .error e := by
  have hparse := parse_eq spanFramesMinDuration
  unfold CentralConfigReader.getSpanFramesMinDuration
  show _ ↔ ∃ text, payload.get CentralConfigPayload.spanFramesMinDurationKey = some text ∧ _
  cases payload.get CentralConfigPayload.spanFramesMinDurationKey with
  | none => simp
  | some text =>
    have htext : parseSpanFramesMinDurationInMilliseconds (some text) =
        (spanFramesMinDuration.tryParse text).map (·.getD spanFramesMinDuration.defaultValue) :=
      hparse text
    simp only [htext, Option.some.injEq, exists_eq_left']
    cases spanFramesMinDuration.tryParse text <;> simp [Except.map]

/-- A text that the option's parser rejects is laid over the initial snapshot as the option's
    built-in default. There is no snapshot at all exactly when the parser of the duration throws
    at the text the payload has for it. -/
theorem invalid_reports_default (initial : ConfigSnapshot) (p : ParsedResponse)
    (o : CentralOption) (raw : String) (hget : p.payload.get o.key = some raw)
    (hinvalid : ∀ v, o.tryParse raw ≠ .ok (some v)) :
    (∃ snapshot, resultingSnapshot initial p = .ok snapshot ∧
      o.report snapshot = o.defaultValue) ∨
    (∃ text e, p.payload.get spanFramesMinDuration.key = some text ∧
      spanFramesMinDuration.tryParse text = .error e ∧
      resultingSnapshot initial p = .error e) := by
  obtain ⟨d, hd, hresult⟩ | ⟨e, he, hresult⟩ := resultingSnapshot_cases initial p
  · refine .inl ⟨overlay initial p, hresult, ?_⟩
    have hparse := parse_eq o raw
    cases htry : o.tryParse raw with
    | ok accepted =>
      cases accepted with
      | none =>
        rw [htry] at hparse
        exact report_overlay_some hget hparse initial
      | some v => exact absurd htry (hinvalid v)
    -- The duration's parser threw, and the reader was built all the same.
    | error e =>
      cases tryParse_eq_error htry
      have herror := getSpanFramesMinDuration_eq_error_iff.mpr ⟨raw, hget, htry⟩
      rw [hd] at herror
      cases herror
  · obtain ⟨text, htext, htry⟩ := getSpanFramesMinDuration_eq_error_iff.mp he
    exact .inr ⟨text, e, htext, htry, hresult⟩

end CentralOption

section

open CentralOption

attribute [local instance] InvariantCulture.ascii

/-- A sample rate with the letter O for the digit. -/
def mistypedSampleRate : ParsedResponse where
  payload := ⟨[("transaction_sample_rate", some "O.1")]⟩
  eTag := ⟨false, "\"a\""⟩

theorem CentralOption.tryParse_mistypedSampleRate :
    ∀ v, transactionSampleRate.tryParse "O.1" ≠ .ok (some v) := by
  have h : tryParseDouble "O.1" = none := by decide +kernel
  intro v hv
  simp only [tryParse, h] at hv
  cases hv

theorem CentralOption.invalid_reports_default_mistyped :
    ∃ snapshot,
      resultingSnapshot { ConfigSnapshot.defaults with transactionSampleRate := 0 }
        mistypedSampleRate = .ok snapshot ∧ snapshot.transactionSampleRate = 1 := by
  have h := invalid_reports_default { ConfigSnapshot.defaults with transactionSampleRate := 0 }
    mistypedSampleRate transactionSampleRate "O.1" (by decide) tryParse_mistypedSampleRate
  obtain ⟨snapshot, hresult, hreport⟩ | ⟨text, e, htext, _, _⟩ := h
  · exact ⟨snapshot, hresult, hreport⟩
  · cases htext

/-- A service that does not sample any transaction samples them all after the mistyped rate. -/
theorem CentralOption.invalid_keeps_initial_counterexample :
    ¬∀ (initial : ConfigSnapshot) (p : ParsedResponse) (o : CentralOption) (raw : String)
      (snapshot : ConfigSnapshot), p.payload.get o.key = some raw →
        (∀ v, o.tryParse raw ≠ .ok (some v)) → resultingSnapshot initial p = .ok snapshot →
        o.report snapshot = o.report initial := by
  intro h
  have hget : mistypedSampleRate.payload.get transactionSampleRate.key = some "O.1" := by decide
  have hdefault : parseTransactionSampleRate (some "O.1") = 1 := by decide +kernel
  have hparse : transactionSampleRate.parse "O.1" = .ok (1 : Double) :=
    congrArg Except.ok hdefault
  obtain ⟨d, hd, hresult⟩ | ⟨e, he, hresult⟩ :=
    resultingSnapshot_cases { ConfigSnapshot.defaults with transactionSampleRate := 0 }
      mistypedSampleRate
  · have hreport := report_overlay_some hget hparse
      { ConfigSnapshot.defaults with transactionSampleRate := 0 }
    have hkeeps := h _ _ _ _ _ hget tryParse_mistypedSampleRate hresult
    rw [hreport] at hkeeps
    have hne : (1 : Double) ≠ 0 := by decide +kernel
    exact hne hkeeps
  · cases he

end

end ApmAgent
