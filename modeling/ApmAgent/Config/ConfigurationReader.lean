import ApmAgent.Config.ConfigSnapshot

/-! # AbstractConfigurationReader

  The parsers of the options the APM Server can change after the agent has
  started. A parser gets the raw text of the option, `none` for a missing one,
  and falls back to the option's default when the text is not valid. Parsers
  of time intervals may also throw.
-/

namespace ApmAgent

variable [InvariantCulture]

/-! ### Simple options -/

/-- `ParseBoolOption`. -/
def parseBoolOption (value : Option String) (defaultValue : Bool) : Bool :=
  if isNullOrWhiteSpace value then defaultValue
  else (tryParseBool (value.getD "")).getD defaultValue

/-- `ParseCaptureHeaders`. -/
def parseCaptureHeaders (value : Option String) : Bool :=
  parseBoolOption value DefaultValues.captureHeaders

/-- `ParseRecording`. -/
def parseRecording (value : Option String) : Bool :=
  if isNullOrEmpty value then true else (tryParseBool (value.getD "")).getD true

/-- `TryParseLogLevel`. -/
def tryParseLogLevel (value : Option String) : Option LogLevel :=
  if isNullOrEmpty value then none
  else
    match toLowerInvariantStr (value.getD "") with
    | "trace" => some .trace
    | "debug" => some .debug
    | "information" => some .information
    | "info" => some .information
    | "warning" => some .warning
    | "error" => some .error
    | "critical" => some .critical
    | "none" => some .none
    | _ => none

/-- `ParseLogLevel`. -/
def parseLogLevel (value : Option String) : LogLevel :=
  (tryParseLogLevel value).getD DefaultValues.logLevel

/-- `ParseStackTraceLimit`. -/
def parseStackTraceLimit (value : Option String) : Int32 :=
  if isNullOrWhiteSpace value then DefaultValues.stackTraceLimit
  else (tryParseInt (value.getD "")).getD DefaultValues.stackTraceLimit

/-- `ParseTransactionMaxSpans`: only numbers from -1 on are allowed. -/
def parseTransactionMaxSpans (value : Option String) : Int32 :=
  match value with
  | none => DefaultValues.transactionMaxSpans
  | some text =>
    match tryParseInt text with
    | some result => if result < -1 then DefaultValues.transactionMaxSpans else result
    | none => DefaultValues.transactionMaxSpans

/-- `Sampler.IsValidRate`. -/
def isValidRate (rate : Double) : Bool := Double.le 0 rate && Double.le rate 1

/-- `ParseTransactionSampleRate`. -/
def parseTransactionSampleRate (value : Option String) : Double :=
  match value with
  | none => DefaultValues.transactionSampleRate
  | some text =>
    match tryParseDouble text with
    | some parsedValue =>
      if isValidRate parsedValue then parsedValue else DefaultValues.transactionSampleRate
    | none => DefaultValues.transactionSampleRate

/-- `ParseCaptureBody`. -/
def parseCaptureBody (value : Option String) : String :=
  if isNullOrEmpty value then DefaultValues.captureBody
  else
    let lower := toLowerInvariantStr (value.getD "")
    if lower ∈ captureBodySupportedValues then lower else DefaultValues.captureBody

/-- `ParseCaptureBodyContentTypes`. -/
def parseCaptureBodyContentTypes (value : Option String) : List String :=
  let valueToParse :=
    if isNullOrEmpty value then DefaultValues.captureBodyContentTypes else value.getD ""
  (split ',' valueToParse).map trim

/-! ### Time intervals -/

inductive TimeSuffix where
  | m
  | ms
  | s
  deriving DecidableEq, Repr

/-- Ticks per unit of a suffix. -/
def TimeSuffix.scale : TimeSuffix → Int
  | .m => TimeSpan.ticksPerMinute
  | .ms => TimeSpan.ticksPerMillisecond
  | .s => TimeSpan.ticksPerSecond

/-- A number of units as milliseconds, by way of a `TimeSpan`. -/
def parseInterval (number : List Char) (unit : TimeSuffix) :
    Except RuntimeException (Option Double) :=
  match tryParseDouble (String.ofList number) with
  | none => .ok none
  | some value => do
    let t ← TimeSpan.interval value unit.scale
    pure (some (TimeSpan.totalMilliseconds t))

/-- `TryParseTimeInterval`: `none` when the text is not a number. Only a number with the suffix
    `ms` is taken as it is, without a `TimeSpan` in between. -/
def tryParseTimeInterval (valueAsString : String) (defaultSuffix : TimeSuffix) :
    Except RuntimeException (Option Double) :=
  let cs := valueAsString.toList
  if cs.length ≥ 2 ∧ (cs.drop (cs.length - 2)).map toLowerInvariant = "ms".toList then
    .ok (tryParseDouble (String.ofList (cs.take (cs.length - 2))))
  else
    match cs.getLast? with
    -- `Last()` of an empty text.
    | none => .error .invalidOperation
    | some last =>
      if toLowerInvariant last = 's' then parseInterval cs.dropLast .s
      else if toLowerInvariant last = 'm' then parseInterval cs.dropLast .m
      else parseInterval cs defaultSuffix

/-- `ParseSpanFramesMinDurationInMilliseconds`: an `ArgumentException` is caught, any other
    exception leaves the parser. -/
def parseSpanFramesMinDurationInMilliseconds (value : Option String) :
    Except RuntimeException Double :=
  let text :=
    if isNullOrWhiteSpace value then DefaultValues.spanFramesMinDuration else value.getD ""
  -- `ms` is the suffix of a number without one.
  match tryParseTimeInterval text .ms with
  | .ok (some valueInMilliseconds) => .ok valueInMilliseconds
  | .ok none => .ok DefaultValues.spanFramesMinDurationInMilliseconds
  | .error .argument => .ok DefaultValues.spanFramesMinDurationInMilliseconds
  | .error e => .error e

/-- The text of the default duration stands for the default in milliseconds. -/
theorem tryParseTimeInterval_default :
    tryParseTimeInterval DefaultValues.spanFramesMinDuration .ms =
      .ok (some DefaultValues.spanFramesMinDurationInMilliseconds) := by
  have hm : toLowerInvariant 'm' = 'm' := InvariantCulture.toLowerInvariant_ascii 'm' (by decide)
  have hs : toLowerInvariant 's' = 's' := InvariantCulture.toLowerInvariant_ascii 's' (by decide)
  have hnumber : tryParseNumber "5".toList = some 5 := by decide +kernel
  have hdouble : tryParseDouble "5" = some (.finite 5) := by
    unfold tryParseDouble
    rw [hnumber]
  unfold tryParseTimeInterval
  extract_lets cs
  have hcs : cs = ['5', 'm', 's'] := by decide
  rw [hcs]
  simp [hm, hs, hdouble]
  rfl

/-! ### What a parsed option satisfies -/

omit [InvariantCulture] in
theorem parseTransactionMaxSpans_ge (value : Option String) :
    -1 ≤ parseTransactionMaxSpans value := by
  unfold parseTransactionMaxSpans
  split
  · decide
  · split
    · next result _ =>
      split
      · decide
      · next h => exact Int32.not_lt.mp h
    · decide

theorem parseTransactionSampleRate_valid (value : Option String) :
    isValidRate (parseTransactionSampleRate value) = true := by
  have hdefault : isValidRate DefaultValues.transactionSampleRate = true := by decide +kernel
  unfold parseTransactionSampleRate
  split
  · exact hdefault
  · split
    · split
      · next h => exact h
      · exact hdefault
    · exact hdefault

theorem parseCaptureBody_supported (value : Option String) :
    parseCaptureBody value ∈ captureBodySupportedValues := by
  have hdefault : DefaultValues.captureBody ∈ captureBodySupportedValues := by decide
  unfold parseCaptureBody
  split
  · exact hdefault
  · extract_lets lower
    split
    · next h => exact h
    · exact hdefault

end ApmAgent
