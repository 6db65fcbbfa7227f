import ApmAgent.Config.ConfigOption
import Mathlib.Data.List.Induction

/-! # Configuration readers and the keys their values depend on

  The two kinds of readers over `AbstractConfigurationReader`: the one that
  reads environment variables only, and the one that reads a primary source
  first (`MicrosoftExtensionsConfig`, `FullFrameworkConfigReader`).

  What a property returns after others have been read is the parsed text of one
  key. For the environment reader that is the key of the option itself. For
  the other reader it is the key `decidingKey` says: `Recording` has the value
  of `Enabled`, and of the two lists of namespaces the one that is read first
  stands in for both.
-/

namespace ApmAgent

section
variable [InvariantCulture]

/-! ### Fields with values of their own -/

/-- The lazily filled fields, apart from the lists of namespaces, hold nothing but what the parsers
    make of the texts `raw`. -/
structure ReaderFields.Own (s : ReaderFields) (host : ReaderHost)
    (raw : ConfigOption → Option String) : Prop where
  maxBatchEventCount :
    s.cachedMaxBatchEventCount.Holds (parseMaxBatchEventCountImpl (raw .maxBatchEventCount))
  maxQueueEventCount :
    s.cachedMaxQueueEventCount.Holds (parseMaxQueueEventCountImpl (raw .maxQueueEventCount))
  serverUrls : s.cachedServerUrls.Holds (parseServerUrlsImpl host (raw .serverUrls))
  disableMetrics :
    s.cachedWildcardMatchersDisableMetrics.Holds (parseDisableMetricsImpl (raw .disableMetrics))
  sanitizeFieldNames :
    s.cachedWildcardMatchersSanitizeFieldNames.Holds
      (parseSanitizeFieldNamesImpl (raw .sanitizeFieldNames))
  transactionIgnoreUrls :
    s.cachedWildcardMatchersTransactionIgnoreUrls.Holds
      (parseTransactionIgnoreUrlsImpl (raw .transactionIgnoreUrls))
  stackTraceLimit : s.stackTraceLimit.Holds (parseStackTraceLimit (raw .stackTraceLimit))
  spanFramesMinDuration :
    s.spanFramesMinDurationInMilliseconds.Holds
      (parseSpanFramesMinDurationInMilliseconds (raw .spanFramesMinDuration))
  logLevel : s.logLevel.Holds (parseLogLevel (raw .logLevel))

namespace ReaderFields.Own

variable {s : ReaderFields} {host : ReaderHost} {raw : ConfigOption → Option String}

theorem init (host : ReaderHost) (raw : ConfigOption → Option String) :
    ReaderFields.Own {} host raw := by
  constructor <;> exact LazyInit.holds_empty _

/-- A parser that is called with the text of its own option keeps the fields so. -/
theorem parse (h : s.Own host raw) (o : ConfigOption) :
    (o.parse host (raw o) s).2.Own host raw := by
  cases o with
  | maxBatchEventCount => exact { h with maxBatchEventCount := h.maxBatchEventCount.initOrGet_snd }
  | maxQueueEventCount => exact { h with maxQueueEventCount := h.maxQueueEventCount.initOrGet_snd }
  | serverUrls => exact { h with serverUrls := h.serverUrls.initOrGet_snd }
  | disableMetrics => exact { h with disableMetrics := h.disableMetrics.initOrGet_snd }
  | sanitizeFieldNames => exact { h with sanitizeFieldNames := h.sanitizeFieldNames.initOrGet_snd }
  | transactionIgnoreUrls =>
    exact { h with transactionIgnoreUrls := h.transactionIgnoreUrls.initOrGet_snd }
  | stackTraceLimit => exact { h with stackTraceLimit := h.stackTraceLimit.initOrGet_snd }
  | spanFramesMinDuration =>
    exact { h with spanFramesMinDuration := h.spanFramesMinDuration.initOrGet_snd }
  | applicationNamespaces => exact { h with }
  | excludedNamespaces => exact { h with }
  -- The parsers of the others leave the fields as they are.
  | _ => exact h

/-- And it returns what it makes of that text. -/
theorem parse_fst (h : s.Own host raw) {o : ConfigOption} (hexcluded : o ≠ .excludedNamespaces)
    (happlication : o ≠ .applicationNamespaces) :
    (o.parse host (raw o) s).1 = o.parsed host (raw o) := by
  cases o with
  | maxBatchEventCount => exact congrArg Except.ok h.maxBatchEventCount.initOrGet_fst
  | maxQueueEventCount => exact congrArg Except.ok h.maxQueueEventCount.initOrGet_fst
  | serverUrls => exact congrArg Except.ok h.serverUrls.initOrGet_fst
  | disableMetrics => exact congrArg Except.ok h.disableMetrics.initOrGet_fst
  | sanitizeFieldNames => exact congrArg Except.ok h.sanitizeFieldNames.initOrGet_fst
  | transactionIgnoreUrls => exact congrArg Except.ok h.transactionIgnoreUrls.initOrGet_fst
  | stackTraceLimit => exact congrArg Except.ok h.stackTraceLimit.initOrGet_fst
  | spanFramesMinDuration => exact h.spanFramesMinDuration.initOrGet_fst
  | applicationNamespaces => exact absurd rfl happlication
  | excludedNamespaces => exact absurd rfl hexcluded
  | _ => rfl

end ReaderFields.Own

section
variable {host : ReaderHost} {value : Option String} {s : ReaderFields} {o : ConfigOption}

/-- Only its own parser fills the field of the excluded namespaces. -/
theorem ConfigOption.parse_cachedExcludedNamespaces (h : o ≠ .excludedNamespaces) :
    (o.parse host value s).2.cachedExcludedNamespaces = s.cachedExcludedNamespaces := by
  cases o with
  | excludedNamespaces => exact absurd rfl h
  | _ => rfl

theorem ConfigOption.parse_cachedApplicationNamespaces (h : o ≠ .applicationNamespaces) :
    (o.parse host value s).2.cachedApplicationNamespaces = s.cachedApplicationNamespaces := by
  cases o with
  | applicationNamespaces => exact absurd rfl h
  | _ => rfl

end

/-! ### The environment reader -/

/-- `ReadEnvVarValue`. -/
def readEnvVarValue (env : String → Option String) (envVarName : String) : Option String :=
  (env envVarName).map trim

/-- `EnvironmentConfigurationReader`. -/
structure EnvironmentConfigurationReader where
  host : ReaderHost
  env : String → Option String

namespace EnvironmentConfigurationReader

/-- The text of an option. -/
def read (r : EnvironmentConfigurationReader) (o : ConfigOption) : Option String :=
  readEnvVarValue r.env o.envVarName

/-- Reading a property. -/
def get (r : EnvironmentConfigurationReader) (s : ReaderFields) (o : ConfigOption) :
    Except RuntimeException o.Value × ReaderFields :=
  o.parse r.host (r.read o) s

/-- The fields after properties have been read. -/
def fieldsAfter (r : EnvironmentConfigurationReader) (reads : List ConfigOption) : ReaderFields :=
  reads.foldl (fun s o => (r.get s o).2) {}

/-- All fields hold the values of their own options. -/
structure Inv (r : EnvironmentConfigurationReader) (s : ReaderFields) : Prop where
  own : s.Own r.host r.read
  excludedNamespaces :
    s.cachedExcludedNamespaces.Holds (parseExcludedNamespacesImpl (r.read .excludedNamespaces))
  applicationNamespaces :
    s.cachedApplicationNamespaces.Holds
      (parseApplicationNamespacesImpl (r.read .applicationNamespaces))

variable (r : EnvironmentConfigurationReader)

theorem inv_init : r.Inv {} where
  own := .init r.host r.read
  excludedNamespaces := LazyInit.holds_empty _
  applicationNamespaces := LazyInit.holds_empty _

theorem inv_get {s : ReaderFields} (h : r.Inv s) (o : ConfigOption) : r.Inv (r.get s o).2 := by
  refine ⟨h.own.parse o, ?_, ?_⟩
  · by_cases ho : o = .excludedNamespaces
    · subst ho
      exact h.excludedNamespaces.initOrGet_snd
    · rw [get, ConfigOption.parse_cachedExcludedNamespaces ho]
      exact h.excludedNamespaces
  · by_cases ho : o = .applicationNamespaces
    · subst ho
      exact h.applicationNamespaces.initOrGet_snd
    · rw [get, ConfigOption.parse_cachedApplicationNamespaces ho]
      exact h.applicationNamespaces

theorem inv_fieldsAfter (reads : List ConfigOption) : r.Inv (r.fieldsAfter reads) := by
  have hrun (s : ReaderFields) (h : r.Inv s) :
      r.Inv (reads.foldl (fun s o => (r.get s o).2) s) := by
    induction reads generalizing s with
    | nil => exact h
    | cons o reads ih => exact ih _ (r.inv_get h o)
  exact hrun {} r.inv_init

/-- Whatever has been read before, an option has the value of its own variable. -/
theorem get_fieldsAfter (reads : List ConfigOption) (o : ConfigOption) :
    (r.get (r.fieldsAfter reads) o).1 = o.parsed r.host (r.read o) := by
  have hinv := r.inv_fieldsAfter reads
  by_cases hexcluded : o = .excludedNamespaces
  · subst hexcluded
    exact congrArg Except.ok hinv.excludedNamespaces.initOrGet_fst
  · by_cases happlication : o = .applicationNamespaces
    · subst happlication
      exact congrArg Except.ok hinv.applicationNamespaces.initOrGet_fst
    · exact hinv.own.parse_fst hexcluded happlication

end EnvironmentConfigurationReader

/-! ### The reader with a primary source -/

/-- A primary source and the environment variables behind it. -/
structure KeyValueSource where
  primary : String → Option String
  env : String → Option String

namespace KeyValueSource

/-- `Read(key, fallBackEnvVarName)` with the two names of an option. -/
def read (src : KeyValueSource) (o : ConfigOption) : Option String :=
  (src.primary o.keyName).or (readEnvVarValue src.env o.envVarName)

/-- The sources have the same raw values for the key of `o`. -/
def AgreeOn (o : ConfigOption) (src src' : KeyValueSource) : Prop :=
  src.primary o.keyName = src'.primary o.keyName ∧ src.env o.envVarName = src'.env o.envVarName

omit [InvariantCulture] in
theorem AgreeOn.read_eq {o : ConfigOption} {src src' : KeyValueSource} (h : AgreeOn o src src') :
    src.read o = src'.read o := by
  obtain ⟨hprimary, henv⟩ := h
  simp only [read, readEnvVarValue, hprimary, henv]

end KeyValueSource

/-- A reader derived from `AbstractConfigurationWithEnvFallbackReader`. -/
structure EnvFallbackReader where
  host : ReaderHost
  defaultEnvironmentName : Option String
  /-- `MicrosoftExtensionsConfig` overrides `LogLevel` with a property that keeps its value. -/
  keepsLogLevel : Bool

/-- `FullFrameworkConfigReader`. -/
def fullFrameworkConfigReader (host : ReaderHost) : EnvFallbackReader where
  host := host
  defaultEnvironmentName := none
  keepsLogLevel := false

/-- `MicrosoftExtensionsConfig`. -/
def microsoftExtensionsConfig (host : ReaderHost) (defaultEnvironmentName : Option String) :
    EnvFallbackReader where
  host := host
  defaultEnvironmentName := defaultEnvironmentName
  keepsLogLevel := true

namespace EnvFallbackReader

/-- Reading a property. -/
def get (r : EnvFallbackReader) (src : KeyValueSource) (s : ReaderFields) :
    (o : ConfigOption) → Except RuntimeException o.Value × ReaderFields
  -- Two properties do not call the parser of their option.
  | .applicationNamespaces =>
    (s.parseExcludedNamespaces (src.read .applicationNamespaces)).map .ok id
  | .recording => (.ok (parseEnabled (src.read .enabled)), s)
  | .environment =>
    (.ok ((parseEnvironment (src.read .environment)).or r.defaultEnvironmentName), s)
  | .logLevel =>
    if r.keepsLogLevel then (s.getLogLevel (src.read .logLevel)).map .ok id
    else (.ok (parseLogLevel (src.read .logLevel)), s)
  | o => o.parse r.host (src.read o) s

/-- The fields after properties have been read. -/
def fieldsAfter (r : EnvFallbackReader) (src : KeyValueSource) (reads : List ConfigOption) :
    ReaderFields :=
  reads.foldl (fun s o => (r.get src s o).2) {}

/-- The value of an option after others have been read. -/
def valueAfter (r : EnvFallbackReader) (src : KeyValueSource) (reads : List ConfigOption)
    (o : ConfigOption) : Except RuntimeException o.Value :=
  (r.get src (r.fieldsAfter src reads) o).1

/-! ### Which key decides -/

/-- The two options whose properties share the field of the excluded namespaces. -/
def isNamespaces (o : ConfigOption) : Bool :=
  o = .applicationNamespaces || o = .excludedNamespaces

/-- The option whose key decides the value of an option after others have been read. -/
def decidingKey (reads : List ConfigOption) : ConfigOption → ConfigOption
  | .recording => .enabled
  | .applicationNamespaces => (reads.find? isNamespaces).getD .applicationNamespaces
  | .excludedNamespaces => (reads.find? isNamespaces).getD .excludedNamespaces
  | o => o

/-- What a property makes of the text that decides it. -/
def parsed (r : EnvFallbackReader) (value : Option String) :
    (o : ConfigOption) → Except RuntimeException o.Value
  | .applicationNamespaces => .ok (parseExcludedNamespacesImpl value)
  | .recording => .ok (parseEnabled value)
  | .environment => .ok ((parseEnvironment value).or r.defaultEnvironmentName)
  | o => o.parsed r.host value

/-- The fields hold the values of their own options, but the one of the excluded namespaces what
    the first request for it left there. -/
structure Inv (r : EnvFallbackReader) (src : KeyValueSource) (reads : List ConfigOption)
    (s : ReaderFields) : Prop where
  own : s.Own r.host src.read
  excludedNamespaces :
    s.cachedExcludedNamespaces.value? =
      (reads.find? isNamespaces).map fun o => parseExcludedNamespacesImpl (src.read o)

variable (r : EnvFallbackReader) (src : KeyValueSource)

theorem inv_init : r.Inv src [] {} where
  own := .init r.host src.read
  excludedNamespaces := rfl

/-- Every property keeps the fields with values of their own. -/
theorem own_get {s : ReaderFields} (h : s.Own r.host src.read) (o : ConfigOption) :
    (r.get src s o).2.Own r.host src.read := by
  cases o with
  | applicationNamespaces => exact { h with }
  | recording => exact h
  | environment => exact h
  | logLevel =>
    simp only [get]
    split
    · exact { h with logLevel := h.logLevel.initOrGet_snd }
    · exact h
  | _ => exact h.parse _

/-- A property of one of the lists of namespaces is a request for the shared field. -/
theorem get_cachedExcludedNamespaces (s : ReaderFields) {o : ConfigOption} (h : isNamespaces o) :
    (r.get src s o).2.cachedExcludedNamespaces.value? =
      s.cachedExcludedNamespaces.value?.or (some (parseExcludedNamespacesImpl (src.read o))) := by
  simp only [isNamespaces, Bool.or_eq_true, decide_eq_true_eq] at h
  rcases h with rfl | rfl
  · exact LazyInit.initOrGet_snd_value? _ _
  · exact LazyInit.initOrGet_snd_value? _ _

/-- The others leave it alone. -/
theorem get_cachedExcludedNamespaces_of_not (s : ReaderFields) {o : ConfigOption}
    (h : ¬ isNamespaces o) :
    (r.get src s o).2.cachedExcludedNamespaces = s.cachedExcludedNamespaces := by
  cases o with
  | applicationNamespaces => exact absurd rfl h
  | excludedNamespaces => exact absurd rfl h
  | logLevel =>
    simp only [get]
    split
    · rfl
    · rfl
  | _ => rfl

theorem inv_get {reads : List ConfigOption} {s : ReaderFields} (h : r.Inv src reads s)
    (o : ConfigOption) : r.Inv src (reads ++ [o]) (r.get src s o).2 := by
  refine ⟨r.own_get src h.own o, ?_⟩
  rw [List.find?_append]
  by_cases ho : isNamespaces o
  · rw [r.get_cachedExcludedNamespaces src s ho, h.excludedNamespaces, List.find?_singleton,
      if_pos ho]
    cases reads.find? isNamespaces with
    | none => rfl
    | some first => rfl
  · rw [r.get_cachedExcludedNamespaces_of_not src s ho, h.excludedNamespaces,
      List.find?_singleton, if_neg ho, Option.or_none]

/-- Along every order of reads. -/
theorem inv_fieldsAfter (reads : List ConfigOption) :
    r.Inv src reads (r.fieldsAfter src reads) := by
  induction reads using List.reverseRecOn with
  | nil => exact r.inv_init src
  | append_singleton reads o ih =>
    have hstep := r.inv_get src ih o
    rwa [fieldsAfter, List.foldl_append]

/-- The value of an option is the parsed text of the key that decides it. -/
theorem valueAfter_eq (reads : List ConfigOption) (o : ConfigOption) :
    r.valueAfter src reads o = r.parsed (src.read (decidingKey reads o)) o := by
  have hinv := r.inv_fieldsAfter src reads
  -- What either list of namespaces gets from the shared field.
  have hnamespaces (own : ConfigOption) :
      ((r.fieldsAfter src reads).cachedExcludedNamespaces.initOrGet
          (parseExcludedNamespacesImpl (src.read own))).1 =
        parseExcludedNamespacesImpl (src.read ((reads.find? isNamespaces).getD own)) := by
    simp only [LazyInit.initOrGet, hinv.excludedNamespaces]
    cases reads.find? isNamespaces with
    | none => rfl
    | some first => rfl
  cases o with
  | applicationNamespaces => exact congrArg Except.ok (hnamespaces .applicationNamespaces)
  | excludedNamespaces => exact congrArg Except.ok (hnamespaces .excludedNamespaces)
  | recording => rfl
  | environment => rfl
  | logLevel =>
    simp only [valueAfter, get]
    split
    · exact congrArg Except.ok hinv.own.logLevel.initOrGet_fst
    · rfl
  | _ => exact hinv.own.parse_fst (by decide) (by decide)

/-! ### Two runs -/

/-- In two orders of reads, sources that agree on the key of `o` give it the same value. -/
def IsolatedAfter (reads reads' : List ConfigOption) (o : ConfigOption) : Prop :=
  ∀ src src' : KeyValueSource, src.AgreeOn o src' →
    r.valueAfter src reads o = r.valueAfter src' reads' o

omit [InvariantCulture] in
/-- The key that decides is that of the option itself, or one of the options is meant whose
    property does not call its own parser. -/
theorem decidingKey_ne {reads : List ConfigOption} {o : ConfigOption}
    (h : decidingKey reads o ≠ o) :
    o = .recording ∧ decidingKey reads o = .enabled ∨
    o = .applicationNamespaces ∧ decidingKey reads o = .excludedNamespaces ∨
    o = .excludedNamespaces ∧ decidingKey reads o = .applicationNamespaces := by
  have hfirst (own : ConfigOption) (hne : (reads.find? isNamespaces).getD own ≠ own) :
      (reads.find? isNamespaces).getD own = .applicationNamespaces ∨
        (reads.find? isNamespaces).getD own = .excludedNamespaces := by
    rcases hfind : reads.find? isNamespaces with _ | first
    · rw [hfind] at hne
      exact absurd rfl hne
    · have hfirst := List.find?_some hfind
      simpa only [isNamespaces, Bool.or_eq_true, decide_eq_true_eq, Option.getD_some] using hfirst
  cases o with
  | recording => exact .inl ⟨rfl, rfl⟩
  | applicationNamespaces =>
    rcases hfirst _ h with happlication | hexcluded
    · exact absurd happlication h
    · exact .inr (.inl ⟨rfl, hexcluded⟩)
  | excludedNamespaces =>
    rcases hfirst _ h with happlication | hexcluded
    · exact .inr (.inr ⟨rfl, happlication⟩)
    · exact absurd hexcluded h
  | _ => exact absurd rfl h

/-- `False` switches the agent off, whatever the case tables are. -/
theorem parseEnabled_false : parseEnabled (some "False") = false := by
  have htrim : trimBy (fun c => isWhiteSpace c || c = '\x00') "False".toList = "False".toList := by
    decide +kernel
  have htrue : equalsOrdinalIgnoreCase "False".toList "True".toList = false := by
    -- The words differ in length.
    rw [equalsOrdinalIgnoreCase, decide_eq_false_iff_not]
    intro h
    have hlength := congrArg List.length h
    simp at hlength
  have hfalse : equalsOrdinalIgnoreCase "False".toList "False".toList = true :=
    decide_eq_true rfl
  have hparse : tryParseBool "False" = some false := by
    unfold tryParseBool
    rw [htrim]
    extract_lets cs
    rw [show equalsOrdinalIgnoreCase cs "True".toList = false from htrue,
      show equalsOrdinalIgnoreCase cs "False".toList = true from hfalse]
    rfl
  have htext : isNullOrEmpty (some "False") = false := by decide
  rw [parseEnabled, htext, if_neg Bool.false_ne_true, Option.getD_some, hparse, Option.getD_some]

/-- Where another key decides, the value is not the same for all texts under that key. -/
theorem parsed_ne {reads : List ConfigOption} {o : ConfigOption} (h : decidingKey reads o ≠ o) :
    ∃ text text', r.parsed text o ≠ r.parsed text' o := by
  have hnamespaces : parseExcludedNamespacesImpl none ≠ parseExcludedNamespacesImpl (some "a") := by
    decide +kernel
  rcases decidingKey_ne h with ⟨rfl, -⟩ | ⟨rfl, -⟩ | ⟨rfl, -⟩
  · refine ⟨none, some "False", fun heq => ?_⟩
    have hok : parseEnabled none = parseEnabled (some "False") := Except.ok.inj heq
    rw [parseEnabled_false] at hok
    cases hok
  · exact ⟨none, some "a", fun heq => hnamespaces (Except.ok.inj heq)⟩
  · exact ⟨none, some "a", fun heq => hnamespaces (Except.ok.inj heq)⟩

omit [InvariantCulture] in
theorem keyName_decidingKey_ne {reads : List ConfigOption} {o : ConfigOption}
    (h : decidingKey reads o ≠ o) : (decidingKey reads o).keyName ≠ o.keyName := by
  rcases decidingKey_ne h with ⟨rfl, hkey⟩ | ⟨rfl, hkey⟩ | ⟨rfl, hkey⟩
  · rw [hkey]
    decide +kernel
  · rw [hkey]
    decide +kernel
  · rw [hkey]
    decide +kernel

/-- The source that has `text` under `key` and `otherText` under all other keys. -/
def sourceWith (key : String) (text otherText : Option String) : KeyValueSource where
  primary k := if k = key then text else otherText
  env _ := none

omit [InvariantCulture] in
theorem sourceWith_read (o o' : ConfigOption) (text otherText : Option String) :
    (sourceWith o.keyName text otherText).read o' =
      if o'.keyName = o.keyName then text else otherText := by
  simp only [KeyValueSource.read, sourceWith, readEnvVarValue, Option.map_none, Option.or_none]

/-- Where the key of another option decides in one of the runs, the values can differ. -/
theorem not_isolatedAfter {reads : List ConfigOption} (reads' : List ConfigOption)
    {o : ConfigOption} (h : decidingKey reads o ≠ o) :
    ∃ src src' : KeyValueSource, src.AgreeOn o src' ∧
      r.valueAfter src reads o ≠ r.valueAfter src' reads' o := by
  obtain ⟨text, text', hne⟩ := r.parsed_ne h
  -- Both have `text'` under the key of `o`, and the second one also under all other keys.
  refine ⟨sourceWith o.keyName text' text, sourceWith o.keyName text' text', ?_, ?_⟩
  · simp only [KeyValueSource.AgreeOn, sourceWith, if_true, and_self]
  · have hread : (sourceWith o.keyName text' text).read (decidingKey reads o) = text := by
      rw [sourceWith_read, if_neg (keyName_decidingKey_ne h)]
    have hread' : (sourceWith o.keyName text' text').read (decidingKey reads' o) = text' := by
      rw [sourceWith_read, ite_self]
    rw [valueAfter_eq, valueAfter_eq, hread, hread']
    exact hne

/-- Two sources that agree on the key of an option give it the same value, whatever has been read
    before, exactly where its own key decides: never for `Recording`, for a list of namespaces as
    long as the other list has not been read first, and always for every other option. -/
theorem keys_isolated_iff (reads reads' : List ConfigOption) (o : ConfigOption) :
    r.IsolatedAfter reads reads' o ↔ decidingKey reads o = o ∧ decidingKey reads' o = o := by
  constructor
  · intro h
    refine ⟨?_, ?_⟩
    · by_contra hother
      obtain ⟨src, src', hagree, hne⟩ := r.not_isolatedAfter reads' hother
      exact hne (h src src' hagree)
    · by_contra hother
      obtain ⟨src, src', hagree, hne⟩ := r.not_isolatedAfter reads hother
      exact hne (h src' src ⟨hagree.1.symm, hagree.2.symm⟩).symm
  · intro ⟨hkey, hkey'⟩ src src' hagree
    rw [valueAfter_eq, valueAfter_eq, hkey, hkey', hagree.read_eq]

end EnvFallbackReader

end

section
attribute [local instance] InvariantCulture.ascii

open EnvFallbackReader

/-- With `Enabled` set to false in one of two sources that have no value for `Recording`, and with
    `ApplicationNamespaces` read before `ExcludedNamespaces` in one of two runs. -/
theorem EnvFallbackReader.keys_isolated_counterexample :
    ((sourceWith "" none none).AgreeOn .recording
        (sourceWith "ElasticApm:Enabled" (some "false") none) ∧
      (fullFrameworkConfigReader ⟨fun _ => true, none, none⟩).valueAfter
        (sourceWith "" none none) [] .recording = .ok true ∧
      (fullFrameworkConfigReader ⟨fun _ => true, none, none⟩).valueAfter
        (sourceWith "ElasticApm:Enabled" (some "false") none) [] .recording = .ok false) ∧
    ((sourceWith "" none none).AgreeOn .excludedNamespaces
        (sourceWith "ElasticApm:ApplicationNamespaces" (some "MyApp") none) ∧
      (fullFrameworkConfigReader ⟨fun _ => true, none, none⟩).valueAfter
        (sourceWith "" none none) [] .excludedNamespaces = .ok DefaultValues.excludedNamespaces ∧
      (fullFrameworkConfigReader ⟨fun _ => true, none, none⟩).valueAfter
        (sourceWith "ElasticApm:ApplicationNamespaces" (some "MyApp") none)
        [.applicationNamespaces] .excludedNamespaces = .ok ["MyApp"]) := by
  have hfalse : parseEnabled (some "false") = false := by decide +kernel
  have happlication : parseExcludedNamespacesImpl (some "MyApp") = ["MyApp"] := by decide +kernel
  refine ⟨⟨⟨?_, rfl⟩, rfl, congrArg Except.ok hfalse⟩,
    ⟨?_, rfl⟩, rfl, congrArg Except.ok happlication⟩
  · decide +kernel
  · decide +kernel

end

end ApmAgent
