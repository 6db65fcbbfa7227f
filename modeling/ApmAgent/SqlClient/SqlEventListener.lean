import ApmAgent.DiagnosticListeners.SpanTracking
import ApmAgent.Model.DestinationLookup
import ApmAgent.Report.PayloadItemSerializer

/-! # SqlEventListener

  The spans of SQL commands, which `System.Data.SqlClient` tells apart by ids.
  Commands that an instrumentation of Entity Framework captures are skipped, by
  the span that is current when an event is written.

  What is reported to the log is left out.
-/

namespace ApmAgent

/-! ### Events -/

/-- An item of the payload of an event. -/
inductive PayloadItem where
  | null
  | int (n : Int32)
  | string (s : String)
  deriving DecidableEq, Repr

namespace PayloadItem

/-- `Convert.ToInt32`, `none` where it throws. -/
def toInt32 : PayloadItem → Option Int32
  | null => some 0
  | int n => some n
  | string s => tryParseInt s

/-- `Convert.ToString`. -/
def toStr : PayloadItem → String
  | null => ""
  | int n => toString n.toInt
  | string s => s

end PayloadItem

/-- An event, with the choices of the environment while it is processed. -/
structure EventWrittenEventArgs where
  payload : Option (List PayloadItem)
  eventId : Int
  spanStart : SpanStart
  /-- `Stopwatch.GetTimestamp`. -/
  timestamp : Int
  now : Int

/-- The events that are processed. -/
inductive SqlEvent where
  | beginExecute (id : Int32) (dataSource database commandText : String)
  | endExecute (id compositeState sqlExceptionNumber : Int32)
  deriving DecidableEq, Repr

/-- The id and the payload of an event; an exception of a conversion is caught and logged. -/
def EventWrittenEventArgs.received (eventData : EventWrittenEventArgs) : Option SqlEvent := do
  let payload ← eventData.payload
  if eventData.eventId = 1 then
    match payload with
    | [id, dataSource, database, commandText] =>
      return .beginExecute (← id.toInt32) dataSource.toStr database.toStr commandText.toStr
    | _ => none
  else if eventData.eventId = 2 then
    match payload with
    | [id, compositeState, sqlExceptionNumber] =>
      return .endExecute (← id.toInt32) (← compositeState.toInt32) (← sqlExceptionNumber.toInt32)
    | _ => none
  else none

/-! ### The listener -/

/-- `Environment.NewLine` and `Stopwatch.Frequency`. -/
structure SqlPlatform where
  newLine : String
  stopwatchFrequency : Int

/-- `Database`, whose type is `sql` here. -/
structure Database where
  statement : String
  instanceName : String
  deriving DecidableEq, Repr

/-- A listener, with what it has written to spans. -/
structure SqlEventListener where
  /-- The agent, and `_processingSpans`, which has the start of each command. -/
  spans : ListenerState Int32 Int
  lookup : DestinationLookup
  /-- `Context.Db`; all no-op spans have one context, the one under `none`. -/
  contextDb : Option SpanRef → Option Database
  /-- `Context.Destination`. -/
  contextDestination : Option SpanRef → Option DestinationRef
  outcome : SpanRef → Outcome

/-- The current span was started by an instrumentation of Entity Framework. -/
def Instrumented.isCompeting (s : Instrumented) : Bool :=
  match s.tracer.currentSpan with
  | none => false
  | some k =>
    (s.tracer.span? k).isSome &&
      (s.instrumentationFlag k = .efCore || s.instrumentationFlag k = .efClassic)

namespace ListenerState

variable {Key Data : Type}

/-- `Span.Duration = …`, where the span is a `Span`. -/
def setDuration (s : ListenerState Key Data) (k : SpanRef) (duration : Int) :
    ListenerState Key Data :=
  match s.tracer.span? k with
  | none => s
  | some span =>
    { s with
      agent :=
        { s.agent with tracer := DbSpanCommon.setDuration s.tracer k span (some duration) } }

end ListenerState

namespace SqlEventListener

section

variable [InvariantCulture] (platform : SqlPlatform)

/-- `ProcessBeginExecute`, with the payload read. -/
def processBeginExecute (s : SqlEventListener) (id : Int32)
    (dataSource database commandText : String) (a : SpanStart) (start : Int) :
    Option SqlEventListener :=
  (s.spans.startSpan .sqlClient a).map fun (spans, span) =>
    match span with
    | none => { s with spans := spans }
    | some span =>
      match spans.tryAdd id span start with
      | none => { s with spans := spans }
      | some spans =>
        let context := (spans.tracer.span? span).map fun _ => span
        let db : Database :=
          { statement :=
              if isNullOrWhiteSpace (some commandText) then ""
              else commandText.replace platform.newLine ""
            instanceName := database }
        let (lookup, destination) :=
          s.lookup.getDestination (some ("Data Source=" ++ dataSource)) false none
        { s with
          spans := spans
          lookup := lookup
          contextDb := Function.update s.contextDb context (some db)
          contextDestination := Function.update s.contextDestination context destination }

/-- The outcome of a command, with an error for one that failed. -/
def readCompositeState (s : SqlEventListener) (span : SpanRef) (compositeState : Int32) :
    Option SqlEventListener :=
  if compositeState &&& 2 = 2 then
    (s.spans.call (.captureError (.span span) none)).map fun spans =>
      { s with spans := spans, outcome := Function.update s.outcome span .failure }
  else some { s with outcome := Function.update s.outcome span .success }

/-- `ProcessEndExecute`, with the payload read. -/
def processEndExecute (s : SqlEventListener) (id compositeState : Int32) (stop now : Int) :
    Option SqlEventListener :=
  match s.spans.tryRemove id with
  | none => some s
  | some (spans, span, start) => do
    -- In the unit of `Duration`.
    let duration := (stop - start) * 1000000 / platform.stopwatchFrequency
    let s ← { s with spans := spans.setDuration span duration }.readCompositeState span
      compositeState
    let spans ← s.spans.call (.endSegment (.span span) now)
    return { s with spans := spans }

/-- `OnEventWritten`. -/
def onEventWritten (s : SqlEventListener) (eventData : EventWrittenEventArgs) :
    Option SqlEventListener :=
  -- Check for competing instrumentation
  if s.spans.agent.isCompeting then some s
  else
    match eventData.received with
    | none => some s
    | some (.beginExecute id dataSource database commandText) =>
      s.processBeginExecute platform id dataSource database commandText eventData.spanStart
        eventData.timestamp
    | some (.endExecute id compositeState _) =>
      s.processEndExecute platform id compositeState eventData.timestamp eventData.now

/-- One event, or something that happens elsewhere. -/
def step (s : SqlEventListener) :
    ListenerLabel EventWrittenEventArgs → Option SqlEventListener
  | .event eventData => s.onEventWritten platform eventData
  | .elsewhere e => (s.spans.elsewhere e).map fun spans => { s with spans := spans }

/-- A listener that has been subscribed to a running agent. -/
def system : LTS.System SqlEventListener (ListenerLabel EventWrittenEventArgs) where
  init s := s.spans.IsNew
  step := step platform

end

/-! ### Begin and end events -/

/-- The begin events of a command. -/
def IsStart : ListenerLabel EventWrittenEventArgs → Int32 → Prop
  | .event eventData, id =>
    ∃ dataSource database commandText,
      eventData.received = some (.beginExecute id dataSource database commandText)
  | .elsewhere _, _ => False

/-- The end events of a command. -/
def IsStop : ListenerLabel EventWrittenEventArgs → Int32 → Prop
  | .event eventData, id =>
    ∃ compositeState sqlExceptionNumber,
      eventData.received = some (.endExecute id compositeState sqlExceptionNumber)
  | .elsewhere _, _ => False

/-- A begin event that is processed and finds a current segment, for a command that is in the
    table. -/
def StartOverlaps (s : SqlEventListener) (l : ListenerLabel EventWrittenEventArgs) : Prop :=
  ∃ id, IsStart l id ∧ s.spans.agent.isCompeting = false ∧
    s.spans.tracer.getCurrentExecutionSegment ≠ none ∧ s.spans.processing id ≠ none

/-- An end event of a command that is in the table, while a span of Entity Framework is
    current. -/
def StopCompetes (s : SqlEventListener) (l : ListenerLabel EventWrittenEventArgs) : Prop :=
  ∃ id, IsStop l id ∧ s.spans.agent.isCompeting = true ∧ s.spans.processing id ≠ none

section

variable [InvariantCulture] {platform : SqlPlatform} {s s' : SqlEventListener} {id : Int32}

theorem processBeginExecute_effect (hs : s.spans.WellFormed)
    {dataSource database commandText : String} {a : SpanStart} {start : Int}
    (h : s.processBeginExecute platform id dataSource database commandText a start = some s') :
    ListenerEffect (· = id)
      (s.spans.tracer.getCurrentExecutionSegment ≠ none ∧ s.spans.processing id ≠ none)
      s.spans s'.spans := by
  obtain ⟨⟨spans, span⟩, hstart, rfl⟩ := Option.map_eq_some_iff.mp h
  obtain ⟨hnone, rfl, rfl⟩ | ⟨hcurrent, rfl, hstarted⟩ := ListenerState.startSpan_cases hs hstart
  · exact .quiet (.refl _) fun hloses => hloses.1 hnone
  · simp only
    rcases hadd : spans.tryAdd id s.spans.tracer.spans.size start with _ | spans'
    · have hoverlaps := ListenerState.tryAdd_eq_none_iff.mp hadd
      rw [hstarted.processing] at hoverlaps
      exact .lose hstarted ⟨hcurrent, hoverlaps⟩
    · have hfree := (ListenerState.tryAdd_eq_some hadd).1
      rw [hstarted.processing] at hfree
      exact .put rfl hstarted hadd fun hloses => hloses.2 hfree

omit [InvariantCulture] in
theorem get?_of_span? {σ : Tracer} {k : SpanRef} {span : Span} (h : σ.span? k = some span) :
    σ.spans.get? k = some (.span span) := by
  unfold Tracer.span? at h
  split at h
  · next hget =>
    cases h
    exact hget
  · cases h

omit [InvariantCulture] in
theorem setDuration_keeps (s : ListenerState Int32 Int) (k : SpanRef) (duration : Int) :
    (s.setDuration k duration).processing = s.processing ∧
      (s.setDuration k duration).started = s.started ∧
      Tracer.KeepsSpans s.tracer (s.setDuration k duration).tracer none := by
  unfold ListenerState.setDuration
  rcases hspan : s.tracer.span? k with _ | span
  · exact ⟨rfl, rfl, .refl _ _⟩
  · refine ⟨rfl, rfl, ?_, ?_, ?_⟩
    · show s.tracer.spans.size ≤ (s.tracer.spans.update k _).size
      rw [Store.size_update]
    · intro j _ _
      have hget := get?_of_span? hspan
      show ((DbSpanCommon.setDuration s.tracer k span (some duration)).isEnded (.span j)) = _
      unfold Tracer.isEnded
      simp only [Tracer.setDuration_spans hget]
      by_cases hj : k = j
      · subst hj
        rw [if_pos rfl, hget]
        rfl
      · rw [if_neg hj]
    · intro j hj
      rw [Tracer.resolve_span_isSome_iff] at hj ⊢
      exact Store.exists_update (get?_of_span? hspan) id hj

omit [InvariantCulture] in
theorem readCompositeState_keeps {s s' : SqlEventListener} {span : SpanRef}
    {compositeState : Int32} (h : s.readCompositeState span compositeState = some s') :
    s'.spans.processing = s.spans.processing ∧ s'.spans.started = s.spans.started ∧
      Tracer.KeepsSpans s.spans.tracer s'.spans.tracer none := by
  unfold readCompositeState at h
  split at h
  · obtain ⟨spans, hcall, rfl⟩ := Option.map_eq_some_iff.mp h
    obtain ⟨_, hprocessing, hstarted⟩ := ListenerState.call_eq_some hcall
    exact ⟨hprocessing, hstarted, ListenerState.keepsSpans_call hcall⟩
  · cases h
    exact ⟨rfl, rfl, .refl _ _⟩

omit [InvariantCulture] in
theorem readCompositeState_isSome {s : SqlEventListener} {span : SpanRef}
    (h : (s.spans.tracer.resolve (.span span)).isSome) (compositeState : Int32) :
    (s.readCompositeState span compositeState).isSome := by
  unfold readCompositeState
  split
  · rw [Option.isSome_map]
    exact ListenerState.call_isSome h (.inr rfl)
  · rfl

omit [InvariantCulture] in
theorem processEndExecute_isSome (hs : s.spans.WellFormed) (id compositeState : Int32)
    (stop now : Int) : (s.processEndExecute platform id compositeState stop now).isSome := by
  unfold processEndExecute
  rcases hremove : s.spans.tryRemove id with _ | ⟨spans, span, start⟩
  · rfl
  · obtain ⟨_, _, hkeeps⟩ := setDuration_keeps spans span
      ((stop - start) * 1000000 / platform.stopwatchFrequency)
    have hspan := hkeeps.resolves span (ListenerState.resolve_of_tryRemove hs hremove)
    obtain ⟨s', hread⟩ := Option.isSome_iff_exists.mp
      (readCompositeState_isSome (s := { s with spans := spans.setDuration span _ }) hspan
        compositeState)
    have hspan' := (readCompositeState_keeps hread).2.2.resolves span hspan
    obtain ⟨spans', hend⟩ := Option.isSome_iff_exists.mp
      (ListenerState.call_isSome hspan' (.inl ⟨now, rfl⟩))
    simp only [hread, Option.bind_eq_bind, Option.bind_some, hend]
    rfl

omit [InvariantCulture] in
theorem processEndExecute_endsSpan {compositeState : Int32} {stop now : Int}
    (h : s.processEndExecute platform id compositeState stop now = some s') :
    EndsSpan spans s s' id := by
  unfold processEndExecute at h
  rcases hremove : s.spans.tryRemove id with _ | ⟨spans, span, start⟩
  · rw [hremove] at h
    cases h
    exact endsSpan_of_tryRemove_eq_none hremove
  · rw [hremove] at h
    obtain ⟨s₁, hread, h⟩ := Option.bind_eq_some_iff.mp h
    obtain ⟨spans', hend, hs'⟩ := Option.bind_eq_some_iff.mp h
    cases hs'
    obtain ⟨hprocessing, hstarted, hkeeps⟩ := setDuration_keeps spans span
      ((stop - start) * 1000000 / platform.stopwatchFrequency)
    obtain ⟨hprocessing', hstarted', hkeeps'⟩ := readCompositeState_keeps hread
    exact endsSpan_of_ends hremove (ListenerState.ends_of_call hremove
      (hprocessing'.trans hprocessing) (hstarted'.trans hstarted) (hkeeps.trans hkeeps') hend)

/-! ### The listener as a whole -/

theorem step_effect {l : ListenerLabel EventWrittenEventArgs} (hs : s.spans.WellFormed)
    (h : step platform s l = some s') :
    ListenerEffect (IsStart l) (StartOverlaps s l) s.spans s'.spans := by
  cases l with
  | elsewhere e =>
    obtain ⟨spans, helsewhere, rfl⟩ := Option.map_eq_some_iff.mp h
    refine .quiet (ListenerState.quiet_elsewhere hs helsewhere) ?_
    rintro ⟨_, hstart, _⟩
    exact hstart
  | event eventData =>
    change s.onEventWritten platform eventData = some s' at h
    unfold onEventWritten at h
    by_cases hcompeting : s.spans.agent.isCompeting = true
    · rw [if_pos hcompeting] at h
      cases h
      refine .quiet (.refl _) ?_
      rintro ⟨_, _, hfree, _⟩
      rw [hcompeting] at hfree
      cases hfree
    · rw [if_neg hcompeting] at h
      have hnot (hbegin : ∀ id dataSource database commandText, eventData.received ≠
          some (.beginExecute id dataSource database commandText)) :
          ¬StartOverlaps s (.event eventData) := by
        rintro ⟨id, ⟨dataSource, database, commandText, hreceived⟩, _⟩
        exact hbegin id dataSource database commandText hreceived
      rcases hreceived : eventData.received with _ | e
      · rw [hreceived] at h
        cases h
        exact .quiet (.refl _) (hnot (hreceived ▸ nofun))
      · rw [hreceived] at h
        cases e with
        | beginExecute id dataSource database commandText =>
          have hloses : StartOverlaps s (.event eventData) ↔
              s.spans.tracer.getCurrentExecutionSegment ≠ none ∧
                s.spans.processing id ≠ none := by
            constructor
            · rintro ⟨id', ⟨_, _, _, hreceived'⟩, _, h'⟩
              rw [hreceived] at hreceived'
              cases hreceived'
              exact h'
            · exact fun h' =>
                ⟨id, ⟨_, _, _, hreceived⟩, Bool.eq_false_iff.mpr hcompeting, h'⟩
          refine (processBeginExecute_effect hs h).imp ?_ hloses.symm
          rintro _ rfl
          exact ⟨_, _, _, hreceived⟩
        | endExecute id compositeState sqlExceptionNumber =>
          exact (processEndExecute_endsSpan h).effect (hnot (hreceived ▸ nofun))

/-- While no span of Entity Framework is current, an end event ends the span of its command, if
    there is one; an event that is skipped changes nothing. -/
theorem step_endsSpan {l : ListenerLabel EventWrittenEventArgs} (hstop : IsStop l id)
    (h : step platform s l = some s') (hmisses : ¬StopCompetes s l) :
    EndsSpan spans s s' id := by
  cases l with
  | elsewhere e => exact hstop.elim
  | event eventData =>
    have hreceived := hstop
    obtain ⟨compositeState, sqlExceptionNumber, hreceived⟩ := hreceived
    change s.onEventWritten platform eventData = some s' at h
    unfold onEventWritten at h
    by_cases hcompeting : s.spans.agent.isCompeting = true
    · rw [if_pos hcompeting] at h
      cases h
      have hunknown : s.spans.processing id = none := by
        by_contra hkey
        exact hmisses ⟨id, hstop, hcompeting, hkey⟩
      unfold EndsSpan
      rw [table_eq_none_iff.mpr hunknown]
    · rw [if_neg hcompeting, hreceived] at h
      exact processEndExecute_endsSpan h

theorem step_isSome {l : ListenerLabel EventWrittenEventArgs} (hs : s.spans.WellFormed)
    (hstop : IsStop l id) : (step platform s l).isSome := by
  cases l with
  | elsewhere e => exact hstop.elim
  | event eventData =>
    obtain ⟨compositeState, sqlExceptionNumber, hreceived⟩ := hstop
    show (s.onEventWritten platform eventData).isSome
    unfold onEventWritten
    by_cases hcompeting : s.spans.agent.isCompeting = true
    · rw [if_pos hcompeting]
      rfl
    · rw [if_neg hcompeting, hreceived]
      exact processEndExecute_isSome hs _ _ _ _

theorem step_of_stopCompetes {l : ListenerLabel EventWrittenEventArgs}
    (h : step platform s l = some s') (hmisses : StopCompetes s l) :
    s' = s ∧ ∃ id, IsStop l id ∧ s.spans.processing id ≠ none := by
  obtain ⟨id, hstop, hcompeting, hkey⟩ := hmisses
  refine ⟨?_, id, hstop, hkey⟩
  cases l with
  | elsewhere e => exact hstop.elim
  | event eventData =>
    change s.onEventWritten platform eventData = some s' at h
    unfold onEventWritten at h
    rw [if_pos hcompeting] at h
    exact (Option.some.inj h).symm

/-- The listener, which misses the end of a command while a span of Entity Framework is
    current. -/
def listener (platform : SqlPlatform) :
    SpanListener SqlEventListener EventWrittenEventArgs Int32 Int where
  system := system platform
  spans := spans
  isNew _ h := h
  isStart := IsStart
  isStop := IsStop
  Loses := StartOverlaps
  Misses := StopCompetes
  effect hs h := step_effect hs h
  enabled hs hstop := step_isSome hs hstop
  stop hstop h hmisses := step_endsSpan hstop h hmisses
  missed h hmisses := step_of_stopCompetes h hmisses

end

end SqlEventListener

end ApmAgent
