import ApmAgent.DiagnosticListeners.HttpDiagnosticListener
import ApmAgent.SqlClient.SqlEventListener

/-! # The listeners that track their spans

  The listener of outgoing HTTP requests tracks its spans exactly, unless a
  request is started again before it stops, or has lost its URL when it stops.
  The listener of SQL commands fails in the first way too, and where a command
  ends while a span of Entity Framework is current.
-/

namespace ApmAgent

/-- Both listeners track their spans exactly in a run as long as no start event that starts a
    span is for a key in the table, and no stop event of a key in the table is skipped: for a
    request because of its URL, for a command because of the span that is current. -/
theorem listeners_trackExactly_iff [InvariantCulture] :
    (∀ (TRequest : Type) [DecidableEq TRequest] (impl : HttpDiagnosticListenerImpl)
      (s : HttpDiagnosticListener TRequest) (ls : List (ListenerLabel (HttpEvent TRequest))),
      s.spans.IsNew →
      ((HttpDiagnosticListener.listener impl).TracksExactly s ls ↔
        (HttpDiagnosticListener.system impl).Along
          (fun s l => ¬HttpDiagnosticListener.StartOverlaps impl s l ∧
            ¬HttpDiagnosticListener.StopIsDropped impl s l) s ls)) ∧
    ∀ (platform : SqlPlatform) (s : SqlEventListener)
      (ls : List (ListenerLabel EventWrittenEventArgs)),
      s.spans.IsNew →
      ((SqlEventListener.listener platform).TracksExactly s ls ↔
        (SqlEventListener.system platform).Along
          (fun s l => ¬SqlEventListener.StartOverlaps s l ∧ ¬SqlEventListener.StopCompetes s l)
          s ls) := by
  constructor
  · intro TRequest _ impl s ls hnew
    exact SpanListener.tracksExactly_iff (L := HttpDiagnosticListener.listener impl) hnew ls
  · intro platform s ls hnew
    exact SpanListener.tracksExactly_iff (L := SqlEventListener.listener platform) hnew ls

/-! ### Runs of a new listener -/

section

attribute [local instance] InvariantCulture.ascii

/-- An agent with a current transaction, and a listener that has not seen any event. -/
def ListenerState.ofRunning (Key Data : Type) : ListenerState Key Data where
  agent :=
    { tracer := Tracer.new.startTransaction .sampled
      instrumentationFlag := fun _ => .none }
  processing _ := none
  started := []

def HttpDiagnosticListener.ofRunning : HttpDiagnosticListener Nat where
  spans := .ofRunning Nat Unit
  headersAdded := []
  contextHttp _ := none
  outcome _ := .unknown

def SqlEventListener.ofRunning : SqlEventListener where
  spans := .ofRunning Int32 Int
  lookup := .new
  contextDb _ := none
  contextDestination _ := none
  outcome _ := .unknown

def exampleUrl : Uri := ⟨true, .dns, "https", "example.com", 443, true⟩

/-- An event of the first request, with the URL it has by then. -/
def httpEvent (key : String) (requestGetUri : Option Uri) : HttpEvent Nat where
  key := some key
  value := some
    { request := .ofType 0
      requestGetUri := requestGetUri
      isRequestFilteredOut := false
      requestGetMethod := "GET"
      requestHeadersContain := fun _ => false
      response := .ofType 200
      exception := .null
      statusCode := .null }
  spanStart := ⟨"a1b2c3d4e5f60718", 1⟩
  now := 2

def beginExecuteEvent : EventWrittenEventArgs where
  payload := some [.int 1, .string "localhost", .string "orders", .string "SELECT 1"]
  eventId := 1
  spanStart := ⟨"a1b2c3d4e5f60718", 1⟩
  timestamp := 10
  now := 2

def endExecuteEvent : EventWrittenEventArgs where
  payload := some [.int 1, .int 1, .int 0]
  eventId := 2
  spanStart := ⟨"a1b2c3d4e5f60718", 1⟩
  timestamp := 20
  now := 3

/-- The events of one request, of one command, and of a span of Entity Framework. -/
def startRequest : ListenerLabel (HttpEvent Nat) :=
  .event (httpEvent HttpDiagnosticListenerImpl.core.startEventKey (some exampleUrl))

def stopRequest (requestGetUri : Option Uri) : ListenerLabel (HttpEvent Nat) :=
  .event (httpEvent HttpDiagnosticListenerImpl.core.stopEventKey requestGetUri)

def startEfCoreSpan : ListenerLabel EventWrittenEventArgs :=
  .elsewhere (.call (.startSpanOnCurrentExecutionSegment ⟨"b1b2c3d4e5f60718", 1⟩) .efCore)

theorem received_startRequest :
    ((httpEvent HttpDiagnosticListenerImpl.core.startEventKey (some exampleUrl)).received .core).map
      (fun e => (e.kind, e.request, e.requestUrl.isAbsoluteUri)) = some (.start, 0, true) := by
  decide +kernel

theorem received_stopRequest :
    ((httpEvent HttpDiagnosticListenerImpl.core.stopEventKey (some exampleUrl)).received .core).map
      (·.kind) = some .stop := by
  decide +kernel

theorem isStop_stopRequest (requestGetUri : Option Uri) :
    HttpDiagnosticListener.IsStop .core (stopRequest requestGetUri) 0 :=
  ⟨_, _, .stop, rfl, rfl, by decide, rfl, .inl rfl⟩

/-- An event of a request with a URL is not dropped. -/
theorem not_stopIsDropped (s : HttpDiagnosticListener Nat) (key : String) :
    ¬HttpDiagnosticListener.StopIsDropped .core s (.event (httpEvent key (some exampleUrl))) := by
  rintro ⟨_, _, hvalue, huri | hfiltered, _⟩
  · cases hvalue
    cases huri
  · cases hvalue
    cases hfiltered

theorem received_beginExecuteEvent :
    beginExecuteEvent.received = some (.beginExecute 1 "localhost" "orders" "SELECT 1") := by
  decide +kernel

theorem received_endExecuteEvent :
    endExecuteEvent.received = some (.endExecute 1 1 0) := by
  decide +kernel

/-- The span that is current is the one of the command. -/
theorem competing_afterBegin :
    ((SqlEventListener.system ⟨"\n", 10000000⟩).step .ofRunning
        (.event beginExecuteEvent)).map (·.spans.agent.isCompeting) = some false := by
  decide +kernel

/-- A request that starts and stops, and a command that does. -/
theorem listeners_trackExactly_one :
    (HttpDiagnosticListener.listener .core).TracksExactly .ofRunning
        [startRequest, stopRequest (some exampleUrl)] ∧
      (SqlEventListener.listener ⟨"\n", 10000000⟩).TracksExactly .ofRunning
        [.event beginExecuteEvent, .event endExecuteEvent] := by
  constructor
  · refine (listeners_trackExactly_iff.1 Nat .core _ _ ⟨fun _ => rfl, rfl⟩).mpr ?_
    intro s _
    refine ⟨⟨?_, not_stopIsDropped _ _⟩, fun s' _ => ⟨⟨?_, not_stopIsDropped _ _⟩, trivial⟩⟩
    · rintro ⟨_, _, _, _, _, hthere⟩
      exact hthere rfl
    · rintro ⟨e, hreceived, hkind, _⟩
      have hstop := received_stopRequest
      rw [hreceived] at hstop
      cases hkind.symm.trans (Option.some.inj hstop)
  · refine (listeners_trackExactly_iff.2 ⟨"\n", 10000000⟩ _ _ ⟨fun _ => rfl, rfl⟩).mpr ?_
    intro s hbegin
    have hcurrent := competing_afterBegin
    rw [hbegin] at hcurrent
    refine ⟨⟨?_, ?_⟩, fun s' _ => ⟨⟨?_, ?_⟩, trivial⟩⟩
    · rintro ⟨_, _, _, _, hthere⟩
      exact hthere rfl
    · rintro ⟨_, _, _, hthere⟩
      exact hthere rfl
    · rintro ⟨_, ⟨_, _, _, hreceived⟩, _⟩
      rw [received_endExecuteEvent] at hreceived
      cases hreceived
    · rintro ⟨_, _, hcompeting, _⟩
      cases hcompeting.symm.trans (Option.some.inj hcurrent)

/-- After its start the request is in the table, the transaction is current, and the request can
    be started again. -/
theorem view_afterStart :
    ((HttpDiagnosticListener.system .core).run .ofRunning [startRequest]).bind (fun s =>
        (HttpDiagnosticListener.step .core s startRequest).map fun _ =>
          (s.spans.tracer.currentTransaction.isSome, (s.spans.processing 0).isSome)) =
      some (true, true) := by
  decide +kernel

/-- It is in the table when its stop event comes without a URL. -/
theorem view_beforeStop :
    ((HttpDiagnosticListener.system .core).run .ofRunning [startRequest]).bind (fun s =>
        (HttpDiagnosticListener.step .core s (stopRequest none)).map fun _ =>
          (s.spans.processing 0).isSome) = some true := by
  decide +kernel

/-- After its begin event the command is in the table, and can begin again. -/
theorem view_afterBegin :
    ((SqlEventListener.system ⟨"\n", 10000000⟩).run .ofRunning
        [.event beginExecuteEvent]).bind (fun s =>
        (SqlEventListener.step ⟨"\n", 10000000⟩ s (.event beginExecuteEvent)).map fun _ =>
          (s.spans.agent.isCompeting, s.spans.tracer.getCurrentExecutionSegment.isSome,
            (s.spans.processing 1).isSome)) =
      some (false, true, true) := by
  decide +kernel

/-- After its begin event and the start of a span of Entity Framework the command is in the
    table, and its end event is skipped. -/
theorem view_afterEfCoreSpan :
    ((SqlEventListener.system ⟨"\n", 10000000⟩).run .ofRunning
        [.event beginExecuteEvent, startEfCoreSpan]).bind (fun s =>
        (SqlEventListener.step ⟨"\n", 10000000⟩ s (.event endExecuteEvent)).map fun _ =>
          (s.spans.agent.isCompeting, (s.spans.processing 1).isSome)) = some (true, true) := by
  decide +kernel

/-- A request and a command that are started twice, a request that has lost its URL when it stops,
    and a command that ends while a span of Entity Framework is current. -/
theorem listeners_trackExactly_counterexample :
    ¬(HttpDiagnosticListener.listener .core).TracksExactly .ofRunning
        [startRequest, startRequest, stopRequest (some exampleUrl)] ∧
      ¬(HttpDiagnosticListener.listener .core).TracksExactly .ofRunning
        [startRequest, stopRequest none] ∧
      ¬(SqlEventListener.listener ⟨"\n", 10000000⟩).TracksExactly .ofRunning
        [.event beginExecuteEvent, .event beginExecuteEvent, .event endExecuteEvent] ∧
      ¬(SqlEventListener.listener ⟨"\n", 10000000⟩).TracksExactly .ofRunning
        [.event beginExecuteEvent, startEfCoreSpan, .event endExecuteEvent] := by
  refine ⟨?_, ?_, ?_, ?_⟩
  · obtain ⟨s, hrun, hview⟩ := Option.bind_eq_some_iff.mp view_afterStart
    obtain ⟨s', hstep, hview⟩ := Option.map_eq_some_iff.mp hview
    obtain ⟨hcurrent, htracked⟩ := Prod.mk.inj hview
    obtain ⟨e, hreceived, he⟩ := Option.map_eq_some_iff.mp received_startRequest
    simp only [Prod.mk.injEq] at he
    obtain ⟨hkind, hrequest, habsolute⟩ := he
    refine SpanListener.not_tracksExactly_of_run (L := HttpDiagnosticListener.listener .core)
      ⟨fun _ => rfl, rfl⟩ hrun hstep (.inl ⟨e, hreceived, hkind, habsolute, ?_, ?_⟩)
    · exact Option.isSome_iff_ne_none.mp hcurrent
    · rw [hrequest]
      exact Option.isSome_iff_ne_none.mp htracked
  · obtain ⟨s, hrun, hview⟩ := Option.bind_eq_some_iff.mp view_beforeStop
    obtain ⟨s', hstep, htracked⟩ := Option.map_eq_some_iff.mp hview
    exact SpanListener.not_tracksExactly_of_run (L := HttpDiagnosticListener.listener .core)
      ⟨fun _ => rfl, rfl⟩ hrun hstep (.inr ⟨_, 0, rfl, .inl rfl, isStop_stopRequest none,
        Option.isSome_iff_ne_none.mp htracked⟩)
  · obtain ⟨s, hrun, hview⟩ := Option.bind_eq_some_iff.mp view_afterBegin
    obtain ⟨s', hstep, hview⟩ := Option.map_eq_some_iff.mp hview
    simp only [Prod.mk.injEq] at hview
    obtain ⟨hcompeting, hcurrent, htracked⟩ := hview
    exact SpanListener.not_tracksExactly_of_run
      (L := SqlEventListener.listener ⟨"\n", 10000000⟩) ⟨fun _ => rfl, rfl⟩ hrun hstep
      (.inl ⟨1, ⟨"localhost", "orders", "SELECT 1", received_beginExecuteEvent⟩, hcompeting,
        Option.isSome_iff_ne_none.mp hcurrent, Option.isSome_iff_ne_none.mp htracked⟩)
  · obtain ⟨s, hrun, hview⟩ := Option.bind_eq_some_iff.mp view_afterEfCoreSpan
    obtain ⟨s', hstep, hview⟩ := Option.map_eq_some_iff.mp hview
    obtain ⟨hcompeting, htracked⟩ := Prod.mk.inj hview
    exact SpanListener.not_tracksExactly_of_run
      (L := SqlEventListener.listener ⟨"\n", 10000000⟩) ⟨fun _ => rfl, rfl⟩ hrun hstep
      (.inr ⟨1, ⟨1, 0, received_endExecuteEvent⟩, hcompeting,
        Option.isSome_iff_ne_none.mp htracked⟩)

end

end ApmAgent
