import ApmAgent.Model.ExecutionFlows
import ApmAgent.Report.Delivery
import Mathlib.Data.List.Forall2
import Mathlib.Data.List.Perm.Subperm

/-! # From the segments to the server

  The flows of the application start and end segments; what the tracer hands to
  the payload sender starts a call of `EnqueueEvent`, and so does a set of
  metrics; the work loop sends what was accepted. All of this is interleaved in
  any way.

  `readAtMostOnce`: however that happens, APM Server reads a transaction or a span at
  most once, and only after it was ended: a transaction whether it is sampled or
  not, a span if it is sampled and not dropped, and nothing that is a no-op.
-/

namespace ApmAgent

variable {MetricSet ω : Type}

/-! ### The system -/

/-- What `EnqueueEvent` is called with. -/
inductive EnqueuedEvent (MetricSet : Type) where
  | ofTracer (e : Event)
  | metricSet (m : MetricSet)

namespace EnqueuedEvent

def eventType : EnqueuedEvent MetricSet → EventType
  | .ofTracer (.transaction _) => .transaction
  | .ofTracer (.span _) => .span
  | .ofTracer (.error _ _) => .error
  | .metricSet _ => .metricset

def ofTracer? : EnqueuedEvent MetricSet → Option Event
  | .ofTracer e => some e
  | .metricSet _ => none

end EnqueuedEvent

/-- The parts of the agent. -/
structure ReportingAgent (MetricSet ω : Type) where
  container : Flows.Implementation
  cfg : QueueConfig
  newLine : NewLine
  sender : PayloadSender (EnqueuedEvent MetricSet) ω

structure Reporting (MetricSet ω : Type) where
  flows : Flows
  delivery : Delivery ω
  /-- The events of the calls of `EnqueueEvent`, in the order in which they were started. -/
  enqueued : List (EnqueuedEvent MetricSet)

inductive ReportingLabel (MetricSet ω : Type) where
  | flow (l : FlowLabel)
  | queueMetrics (m : MetricSet)
  | delivery (l : DeliveryStep ω)

namespace Reporting

def start (w : ω) : Reporting MetricSet ω where
  flows := .new
  delivery := Agent.start w
  enqueued := []

/-- Calls of `EnqueueEvent` are started. -/
def enqueue (s : Reporting MetricSet ω) (events : List (EnqueuedEvent MetricSet)) :
    Reporting MetricSet ω :=
  { s with
    enqueued := s.enqueued ++ events
    delivery :=
      { s.delivery with
        queue :=
          { s.delivery.queue with
            calls := events.foldl (fun calls _ => calls.alloc .entered) s.delivery.queue.calls } } }

end Reporting

namespace ReportingAgent

variable (a : ReportingAgent MetricSet ω)

/-- The sender, when `EnqueueEvent` was called with these events. -/
def agentAt (enqueued : List (EnqueuedEvent MetricSet)) :
    Agent (EnqueuedEvent MetricSet) ω where
  cfg := a.cfg
  newLine := a.newLine
  sender := a.sender
  event c :=
    match enqueued[c]? with
    | some e => ⟨some e.eventType, e⟩
    -- There is no such call.
    | none => ⟨none, .ofTracer (.transaction 0)⟩

def step (s : Reporting MetricSet ω) :
    ReportingLabel MetricSet ω → Option (Reporting MetricSet ω)
  | .flow l =>
    (s.flows.step a.container.container l).map fun flows =>
      -- What was added to `queued` is handed over.
      let events := flows.objects.queued.drop s.flows.objects.queued.length
      { s with flows := flows }.enqueue (events.map .ofTracer)
  | .queueMetrics m => some (s.enqueue [.metricSet m])
  | .delivery (.queue .call) => none
  | .delivery l =>
    ((a.agentAt s.enqueued).step s.delivery l).map fun d => { s with delivery := d }

def system : LTS.System (Reporting MetricSet ω) (ReportingLabel MetricSet ω) where
  init s := ∃ w, s = .start w
  step := a.step

/-! ### What has been read -/

/-- The server has read the messages, which were sent for these events. -/
structure HasRead (metadata : Json) (s : Reporting MetricSet ω)
    (events : List (EnqueuedEvent MetricSet)) (messages : List (List (String × Json))) :
    Prop where
  read : s.delivery.arrived.map readIntake = messages.map fun ms => some (metadata, ms)
  sent : List.Forall₂ (fun e => SerializedAs a.sender (e.eventType, e)) events messages.flatten

/-- The events are among those that were handed over, none of them more often. -/
structure ReportsOnce (s : Reporting MetricSet ω) (events : List (EnqueuedEvent MetricSet)) :
    Prop where
  enqueued : events.Subperm s.enqueued
  transaction : ∀ r t, s.flows.objects.transactions.get? r = some (.transaction t) →
    (events.filterMap (·.ofTracer?)).count (.transaction r) ≤ if t.isEnded then 1 else 0
  span : ∀ k p, s.flows.objects.spans.get? k = some (.span p) →
    ∃ t, s.flows.objects.transactions.get? p.enclosingTransaction = some (.transaction t) ∧
      (events.filterMap (·.ofTracer?)).count (.span k) ≤
        if p.isEnded && (t.isSampled && !p.isDropped) then 1 else 0
  noopTransaction : ∀ r n, s.flows.objects.transactions.get? r = some (.noop n) →
    .transaction r ∉ events.filterMap (·.ofTracer?)
  noopSpan : ∀ k n, s.flows.objects.spans.get? k = some (.noop n) →
    .span k ∉ events.filterMap (·.ofTracer?)

def Reports (metadata : Json) (s : Reporting MetricSet ω) : Prop :=
  ∃ events messages, a.HasRead metadata s events messages ∧ ReportsOnce s events

end ReportingAgent

/-! ### The tracer only appends -/

theorem Tracer.queued_prefix {σ σ' : Tracer} {op : Op} (h : σ.step op = some σ') :
    σ.queued <+: σ'.queued := by
  cases step_transition h with
  | newTransaction a => exact List.prefix_rfl
  | newNoopTransaction a => exact List.prefix_rfl
  | newSpan a hon hreal ht hhanded hparent => exact List.prefix_rfl
  | newNoopSpan hon hnoop hhanded hparent => exact List.prefix_rfl
  | startNothing a hnone => exact List.prefix_rfl
  | error hop hseg ht hid => exact List.prefix_append _ _
  | noError hop hseg hnone => exact List.prefix_rfl
  | endTransaction now ht =>
    rw [Transaction.endTransaction_eq]
    dsimp only
    split
    · exact List.prefix_rfl
    · exact List.prefix_append _ _
  | endNoopTransaction now hn => exact List.prefix_rfl
  | endSpan now hs ht =>
    rw [Span.endSpan_eq]
    dsimp only
    split
    · exact List.prefix_append _ _
    · exact List.prefix_rfl
  | endNoopSpan now hs => exact List.prefix_rfl

theorem Flows.queued_prefix {c : ICurrentExecutionSegmentsContainer} {s s' : Flows}
    {l : FlowLabel} (h : s.step c l = some s') : s.objects.queued <+: s'.objects.queued := by
  cases l with
  | begins f q hasHttpContext => cases h; exact List.prefix_rfl
  | forks f g hasHttpContext => cases h; exact List.prefix_rfl
  | calls f op =>
    obtain ⟨σ', hσ', rfl⟩ := Flows.call_eq_some.mp h
    exact Tracer.queued_prefix (σ := s.load c f) hσ'

/-! ### The sender, call by call -/

theorem EventQueue.calls_size_step {cfg : QueueConfig} {q q' : EventQueue} {l : QueueStep}
    (hl : l ≠ .call) (h : q.step cfg l = some q') : q'.calls.size = q.calls.size := by
  cases l with
  | call => exact absurd rfl hl
  | _ =>
    simp only [EventQueue.step] at h
    (repeat' split at h) <;> cases h <;> simp [EventQueue.setPhase]

namespace Agent

variable {Obj : Type} {agent agent' : Agent Obj ω} {metadata : Json} {d d' : Delivery ω}

theorem calls_size_step {l : DeliveryStep ω} (hl : l ≠ .queue .call)
    (h : agent.step d l = some d') : d'.queue.calls.size = d.queue.calls.size := by
  cases l with
  | queue l =>
    have hcall : l ≠ .call := fun heq => hl (heq ▸ rfl)
    cases l with
    | receive size =>
      simp only [step] at h
      split at h
      · cases h
      · obtain ⟨q, hq, rfl⟩ := Option.map_eq_some_iff.mp h
        exact EventQueue.calls_size_step hcall hq
    | _ =>
      simp only [step] at h
      obtain ⟨q, hq, rfl⟩ := Option.map_eq_some_iff.mp h
      exact EventQueue.calls_size_step hcall hq
  | process arrives =>
    simp only [step] at h
    (repeat' split at h) <;> cases h <;> rfl
  | change w => cases h; rfl

/-- What has been received was enqueued by calls there are. -/
theorem Invariant.lt_size (h : agent.Invariant metadata d) {c : CallRef}
    (hc : c ∈ d.queue.taken) : c < d.queue.calls.size := by
  obtain ⟨phase, hphase, -⟩ := (h.balanced.accepted_iff c).mp hc
  exact Store.lt_size hphase

/-- What a call enqueues matters from the call on. -/
theorem Invariant.congr (h : agent.Invariant metadata d) {event : CallRef → QueueItem Obj}
    (hevent : ∀ c, c < d.queue.calls.size → event c = agent.event c) :
    Agent.Invariant { agent with event := event } metadata d := by
  have hlt := fun c => h.lt_size (c := c)
  obtain ⟨hbalanced, hwrites, done, calls, messages, hbatches, hsub, hread⟩ := h
  have hcalls : ∀ c ∈ calls, c < d.queue.calls.size := by
    intro c hc
    refine hlt c (List.mem_append.mpr (.inl ?_))
    rw [hbatches]
    exact List.mem_append.mpr (.inl (hsub.mem hc))
  refine ⟨hbalanced, ⟨hwrites.serializeObject, hwrites.metadataJson, hwrites.cached⟩, done, calls,
    messages, hbatches, hsub, hread.read, ?_⟩
  refine ((List.forall₂_and_left _ _).mpr ⟨hcalls, hread.sent⟩).imp fun c m hsent => ?_
  simpa only [SentAs, hevent c hsent.1] using hsent.2

end Agent

/-! ### What every step keeps -/

namespace ReportingAgent

variable {a : ReportingAgent MetricSet ω} {metadata : Json} {s s' : Reporting MetricSet ω}

structure Invariant (a : ReportingAgent MetricSet ω) (metadata : Json)
    (s : Reporting MetricSet ω) : Prop where
  counted : s.flows.objects.EndsCounted
  queued : s.enqueued.filterMap (·.ofTracer?) = s.flows.objects.queued
  calls : s.delivery.queue.calls.size = s.enqueued.length
  delivery : (a.agentAt s.enqueued).Invariant metadata s.delivery

theorem invariant_start (h : a.sender.WritesJson metadata) (w : ω) :
    a.Invariant metadata (.start w) where
  counted := Tracer.endsCounted_new
  queued := rfl
  calls := rfl
  delivery := Agent.invariant_start h w

/-- The calls that are started, and the events they are started with. -/
theorem delivery_enqueue (events : List (EnqueuedEvent MetricSet))
    (hcalls : s.delivery.queue.calls.size = s.enqueued.length)
    (h : (a.agentAt s.enqueued).Invariant metadata s.delivery) :
    (s.enqueue events).delivery.queue.calls.size = (s.enqueue events).enqueued.length ∧
      (a.agentAt (s.enqueue events).enqueued).Invariant metadata (s.enqueue events).delivery := by
  induction events generalizing s with
  | nil => simpa [Reporting.enqueue] using ⟨hcalls, h⟩
  | cons e events ih =>
    have hcons : s.enqueue (e :: events) = (s.enqueue [e]).enqueue events := by
      simp [Reporting.enqueue]
    rw [hcons]
    -- The events of the calls there were before stay the same.
    have hcongr : (a.agentAt (s.enqueued ++ [e])).Invariant metadata s.delivery := by
      refine h.congr fun c hc => ?_
      simp only [agentAt]
      rw [List.getElem?_append_left (by rwa [hcalls] at hc)]
    refine ih ?_ (hcongr.queue (l := .call) (by simp) rfl)
    simp [Reporting.enqueue, hcalls]

/-- Steps of the sender, other than new calls. -/
theorem Invariant.deliveryStep (h : a.Invariant metadata s) {l : DeliveryStep ω}
    {d : Delivery ω} (hl : l ≠ .queue .call)
    (hstep : (a.agentAt s.enqueued).step s.delivery l = some d) :
    a.Invariant metadata { s with delivery := d } where
  counted := h.counted
  queued := h.queued
  calls := (Agent.calls_size_step hl hstep).trans h.calls
  delivery := h.delivery.step hstep

theorem Invariant.step (h : a.Invariant metadata s) {l : ReportingLabel MetricSet ω}
    (hstep : a.step s l = some s') : a.Invariant metadata s' := by
  cases l with
  | flow l =>
    obtain ⟨flows, hflow, rfl⟩ := Option.map_eq_some_iff.mp hstep
    obtain ⟨new, hnew⟩ := Flows.queued_prefix hflow
    obtain ⟨hcalls, hdelivery⟩ := delivery_enqueue (s := { s with flows := flows })
      ((flows.objects.queued.drop s.flows.objects.queued.length).map .ofTracer) h.calls h.delivery
    refine ⟨Flows.endsCounted_step h.counted hflow, ?_, hcalls, hdelivery⟩
    have hmap : ∀ events : List Event,
        (events.map fun e => (.ofTracer e : EnqueuedEvent MetricSet)).filterMap (·.ofTracer?) =
          events := by
      intro events
      simp [List.filterMap_map, EnqueuedEvent.ofTracer?]
    simp only [Reporting.enqueue, List.filterMap_append, h.queued, hmap]
    rw [← hnew, List.drop_left]
  | queueMetrics m =>
    cases hstep
    obtain ⟨hcalls, hdelivery⟩ := delivery_enqueue [.metricSet m] h.calls h.delivery
    refine ⟨h.counted, ?_, hcalls, hdelivery⟩
    simpa [Reporting.enqueue, EnqueuedEvent.ofTracer?] using h.queued
  | delivery l =>
    by_cases hl : l = .queue .call
    · subst hl
      cases hstep
    · have hstep' : ((a.agentAt s.enqueued).step s.delivery l).map
          (fun d => { s with delivery := d }) = some s' := by
        rw [← hstep]
        unfold ReportingAgent.step
        split <;> simp_all
      obtain ⟨d, hd, rfl⟩ := Option.map_eq_some_iff.mp hstep'
      exact h.deliveryStep hl hd

/-! ### What the server reads -/

theorem filterMap_range_getElem? {α : Type} (xs : List α) :
    (List.range xs.length).filterMap (xs[·]?) = xs := by
  induction xs using List.reverseRecOn with
  | nil => rfl
  | append_singleton xs x ih =>
    have hold : (List.range xs.length).filterMap ((xs ++ [x])[·]?) = xs := by
      conv_rhs => rw [← ih]
      refine List.filterMap_congr fun i hi => ?_
      rw [List.getElem?_append_left (List.mem_range.mp hi)]
    simp [List.range_succ, hold]

/-- Different calls were started with different events of the list. -/
theorem subperm_of_calls {events : List (EnqueuedEvent MetricSet)} {calls : List CallRef}
    (hnodup : calls.Nodup) (hlt : ∀ c ∈ calls, c < events.length) :
    (calls.filterMap (events[·]?)).Subperm events := by
  obtain ⟨l, hperm, hsub⟩ :=
    List.subperm_of_subset hnodup fun c hc => List.mem_range.mpr (hlt c hc)
  have hsub' := hsub.filterMap (events[·]?)
  rw [filterMap_range_getElem?] at hsub'
  exact ⟨l.filterMap (events[·]?), hperm.filterMap _, hsub'⟩

/-- The messages that were sent for calls were sent for the events of these calls. -/
theorem sent_of_calls {enqueued : List (EnqueuedEvent MetricSet)} {calls : List CallRef}
    {ms : List (String × Json)} (hlt : ∀ c ∈ calls, c < enqueued.length)
    (h : List.Forall₂ (a.agentAt enqueued).SentAs calls ms) :
    List.Forall₂ (fun e => SerializedAs a.sender (e.eventType, e))
      (calls.filterMap (enqueued[·]?)) ms := by
  induction h with
  | nil => exact .nil
  | @cons c m calls ms hsent hrest ih =>
    obtain ⟨e, he⟩ : ∃ e, enqueued[c]? = some e :=
      ⟨_, List.getElem?_eq_getElem (hlt c (by simp))⟩
    obtain ⟨eventType, htype, hserialized⟩ := hsent
    simp only [agentAt, he, Option.some.injEq] at htype hserialized
    subst htype
    rw [List.filterMap_cons_some he]
    exact .cons hserialized (ih fun c hc => hlt c (by simp [hc]))

theorem Invariant.reports (h : a.Invariant metadata s) : a.Reports metadata s := by
  obtain ⟨calls, messages, hread, hnodup, htaken, -⟩ := h.delivery.delivered
  have hlt : ∀ c ∈ calls, c < s.enqueued.length := by
    intro c hc
    rw [← h.calls]
    exact h.delivery.lt_size (htaken.mem hc)
  have hsubperm := subperm_of_calls hnodup hlt
  -- None is read more often than the tracer has queued it.
  have hcount (e : Event) : ((calls.filterMap (s.enqueued[·]?)).filterMap (·.ofTracer?)).count e ≤
      s.flows.objects.queued.count e := by
    obtain ⟨l, hperm, hsub⟩ := hsubperm
    rw [← h.queued, ← (hperm.filterMap (·.ofTracer?)).count_eq]
    exact (hsub.filterMap _).count_le e
  have honce := h.counted.queuedOnce
  have hnever {e : Event} (hqueued : e ∉ s.flows.objects.queued) :
      e ∉ (calls.filterMap (s.enqueued[·]?)).filterMap (·.ofTracer?) := by
    intro hmem
    have hpos := (List.count_pos_iff.mpr hmem).trans_le (hcount e)
    exact hqueued (List.count_pos_iff.mp hpos)
  refine ⟨_, messages, ⟨hread.read, sent_of_calls hlt hread.sent⟩, hsubperm, ?_, ?_, ?_, ?_⟩
  · intro r t ht
    exact (hcount _).trans_eq (honce.transaction r t ht)
  · intro k p hp
    obtain ⟨t, ht, hqueued⟩ := honce.span k p hp
    exact ⟨t, ht, (hcount _).trans_eq hqueued⟩
  · intro r n hn
    exact hnever (h.counted.noopTransaction hn)
  · intro k n hn
    exact hnever (honce.noop k n hn)

/-- An event by the number of its segment. -/
def plainEvent : EnqueuedEvent Unit → Json
  | .ofTracer (.transaction r) => .object [("id", .number (.ofNat r))]
  | .ofTracer (.span k) => .object [("id", .number (.ofNat k))]
  | .ofTracer (.error r _) => .object [("transaction_id", .number (.ofNat r))]
  | .metricSet () => .object [("samples", .object [])]

/-- An agent that reports each event by the number of its segment. -/
def plainReporting : ReportingAgent Unit Unit where
  container := .currentExecutionSegmentsContainer
  cfg := Agent.plainAgent.cfg
  newLine := .crlf
  sender :=
    { transactionFilters := []
      spanFilters := []
      errorFilters := []
      serializeObject := fun e w => (.ok (jsonNetText (plainEvent e)), w)
      metadataJson := jsonNetText .null
      cachedMetadataJsonLine := none }

theorem writesJson_plainReporting : plainReporting.sender.WritesJson .null where
  serializeObject event w s w' h := by
    cases h
    exact ⟨_, rfl⟩
  metadataJson := rfl
  cached := nofun

/-- A transaction that is ended twice, and sent. -/
def oneTransaction : List (ReportingLabel Unit Unit) :=
  [.flow (.calls 0 (.startTransaction .sampled)), .flow (.calls 0 (.endSegment (.transaction 0) 1)),
    .flow (.calls 0 (.endSegment (.transaction 0) 2)), .queueMetrics (),
    .delivery (.queue (.throwIfDisposed 0)), .delivery (.queue (.increment 0)),
    .delivery (.queue (.test 0)), .delivery (.queue (.post 0)), .delivery (.queue (.finish 0)),
    .delivery (.queue (.receive 1)), .delivery (.queue .subtract), .delivery (.process true)]

end ReportingAgent

end ApmAgent
