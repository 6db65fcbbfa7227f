import ApmAgent.Report.EventQueueInvariant
import ApmAgent.Report.Intake

/-! # Delivery of events

  The calls that enqueue events, the work loop that receives a batch, runs it
  through the filters and the serialiser and posts it, and the server that
  reads what arrives. Filters, serialiser and application may change the events
  at any time; a request may be lost.

  `delivers`: what the server has read so far is, in the order in which the
  events were accepted and each of them once at most, what the serialiser made
  of events of the queue.
-/

namespace ApmAgent

variable {Obj ω : Type}

/-- The agent and the server. -/
structure Delivery (ω : Type) where
  queue : EventQueue
  cachedMetadataJsonLine : Option String
  /-- The batch that was received, until it has been processed. -/
  pending : Option (List CallRef)
  world : ω
  /-- The contents of the requests that have arrived. -/
  arrived : List (List Char)

inductive DeliveryStep (ω : Type) where
  /-- A step of a call of `EnqueueEvent`, or of `ReceiveBatchAsync`. -/
  | queue (l : QueueStep)
  /-- `ProcessQueueItems`; the request it posts arrives, or does not. -/
  | process (arrives : Bool)
  /-- The application changes its objects. -/
  | change (w : ω)

/-- What the agent consists of. -/
structure Agent (Obj ω : Type) where
  cfg : QueueConfig
  newLine : NewLine
  sender : PayloadSender Obj ω
  /-- The event that a call enqueues. -/
  event : CallRef → QueueItem Obj

namespace Agent

/-- An agent that has sent nothing yet. -/
def start (w : ω) : Delivery ω where
  queue := .new
  cachedMetadataJsonLine := none
  pending := none
  world := w
  arrived := []

/-- The sender, with the line it has cached. -/
def senderAt (agent : Agent Obj ω) (d : Delivery ω) : PayloadSender Obj ω :=
  { agent.sender with cachedMetadataJsonLine := d.cachedMetadataJsonLine }

def step (agent : Agent Obj ω) (d : Delivery ω) : DeliveryStep ω → Option (Delivery ω)
  | .queue (.receive size) =>
    -- The work loop receives a batch when it is done with the last one.
    if d.pending.isSome then none
    else
      (d.queue.step agent.cfg (.receive size)).map fun q =>
        { d with queue := q, pending := some (d.queue.queue.take size) }
  | .queue l => (d.queue.step agent.cfg l).map fun q => { d with queue := q }
  | .process arrives =>
    match d.pending with
    | none => none
    | some batch =>
      if d.queue.received.isSome then none
      else
        let processed := (agent.senderAt d).processQueueItems (batch.map agent.event) d.world
        some
          { d with
            cachedMetadataJsonLine := processed.cachedMetadataJsonLine
            pending := none
            world := processed.world
            arrived :=
              match processed.posted with
              | some lines => if arrives then d.arrived ++ [ndjson agent.newLine lines] else d.arrived
              | none => d.arrived }
  | .change w => some { d with world := w }

/-- The agent in operation. -/
def system (agent : Agent Obj ω) : LTS.System (Delivery ω) (DeliveryStep ω) where
  init d := ∃ w, d = start w
  step := agent.step

/-! ### What has been read -/

/-- The message is what the serialiser made of the event of a call. -/
def SentAs (agent : Agent Obj ω) (c : CallRef) (m : String × Json) : Prop :=
  ∃ eventType, (agent.event c).eventType = some eventType ∧
    SerializedAs agent.sender (eventType, (agent.event c).event) m

/-- The server has read the messages, which were sent for the events of these calls. -/
structure HasRead (agent : Agent Obj ω) (metadata : Json) (d : Delivery ω) (calls : List CallRef)
    (messages : List (List (String × Json))) : Prop where
  read : d.arrived.map readIntake = messages.map fun ms => some (metadata, ms)
  sent : List.Forall₂ (agent.SentAs) calls messages.flatten

/-- What the server has read was sent for different events, in the order in which they were
    accepted. -/
def Delivered (agent : Agent Obj ω) (metadata : Json) (d : Delivery ω) : Prop :=
  ∃ calls messages, agent.HasRead metadata d calls messages ∧ calls.Nodup ∧
    calls.Sublist d.queue.taken ∧
    ∀ c ∈ calls, ∃ phase, d.queue.calls.get? c = some phase ∧ phase.accepted

section

variable {agent : Agent Obj ω} {metadata : Json} {d d' : Delivery ω}

/-- The events that are handed to the serialiser are some of the batch, in order. -/
theorem exists_handed (sender : PayloadSender Obj ω) (event : CallRef → QueueItem Obj)
    (batch : List CallRef) (w : ω) :
    ∃ calls, calls.Sublist batch ∧
      List.Forall₂ (fun c item => event c = ⟨some item.1, item.2⟩) calls
        (sender.serializeItems (batch.map event) w).handed := by
  induction batch generalizing w with
  | nil => exact ⟨[], .slnil, .nil⟩
  | cons c batch ih =>
    rw [List.map_cons]
    rcases hevent : event c with ⟨_ | eventType, obj⟩
    · obtain ⟨calls, hsub, hcalls⟩ := ih w
      exact ⟨calls, hsub.cons _, hcalls⟩
    rcases hfilter : tryExecuteFilter (sender.filters eventType) obj w with ⟨_ | result, w₁⟩
    · rw [PayloadSender.serializeItems_omitted hfilter]
      obtain ⟨calls, hsub, hcalls⟩ := ih w₁
      exact ⟨calls, hsub.cons _, hcalls⟩
    rcases hserialized : sender.serializeObject obj w₁ with ⟨e | serialized, w₂⟩
    · rw [PayloadSender.serializeItems_error hfilter hserialized]
      exact ⟨[c], .cons_cons c (List.nil_sublist batch), .cons hevent .nil⟩
    · rw [PayloadSender.serializeItems_ok hfilter hserialized]
      obtain ⟨calls, hsub, hcalls⟩ := ih w₂
      exact ⟨c :: calls, hsub.cons_cons c, .cons hevent hcalls⟩

theorem sentAs_of_handed {calls : List CallRef} {items : List (EventType × Obj)}
    {ms : List (String × Json)}
    (hcalls : List.Forall₂ (fun c item => agent.event c = ⟨some item.1, item.2⟩) calls items)
    (hms : List.Forall₂ (SerializedAs (agent.senderAt d)) items ms) :
    List.Forall₂ agent.SentAs calls ms := by
  induction hcalls generalizing ms with
  | nil =>
    cases hms
    exact .nil
  | cons hevent _ ih =>
    obtain _ | ⟨hfirst, hrest⟩ := hms
    refine .cons ⟨_, by rw [hevent], ?_⟩ (ih hrest)
    rw [hevent]
    exact ⟨hfirst.name, hfirst.value⟩

/-- A batch whose request arrives is read as what was sent for some of its events. -/
theorem exists_calls_of_posted (h : (agent.senderAt d).WritesJson metadata) {batch : List CallRef}
    {lines : List String}
    (hposted : ((agent.senderAt d).processQueueItems (batch.map agent.event) d.world).posted =
      some lines) :
    ∃ calls ms, calls.Sublist batch ∧ readIntake (ndjson agent.newLine lines) = some (metadata, ms) ∧
      List.Forall₂ agent.SentAs calls ms := by
  obtain ⟨ms, hread, hms⟩ := readIntake_posted agent.newLine h hposted
  obtain ⟨calls, hsub, hcalls⟩ :=
    exists_handed (agent.senderAt d) agent.event batch d.world
  exact ⟨calls, ms, hsub, hread, sentAs_of_handed hcalls hms⟩

/-- What every step keeps. -/
structure Invariant (agent : Agent Obj ω) (metadata : Json) (d : Delivery ω) : Prop where
  balanced : EventQueue.Balanced agent.cfg d.queue
  writesJson : (agent.senderAt d).WritesJson metadata
  /-- The batch that is pending is the last one; what has been read belongs to those before. -/
  read : ∃ done calls messages, d.queue.batches.flatten = done ++ d.pending.getD [] ∧
    calls.Sublist done ∧ agent.HasRead metadata d calls messages

theorem invariant_start (h : agent.sender.WritesJson metadata) (w : ω) :
    agent.Invariant metadata (start w) where
  balanced := EventQueue.balanced_new agent.cfg
  writesJson := ⟨h.serializeObject, h.metadataJson, nofun⟩
  read := ⟨[], [], [], rfl, .slnil, rfl, .nil⟩

/-- Only `receive` adds to the batches. -/
theorem batches_eq_of_step {cfg : QueueConfig} {q q' : EventQueue} {l : QueueStep}
    (hl : ∀ size, l ≠ .receive size) (h : q.step cfg l = some q') : q'.batches = q.batches := by
  cases l with
  | receive size => exact absurd rfl (hl size)
  | _ =>
    simp only [EventQueue.step] at h
    (repeat' split at h) <;> cases h <;> rfl

/-- A step of the queue that does not receive a batch. -/
theorem Invariant.queue (h : agent.Invariant metadata d) {l : QueueStep} {q : EventQueue}
    (hl : ∀ size, l ≠ .receive size) (hstep : d.queue.step agent.cfg l = some q) :
    agent.Invariant metadata { d with queue := q } := by
  obtain ⟨hbalanced, hwrites, done, calls, messages, hbatches, hsub, hread⟩ := h
  refine ⟨hbalanced.step hstep, ⟨hwrites.serializeObject, hwrites.metadataJson, hwrites.cached⟩,
    done, calls, messages, ?_, hsub, hread.read, hread.sent⟩
  rw [batches_eq_of_step hl hstep]
  exact hbatches

theorem Invariant.receive (h : agent.Invariant metadata d) {size : Nat} {q : EventQueue}
    (hpending : d.pending = none) (hstep : d.queue.step agent.cfg (.receive size) = some q) :
    agent.Invariant metadata
      { d with queue := q, pending := some (d.queue.queue.take size) } := by
  obtain ⟨hbalanced, hwrites, done, calls, messages, hbatches, hsub, hread⟩ := h
  refine ⟨hbalanced.step hstep, ⟨hwrites.serializeObject, hwrites.metadataJson, hwrites.cached⟩,
    done, calls, messages, ?_, hsub, hread.read, hread.sent⟩
  simp only [EventQueue.step] at hstep
  split at hstep
  · cases hstep
    rw [hpending, Option.getD_none, List.append_nil] at hbatches
    simp [hbatches]
  · cases hstep

/-- Processing the batch that is pending. -/
theorem Invariant.process (h : agent.Invariant metadata d) {batch : List CallRef}
    (hpending : d.pending = some batch) (arrives : Bool)
    (hstep : agent.step d (.process arrives) = some d') : agent.Invariant metadata d' := by
  obtain ⟨hbalanced, hwrites, done, calls, messages, hbatches, hsub, hread⟩ := h
  simp only [Agent.step, hpending] at hstep
  split at hstep
  · cases hstep
  · cases hstep
    refine ⟨hbalanced, ⟨hwrites.serializeObject, hwrites.metadataJson, ?_⟩, done ++ batch, ?_⟩
    · rintro line ⟨rfl⟩
      exact hwrites.metadataJsonLine
    · rw [hpending, Option.getD_some] at hbatches
      have hlost : calls.Sublist (done ++ batch) := hsub.trans (List.sublist_append_left _ _)
      have hall : d.queue.batches.flatten = (done ++ batch) ++ [] := by
        rw [hbatches, List.append_nil]
      split
      · next lines hposted =>
        split
        · obtain ⟨own, ms, hown, hms, hsent⟩ := exists_calls_of_posted hwrites hposted
          refine ⟨calls ++ own, messages ++ [ms], hall, hsub.append hown, ?_, ?_⟩
          · rw [List.map_append, List.map_append, hread.read, List.map_singleton, hms,
              List.map_singleton]
          · rw [List.flatten_append, List.flatten_singleton]
            exact List.rel_append hread.sent hsent
        · exact ⟨calls, messages, hall, hlost, hread.read, hread.sent⟩
      · exact ⟨calls, messages, hall, hlost, hread.read, hread.sent⟩

theorem Invariant.step (h : agent.Invariant metadata d) {l : DeliveryStep ω}
    (hstep : agent.step d l = some d') : agent.Invariant metadata d' := by
  cases l with
  | queue l =>
    cases l with
    | receive size =>
      simp only [Agent.step] at hstep
      split at hstep
      · cases hstep
      · next hpending =>
        obtain ⟨q, hq, rfl⟩ := Option.map_eq_some_iff.mp hstep
        exact h.receive (by simpa using hpending) hq
    | _ =>
      simp only [Agent.step] at hstep
      obtain ⟨q, hq, rfl⟩ := Option.map_eq_some_iff.mp hstep
      exact h.queue (by simp) hq
  | process arrives =>
    cases hpending : d.pending with
    | none =>
      simp only [Agent.step, hpending] at hstep
      cases hstep
    | some batch => exact h.process hpending arrives hstep
  | change w =>
    obtain ⟨hbalanced, hwrites, done, calls, messages, hbatches, hsub, hread⟩ := h
    cases hstep
    exact ⟨hbalanced, ⟨hwrites.serializeObject, hwrites.metadataJson, hwrites.cached⟩, done, calls,
      messages, hbatches, hsub, hread.read, hread.sent⟩

theorem Invariant.delivered (h : agent.Invariant metadata d) : agent.Delivered metadata d := by
  obtain ⟨hbalanced, -, done, calls, messages, hbatches, hsub, hread⟩ := h
  have htaken : calls.Sublist d.queue.taken := by
    unfold EventQueue.taken
    rw [hbatches, List.append_assoc]
    exact hsub.trans (List.sublist_append_left _ _)
  exact ⟨calls, messages, hread, htaken.nodup hbalanced.nodup, htaken,
    fun c hc => (hbalanced.accepted_iff c).mp (htaken.mem hc)⟩

theorem delivers (h : agent.sender.WritesJson metadata) (w : ω) (ls : List (DeliveryStep ω)) :
    agent.system.Always (agent.Delivered metadata) (start w) ls := by
  have hinvariant : agent.system.Always (agent.Invariant metadata) (start w) ls :=
    LTS.System.always_of_invariant (fun _ _ _ h hstep => h.step hstep) (invariant_start h w) ls
  exact hinvariant.mono fun _ h => h.delivered

end

/-- An agent whose events are texts. -/
def plainAgent : Agent String Unit where
  cfg := ⟨1000, 10, by decide⟩
  newLine := .crlf
  sender :=
    { transactionFilters := []
      spanFilters := []
      errorFilters := []
      serializeObject := fun event w => (.ok (jsonNetText (.string event)), w)
      metadataJson := jsonNetText .null
      cachedMetadataJsonLine := none }
  event _ := ⟨some .transaction, "GET /\r\n"⟩

theorem writesJson_plainAgent : plainAgent.sender.WritesJson .null where
  serializeObject event w s w' h := by
    cases h
    exact ⟨_, rfl⟩
  metadataJson := rfl
  cached := nofun

/-- One call, whose event is sent. -/
def oneEvent : List (DeliveryStep Unit) :=
  [.queue .call, .queue (.throwIfDisposed 0), .queue (.increment 0), .queue (.test 0),
    .queue (.post 0), .queue (.finish 0), .queue (.receive 1), .queue .subtract, .process true]

theorem delivers_oneEvent :
    ((plainAgent.system.run (start ()) oneEvent).map fun d => d.arrived.length) = some 1 ∧
      plainAgent.system.Always (plainAgent.Delivered .null) (start ()) oneEvent :=
  ⟨by rfl, delivers writesJson_plainAgent () oneEvent⟩

end Agent

end ApmAgent
