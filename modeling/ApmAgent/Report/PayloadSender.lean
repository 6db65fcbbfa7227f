import ApmAgent.Helpers.Numbers

/-! # ProcessQueueItems

  What the payload sender does with a received batch: each event goes through
  the filters of its kind, what is left is serialised line by line, and the
  lines are posted in one request. One `try` block spans all of it.

  Events are references: a filter returns one, and what it does to the data of
  the events, or to anything else, is a change of the world `ω`. The filters
  and the serialiser are parameters.
-/

namespace ApmAgent

/-- The cases of the `switch` over the queued events. -/
inductive EventType where
  | transaction
  | span
  | error
  | metricset
  deriving DecidableEq, Repr

/-- The name of the event in its line of the payload. -/
def EventType.name : EventType → String
  | .transaction => "transaction"
  | .span => "span"
  | .error => "error"
  | .metricset => "metricset"

/-- What a call of a filter comes to. -/
inductive FilterOutcome (Obj : Type) where
  | returned (event : Obj)
  | null
  | threw (e : RuntimeException)
  deriving DecidableEq

variable {Obj ω : Type}

/-- A filter on events; it may change the world whatever it comes to. -/
abbrev Filter (Obj ω : Type) := Obj → ω → FilterOutcome Obj × ω

/-- An event of the batch; `none` is an object the `switch` has no case for. -/
structure QueueItem (Obj : Type) where
  eventType : Option EventType
  event : Obj
  deriving DecidableEq

/-- What `ProcessQueueItems` uses of the payload sender. -/
structure PayloadSender (Obj ω : Type) where
  transactionFilters : List (Filter Obj ω)
  spanFilters : List (Filter Obj ω)
  errorFilters : List (Filter Obj ω)
  /-- `_payloadItemSerializer.SerializeObject` on an event. -/
  serializeObject : Obj → ω → Except RuntimeException String × ω
  /-- The metadata, serialised. -/
  metadataJson : String
  cachedMetadataJsonLine : Option String

namespace PayloadSender

/-- The filters that are run on an event of a kind. -/
def filters (sender : PayloadSender Obj ω) : EventType → List (Filter Obj ω)
  | .transaction => sender.transactionFilters
  | .span => sender.spanFilters
  | .error => sender.errorFilters
  | .metricset => []

/-- The line of the metadata: the first one is cached. -/
def metadataJsonLine (sender : PayloadSender Obj ω) : String :=
  sender.cachedMetadataJsonLine.getD ("\x7b\"metadata\": " ++ sender.metadataJson ++ "\x7d")

end PayloadSender

/-- `TryExecuteFilter`: a filter that throws is skipped, one that returns null ends it. -/
def tryExecuteFilter : List (Filter Obj ω) → Obj → ω → Option Obj × ω
  | [], item, w => (some item, w)
  | filter :: filters, item, w =>
    match filter item w with
    | (.returned itemAfterFilter, w) => tryExecuteFilter filters itemAfterFilter w
    | (.null, w) => (none, w)
    | (.threw _, w) => tryExecuteFilter filters item w

/-- The line of a serialised event. -/
def eventJsonLine (eventType : EventType) (serialized : String) : String :=
  "\x7b\"" ++ eventType.name ++ "\": " ++ serialized ++ "\x7d"

/-- How the loop over the batch ends. -/
structure SerializedItems (Obj ω : Type) where
  /-- The calls of `SerializeObject`, in order. -/
  handed : List (EventType × Obj)
  /-- The lines, or the exception that left the loop. -/
  lines : Except RuntimeException (List String)
  world : ω

/-- The loop over the batch. What the filters return decides whether the event is serialised;
    what is serialised is the event that was queued. -/
def PayloadSender.serializeItems (sender : PayloadSender Obj ω) :
    List (QueueItem Obj) → ω → SerializedItems Obj ω
  | [], w => ⟨[], .ok [], w⟩
  | item :: items, w =>
    match item.eventType with
    | none => sender.serializeItems items w
    | some eventType =>
      match tryExecuteFilter (sender.filters eventType) item.event w with
      | (none, w) => sender.serializeItems items w
      -- `SerializeAndSend(item, ..)`: the queued event, not the one that the filters returned.
      | (some _, w) =>
        match sender.serializeObject item.event w with
        | (.error e, w) => ⟨[(eventType, item.event)], .error e, w⟩
        | (.ok serialized, w) =>
          let rest := sender.serializeItems items w
          { handed := (eventType, item.event) :: rest.handed
            lines := rest.lines.map (eventJsonLine eventType serialized :: ·)
            world := rest.world }

namespace PayloadSender

section
variable {sender : PayloadSender Obj ω} {eventType : EventType} {event : Obj}
  {items : List (QueueItem Obj)} {w w₁ w₂ : ω}

theorem serializeItems_skipped :
    sender.serializeItems (⟨none, event⟩ :: items) w = sender.serializeItems items w := rfl

theorem serializeItems_omitted
    (hfilter : tryExecuteFilter (sender.filters eventType) event w = (none, w₁)) :
    sender.serializeItems (⟨some eventType, event⟩ :: items) w =
      sender.serializeItems items w₁ := by
  simp only [serializeItems, hfilter]

theorem serializeItems_error {result : Obj} {e : RuntimeException}
    (hfilter : tryExecuteFilter (sender.filters eventType) event w = (some result, w₁))
    (hserialized : sender.serializeObject event w₁ = (.error e, w₂)) :
    sender.serializeItems (⟨some eventType, event⟩ :: items) w =
      ⟨[(eventType, event)], .error e, w₂⟩ := by
  simp only [serializeItems, hfilter, hserialized]

theorem serializeItems_ok {result : Obj} {serialized : String}
    (hfilter : tryExecuteFilter (sender.filters eventType) event w = (some result, w₁))
    (hserialized : sender.serializeObject event w₁ = (.ok serialized, w₂)) :
    sender.serializeItems (⟨some eventType, event⟩ :: items) w =
      { handed := (eventType, event) :: (sender.serializeItems items w₂).handed
        lines := (sender.serializeItems items w₂).lines.map
          (eventJsonLine eventType serialized :: ·)
        world := (sender.serializeItems items w₂).world } := by
  simp only [serializeItems, hfilter, hserialized]

end

end PayloadSender

/-- What `ProcessQueueItems` did with a batch. -/
structure ProcessedBatch (Obj ω : Type) where
  handed : List (EventType × Obj)
  /-- The lines of the request that was posted; `none` when none was. -/
  posted : Option (List String)
  cachedMetadataJsonLine : Option String
  world : ω

/-- `ProcessQueueItems`. An exception from the loop ends up in the `catch` block. -/
def PayloadSender.processQueueItems (sender : PayloadSender Obj ω)
    (queueItems : List (QueueItem Obj)) (w : ω) : ProcessedBatch Obj ω :=
  let items := sender.serializeItems queueItems w
  { handed := items.handed
    posted :=
      match items.lines with
      | .ok lines => some (sender.metadataJsonLine :: lines)
      | .error _ => none
    cachedMetadataJsonLine := some sender.metadataJsonLine
    world := items.world }

end ApmAgent
