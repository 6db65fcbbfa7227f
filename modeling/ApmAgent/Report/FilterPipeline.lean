import ApmAgent.Report.PayloadSender

/-! # The filter pipeline

  What the filters are for, stated on its own: `FilterChain` relates an event
  to what the filters of its kind make of it, and `Serialises` relates a batch
  to the objects that should be handed to the serialiser.

  `TryExecuteFilter` computes the chain. `ProcessQueueItems` runs it and then
  serialises the queued event instead of its result, so it agrees with
  `Serialises` only where that makes no difference.
-/

namespace ApmAgent

variable {Obj ω : Type}

/-! ### What the filters should decide -/

/-- What filters in registration order make of an event: `some` object to be sent, or `none`
    for an event that is omitted. -/
inductive FilterChain : List (Filter Obj ω) → Obj → ω → Option Obj → ω → Prop where
  | done (item : Obj) (w : ω) : FilterChain [] item w (some item) w
  | returned {filter : Filter Obj ω} {filters : List (Filter Obj ω)} {item next : Obj}
      {w w₁ w₂ : ω} {result : Option Obj} (hfilter : filter item w = (.returned next, w₁))
      (hrest : FilterChain filters next w₁ result w₂) :
      FilterChain (filter :: filters) item w result w₂
  | threw {filter : Filter Obj ω} {filters : List (Filter Obj ω)} {item : Obj}
      {w w₁ w₂ : ω} {result : Option Obj} {e : RuntimeException}
      (hfilter : filter item w = (.threw e, w₁))
      (hrest : FilterChain filters item w₁ result w₂) :
      FilterChain (filter :: filters) item w result w₂
  | null {filter : Filter Obj ω} {filters : List (Filter Obj ω)} {item : Obj} {w w₁ : ω}
      (hfilter : filter item w = (.null, w₁)) : FilterChain (filter :: filters) item w none w₁

/-- The objects to be serialised for a batch, in batch order. -/
inductive Serialises (sender : PayloadSender Obj ω) :
    List (QueueItem Obj) → ω → List (EventType × Obj) → Prop where
  | nil (w : ω) : Serialises sender [] w []
  | skipped {event : Obj} {items : List (QueueItem Obj)} {w : ω}
      {handed : List (EventType × Obj)} (hrest : Serialises sender items w handed) :
      Serialises sender (⟨none, event⟩ :: items) w handed
  | omitted {eventType : EventType} {event : Obj} {items : List (QueueItem Obj)} {w w₁ : ω}
      {handed : List (EventType × Obj)}
      (hchain : FilterChain (sender.filters eventType) event w none w₁)
      (hrest : Serialises sender items w₁ handed) :
      Serialises sender (⟨some eventType, event⟩ :: items) w handed
  | sent {eventType : EventType} {event result : Obj} {items : List (QueueItem Obj)}
      {w w₁ : ω} {handed : List (EventType × Obj)}
      (hchain : FilterChain (sender.filters eventType) event w (some result) w₁)
      (hrest : Serialises sender items (sender.serializeObject result w₁).2 handed) :
      Serialises sender (⟨some eventType, event⟩ :: items) w ((eventType, result) :: handed)

/-- The batch is one on which it makes no difference which object is serialised, and no
    exception cuts it short. -/
inductive KeepsObjects (sender : PayloadSender Obj ω) : List (QueueItem Obj) → ω → Prop where
  | nil (w : ω) : KeepsObjects sender [] w
  | skipped {event : Obj} {items : List (QueueItem Obj)} {w : ω}
      (hrest : KeepsObjects sender items w) : KeepsObjects sender (⟨none, event⟩ :: items) w
  | omitted {eventType : EventType} {event : Obj} {items : List (QueueItem Obj)} {w w₁ : ω}
      (hchain : FilterChain (sender.filters eventType) event w none w₁)
      (hrest : KeepsObjects sender items w₁) :
      KeepsObjects sender (⟨some eventType, event⟩ :: items) w
  /-- The filters give the event back, and it can be serialised. -/
  | sent {eventType : EventType} {event : Obj} {items : List (QueueItem Obj)} {w w₁ : ω}
      {serialized : String}
      (hchain : FilterChain (sender.filters eventType) event w (some event) w₁)
      (hserialized : (sender.serializeObject event w₁).1 = .ok serialized)
      (hrest : KeepsObjects sender items (sender.serializeObject event w₁).2) :
      KeepsObjects sender (⟨some eventType, event⟩ :: items) w
  /-- It cannot be serialised, but the filters remove all events after it. -/
  | last {eventType : EventType} {event : Obj} {items : List (QueueItem Obj)} {w w₁ : ω}
      {e : RuntimeException}
      (hchain : FilterChain (sender.filters eventType) event w (some event) w₁)
      (hfailed : (sender.serializeObject event w₁).1 = .error e)
      (hrest : Serialises sender items (sender.serializeObject event w₁).2 []) :
      KeepsObjects sender (⟨some eventType, event⟩ :: items) w

/-! ### TryExecuteFilter computes the chain -/

theorem filterChain_tryExecuteFilter (filters : List (Filter Obj ω)) (item : Obj) (w : ω) :
    FilterChain filters item w (tryExecuteFilter filters item w).1
      (tryExecuteFilter filters item w).2 := by
  -- Each filter is run on what the previous ones have left of the event and of the world.
  induction filters generalizing item w with
  | nil => exact .done item w
  | cons filter filters ih =>
    unfold tryExecuteFilter
    split
    · next next w₁ hfilter => exact .returned hfilter (ih next w₁)
    · next w₁ hfilter => exact .null hfilter
    · next e w₁ hfilter => exact .threw hfilter (ih item w₁)

theorem FilterChain.tryExecuteFilter_eq {filters : List (Filter Obj ω)} {item : Obj}
    {w w' : ω} {result : Option Obj} (h : FilterChain filters item w result w') :
    tryExecuteFilter filters item w = (result, w') := by
  induction h with
  | done item w => rfl
  | returned hfilter hrest ih => simp only [tryExecuteFilter, hfilter, ih]
  | threw hfilter hrest ih => simp only [tryExecuteFilter, hfilter, ih]
  | null hfilter => simp only [tryExecuteFilter, hfilter]

/-- The chain is what `TryExecuteFilter` computes. -/
theorem filterChain_iff {filters : List (Filter Obj ω)} {item : Obj} {w w' : ω}
    {result : Option Obj} :
    FilterChain filters item w result w' ↔ tryExecuteFilter filters item w = (result, w') := by
  constructor
  · exact FilterChain.tryExecuteFilter_eq
  · intro h
    have hchain := filterChain_tryExecuteFilter filters item w
    rwa [h] at hchain

theorem FilterChain.unique {filters : List (Filter Obj ω)} {item : Obj} {w w₁ w₂ : ω}
    {result₁ result₂ : Option Obj} (h₁ : FilterChain filters item w result₁ w₁)
    (h₂ : FilterChain filters item w result₂ w₂) : (result₁, w₁) = (result₂, w₂) :=
  h₁.tryExecuteFilter_eq.symm.trans h₂.tryExecuteFilter_eq

/-! ### What is serialised -/

section

variable {sender : PayloadSender Obj ω} {eventType : EventType} {event : Obj}
  {items : List (QueueItem Obj)} {w w₁ : ω}

theorem serialises_skipped_iff {handed : List (EventType × Obj)} :
    Serialises sender (⟨none, event⟩ :: items) w handed ↔ Serialises sender items w handed := by
  constructor
  · intro h
    cases h with
    | skipped hrest => exact hrest
  · exact .skipped

theorem serialises_omitted_iff {handed : List (EventType × Obj)}
    (hchain : FilterChain (sender.filters eventType) event w none w₁) :
    Serialises sender (⟨some eventType, event⟩ :: items) w handed ↔
      Serialises sender items w₁ handed := by
  constructor
  · intro h
    cases h with
    | omitted hchain' hrest =>
      cases hchain.unique hchain'
      exact hrest
    | sent hchain' hrest => cases hchain.unique hchain'
  · exact .omitted hchain

theorem serialises_sent_iff {result : Obj} {handed : List (EventType × Obj)}
    (hchain : FilterChain (sender.filters eventType) event w (some result) w₁) :
    Serialises sender (⟨some eventType, event⟩ :: items) w handed ↔
      ∃ rest, handed = (eventType, result) :: rest ∧
        Serialises sender items (sender.serializeObject result w₁).2 rest := by
  constructor
  · intro h
    cases h with
    | omitted hchain' hrest => cases hchain.unique hchain'
    | sent hchain' hrest =>
      cases hchain.unique hchain'
      exact ⟨_, rfl, hrest⟩
  · rintro ⟨rest, rfl, hrest⟩
    exact .sent hchain hrest

theorem keepsObjects_skipped_iff :
    KeepsObjects sender (⟨none, event⟩ :: items) w ↔ KeepsObjects sender items w := by
  constructor
  · intro h
    cases h with
    | skipped hrest => exact hrest
  · exact .skipped

theorem keepsObjects_omitted_iff
    (hchain : FilterChain (sender.filters eventType) event w none w₁) :
    KeepsObjects sender (⟨some eventType, event⟩ :: items) w ↔ KeepsObjects sender items w₁ := by
  constructor
  · intro h
    cases h with
    | omitted hchain' hrest =>
      cases hchain.unique hchain'
      exact hrest
    | sent hchain' hserialized hrest => cases hchain.unique hchain'
    | last hchain' hfailed hrest => cases hchain.unique hchain'
  · exact .omitted hchain

theorem keepsObjects_sent_iff {result : Obj}
    (hchain : FilterChain (sender.filters eventType) event w (some result) w₁) :
    KeepsObjects sender (⟨some eventType, event⟩ :: items) w ↔
      result = event ∧
        match sender.serializeObject event w₁ with
        | (.ok _, w₂) => KeepsObjects sender items w₂
        | (.error _, w₂) => Serialises sender items w₂ [] := by
  constructor
  · intro h
    cases h with
    | omitted hchain' hrest => cases hchain.unique hchain'
    | sent hchain' hserialized hrest =>
      cases hchain.unique hchain'
      refine ⟨rfl, ?_⟩
      split
      · next heq => rwa [heq] at hrest
      · next heq => rw [heq] at hserialized; cases hserialized
    | last hchain' hfailed hrest =>
      cases hchain.unique hchain'
      refine ⟨rfl, ?_⟩
      split
      · next heq => rw [heq] at hfailed; cases hfailed
      · next heq => rwa [heq] at hrest
  · rintro ⟨rfl, hrest⟩
    split at hrest
    · next heq => exact .sent hchain (by rw [heq]) (by rwa [heq])
    · next heq => exact .last hchain (by rw [heq]) (by rwa [heq])

end

/-- `ProcessQueueItems` serialises the objects it should, if and only if it makes no difference
    that it serialises the queued events. -/
theorem processQueueItems_serialises_iff (sender : PayloadSender Obj ω)
    (queueItems : List (QueueItem Obj)) (w : ω) :
    Serialises sender queueItems w (sender.processQueueItems queueItems w).handed ↔
      KeepsObjects sender queueItems w := by
  show Serialises sender queueItems w (sender.serializeItems queueItems w).handed ↔ _
  -- The objects handed over are compared one by one, up to the first exception.
  induction queueItems generalizing w with
  | nil => exact iff_of_true (.nil w) (.nil w)
  | cons item items ih =>
    obtain ⟨eventType, event⟩ := item
    cases eventType with
    | none =>
      rw [PayloadSender.serializeItems_skipped, serialises_skipped_iff, keepsObjects_skipped_iff]
      exact ih w
    | some eventType =>
      rcases hfilter : tryExecuteFilter (sender.filters eventType) event w with ⟨result, w₁⟩
      have hchain := filterChain_iff.mpr hfilter
      cases result with
      | none =>
        rw [PayloadSender.serializeItems_omitted hfilter, serialises_omitted_iff hchain,
          keepsObjects_omitted_iff hchain]
        exact ih w₁
      | some result =>
        rw [serialises_sent_iff hchain, keepsObjects_sent_iff hchain]
        rcases hserialized : sender.serializeObject event w₁ with ⟨serialized, w₂⟩
        cases serialized with
        | error e =>
          -- The exception ends the loop, so nothing more may have to be serialised.
          rw [PayloadSender.serializeItems_error hfilter hserialized]
          constructor
          · rintro ⟨rest, hhanded, hrest⟩
            cases hhanded
            rw [hserialized] at hrest
            exact ⟨rfl, hrest⟩
          · rintro ⟨rfl, hrest⟩
            exact ⟨[], rfl, by rwa [hserialized]⟩
        | ok serialized =>
          rw [PayloadSender.serializeItems_ok hfilter hserialized]
          constructor
          · rintro ⟨rest, hhanded, hrest⟩
            cases hhanded
            rw [hserialized] at hrest
            exact ⟨rfl, (ih w₂).mp hrest⟩
          · rintro ⟨rfl, hrest⟩
            refine ⟨_, rfl, ?_⟩
            rw [hserialized]
            exact (ih w₂).mpr hrest

/-- A sender whose only filter replaces every transaction by another object. -/
def redactingSender : PayloadSender String Unit where
  transactionFilters := [fun _ w => (.returned "[HIDDEN]", w)]
  spanFilters := []
  errorFilters := []
  serializeObject event w := (.ok event, w)
  metadataJson := "null"
  cachedMetadataJsonLine := none

/-- The transaction is serialised as it was queued, not as the filter returned it. -/
theorem processQueueItems_serialises_counterexample :
    ¬ Serialises redactingSender [⟨some .transaction, "secret"⟩] ()
        (redactingSender.processQueueItems [⟨some .transaction, "secret"⟩] ()).handed := by
  intro h
  have hchain : FilterChain (redactingSender.filters .transaction) "secret" ()
      (some "[HIDDEN]") () := .returned rfl (.done _ _)
  obtain ⟨rest, hhanded, -⟩ := (serialises_sent_iff hchain).mp h
  have hfirst : (EventType.transaction, "secret") = (.transaction, "[HIDDEN]") :=
    (List.cons.inj hhanded).1
  exact absurd hfirst (by decide)

end ApmAgent
