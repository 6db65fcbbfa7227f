import ApmAgent.Report.PayloadSender

/-! # Events that cannot be serialised

  Serialising an event runs getters of objects the application supplied, so it
  can throw. `outcomes` is what serialising each event of a batch comes to that
  the filters let through, had each one its own `try` block. The code has one
  around the whole batch: it posts all of the lines or none.
-/

namespace ApmAgent

variable {Obj ω : Type}

/-- What serialising the events of a batch comes to, one by one. -/
def PayloadSender.outcomes (sender : PayloadSender Obj ω) :
    List (QueueItem Obj) → ω → List (EventType × Except RuntimeException String)
  | [], _ => []
  | item :: items, w =>
    match item.eventType with
    | none => sender.outcomes items w
    | some eventType =>
      match tryExecuteFilter (sender.filters eventType) item.event w with
      | (none, w) => sender.outcomes items w
      | (some _, w) =>
        let result := sender.serializeObject item.event w
        (eventType, result.1) :: sender.outcomes items result.2

/-- The line of an event, if it could be serialised. -/
def outcomeLine : EventType × Except RuntimeException String → Option String
  | (eventType, .ok serialized) => some (eventJsonLine eventType serialized)
  | (_, .error _) => none

/-- The lines of the events that could be serialised, in batch order. -/
def PayloadSender.goodLines (sender : PayloadSender Obj ω) (items : List (QueueItem Obj))
    (w : ω) : List String :=
  (sender.outcomes items w).filterMap outcomeLine

/-- The lines of a batch if nothing throws: all of them. -/
def allLines : List (EventType × Except RuntimeException String) →
    Except RuntimeException (List String)
  | [] => .ok []
  | (_, .error e) :: _ => .error e
  | (eventType, .ok serialized) :: rest =>
    (allLines rest).map (eventJsonLine eventType serialized :: ·)

/-- The loop ends with the lines of all events that were not removed by a filter, or with the
    first exception. -/
theorem serializeItems_lines (sender : PayloadSender Obj ω) (items : List (QueueItem Obj))
    (w : ω) : (sender.serializeItems items w).lines = allLines (sender.outcomes items w) := by
  -- On the batch; the filters and the serialiser change the world in the same order.
  induction items generalizing w with
  | nil => rfl
  | cons item items ih =>
    obtain ⟨eventType, event⟩ := item
    cases eventType with
    | none => exact ih w
    | some eventType =>
      rcases hfilter : tryExecuteFilter (sender.filters eventType) event w with ⟨result, w₁⟩
      cases result with
      | none =>
        rw [PayloadSender.serializeItems_omitted hfilter, ih w₁]
        simp only [PayloadSender.outcomes, hfilter]
      | some result =>
        rcases hserialized : sender.serializeObject event w₁ with ⟨serialized, w₂⟩
        simp only [PayloadSender.outcomes, hfilter, hserialized]
        cases serialized with
        | error e =>
          rw [PayloadSender.serializeItems_error hfilter hserialized]
          rfl
        | ok serialized =>
          rw [PayloadSender.serializeItems_ok hfilter hserialized, allLines, ih w₂]

/-- Without an exception all lines are those of the events that could be serialised. -/
theorem allLines_of_forall_ok {outcomes : List (EventType × Except RuntimeException String)}
    (h : ∀ o ∈ outcomes, ∃ serialized, o.2 = .ok serialized) :
    allLines outcomes = .ok (outcomes.filterMap outcomeLine) := by
  induction outcomes with
  | nil => rfl
  | cons o rest ih =>
    obtain ⟨eventType, result⟩ := o
    obtain ⟨serialized, hok⟩ := h _ (List.mem_cons_self ..)
    cases hok
    rw [allLines, ih fun o ho => h o (List.mem_cons_of_mem _ ho)]
    rfl

theorem allLines_of_exists_error {outcomes : List (EventType × Except RuntimeException String)}
    (h : ¬ ∀ o ∈ outcomes, ∃ serialized, o.2 = .ok serialized) :
    ∃ e, allLines outcomes = .error e := by
  -- The first event that cannot be serialised is found from the front.
  induction outcomes with
  | nil => exact absurd (fun o ho => by cases ho) h
  | cons o rest ih =>
    obtain ⟨eventType, result⟩ := o
    cases result with
    | error e => exact ⟨e, rfl⟩
    | ok serialized =>
      have hrest : ¬ ∀ o ∈ rest, ∃ serialized, o.2 = .ok serialized := by
        intro hall
        refine h fun o ho => ?_
        rcases List.mem_cons.mp ho with rfl | ho
        · exact ⟨serialized, rfl⟩
        · exact hall o ho
      obtain ⟨e, he⟩ := ih hrest
      exact ⟨e, by rw [allLines, he]; rfl⟩

theorem filterMap_outcomeLine_eq_nil_iff
    {outcomes : List (EventType × Except RuntimeException String)} :
    outcomes.filterMap outcomeLine = [] ↔ ∀ o ∈ outcomes, ∃ e, o.2 = .error e := by
  rw [List.filterMap_eq_nil_iff]
  refine forall₂_congr fun o _ => ?_
  obtain ⟨eventType, result⟩ := o
  cases result <;> simp [outcomeLine]

/-- Every event of the batch that can be serialised and is not removed by a filter is in the
    payload that is posted, in batch order, if and only if all events that are not removed can
    be serialised, or none can. -/
theorem goodLines_sublist_iff (sender : PayloadSender Obj ω)
    (queueItems : List (QueueItem Obj)) (w : ω) :
    (sender.goodLines queueItems w).Sublist
        ((sender.processQueueItems queueItems w).posted.getD []) ↔
      (∀ o ∈ sender.outcomes queueItems w, ∃ serialized, o.2 = .ok serialized) ∨
      (∀ o ∈ sender.outcomes queueItems w, ∃ e, o.2 = .error e) := by
  have hlines := serializeItems_lines sender queueItems w
  by_cases hall : ∀ o ∈ sender.outcomes queueItems w, ∃ serialized, o.2 = .ok serialized
  · -- Behind the line of the metadata there are all lines.
    refine iff_of_true ?_ (.inl hall)
    rw [allLines_of_forall_ok hall] at hlines
    simp only [PayloadSender.processQueueItems, hlines, Option.getD_some]
    exact List.sublist_cons_self _ _
  · -- Nothing is posted, which loses something unless there was nothing to post.
    obtain ⟨e, he⟩ := allLines_of_exists_error hall
    rw [he] at hlines
    simp only [PayloadSender.processQueueItems, hlines, Option.getD_none, List.sublist_nil,
      hall, false_or]
    exact filterMap_outcomeLine_eq_nil_iff

/-- A sender that cannot serialise one event. -/
def throwingSender : PayloadSender String Unit where
  transactionFilters := []
  spanFilters := []
  errorFilters := []
  serializeObject event w :=
    if event = "throws" then (.error (.other "JsonSerializationException"), w) else (.ok event, w)
  metadataJson := "null"
  cachedMetadataJsonLine := none

/-- A transaction is lost because an error in the same batch cannot be serialised. -/
theorem goodLines_sublist_counterexample :
    ¬ (throwingSender.goodLines [⟨some .transaction, "fine"⟩, ⟨some .error, "throws"⟩] ()).Sublist
        ((throwingSender.processQueueItems
          [⟨some .transaction, "fine"⟩, ⟨some .error, "throws"⟩] ()).posted.getD []) := by
  decide

end ApmAgent
