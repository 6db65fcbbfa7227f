import ApmAgent.Framework.InFlight
import ApmAgent.Model.EndOnce

/-! # The spans of a diagnostic listener

  A diagnostic listener starts a span when an operation of the application
  starts, keeps it in a table under the object or the id of the operation, and
  ends it when the operation stops. Its events are delivered in the flow of
  control of the operation, so the current segment may be any.

  This module has what the listeners share: the table and the spans that were
  started, what other code does to the tracer in the meantime, and the steps on
  the spans in flight that the calls of a listener come to.
-/

namespace ApmAgent

inductive InstrumentationFlag where
  | none
  | httpClient
  | aspNetCore
  | efCore
  | efClassic
  | sqlClient
  | aspNetClassic
  deriving DecidableEq, Repr

/-- The tracer, with the `InstrumentationFlag` of each span. -/
structure Instrumented where
  tracer : Tracer
  instrumentationFlag : SpanRef → InstrumentationFlag

namespace Instrumented

/-- `ExecutionSegmentCommon.StartSpanOnCurrentExecutionSegment`, with the span it returns. -/
def startSpanOnCurrentExecutionSegment (s : Instrumented) (flag : InstrumentationFlag)
    (a : SpanStart) : Option (Instrumented × Option SpanRef) :=
  (s.tracer.startSpanOnCurrentExecutionSegment a).map fun σ =>
    match s.tracer.getCurrentExecutionSegment with
    | none => (s, none)
    | some _ =>
      ({ tracer := σ
         instrumentationFlag := Function.update s.instrumentationFlag s.tracer.spans.size flag },
        some s.tracer.spans.size)

/-- A call that starts no span. -/
def call (s : Instrumented) (op : Op) : Option Instrumented :=
  (s.tracer.step op).map fun σ => { s with tracer := σ }

end Instrumented

/-- A listener: the agent, the spans in flight with what is kept beside them, and, as a ghost,
    all spans it has started. -/
structure ListenerState (Key Data : Type) where
  agent : Instrumented
  processing : Key → Option (SpanRef × Data)
  started : List SpanRef

/-- What happens between two events of a listener. -/
inductive Elsewhere where
  /-- The application or another instrumentation calls the tracer. A span that is started this
      way gets the flag. -/
  | call (op : Op) (flag : InstrumentationFlag)
  /-- Another flow of control goes on, with its own current segments. -/
  | flow (currentTransaction : Option TransactionRef) (currentSpan : Option SpanRef)

/-- The span a call ends. -/
def Op.endedSpan : Op → Option SpanRef
  | .endSegment (.span k) _ => some k
  | _ => none

namespace ListenerState

variable {Key Data : Type}

def tracer (s : ListenerState Key Data) : Tracer := s.agent.tracer

/-- `StartSpanOnCurrentExecutionSegment` as a listener calls it. -/
def startSpan (s : ListenerState Key Data) (flag : InstrumentationFlag) (a : SpanStart) :
    Option (ListenerState Key Data × Option SpanRef) :=
  (s.agent.startSpanOnCurrentExecutionSegment flag a).map fun (agent, span) =>
    ({ s with agent := agent, started := s.started ++ span.toList }, span)

/-- A call of a listener that starts no span. -/
def call (s : ListenerState Key Data) (op : Op) : Option (ListenerState Key Data) :=
  (s.agent.call op).map fun agent => { s with agent := agent }

section

variable [DecidableEq Key]

/-- `TryAdd`: nothing is added where there is a span already. -/
def tryAdd (s : ListenerState Key Data) (key : Key) (span : SpanRef) (data : Data) :
    Option (ListenerState Key Data) :=
  match s.processing key with
  | some _ => none
  | none => some { s with processing := Function.update s.processing key (some (span, data)) }

/-- `TryRemove`. -/
def tryRemove (s : ListenerState Key Data) (key : Key) :
    Option (ListenerState Key Data × SpanRef × Data) :=
  (s.processing key).map fun item =>
    ({ s with processing := Function.update s.processing key none }, item)

end

/-- The spans of a listener are ended by nobody else. -/
def elsewhere (s : ListenerState Key Data) : Elsewhere → Option (ListenerState Key Data)
  | .call op flag =>
    if op.endedSpan.any (· ∈ s.started) then none
    else
      (s.tracer.step op).map fun σ =>
        { s with
          agent :=
            { tracer := σ
              instrumentationFlag :=
                if σ.spans.size = s.tracer.spans.size then s.agent.instrumentationFlag
                else Function.update s.agent.instrumentationFlag s.tracer.spans.size flag } }
  | .flow currentTransaction currentSpan =>
    some
      { s with
        agent :=
          { s.agent with
            tracer :=
              { s.tracer with
                currentTransaction := currentTransaction
                currentSpan := currentSpan } } }

/-- `End` was called on the span. -/
def isEnded (s : ListenerState Key Data) (k : SpanRef) : Bool := s.tracer.isEnded (.span k)

/-- The table, and the spans that were started and not ended. -/
def inFlight (s : ListenerState Key Data) : InFlight Key SpanRef where
  table key := (s.processing key).map (·.1)
  opened := {k | k ∈ s.started ∧ s.isEnded k = false}

/-- The table holds exactly the spans that were started and not ended, each under one key. -/
def Tracks (s : ListenerState Key Data) : Prop := s.inFlight.Tracks

/-- All spans the listener knows exist, those in the table with their transactions. -/
structure WellFormed (s : ListenerState Key Data) : Prop where
  started : ∀ k ∈ s.started, k < s.tracer.spans.size
  processing : ∀ key item, s.processing key = some item →
    (s.tracer.resolve (.span item.1)).isSome

/-- A listener that has not seen any event. -/
structure IsNew (s : ListenerState Key Data) : Prop where
  processing : ∀ key, s.processing key = none
  started : s.started = []

end ListenerState

/-! ### What a call does to the spans -/

namespace Tracer

/-- A `Span` needs its transaction. -/
theorem resolve_span_isSome_iff {σ : Tracer} {k : SpanRef} :
    (σ.resolve (.span k)).isSome ↔
      ∃ s, σ.spans.get? k = some s ∧ (s.trace.ids.isSome →
        ∃ t, σ.transactions.get? s.startedIn = some (.transaction t)) := by
  rw [resolve]
  rcases hs : σ.spans.get? k with _ | s | n
  · simp
  · simp [ISpan.trace, ISpan.startedIn, Option.isSome_iff_exists, transaction?_eq_some]
  · simp [ISpan.trace]

theorem lt_size_of_resolve {σ : Tracer} {k : SpanRef} (h : (σ.resolve (.span k)).isSome) :
    k < σ.spans.size := by
  obtain ⟨s, hs, _⟩ := resolve_span_isSome_iff.mp h
  exact Store.lt_size hs

/-- A transaction stays one. -/
theorem isTransaction_step {σ σ' : Tracer} {op : Op} (hstep : σ.step op = some σ')
    {r : TransactionRef} (h : ∃ t, σ.transactions.get? r = some (.transaction t)) :
    ∃ t, σ'.transactions.get? r = some (.transaction t) := by
  obtain ⟨t, ht⟩ := h
  obtain ⟨t' | n, ht', htrace⟩ := step_transaction_trace hstep ht
  · exact ⟨t', ht'⟩
  · cases htrace

/-- A span that can be called can be called after any call. -/
theorem resolve_step {σ σ' : Tracer} {op : Op} (hstep : σ.step op = some σ') (k : SpanRef)
    (h : (σ.resolve (.span k)).isSome) : (σ'.resolve (.span k)).isSome := by
  rw [resolve_span_isSome_iff] at h ⊢
  obtain ⟨s, hs, htransaction⟩ := h
  have hspan : ∃ s', σ'.spans.get? k = some s' ∧ s'.trace = s.trace := by
    have hsame : ∃ s', σ.spans.get? k = some s' ∧ s'.trace = s.trace := ⟨s, hs, rfl⟩
    cases step_transition hstep with
    | newSpan a hon hreal ht hhanded hparent => exact Store.exists_alloc _ hsame
    | newNoopSpan hon hnoop hhanded hparent => exact Store.exists_alloc _ hsame
    | endTransaction now ht => rwa [Transaction.endTransaction_spans]
    | endSpan now hs' ht =>
      rw [Span.endSpan_spans]
      exact Store.exists_update hs' id hsame
    | endNoopSpan now hs' => exact Store.exists_update hs' id hsame
    | _ => exact hsame
  obtain ⟨s', hs', htrace⟩ := hspan
  have hstarted : s'.startedIn = s.startedIn := congrArg SpanTrace.startedIn htrace
  refine ⟨s', hs', fun hids => ?_⟩
  rw [htrace] at hids
  rw [hstarted]
  exact isTransaction_step hstep (htransaction hids)

/-- A call keeps all spans, and ends at most the one it is made on. -/
structure KeepsSpans (σ σ' : Tracer) (ended : Option SpanRef) : Prop where
  size : σ.spans.size ≤ σ'.spans.size
  isEnded : ∀ k < σ.spans.size, ended ≠ some k → σ'.isEnded (.span k) = σ.isEnded (.span k)
  resolves : ∀ k, (σ.resolve (.span k)).isSome → (σ'.resolve (.span k)).isSome

theorem keepsSpans_of_spans_eq {σ σ' : Tracer} (h : σ'.spans = σ.spans) (ended : Option SpanRef)
    (hresolves : ∀ k, (σ.resolve (.span k)).isSome → (σ'.resolve (.span k)).isSome) :
    KeepsSpans σ σ' ended where
  size := by rw [h]
  isEnded k _ _ := by
    unfold Tracer.isEnded
    rw [h]
  resolves := hresolves

theorem KeepsSpans.refl (σ : Tracer) (ended : Option SpanRef) : KeepsSpans σ σ ended :=
  keepsSpans_of_spans_eq rfl ended fun _ => id

theorem keepsSpans_of_alloc {σ σ' : Tracer} {s : ISpan} (h : σ'.spans = σ.spans.alloc s)
    (ended : Option SpanRef)
    (hresolves : ∀ k, (σ.resolve (.span k)).isSome → (σ'.resolve (.span k)).isSome) :
    KeepsSpans σ σ' ended where
  size := by
    rw [h, Store.size_alloc]
    exact Nat.le_succ _
  isEnded k hk _ := by
    unfold Tracer.isEnded
    simp only [h, Store.get?_alloc, if_neg (Nat.ne_of_lt hk)]
  resolves := hresolves

theorem keepsSpans_of_update {σ σ' : Tracer} {k : SpanRef} {f : ISpan → ISpan}
    (h : σ'.spans = σ.spans.update k f)
    (hresolves : ∀ k, (σ.resolve (.span k)).isSome → (σ'.resolve (.span k)).isSome) :
    KeepsSpans σ σ' (some k) where
  size := by rw [h, Store.size_update]
  isEnded j _ hne := by
    unfold Tracer.isEnded
    have hne : k ≠ j := fun hkj => hne (congrArg some hkj)
    simp only [h, Store.get?_update_ne _ hne]
  resolves := hresolves

theorem keepsSpans_step {σ σ' : Tracer} {op : Op} (hstep : σ.step op = some σ') :
    KeepsSpans σ σ' op.endedSpan := by
  have hresolves := resolve_step hstep
  cases step_transition hstep with
  | newSpan a hon hreal ht hhanded hparent => exact keepsSpans_of_alloc rfl _ hresolves
  | newNoopSpan hon hnoop hhanded hparent => exact keepsSpans_of_alloc rfl _ hresolves
  | endTransaction now ht =>
    exact keepsSpans_of_spans_eq (Transaction.endTransaction_spans _ _ _ _) _ hresolves
  | endSpan now hs ht => exact keepsSpans_of_update (Span.endSpan_spans _ _ _ _ _) hresolves
  | endNoopSpan now hs => exact keepsSpans_of_update rfl hresolves
  | _ =>
    refine keepsSpans_of_spans_eq ?_ _ hresolves
    rfl

theorem KeepsSpans.trans {σ₁ σ₂ σ₃ : Tracer} {ended : Option SpanRef}
    (h : KeepsSpans σ₁ σ₂ none) (h' : KeepsSpans σ₂ σ₃ ended) : KeepsSpans σ₁ σ₃ ended where
  size := Nat.le_trans h.size h'.size
  isEnded k hk hne :=
    (h'.isEnded k (Nat.lt_of_lt_of_le hk h.size) hne).trans (h.isEnded k hk nofun)
  resolves k hk := h'.resolves k (h.resolves k hk)

/-- A span that is started on the current segment is a new one, and open. -/
theorem startSpanOnCurrentExecutionSegment_new {σ σ' : Tracer} {a : SpanStart} {seg : Segment}
    (hcurrent : σ.getCurrentExecutionSegment = some seg)
    (hstep : σ.startSpanOnCurrentExecutionSegment a = some σ') :
    σ'.isEnded (.span σ.spans.size) = false ∧ (σ'.resolve (.span σ.spans.size)).isSome := by
  have hnew (s : ISpan) (hs : s.isEnded = false) (halloc : σ'.spans = σ.spans.alloc s)
      (htransaction : s.trace.ids.isSome →
        ∃ t, σ'.transactions.get? s.startedIn = some (.transaction t)) :
      σ'.isEnded (.span σ.spans.size) = false ∧ (σ'.resolve (.span σ.spans.size)).isSome := by
    have hget : σ'.spans.get? σ.spans.size = some s := by
      rw [halloc]
      exact Store.get?_alloc_size _ _
    refine ⟨?_, resolve_span_isSome_iff.mpr ⟨s, hget, htransaction⟩⟩
    unfold Tracer.isEnded
    simp only [hget, Option.map_some, Option.getD_some, hs]
  have hstep : σ.step (.startSpanOnCurrentExecutionSegment a) = some σ' := hstep
  cases step_transition hstep with
  | newSpan a hon hreal ht hhanded hparent =>
    exact hnew _ rfl rfl fun _ => isTransaction_step hstep ⟨_, ht⟩
  | newNoopSpan hon hnoop hhanded hparent => exact hnew _ rfl rfl nofun
  | startNothing a hnone =>
    rw [hcurrent] at hnone
    cases hnone
  | error hop => simp at hop
  | noError hop => simp at hop

end Tracer

namespace ListenerState

variable {Key Data : Type} {s s' : ListenerState Key Data}

/-! ### Calls that start no span -/

/-- The listener goes on with the table and the spans it has, all as open as before. -/
structure Quiet (s s' : ListenerState Key Data) : Prop where
  processing : s'.processing = s.processing
  started : s'.started = s.started
  size : s.tracer.spans.size ≤ s'.tracer.spans.size
  isEnded : ∀ k ∈ s.started, s'.isEnded k = s.isEnded k
  resolves : ∀ k, (s.tracer.resolve (.span k)).isSome → (s'.tracer.resolve (.span k)).isSome

theorem Quiet.refl (s : ListenerState Key Data) : Quiet s s where
  processing := rfl
  started := rfl
  size := Nat.le_refl _
  isEnded _ _ := rfl
  resolves _ h := h

theorem Quiet.inFlight_eq (h : Quiet s s') : s'.inFlight = s.inFlight := by
  unfold inFlight
  rw [h.processing, h.started]
  congr 1
  ext k
  constructor
  · rintro ⟨hk, hopen⟩
    exact ⟨hk, (h.isEnded k hk).symm.trans hopen⟩
  · rintro ⟨hk, hopen⟩
    exact ⟨hk, (h.isEnded k hk).trans hopen⟩

theorem Quiet.wellFormed (h : Quiet s s') (hs : s.WellFormed) : s'.WellFormed where
  started k hk := by
    rw [h.started] at hk
    exact Nat.lt_of_lt_of_le (hs.started k hk) h.size
  processing key item hitem := by
    rw [h.processing] at hitem
    exact h.resolves _ (hs.processing key item hitem)

/-- A call that ends none of the spans of the listener. -/
theorem quiet_of_keepsSpans (hs : s.WellFormed) {ended : Option SpanRef}
    (hprocessing : s'.processing = s.processing) (hstarted : s'.started = s.started)
    (hkeeps : Tracer.KeepsSpans s.tracer s'.tracer ended)
    (hended : ∀ k ∈ s.started, ended ≠ some k) : Quiet s s' where
  processing := hprocessing
  started := hstarted
  size := hkeeps.size
  isEnded k hk := hkeeps.isEnded k (hs.started k hk) (hended k hk)
  resolves := hkeeps.resolves

theorem call_eq_some {op : Op} (h : s.call op = some s') :
    s.tracer.step op = some s'.tracer ∧ s'.processing = s.processing ∧ s'.started = s.started := by
  unfold call Instrumented.call at h
  simp only [Option.map_map, Option.map_eq_some_iff, Function.comp_apply] at h
  obtain ⟨σ, hstep, rfl⟩ := h
  exact ⟨hstep, rfl, rfl⟩

/-- A span that exists can be ended, and an error captured on it. -/
theorem call_isSome {k : SpanRef} (h : (s.tracer.resolve (.span k)).isSome) {op : Op}
    (hop : (∃ now, op = .endSegment (.span k) now) ∨ op = .captureError (.span k) none) :
    (s.call op).isSome := by
  unfold call Instrumented.call
  rw [Option.isSome_map, Option.isSome_map]
  obtain ⟨now, rfl⟩ | rfl := hop
  · exact (Option.isSome_map ..).trans h
  · exact (Option.isSome_map ..).trans h

theorem keepsSpans_call {op : Op} (h : s.call op = some s') :
    Tracer.KeepsSpans s.tracer s'.tracer op.endedSpan :=
  Tracer.keepsSpans_step (call_eq_some h).1

theorem quiet_call (hs : s.WellFormed) {op : Op} (hop : op.endedSpan = none)
    (h : s.call op = some s') : Quiet s s' := by
  obtain ⟨_, hprocessing, hstarted⟩ := call_eq_some h
  refine quiet_of_keepsSpans hs hprocessing hstarted (keepsSpans_call h) fun k _ => ?_
  rw [hop]
  nofun

theorem quiet_elsewhere (hs : s.WellFormed) {e : Elsewhere} (h : s.elsewhere e = some s') :
    Quiet s s' := by
  cases e with
  | flow currentTransaction currentSpan =>
    cases h
    exact ⟨rfl, rfl, Nat.le_refl _, fun _ _ => rfl, fun _ h => h⟩
  | call op flag =>
    simp only [elsewhere, Option.ite_none_left_eq_some, Option.map_eq_some_iff] at h
    obtain ⟨hothers, σ, hstep, rfl⟩ := h
    refine quiet_of_keepsSpans hs rfl rfl (Tracer.keepsSpans_step hstep) fun k hk hended => ?_
    rw [hended] at hothers
    simp [hk] at hothers

/-! ### Starting a span -/

/-- The listener has started a span, which is not in the table. -/
structure Started (s s' : ListenerState Key Data) : Prop where
  processing : s'.processing = s.processing
  started : s'.started = s.started ++ [s.tracer.spans.size]
  isOpen : s'.isEnded s.tracer.spans.size = false
  isEnded : ∀ k ∈ s.started, s'.isEnded k = s.isEnded k
  new : (s'.tracer.resolve (.span s.tracer.spans.size)).isSome
  resolves : ∀ k, (s.tracer.resolve (.span k)).isSome → (s'.tracer.resolve (.span k)).isSome

theorem startSpan_cases (hs : s.WellFormed) {flag : InstrumentationFlag} {a : SpanStart}
    {span : Option SpanRef} (h : s.startSpan flag a = some (s', span)) :
    (s.tracer.getCurrentExecutionSegment = none ∧ span = none ∧ s' = s) ∨
      (s.tracer.getCurrentExecutionSegment ≠ none ∧ span = some s.tracer.spans.size ∧
        Started s s') := by
  unfold startSpan Instrumented.startSpanOnCurrentExecutionSegment at h
  simp only [Option.map_map, Option.map_eq_some_iff, Function.comp_apply] at h
  obtain ⟨σ, hstep, h⟩ := h
  rcases hcurrent : s.agent.tracer.getCurrentExecutionSegment with _ | seg
  · simp only [hcurrent] at h
    cases h
    refine .inl ⟨hcurrent, rfl, ?_⟩
    rw [Option.toList_none, List.append_nil]
  · simp only [hcurrent] at h
    cases h
    obtain ⟨hopen, hnew⟩ := Tracer.startSpanOnCurrentExecutionSegment_new hcurrent hstep
    have hstep : s.tracer.step (.startSpanOnCurrentExecutionSegment a) = some σ := hstep
    have hkeeps : Tracer.KeepsSpans s.tracer σ none := Tracer.keepsSpans_step hstep
    have hne : s.tracer.getCurrentExecutionSegment ≠ none := by
      intro hnone
      cases hcurrent.symm.trans hnone
    exact .inr ⟨hne, rfl, rfl, rfl, hopen,
      fun k hk => hkeeps.isEnded k (hs.started k hk) nofun, hnew, hkeeps.resolves⟩

theorem Started.size (h : Started s s') : s.tracer.spans.size < s'.tracer.spans.size :=
  Tracer.lt_size_of_resolve h.new

theorem Started.wellFormed (h : Started s s') (hs : s.WellFormed) : s'.WellFormed where
  started k hk := by
    rw [h.started, List.mem_append, List.mem_singleton] at hk
    obtain hk | rfl := hk
    · exact Nat.lt_trans (hs.started k hk) h.size
    · exact h.size
  processing key item hitem := by
    rw [h.processing] at hitem
    exact h.resolves _ (hs.processing key item hitem)

/-- The next span is neither open nor in the table. -/
theorem fresh_size (hs : s.WellFormed) : s.inFlight.Fresh s.tracer.spans.size := by
  constructor
  · rintro ⟨hmem, _⟩
    exact Nat.lt_irrefl _ (hs.started _ hmem)
  · intro key hkey
    obtain ⟨item, hitem, hspan⟩ := Option.map_eq_some_iff.mp hkey
    have hlt := Tracer.lt_size_of_resolve (hs.processing key item hitem)
    rw [hspan] at hlt
    exact Nat.lt_irrefl _ hlt

theorem Started.inFlight_eq (h : Started s s') :
    s'.inFlight = ⟨s.inFlight.table, insert s.tracer.spans.size s.inFlight.opened⟩ := by
  unfold inFlight
  rw [h.processing, h.started]
  congr 1
  ext k
  simp only [Set.mem_ofPred_eq, List.mem_append, List.mem_singleton, Set.mem_insert_iff]
  constructor
  · rintro ⟨hk | rfl, hopen⟩
    · exact .inr ⟨hk, (h.isEnded k hk).symm.trans hopen⟩
    · exact .inl rfl
  · rintro (rfl | ⟨hk, hopen⟩)
    · exact ⟨.inr rfl, h.isOpen⟩
    · exact ⟨.inl hk, (h.isEnded k hk).trans hopen⟩

section

variable [DecidableEq Key]

/-- A span that is started and not added is lost. -/
theorem Started.lose (h : Started s s') (hs : s.WellFormed) :
    InFlight.Step s.inFlight (.lose s.tracer.spans.size) s'.inFlight := by
  rw [h.inFlight_eq]
  exact .lose (fresh_size hs)

theorem tryAdd_eq_none_iff {key : Key} {span : SpanRef} {data : Data} :
    s.tryAdd key span data = none ↔ s.processing key ≠ none := by
  unfold tryAdd
  cases s.processing key <;> simp

theorem tryAdd_eq_some {key : Key} {span : SpanRef} {data : Data}
    (h : s.tryAdd key span data = some s') :
    s.processing key = none ∧
      s' = { s with processing := Function.update s.processing key (some (span, data)) } := by
  unfold tryAdd at h
  rcases hkey : s.processing key with _ | item
  · rw [hkey] at h
    cases h
    exact ⟨rfl, rfl⟩
  · rw [hkey] at h
    cases h

theorem inFlight_update (s : ListenerState Key Data) (key : Key)
    (item : Option (SpanRef × Data)) :
    ({ s with processing := Function.update s.processing key item } :
        ListenerState Key Data).inFlight =
      ⟨Function.update s.inFlight.table key (item.map (·.1)), s.inFlight.opened⟩ := by
  unfold inFlight
  congr 1
  funext key'
  by_cases hkey : key' = key
  · subst hkey
    simp
  · simp [Function.update_of_ne hkey]

/-- A span that is started and added is in flight. -/
theorem Started.put {s'' : ListenerState Key Data} (h : Started s s') (hs : s.WellFormed)
    {key : Key} {data : Data} (hadd : s'.tryAdd key s.tracer.spans.size data = some s'') :
    InFlight.Step s.inFlight (.put key s.tracer.spans.size) s''.inFlight ∧ s''.WellFormed := by
  obtain ⟨hfree, rfl⟩ := tryAdd_eq_some hadd
  have hwf := h.wellFormed hs
  constructor
  · rw [inFlight_update, h.inFlight_eq]
    refine .put (fresh_size hs) ?_
    rw [h.processing] at hfree
    show (s.processing key).map (·.1) = none
    rw [hfree]
    rfl
  · refine ⟨hwf.started, fun key' item hitem => ?_⟩
    by_cases hkey : key' = key
    · subst hkey
      have : item = (s.tracer.spans.size, data) := by simpa using hitem.symm
      rw [this]
      exact h.new
    · exact hwf.processing key' item ((Function.update_of_ne hkey _ _).symm.trans hitem)

/-! ### Ending a span -/

/-- A span in the table exists when it is removed. -/
theorem resolve_of_tryRemove (hs : s.WellFormed) {s₁ : ListenerState Key Data} {key : Key}
    {k : SpanRef} {data : Data} (hremove : s.tryRemove key = some (s₁, k, data)) :
    (s₁.tracer.resolve (.span k)).isSome := by
  obtain ⟨item, hitem, h⟩ := Option.map_eq_some_iff.mp hremove
  cases h
  exact hs.processing key _ hitem

/-- The span is ended and removed from the table, and no other span is ended. -/
structure Ends (s s' : ListenerState Key Data) (key : Key) (k : SpanRef) : Prop where
  processing : s'.processing = Function.update s.processing key none
  started : s'.started = s.started
  keeps : Tracer.KeepsSpans s.tracer s'.tracer (some k)
  isEnded : s'.isEnded k = true

/-- The span is removed and ended, with calls in between that end nothing. -/
theorem ends_of_call {s₁ s₂ : ListenerState Key Data} {key : Key} {k : SpanRef} {data : Data}
    {now : Int} (hremove : s.tryRemove key = some (s₁, k, data))
    (hprocessing : s₂.processing = s₁.processing) (hstarted : s₂.started = s₁.started)
    (hkeeps : Tracer.KeepsSpans s₁.tracer s₂.tracer none)
    (hend : s₂.call (.endSegment (.span k) now) = some s') : Ends s s' key k := by
  obtain ⟨item, hitem, h⟩ := Option.map_eq_some_iff.mp hremove
  cases h
  obtain ⟨hstep, hprocessing', hstarted'⟩ := call_eq_some hend
  exact ⟨hprocessing'.trans hprocessing, hstarted'.trans hstarted,
    hkeeps.trans (keepsSpans_call hend), Tracer.isEnded_endSegment hstep⟩

theorem Ends.wellFormed {key : Key} {k : SpanRef} (h : Ends s s' key k) (hs : s.WellFormed) :
    s'.WellFormed where
  started j hj := by
    rw [h.started] at hj
    exact Nat.lt_of_lt_of_le (hs.started j hj) h.keeps.size
  processing key' item hitem := by
    rw [h.processing] at hitem
    by_cases hkey : key' = key
    · subst hkey
      simp at hitem
    · rw [Function.update_of_ne hkey] at hitem
      exact h.keeps.resolves _ (hs.processing key' item hitem)

theorem Ends.remove {key : Key} {k : SpanRef} (h : Ends s s' key k) (hs : s.WellFormed)
    (hkey : s.inFlight.table key = some k) :
    InFlight.Step s.inFlight (.remove key k) s'.inFlight := by
  have heq : s'.inFlight =
      ⟨Function.update s.inFlight.table key none, s.inFlight.opened \ {k}⟩ := by
    refine InFlight.ext ?_ ?_
    · have hupdate := congrArg InFlight.table (inFlight_update s key none)
      refine Eq.trans ?_ hupdate
      unfold inFlight
      rw [h.processing]
    · ext j
      simp only [inFlight, Set.mem_ofPred_eq, h.started, Set.mem_sdiff, Set.mem_singleton_iff]
      constructor
      · rintro ⟨hj, hopen⟩
        have hne : j ≠ k := by
          rintro rfl
          rw [h.isEnded] at hopen
          cases hopen
        have hsame := h.keeps.isEnded j (hs.started j hj) fun hkj => hne (Option.some.inj hkj).symm
        exact ⟨⟨hj, hsame.symm.trans hopen⟩, hne⟩
      · rintro ⟨⟨hj, hopen⟩, hne⟩
        have hsame := h.keeps.isEnded j (hs.started j hj) fun hkj => hne (Option.some.inj hkj).symm
        exact ⟨hj, hsame.trans hopen⟩
  rw [heq]
  exact .remove hkey

end

theorem IsNew.wellFormed (h : s.IsNew) : s.WellFormed where
  started k hk := by
    rw [h.started] at hk
    cases hk
  processing key item hitem := by
    rw [h.processing] at hitem
    cases hitem

theorem IsNew.tracks (h : s.IsNew) : s.Tracks where
  values k := by
    simp [inFlight, h.started, h.processing]
  unique key key' k hkey _ := by
    simp [inFlight, h.processing] at hkey

end ListenerState

end ApmAgent
