import ApmAgent.Model.CurrentSegment
import ApmAgent.Model.EndOnce
import Mathlib.Logic.Function.Basic

/-! # Flows of execution

  A process works on any number of requests at once, each in any number of
  flows: threads, and asynchronous methods that carry their execution context
  from thread to thread. The tracer asks an `ICurrentExecutionSegmentsContainer`
  for the current segments of the flow it is called in:

  * `CurrentExecutionSegmentsContainer` keeps them in two `AsyncLocal` values,
    which a new flow inherits and which it changes for itself only;
  * `HttpContextCurrentExecutionSegmentsContainer` keeps them in
    `HttpContext.Items` as well, and falls back to these on a thread that was
    handed to the request without an execution context.

  `store_load` says that a call does in its flow what it does to a tracer with
  two plain slots, and `requests_isolated` that no flow comes to work on the
  segments of another request.
-/

namespace ApmAgent

/-- Names an execution context. -/
abbrev Flow := Nat

/-- Names a request, with its `HttpContext` where it has one. -/
abbrev RequestId := Nat

/-! ### Where the current segments are kept -/

structure CurrentSegments where
  currentSpan : Option SpanRef
  currentTransaction : Option TransactionRef
  deriving DecidableEq, Repr

namespace CurrentSegments

def new : CurrentSegments := ⟨none, none⟩

def Has (value : CurrentSegments) : Segment → Prop
  | .span k => value.currentSpan = some k
  | .transaction r => value.currentTransaction = some r

/-- What is there after the current span is set was there, or is the span. -/
theorem has_setCurrentSpan {value value' : CurrentSegments} {span : Option SpanRef}
    {seg : Segment} (h : ({ value with currentSpan := span } : CurrentSegments).Has seg) :
    value.Has seg ∨ ({ value' with currentSpan := span } : CurrentSegments).Has seg := by
  cases seg with
  | span k => exact .inr h
  | transaction r => exact .inl h

theorem has_setCurrentTransaction {value value' : CurrentSegments}
    {transaction : Option TransactionRef} {seg : Segment}
    (h : ({ value with currentTransaction := transaction } : CurrentSegments).Has seg) :
    value.Has seg ∨
      ({ value' with currentTransaction := transaction } : CurrentSegments).Has seg := by
  cases seg with
  | span k => exact .inl h
  | transaction r => exact .inr h

end CurrentSegments

structure SegmentStorage where
  /-- `_currentSpan.Value` and `_currentTransaction.Value`, in each flow. -/
  asyncLocal : Flow → CurrentSegments
  /-- `HttpContext.Items`, of each request, under the two keys. -/
  items : RequestId → CurrentSegments
  /-- The request a flow works on. -/
  request : Flow → RequestId
  /-- `HttpContext.Current` is not null; then it is that of the request. -/
  hasHttpContext : Flow → Bool

namespace SegmentStorage

/-- `HttpContext.Current`. -/
def httpContext? (s : SegmentStorage) (f : Flow) : Option RequestId :=
  if s.hasHttpContext f then some (s.request f) else none

def setAsyncLocal (s : SegmentStorage) (f : Flow) (value : CurrentSegments) : SegmentStorage :=
  { s with asyncLocal := Function.update s.asyncLocal f value }

def setItems (s : SegmentStorage) (q : RequestId) (value : CurrentSegments) : SegmentStorage :=
  { s with items := Function.update s.items q value }

end SegmentStorage

structure ICurrentExecutionSegmentsContainer where
  currentSpan : SegmentStorage → Flow → Option SpanRef
  currentTransaction : SegmentStorage → Flow → Option TransactionRef
  setCurrentSpan : SegmentStorage → Flow → Option SpanRef → SegmentStorage
  setCurrentTransaction : SegmentStorage → Flow → Option TransactionRef → SegmentStorage

open SegmentStorage

def CurrentExecutionSegmentsContainer : ICurrentExecutionSegmentsContainer where
  currentSpan s f := (s.asyncLocal f).currentSpan
  currentTransaction s f := (s.asyncLocal f).currentTransaction
  setCurrentSpan s f value := s.setAsyncLocal f { s.asyncLocal f with currentSpan := value }
  setCurrentTransaction s f value :=
    s.setAsyncLocal f { s.asyncLocal f with currentTransaction := value }

def HttpContextCurrentExecutionSegmentsContainer : ICurrentExecutionSegmentsContainer where
  currentSpan s f :=
    (s.asyncLocal f).currentSpan.orElse fun _ =>
      (s.httpContext? f).bind fun q => (s.items q).currentSpan
  currentTransaction s f :=
    (s.asyncLocal f).currentTransaction.orElse fun _ =>
      (s.httpContext? f).bind fun q => (s.items q).currentTransaction
  setCurrentSpan s f value :=
    let s := s.setAsyncLocal f { s.asyncLocal f with currentSpan := value }
    match s.httpContext? f with
    | some q => s.setItems q { s.items q with currentSpan := value }
    | none => s
  setCurrentTransaction s f value :=
    let s := s.setAsyncLocal f { s.asyncLocal f with currentTransaction := value }
    match s.httpContext? f with
    | some q => s.setItems q { s.items q with currentTransaction := value }
    | none => s

/-! ### What a container may do -/

namespace SegmentStorage

/-- The segment is kept for the request, in a flow of it or in its `HttpContext`. -/
def Keeps (s : SegmentStorage) (q : RequestId) (seg : Segment) : Prop :=
  (∃ f, s.request f = q ∧ (s.asyncLocal f).Has seg) ∨ (s.items q).Has seg

/-- The flows of a request see the same, and keep working on it. -/
structure AgreesOn (s s' : SegmentStorage) (q : RequestId) : Prop where
  request : ∀ f, s.request f = q → s'.request f = q
  hasHttpContext : ∀ f, s.request f = q → s'.hasHttpContext f = s.hasHttpContext f
  asyncLocal : ∀ f, s.request f = q → s'.asyncLocal f = s.asyncLocal f
  items : s'.items q = s.items q

theorem AgreesOn.refl (s : SegmentStorage) (q : RequestId) : s.AgreesOn s q :=
  ⟨fun _ h => h, fun _ _ => rfl, fun _ _ => rfl, rfl⟩

theorem AgreesOn.trans {s s' s'' : SegmentStorage} {q : RequestId} (h : s.AgreesOn s' q)
    (h' : s'.AgreesOn s'' q) : s.AgreesOn s'' q where
  request f hf := h'.request f (h.request f hf)
  hasHttpContext f hf :=
    (h'.hasHttpContext f (h.request f hf)).trans (h.hasHttpContext f hf)
  asyncLocal f hf := (h'.asyncLocal f (h.request f hf)).trans (h.asyncLocal f hf)
  items := h'.items.trans h.items

theorem agreesOn_setAsyncLocal (s : SegmentStorage) {f : Flow} {q : RequestId}
    (value : CurrentSegments) (h : s.request f ≠ q) : s.AgreesOn (s.setAsyncLocal f value) q where
  request _ hg := hg
  hasHttpContext _ _ := rfl
  asyncLocal g hg := by
    have hne : g ≠ f := by
      rintro rfl
      exact h hg
    simp [setAsyncLocal, hne]
  items := rfl

theorem agreesOn_setItems (s : SegmentStorage) {q q' : RequestId} (value : CurrentSegments)
    (h : q' ≠ q) : s.AgreesOn (s.setItems q' value) q where
  request _ hg := hg
  hasHttpContext _ _ := rfl
  asyncLocal _ _ := rfl
  items := by simp [setItems, h.symm]

@[simp] theorem asyncLocal_setAsyncLocal (s : SegmentStorage) (f : Flow)
    (value : CurrentSegments) : (s.setAsyncLocal f value).asyncLocal f = value := by
  simp [setAsyncLocal]

@[simp] theorem items_setItems (s : SegmentStorage) (q : RequestId) (value : CurrentSegments) :
    (s.setItems q value).items q = value := by
  simp [setItems]

@[simp] theorem asyncLocal_setItems (s : SegmentStorage) (q : RequestId) (value : CurrentSegments) :
    (s.setItems q value).asyncLocal = s.asyncLocal := rfl

@[simp] theorem items_setAsyncLocal (s : SegmentStorage) (f : Flow) (value : CurrentSegments) :
    (s.setAsyncLocal f value).items = s.items := rfl

@[simp] theorem httpContext?_setAsyncLocal (s : SegmentStorage) (f g : Flow)
    (value : CurrentSegments) : (s.setAsyncLocal f value).httpContext? g = s.httpContext? g := rfl

@[simp] theorem httpContext?_setItems (s : SegmentStorage) (q : RequestId) (g : Flow)
    (value : CurrentSegments) : (s.setItems q value).httpContext? g = s.httpContext? g := rfl

theorem httpContext?_eq_some {s : SegmentStorage} {f : Flow} {q : RequestId} :
    s.httpContext? f = some q ↔ s.hasHttpContext f = true ∧ s.request f = q := by
  simp [httpContext?]

theorem keeps_setAsyncLocal {s : SegmentStorage} {f : Flow} {value : CurrentSegments}
    {q : RequestId} {seg : Segment} (h : (s.setAsyncLocal f value).Keeps q seg) :
    s.Keeps q seg ∨ (s.request f = q ∧ value.Has seg) := by
  obtain ⟨g, hg, hseg⟩ | hseg := h
  · by_cases hgf : g = f
    · subst hgf
      exact .inr ⟨hg, by simpa using hseg⟩
    · exact .inl (.inl ⟨g, hg, by simpa [setAsyncLocal, hgf] using hseg⟩)
  · exact .inl (.inr hseg)

theorem keeps_setItems {s : SegmentStorage} {q' : RequestId} {value : CurrentSegments}
    {q : RequestId} {seg : Segment} (h : (s.setItems q' value).Keeps q seg) :
    s.Keeps q seg ∨ (q' = q ∧ value.Has seg) := by
  obtain hseg | hseg := h
  · exact .inl (.inl hseg)
  · by_cases hq : q = q'
    · subst hq
      exact .inr ⟨rfl, by simpa using hseg⟩
    · exact .inl (.inr (by simpa [setItems, hq] using hseg))

end SegmentStorage

namespace ICurrentExecutionSegmentsContainer

variable (c : ICurrentExecutionSegmentsContainer)

def current (s : SegmentStorage) (f : Flow) : CurrentSegments :=
  ⟨c.currentSpan s f, c.currentTransaction s f⟩

/-- A property of the container was set in a flow. -/
structure Sets (s s' : SegmentStorage) (f : Flow) (value : CurrentSegments) : Prop where
  current : c.current s' f = value
  agrees : ∀ q, s.request f ≠ q → s.AgreesOn s' q
  keeps : ∀ q seg, s'.Keeps q seg → s.Keeps q seg ∨ (s.request f = q ∧ value.Has seg)
  request : ∀ g, s'.request g = s.request g

variable {c}

theorem Sets.refl (c : ICurrentExecutionSegmentsContainer) (s : SegmentStorage) (f : Flow) :
    c.Sets s s f (c.current s f) where
  current := rfl
  agrees q _ := .refl s q
  keeps _ _ h := .inl h
  request _ := rfl

theorem Sets.trans {s s' s'' : SegmentStorage} {f : Flow} {value value' : CurrentSegments}
    (h : c.Sets s s' f value) (h' : c.Sets s' s'' f value')
    (hvalue : ∀ seg, value.Has seg → s.Keeps (s.request f) seg ∨ value'.Has seg) :
    c.Sets s s'' f value' where
  current := h'.current
  agrees q hq := (h.agrees q hq).trans (h'.agrees q (by rwa [h.request]))
  keeps q seg hseg := by
    obtain hkept | ⟨hq, hhas⟩ := h'.keeps q seg hseg
    · obtain hold | ⟨rfl, hhas⟩ := h.keeps q seg hkept
      · exact .inl hold
      · exact (hvalue seg hhas).imp id fun hv => ⟨rfl, hv⟩
    · exact .inr ⟨by rwa [h.request] at hq, hhas⟩
  request g := (h'.request g).trans (h.request g)

variable (c)

/-- What the tracer relies on. -/
structure Lawful : Prop where
  current_keeps : ∀ s f seg, (c.current s f).Has seg → s.Keeps (s.request f) seg
  current_congr : ∀ s s' f, s.AgreesOn s' (s.request f) → c.current s' f = c.current s f
  setCurrentSpan : ∀ s f value, c.Sets s (c.setCurrentSpan s f value) f
    { c.current s f with currentSpan := value }
  setCurrentTransaction : ∀ s f value, c.Sets s (c.setCurrentTransaction s f value) f
    { c.current s f with currentTransaction := value }

end ICurrentExecutionSegmentsContainer

open ICurrentExecutionSegmentsContainer CurrentSegments

theorem lawful_currentExecutionSegmentsContainer :
    CurrentExecutionSegmentsContainer.Lawful where
  current_keeps s f seg h := .inl ⟨f, rfl, h⟩
  current_congr s s' f h := h.asyncLocal f rfl
  setCurrentSpan s f value :=
    { current := by simp [current, CurrentExecutionSegmentsContainer]
      agrees := fun q hq => agreesOn_setAsyncLocal s _ hq
      keeps := fun q seg h => keeps_setAsyncLocal h
      request := fun _ => rfl }
  setCurrentTransaction s f value :=
    { current := by simp [current, CurrentExecutionSegmentsContainer]
      agrees := fun q hq => agreesOn_setAsyncLocal s _ hq
      keeps := fun q seg h => keeps_setAsyncLocal h
      request := fun _ => rfl }

/-- Both places are written when there is a context, and the one that is read first when there
    is none. -/
theorem sets_httpContext {c : ICurrentExecutionSegmentsContainer} {s s' : SegmentStorage}
    {f : Flow} {value : CurrentSegments} (own : CurrentSegments)
    (item : RequestId → CurrentSegments)
    (hs' : s' = match s.httpContext? f with
      | some q => (s.setAsyncLocal f own).setItems q (item q)
      | none => s.setAsyncLocal f own)
    (hcurrent : c.current s' f = value)
    (hlocal : ∀ seg, own.Has seg → (s.asyncLocal f).Has seg ∨ value.Has seg)
    (hitem : ∀ q seg, (item q).Has seg → (s.items q).Has seg ∨ value.Has seg) :
    c.Sets s s' f value := by
  have hset (q : RequestId) (seg : Segment) (h : (s.setAsyncLocal f own).Keeps q seg) :
      s.Keeps q seg ∨ (s.request f = q ∧ value.Has seg) := by
    obtain hold | ⟨hq, hnew⟩ := keeps_setAsyncLocal h
    · exact .inl hold
    · obtain hmine | hvalue := hlocal seg hnew
      · exact .inl (.inl ⟨f, hq, hmine⟩)
      · exact .inr ⟨hq, hvalue⟩
  cases hctx : s.httpContext? f with
  | none =>
    rw [hctx] at hs'
    subst hs'
    exact ⟨hcurrent, fun q hq => agreesOn_setAsyncLocal s _ hq, hset, fun _ => rfl⟩
  | some q' =>
    rw [hctx] at hs'
    subst hs'
    obtain ⟨-, hq'⟩ := httpContext?_eq_some.mp hctx
    refine ⟨hcurrent, fun q hq => ?_, fun q seg h => ?_, fun _ => rfl⟩
    · exact (agreesOn_setAsyncLocal s _ hq).trans
        (agreesOn_setItems _ _ (by simpa [hq'] using hq))
    · obtain hold | ⟨hq, hnew⟩ := keeps_setItems h
      · exact hset q seg hold
      · obtain hmine | hvalue := hitem q' seg hnew
        · exact .inl (.inr (hq ▸ hmine))
        · exact .inr ⟨hq'.trans hq, hvalue⟩

/-- A value comes from the execution context, or from the `HttpContext` where there is none. -/
theorem current_httpContext (s : SegmentStorage) (f : Flow) (seg : Segment)
    (h : (HttpContextCurrentExecutionSegmentsContainer.current s f).Has seg) :
    (s.asyncLocal f).Has seg ∨ ∃ q, s.httpContext? f = some q ∧ (s.items q).Has seg := by
  cases seg with
  | span k =>
    change (s.asyncLocal f).currentSpan.orElse _ = some k at h
    cases hk : (s.asyncLocal f).currentSpan with
    | some j => exact .inl (by simpa [Has, hk] using h)
    | none => exact .inr (by simpa [Has, hk, Option.bind_eq_some_iff] using h)
  | transaction r =>
    change (s.asyncLocal f).currentTransaction.orElse _ = some r at h
    cases hr : (s.asyncLocal f).currentTransaction with
    | some j => exact .inl (by simpa [Has, hr] using h)
    | none => exact .inr (by simpa [Has, hr, Option.bind_eq_some_iff] using h)

theorem lawful_httpContextCurrentExecutionSegmentsContainer :
    HttpContextCurrentExecutionSegmentsContainer.Lawful where
  current_keeps s f seg h := by
    obtain hlocal | ⟨q, hq, hitem⟩ := current_httpContext s f seg h
    · exact .inl ⟨f, rfl, hlocal⟩
    · obtain ⟨-, rfl⟩ := httpContext?_eq_some.mp hq
      exact .inr hitem
  current_congr s s' f h := by
    have hctx : s'.httpContext? f = s.httpContext? f := by
      simp [httpContext?, h.request f rfl, h.hasHttpContext f rfl]
    have hitems (q : RequestId) (hq : s.httpContext? f = some q) : s'.items q = s.items q := by
      rw [← (httpContext?_eq_some.mp hq).2, h.items]
    simp only [current, HttpContextCurrentExecutionSegmentsContainer, h.asyncLocal f rfl, hctx]
    cases hq : s.httpContext? f with
    | none => rfl
    | some q => simp [hitems q hq]
  setCurrentSpan s f value := by
    refine sets_httpContext { s.asyncLocal f with currentSpan := value }
      (fun q => { s.items q with currentSpan := value }) rfl ?_
      (fun _ => has_setCurrentSpan) (fun _ _ => has_setCurrentSpan)
    simp only [current, HttpContextCurrentExecutionSegmentsContainer, httpContext?_setAsyncLocal]
    cases hq : s.httpContext? f with
    | none => simp [hq]
    | some q => cases value <;> simp [hq]
  setCurrentTransaction s f value := by
    refine sets_httpContext { s.asyncLocal f with currentTransaction := value }
      (fun q => { s.items q with currentTransaction := value }) rfl ?_
      (fun _ => has_setCurrentTransaction) (fun _ _ => has_setCurrentTransaction)
    simp only [current, HttpContextCurrentExecutionSegmentsContainer, httpContext?_setAsyncLocal]
    cases hq : s.httpContext? f with
    | none => simp [hq]
    | some q => cases value <;> simp [hq]

/-! ### Calls in a flow -/

/-- The call sets `CurrentSpan`. -/
def Op.writesCurrentSpan (σ : Tracer) (op : Op) : Bool :=
  match op with
  | .endSegment receiver _ =>
    match σ.resolve receiver with
    | some (.span _ s _) => !s.isEnded
    | some (.noopSpan _ _) => true
    | _ => false
  | _ => (op.startsSpanOn σ).isSome

/-- The call sets `CurrentTransaction`. -/
def Op.writesCurrentTransaction (σ : Tracer) : Op → Bool
  | .startTransaction _ => true
  | .endSegment receiver _ =>
    match σ.resolve receiver with
    | some (.transaction _ t) => !t.isEnded
    | some (.noopTransaction _) => true
    | _ => false
  | _ => false

/-- There is such a segment. -/
def Tracer.hasSegment (σ : Tracer) : Segment → Bool
  | .transaction r => r < σ.transactions.size
  | .span k => k < σ.spans.size

/-- The objects, and where the flows find their current ones. -/
structure Flows where
  /-- The two slots are those of the last call, as its flow saw them. -/
  objects : Tracer
  storage : SegmentStorage
  /-- Ghost: the request in which a segment was started. -/
  startedBy : Segment → Option RequestId

namespace Flows

/-- The tracer as a flow sees it. -/
def load (c : ICurrentExecutionSegmentsContainer) (s : Flows) (f : Flow) : Tracer :=
  { s.objects with
    currentSpan := c.currentSpan s.storage f
    currentTransaction := c.currentTransaction s.storage f }

/-- The properties of the container the call set are set in its flow. -/
def store (c : ICurrentExecutionSegmentsContainer) (s : Flows) (f : Flow) (op : Op)
    (σ' : Tracer) : SegmentStorage :=
  let σ := s.load c f
  let storage :=
    if op.writesCurrentTransaction σ then
      c.setCurrentTransaction s.storage f σ'.currentTransaction
    else s.storage
  if op.writesCurrentSpan σ then c.setCurrentSpan storage f σ'.currentSpan else storage

/-- The request of the flow starts the segments that are new in `σ'`. -/
def starts (s : Flows) (f : Flow) (σ' : Tracer) (seg : Segment) : Option RequestId :=
  if !s.objects.hasSegment seg && σ'.hasSegment seg then some (s.storage.request f)
  else s.startedBy seg

def call (c : ICurrentExecutionSegmentsContainer) (s : Flows) (f : Flow) (op : Op) :
    Option Flows :=
  ((s.load c f).step op).map fun σ' =>
    { objects := σ', storage := s.store c f op σ', startedBy := s.starts f σ' }

end Flows

/-- A thread is handed to a request, with no execution context of it. -/
def SegmentStorage.begins (s : SegmentStorage) (f : Flow) (q : RequestId) (hasHttpContext : Bool) :
    SegmentStorage :=
  { s with
    asyncLocal := Function.update s.asyncLocal f .new
    request := Function.update s.request f q
    hasHttpContext := Function.update s.hasHttpContext f hasHttpContext }

/-- `g` goes on with the execution context of `f`. -/
def SegmentStorage.forks (s : SegmentStorage) (f g : Flow) (hasHttpContext : Bool) :
    SegmentStorage :=
  { s with
    asyncLocal := Function.update s.asyncLocal g (s.asyncLocal f)
    request := Function.update s.request g (s.request f)
    hasHttpContext := Function.update s.hasHttpContext g hasHttpContext }

namespace SegmentStorage

variable {s : SegmentStorage} {f g : Flow} {q q' : RequestId} {hasHttpContext : Bool}
  {seg : Segment}

theorem Keeps.of_begins (h : (s.begins f q hasHttpContext).Keeps q' seg) : s.Keeps q' seg := by
  obtain ⟨g, hg, hseg⟩ | hseg := h
  · by_cases hgf : g = f
    · subst hgf
      cases seg <;> simp [begins, Has, CurrentSegments.new] at hseg
    · simp only [begins, Function.update_of_ne hgf] at hg hseg
      exact .inl ⟨g, hg, hseg⟩
  · exact .inr hseg

theorem Keeps.of_forks (h : (s.forks f g hasHttpContext).Keeps q' seg) : s.Keeps q' seg := by
  obtain ⟨i, hi, hseg⟩ | hseg := h
  · by_cases hig : i = g
    · subst hig
      simp only [forks, Function.update_self] at hi hseg
      exact .inl ⟨f, hi, hseg⟩
    · simp only [forks, Function.update_of_ne hig] at hi hseg
      exact .inl ⟨i, hi, hseg⟩
  · exact .inr hseg

theorem agreesOn_begins (h : s.request f ≠ q') :
    s.AgreesOn (s.begins f q hasHttpContext) q' := by
  have hne (g : Flow) (hg : s.request g = q') : g ≠ f := by
    rintro rfl
    exact h hg
  constructor
  case request => exact fun g hg => by simpa [begins, hne g hg] using hg
  case hasHttpContext => exact fun g hg => by simp [begins, hne g hg]
  case asyncLocal => exact fun g hg => by simp [begins, hne g hg]
  case items => rfl

theorem agreesOn_forks (h : s.request g ≠ q') :
    s.AgreesOn (s.forks f g hasHttpContext) q' := by
  have hne (i : Flow) (hi : s.request i = q') : i ≠ g := by
    rintro rfl
    exact h hi
  constructor
  case request => exact fun i hi => by simpa [forks, hne i hi] using hi
  case hasHttpContext => exact fun i hi => by simp [forks, hne i hi]
  case asyncLocal => exact fun i hi => by simp [forks, hne i hi]
  case items => rfl

end SegmentStorage

inductive FlowLabel where
  | begins (f : Flow) (q : RequestId) (hasHttpContext : Bool)
  | forks (f g : Flow) (hasHttpContext : Bool)
  | calls (f : Flow) (op : Op)

/-- The flow a label is about. -/
def FlowLabel.flow : FlowLabel → Flow
  | .begins f _ _ => f
  | .forks _ g _ => g
  | .calls f _ => f

namespace Flows

def new : Flows where
  objects := .new
  storage :=
    { asyncLocal := fun _ => .new
      items := fun _ => .new
      request := fun _ => 0
      hasHttpContext := fun _ => false }
  startedBy := fun _ => none

def step (c : ICurrentExecutionSegmentsContainer) (s : Flows) : FlowLabel → Option Flows
  | .begins f q hasHttpContext =>
    some { s with storage := s.storage.begins f q hasHttpContext }
  | .forks f g hasHttpContext =>
    some { s with storage := s.storage.forks f g hasHttpContext }
  | .calls f op => s.call c f op

end Flows

/-- The flows of a process with one tracer. -/
def flowSystem (c : ICurrentExecutionSegmentsContainer) : LTS.System Flows FlowLabel where
  init s := s = .new
  step := Flows.step c

/-! ### What a call writes -/

namespace Tracer

variable {σ σ' : Tracer} {op : Op}

theorem step_currentTransaction (h : σ.step op = some σ')
    (hwrites : op.writesCurrentTransaction σ = false) :
    σ'.currentTransaction = σ.currentTransaction := by
  cases step_transition h with
  | newTransaction a => simp [Op.writesCurrentTransaction] at hwrites
  | newNoopTransaction a => simp [Op.writesCurrentTransaction] at hwrites
  | newSpan a hon hreal ht hhanded hparent => rfl
  | newNoopSpan hon hnoop hhanded hparent => rfl
  | startNothing a hnone => rfl
  | error hop hseg ht hid => rfl
  | noError hop hseg hnone => rfl
  | @endTransaction r t now ht =>
    have hended : t.isEnded = true := by
      simpa [Op.writesCurrentTransaction, resolve, ht] using hwrites
    simp [hended]
  | endNoopTransaction now hn => simp [Op.writesCurrentTransaction, resolve, hn] at hwrites
  | endSpan now hs ht => simp
  | endNoopSpan now hs => rfl

theorem writesCurrentSpan_of_startsSpanOn {seg : IExecutionSegment}
    (h : op.startsSpanOn σ = some seg) : op.writesCurrentSpan σ = true := by
  cases op with
  | endSegment receiver now => cases h
  | _ => simp [Op.writesCurrentSpan, h]

theorem step_currentSpan (h : σ.step op = some σ') (hwrites : op.writesCurrentSpan σ = false) :
    σ'.currentSpan = σ.currentSpan := by
  cases step_transition h with
  | newTransaction a => rfl
  | newNoopTransaction a => rfl
  | newSpan a hon hreal ht hhanded hparent =>
    simp [writesCurrentSpan_of_startsSpanOn hon] at hwrites
  | newNoopSpan hon hnoop hhanded hparent =>
    simp [writesCurrentSpan_of_startsSpanOn hon] at hwrites
  | startNothing a hnone => rfl
  | error hop hseg ht hid => rfl
  | noError hop hseg hnone => rfl
  | endTransaction now ht => simp
  | endNoopTransaction now hn => rfl
  | @endSpan k s t now hs ht =>
    have hended : s.isEnded = true := by
      simpa [Op.writesCurrentSpan, resolve, hs, transaction?_eq_some.mpr ht] using hwrites
    simp [hended]
  | endNoopSpan now hs => simp [Op.writesCurrentSpan, resolve, hs] at hwrites

/-- A transaction that is current after a call was current before it, or is new. -/
theorem step_has_transaction (h : σ.step op = some σ') {r : TransactionRef}
    (hr : σ'.currentTransaction = some r) :
    σ.currentTransaction = some r ∨
      (r = σ.transactions.size ∧ σ'.transactions.size = σ.transactions.size + 1) := by
  cases step_transition h with
  | newTransaction a =>
    exact .inr ⟨by simpa [Transaction.new, eq_comm] using hr, by simp [Transaction.new]⟩
  | newNoopTransaction a =>
    exact .inr ⟨by simpa [NoopTransaction.new, eq_comm] using hr, by simp [NoopTransaction.new]⟩
  | newSpan a hon hreal ht hhanded hparent => exact .inl hr
  | newNoopSpan hon hnoop hhanded hparent => exact .inl hr
  | startNothing a hnone => exact .inl hr
  | error hop hseg ht hid => exact .inl hr
  | noError hop hseg hnone => exact .inl hr
  | endTransaction now ht =>
    simp at hr
    exact .inl hr.2
  | endNoopTransaction now hn => cases hr
  | endSpan now hs ht => exact .inl (by simpa using hr)
  | endNoopSpan now hs => exact .inl hr

/-- A span that is current after a call was current before it, is new, or is the parent span of
    the one that was ended. -/
theorem step_has_span (h : σ.step op = some σ') {k : SpanRef} (hk : σ'.currentSpan = some k) :
    σ.currentSpan = some k ∨ (k = σ.spans.size ∧ σ'.spans.size = σ.spans.size + 1) ∨
      ∃ j s now, op = .endSegment (.span j) now ∧ σ.spans.get? j = some s ∧
        s.parentSpan = some k := by
  cases step_transition h with
  | newTransaction a => exact .inl hk
  | newNoopTransaction a => exact .inl hk
  | newSpan a hon hreal ht hhanded hparent =>
    exact .inr (.inl ⟨by simpa [Span.new, eq_comm] using hk, by simp [Span.new]⟩)
  | newNoopSpan hon hnoop hhanded hparent =>
    exact .inr (.inl ⟨by simpa [NoopSpan.new, eq_comm] using hk, by simp [NoopSpan.new]⟩)
  | startNothing a hnone => exact .inl hk
  | error hop hseg ht hid => exact .inl hk
  | noError hop hseg hnone => exact .inl hk
  | endTransaction now ht => exact .inl (by simpa using hk)
  | endNoopTransaction now hn => exact .inl hk
  | @endSpan j s t now hs ht =>
    simp only [Span.endSpan_currentSpan] at hk
    split at hk
    · exact .inl hk
    · exact .inr (.inr ⟨j, .span s, now, rfl, hs, hk⟩)
  | @endNoopSpan j s now hs => exact .inr (.inr ⟨j, .noop s, now, rfl, hs, hk⟩)

/-- A span after a call was there before it, or was started on a segment it belongs with. -/
theorem step_span (h : σ.step op = some σ') {k : SpanRef} {s' : ISpan}
    (hs' : σ'.spans.get? k = some s') :
    (∃ s, σ.spans.get? k = some s ∧ s'.startedIn = s.startedIn ∧
      s'.parentSpan = s.parentSpan) ∨
    (k = σ.spans.size ∧ ∃ seg, op.startsSpanOn σ = some seg ∧
      s'.startedIn = seg.transactionRef ∧
      ∀ j, s'.parentSpan = some j →
        ∃ p, σ.spans.get? j = some p ∧ p.startedIn = seg.transactionRef) := by
  have hsame (hspans : σ'.spans = σ.spans) : ∃ s, σ.spans.get? k = some s ∧
      s'.startedIn = s.startedIn ∧ s'.parentSpan = s.parentSpan :=
    ⟨s', by rw [← hspans]; exact hs', rfl, rfl⟩
  cases step_transition h with
  | newTransaction a => exact .inl (hsame rfl)
  | newNoopTransaction a => exact .inl (hsame rfl)
  | newSpan a hon hreal ht hhanded hparent =>
    simp only [Span.new, Store.get?_alloc] at hs'
    split at hs'
    · next hk =>
      cases hs'
      refine .inr ⟨hk, _, hon, rfl, fun j hj => ?_⟩
      obtain ⟨hnone, -⟩ | ⟨i, p, hi, hp, hr, -⟩ := hparent
      · simp [ISpan.parentSpan, hnone] at hj
      · simp only [ISpan.parentSpan, hi, Option.some.injEq] at hj
        subst hj
        exact ⟨.span p, hp, hr⟩
    · exact .inl ⟨s', hs', rfl, rfl⟩
  | newNoopSpan hon hnoop hhanded hparent =>
    simp only [NoopSpan.new, Store.get?_alloc] at hs'
    split at hs'
    · next hk =>
      cases hs'
      refine .inr ⟨hk, _, hon, rfl, fun j hj => ?_⟩
      obtain ⟨p, hp, hr⟩ := hparent j hj
      exact ⟨.noop p, hp, hr⟩
    · exact .inl ⟨s', hs', rfl, rfl⟩
  | startNothing a hnone => exact .inl (hsame rfl)
  | error hop hseg ht hid => exact .inl (hsame rfl)
  | noError hop hseg hnone => exact .inl (hsame rfl)
  | endTransaction now ht => exact .inl (hsame (by simp))
  | endNoopTransaction now hn => exact .inl (hsame rfl)
  | endSpan now hs ht =>
    rw [Span.endSpan_spans] at hs'
    obtain ⟨s, hold, rfl⟩ := Store.get?_update_eq_some.mp hs'
    refine .inl ⟨s, hold, ?_⟩
    split
    · next hk =>
      subst hk
      rw [hs] at hold
      cases hold
      exact ⟨rfl, rfl⟩
    · exact ⟨rfl, rfl⟩
  | endNoopSpan now hs =>
    rw [NoopSpan.endSpan_spans] at hs'
    obtain ⟨s, hold, rfl⟩ := Store.get?_update_eq_some.mp hs'
    refine .inl ⟨s, hold, ?_⟩
    split
    · next hk =>
      subst hk
      rw [hs] at hold
      cases hold
      exact ⟨rfl, rfl⟩
    · exact ⟨rfl, rfl⟩

theorem step_size_le (h : σ.step op = some σ') :
    σ.transactions.size ≤ σ'.transactions.size ∧ σ.spans.size ≤ σ'.spans.size := by
  cases step_transition h with
  | newTransaction a => simp [Transaction.new]
  | newNoopTransaction a => simp [NoopTransaction.new]
  | newSpan a hon hreal ht hhanded hparent => simp [Span.new]
  | newNoopSpan hon hnoop hhanded hparent => simp [NoopSpan.new]
  | startNothing a hnone => simp
  | error hop hseg ht hid => simp [queue]
  | noError hop hseg hnone => simp
  | endTransaction now ht => simp
  | endNoopTransaction now hn => simp [NoopTransaction.endTransaction]
  | endSpan now hs ht => simp
  | endNoopSpan now hs => simp [NoopSpan.endSpan]

/-- Segments do not go away. -/
theorem step_hasSegment (h : σ.step op = some σ') {seg : Segment} (hseg : σ.hasSegment seg) :
    σ'.hasSegment seg := by
  obtain ⟨htransactions, hspans⟩ := step_size_le h
  cases seg with
  | transaction r =>
    simp only [hasSegment, decide_eq_true_eq] at hseg ⊢
    exact Nat.lt_of_lt_of_le hseg htransactions
  | span k =>
    simp only [hasSegment, decide_eq_true_eq] at hseg ⊢
    exact Nat.lt_of_lt_of_le hseg hspans

end Tracer

/-! ### A call in a flow is a call on a tracer with two slots -/

namespace Flows

variable {c : ICurrentExecutionSegmentsContainer} {s s' : Flows} {f : Flow} {op : Op}

theorem call_eq_some :
    s.call c f op = some s' ↔ ∃ σ', (s.load c f).step op = some σ' ∧
      { objects := σ', storage := s.store c f op σ', startedBy := s.starts f σ' } = s' :=
  Option.map_eq_some_iff

/-- After a call its flow finds in the storage what a tracer with two slots has in them. -/
theorem store_load (hc : c.Lawful) {σ' : Tracer} (h : (s.load c f).step op = some σ') :
    c.Sets s.storage (s.store c f op σ') f ⟨σ'.currentSpan, σ'.currentTransaction⟩ := by
  -- What is not written is what the tracer was loaded with.
  have hspan (hwrites : op.writesCurrentSpan (s.load c f) = false) :
      σ'.currentSpan = (c.current s.storage f).currentSpan :=
    Tracer.step_currentSpan h hwrites
  have htransaction (hwrites : op.writesCurrentTransaction (s.load c f) = false) :
      σ'.currentTransaction = (c.current s.storage f).currentTransaction :=
    Tracer.step_currentTransaction h hwrites
  have hfirst : c.Sets s.storage
      (if op.writesCurrentTransaction (s.load c f) then
        c.setCurrentTransaction s.storage f σ'.currentTransaction else s.storage) f
      { c.current s.storage f with currentTransaction := σ'.currentTransaction } := by
    split
    · exact hc.setCurrentTransaction _ _ _
    · next hwrites =>
      rw [htransaction (by simpa using hwrites)]
      exact .refl c _ _
  unfold store
  dsimp only
  generalize (if op.writesCurrentTransaction (s.load c f) then
    c.setCurrentTransaction s.storage f σ'.currentTransaction else s.storage) = storage at hfirst ⊢
  split
  · have hsecond := hc.setCurrentSpan storage f σ'.currentSpan
    rw [hfirst.current] at hsecond
    refine hfirst.trans hsecond fun seg hseg => ?_
    cases seg with
    | span k => exact .inl (hc.current_keeps _ _ (.span k) hseg)
    | transaction r => exact .inr hseg
  · next hwrites =>
    rw [hspan (by simpa using hwrites)]
    exact hfirst

end Flows

/-- What is queued is counted in every flow. -/
theorem Flows.endsCounted_step {c : ICurrentExecutionSegmentsContainer} {s s' : Flows}
    {l : FlowLabel} (h : s.objects.EndsCounted) (hstep : s.step c l = some s') :
    s'.objects.EndsCounted := by
  cases l with
  | begins f q hasHttpContext => cases hstep; exact h
  | forks f g hasHttpContext => cases hstep; exact h
  | calls f op =>
    obtain ⟨σ', hσ', rfl⟩ := Flows.call_eq_some.mp hstep
    have hload : (s.load c f).EndsCounted := ⟨h.traced, h.count, h.duration⟩
    exact hload.step hσ'

/-! ### Requests stay apart -/

/-- The segment a call is made on, where it is one the caller names. -/
def Op.receiver? : Op → Option Segment
  | .startTransaction _ => none
  | .startSpan receiver _ => some receiver
  | .startSpanInternal receiver _ => some receiver
  | .startSpanOnCurrentExecutionSegment _ => none
  | .captureException receiver _ => some receiver
  | .captureError receiver _ => some receiver
  | .endSegment receiver _ => some receiver

namespace Flows

/-- A flow calls methods of segments that its own request started. -/
def Confined (s : Flows) : FlowLabel → Prop
  | .calls f op => ∀ seg, op.receiver? = some seg →
      s.startedBy seg = some (s.storage.request f)
  | .begins _ _ _ | .forks _ _ _ => True

/-- Each segment was started in a request; a span in that of its transaction and of its parent
    span; and only flows of that request find it. -/
structure Apart (s : Flows) : Prop where
  known : ∀ seg, (s.startedBy seg).isSome = s.objects.hasSegment seg
  kept : ∀ q seg, s.storage.Keeps q seg → s.startedBy seg = some q
  ofTransaction : ∀ k p, s.objects.spans.get? k = some p →
    s.startedBy (.transaction p.startedIn) = s.startedBy (.span k)
  ofParentSpan : ∀ k p j, s.objects.spans.get? k = some p → p.parentSpan = some j →
    s.startedBy (.span j) = s.startedBy (.span k)

theorem apart_new : Flows.new.Apart where
  known seg := by cases seg <;> simp [new, Tracer.hasSegment, Tracer.new]
  kept q seg h := by
    obtain ⟨f, -, hseg⟩ | hseg := h <;> cases seg <;> cases hseg
  ofTransaction k p h := by simp [new, Tracer.new] at h
  ofParentSpan k p j h := by simp [new, Tracer.new] at h

variable {c : ICurrentExecutionSegmentsContainer} {s s' : Flows} {f : Flow} {op : Op}

theorem Apart.startedBy_transactionRef (h : s.Apart) {receiver : Segment}
    {seg : IExecutionSegment} (hseg : (s.load c f).resolve receiver = some seg) :
    s.startedBy (.transaction seg.transactionRef) = s.startedBy receiver := by
  have hspec := Tracer.resolve_spec hseg
  cases seg with
  | transaction r t => rw [hspec.1]; rfl
  | noopTransaction r => rw [hspec.1]; rfl
  | span k p t => rw [hspec.1]; exact h.ofTransaction k (.span p) hspec.2.1
  | noopSpan k p => rw [hspec.1]; exact h.ofTransaction k (.noop p) hspec.2

/-- Spans are started in transactions of the flow's own request. -/
theorem Apart.startsSpanOn (h : s.Apart) (hc : c.Lawful) (hconfined : s.Confined (.calls f op))
    {seg : IExecutionSegment} (hon : op.startsSpanOn (s.load c f) = some seg) :
    s.startedBy (.transaction seg.transactionRef) = some (s.storage.request f) := by
  cases op with
  | startSpan receiver a =>
    rw [h.startedBy_transactionRef hon]
    exact hconfined receiver rfl
  | startSpanInternal receiver a =>
    rw [h.startedBy_transactionRef hon]
    exact hconfined receiver rfl
  | startSpanOnCurrentExecutionSegment a =>
    obtain ⟨receiver, hcurrent, hresolve⟩ := Option.bind_eq_some_iff.mp hon
    rw [h.startedBy_transactionRef hresolve]
    -- The current segment is one the flow found in the storage.
    refine h.kept _ _ (hc.current_keeps _ f receiver ?_)
    obtain ⟨k, hk, rfl⟩ | ⟨r, hr, rfl⟩ := Tracer.getCurrentExecutionSegment_eq_some hcurrent
    · exact hk
    · exact hr
  | _ => cases hon

theorem starts_old {σ' : Tracer} {seg : Segment} (h : s.objects.hasSegment seg) :
    s.starts f σ' seg = s.startedBy seg := by
  simp [starts, h]

theorem starts_new {σ' : Tracer} {seg : Segment} (h : s.objects.hasSegment seg = false)
    (h' : σ'.hasSegment seg) : s.starts f σ' seg = some (s.storage.request f) := by
  simp [starts, h, h']

/-- What was started before a call keeps its request. -/
theorem Apart.starts_of_some (h : s.Apart) {σ' : Tracer} {seg : Segment} {q : RequestId}
    (hseg : s.startedBy seg = some q) : s.starts f σ' seg = some q := by
  rw [starts_old (by rw [← h.known, hseg]; rfl), hseg]

theorem Apart.exists_startedBy (h : s.Apart) {k : SpanRef} {p : ISpan}
    (hp : s.objects.spans.get? k = some p) : ∃ q, s.startedBy (.span k) = some q := by
  refine Option.isSome_iff_exists.mp ?_
  simpa [h.known, Tracer.hasSegment] using Store.lt_size hp

/-- What a call sets in its flow was started by the request of the flow. -/
theorem Apart.starts_written (h : s.Apart) (hc : c.Lawful)
    (hconfined : s.Confined (.calls f op)) {σ' : Tracer}
    (hstep : (s.load c f).step op = some σ') {seg : Segment}
    (hhas : CurrentSegments.Has ⟨σ'.currentSpan, σ'.currentTransaction⟩ seg) :
    s.starts f σ' seg = some (s.storage.request f) := by
  have hloaded (hseg : (c.current s.storage f).Has seg) :
      s.starts f σ' seg = some (s.storage.request f) :=
    h.starts_of_some (h.kept _ _ (hc.current_keeps _ f seg hseg))
  cases seg with
  | span k =>
    obtain hold | ⟨hk, hsize⟩ | ⟨j, p, now, rfl, hp, hparent⟩ :=
      Tracer.step_has_span hstep hhas
    · exact hloaded hold
    · subst hk
      exact starts_new (by simp [Tracer.hasSegment, load]) (by simp [Tracer.hasSegment, hsize])
    · exact h.starts_of_some ((h.ofParentSpan j p k hp hparent).trans (hconfined _ rfl))
  | transaction r =>
    obtain hold | ⟨hr, hsize⟩ := Tracer.step_has_transaction hstep hhas
    · exact hloaded hold
    · subst hr
      exact starts_new (by simp [Tracer.hasSegment, load]) (by simp [Tracer.hasSegment, hsize])

theorem Apart.call (h : s.Apart) (hc : c.Lawful) (hconfined : s.Confined (.calls f op))
    (hcall : s.call c f op = some s') : s'.Apart := by
  obtain ⟨σ', hstep, rfl⟩ := call_eq_some.mp hcall
  have hspan (k : SpanRef) (p' : ISpan) (hp' : σ'.spans.get? k = some p') :
      (∃ p, s.objects.spans.get? k = some p ∧ p'.startedIn = p.startedIn ∧
        p'.parentSpan = p.parentSpan) ∨
      (s.starts f σ' (.span k) = some (s.storage.request f) ∧
        s.startedBy (.transaction p'.startedIn) = some (s.storage.request f) ∧
        ∀ j, p'.parentSpan = some j → s.startedBy (.span j) = some (s.storage.request f)) := by
    obtain hold | ⟨hk, seg, hon, hin, hparent⟩ := Tracer.step_span hstep hp'
    · exact .inl hold
    · -- A new span, in a transaction of the request of the flow.
      have hrequest := h.startsSpanOn hc hconfined hon
      refine .inr ⟨?_, by rw [hin]; exact hrequest, fun j hj => ?_⟩
      · refine starts_new ?_ ?_
        · simp [Tracer.hasSegment, hk, load]
        · simpa [Tracer.hasSegment] using Store.lt_size hp'
      · obtain ⟨p, hp, hpin⟩ := hparent j hj
        rw [← h.ofTransaction j p hp, hpin]
        exact hrequest
  constructor
  case known =>
    intro seg
    by_cases hseg : s.objects.hasSegment seg
    · have hseg' : σ'.hasSegment seg := Tracer.step_hasSegment hstep hseg
      simp only [starts_old hseg, h.known seg, hseg, hseg']
    · by_cases hseg' : σ'.hasSegment seg
      · simp [starts_new (by simpa using hseg) hseg', hseg']
      · simp [starts, h.known seg, hseg, hseg']
  case kept =>
    intro q seg hkeeps
    obtain hold | ⟨rfl, hhas⟩ := (store_load hc hstep).keeps q seg hkeeps
    · exact h.starts_of_some (h.kept q seg hold)
    · exact h.starts_written hc hconfined hstep hhas
  case ofTransaction =>
    intro k p' hp'
    obtain ⟨p, hp, hin, -⟩ | ⟨hnew, hin, -⟩ := hspan k p' hp'
    · obtain ⟨q, hq⟩ := h.exists_startedBy hp
      rw [hin]
      exact (h.starts_of_some ((h.ofTransaction k p hp).trans hq)).trans
        (h.starts_of_some hq).symm
    · exact (h.starts_of_some hin).trans hnew.symm
  case ofParentSpan =>
    intro k p' j hp' hj
    obtain ⟨p, hp, -, hparent⟩ | ⟨hnew, -, hparent⟩ := hspan k p' hp'
    · obtain ⟨q, hq⟩ := h.exists_startedBy hp
      have hparent' := h.ofParentSpan k p j hp (hparent.symm.trans hj)
      exact (h.starts_of_some (hparent'.trans hq)).trans (h.starts_of_some hq).symm
    · exact (h.starts_of_some (hparent j hj)).trans hnew.symm

theorem Apart.step (h : s.Apart) (hc : c.Lawful) {l : FlowLabel} (hconfined : s.Confined l)
    (hstep : s.step c l = some s') : s'.Apart := by
  cases l with
  | begins f q hasHttpContext =>
    cases hstep
    exact { h with kept := fun q' seg hkeeps => h.kept q' seg hkeeps.of_begins }
  | forks f g hasHttpContext =>
    cases hstep
    exact { h with kept := fun q' seg hkeeps => h.kept q' seg hkeeps.of_forks }
  | calls f op => exact h.call hc hconfined hstep

theorem step_agreesOn (hc : c.Lawful) {l : FlowLabel} {q : RequestId}
    (hl : s.storage.request l.flow ≠ q) (hstep : s.step c l = some s') :
    s.storage.AgreesOn s'.storage q := by
  cases l with
  | begins f q' hasHttpContext =>
    cases hstep
    exact agreesOn_begins hl
  | forks f g hasHttpContext =>
    cases hstep
    exact agreesOn_forks hl
  | calls f op =>
    obtain ⟨σ', hσ', rfl⟩ := call_eq_some.mp hstep
    exact (store_load hc hσ').agrees q hl

/-- What other flows than those of the request do, its flows do not see. -/
theorem run_agreesOn (hc : c.Lawful) {q : RequestId} {ls : List FlowLabel}
    (hls : (flowSystem c).Along (fun s l => s.storage.request l.flow ≠ q) s ls)
    (hrun : (flowSystem c).run s ls = some s') : s.storage.AgreesOn s'.storage q := by
  induction ls generalizing s with
  | nil => cases hrun; exact .refl _ _
  | cons l ls ih =>
    obtain ⟨t, hstep, hrest⟩ := LTS.System.run_cons_eq_some.mp hrun
    obtain ⟨hl, hls⟩ := hls t hstep
    exact (step_agreesOn hc hl hstep).trans (ih hls hrest)

theorem Apart.run (hc : c.Lawful) {ls : List FlowLabel}
    (hls : (flowSystem c).Along Confined Flows.new ls)
    (hrun : (flowSystem c).run Flows.new ls = some s) : s.Apart :=
  (LTS.System.always_of_along (fun _ _ _ h hconfined hstep => h.step hc hconfined hstep)
    apart_new hls).last hrun

/-- A call changes what its flow sees the way it changes a tracer with two plain slots. -/
theorem load_call (hc : c.Lawful) (hcall : s.call c f op = some s') :
    (s.load c f).step op = some (s'.load c f) := by
  obtain ⟨σ', hstep, rfl⟩ := call_eq_some.mp hcall
  have hcurrent := (store_load hc hstep).current
  simp only [current, CurrentSegments.mk.injEq] at hcurrent
  rw [hstep]
  simp [load, hcurrent]

/-! ### The two containers -/

/-- The containers there are. -/
inductive Implementation where
  | currentExecutionSegmentsContainer
  | httpContextCurrentExecutionSegmentsContainer

def Implementation.container : Implementation → ICurrentExecutionSegmentsContainer
  | .currentExecutionSegmentsContainer => CurrentExecutionSegmentsContainer
  | .httpContextCurrentExecutionSegmentsContainer => HttpContextCurrentExecutionSegmentsContainer

theorem Implementation.lawful (i : Implementation) : i.container.Lawful := by
  cases i with
  | currentExecutionSegmentsContainer => exact lawful_currentExecutionSegmentsContainer
  | httpContextCurrentExecutionSegmentsContainer =>
    exact lawful_httpContextCurrentExecutionSegmentsContainer

/-- What a request relies on while other requests are worked on. -/
structure Isolated (c : ICurrentExecutionSegmentsContainer) (s : Flows) : Prop where
  /-- A flow only sees segments of its own request. -/
  own : ∀ f seg, (c.current s.storage f).Has seg → s.startedBy seg = some (s.storage.request f)
  /-- A span belongs to the request of its transaction and of its parent span. -/
  related : ∀ k p, s.objects.spans.get? k = some p →
    s.startedBy (.transaction p.startedIn) = s.startedBy (.span k) ∧
      ∀ j, p.parentSpan = some j → s.startedBy (.span j) = s.startedBy (.span k)
  /-- A call does what it does to a tracer with two plain slots. -/
  calls : ∀ f op s', (flowSystem c).step s (.calls f op) = some s' →
    (s.load c f).step op = some (s'.load c f)
  /-- What flows of other requests do, in any order, a flow does not see. -/
  others : ∀ q ls s', (flowSystem c).run s ls = some s' →
    (flowSystem c).Along (fun s l => s.storage.request l.flow ≠ q) s ls →
    ∀ f, s.storage.request f = q →
      s'.storage.request f = q ∧ c.current s'.storage f = c.current s.storage f

/-- However the flows of a process interleave, the requests do not get into each other's way, as
    long as flows call methods of segments of their own request. -/
theorem requests_isolated (i : Implementation) {ls : List FlowLabel} {s : Flows}
    (hrun : (flowSystem i.container).run Flows.new ls = some s)
    (hls : (flowSystem i.container).Along Confined Flows.new ls) : s.Isolated i.container := by
  have hapart := Apart.run i.lawful hls hrun
  constructor
  case own =>
    intro f seg hseg
    exact hapart.kept _ _ (i.lawful.current_keeps _ f seg hseg)
  case related =>
    intro k p hp
    exact ⟨hapart.ofTransaction k p hp, fun j hj => hapart.ofParentSpan k p j hp hj⟩
  case calls =>
    intro f op s' hcall
    exact load_call i.lawful hcall
  case others =>
    intro q ls s' hrun hothers f hf
    have hagrees := run_agreesOn i.lawful hothers hrun
    exact ⟨hagrees.request f hf, i.lawful.current_congr _ _ f (hf ▸ hagrees)⟩

/-- Two requests, interleaved; the first goes on in a second flow. -/
def interleaved : List FlowLabel :=
  [.begins 0 1 true, .begins 1 2 true, .calls 0 (.startTransaction .sampled),
    .calls 1 (.startTransaction .sampled), .forks 0 2 false,
    .calls 2 (.startSpanOnCurrentExecutionSegment ⟨"a1b2c3d4e5f60718", 1⟩),
    .calls 1 (.endSegment (.transaction 1) 2)]

theorem confined_interleaved :
    (flowSystem HttpContextCurrentExecutionSegmentsContainer).Along Confined Flows.new
      interleaved := by
  -- Only the last label names a receiver, the transaction of the second request.
  iterate 6
    intro s' hs'
    constructor
    · first
        | trivial
        | rintro _ ⟨⟩
    cases hs'
  intro s' hs'
  constructor
  · rintro _ ⟨rfl⟩
    rfl
  · trivial

theorem requests_isolated_interleaved :
    ∃ s, (flowSystem HttpContextCurrentExecutionSegmentsContainer).run Flows.new interleaved =
        some s ∧ s.Isolated HttpContextCurrentExecutionSegmentsContainer :=
  ⟨_, rfl, @requests_isolated .httpContextCurrentExecutionSegmentsContainer interleaved _ rfl
    confined_interleaved⟩

/-! ### Threads that are handed to a request -/

/-- The label sets `CurrentTransaction` in a flow of the request. -/
def SetsTransaction (c : ICurrentExecutionSegmentsContainer) (s : Flows) (q : RequestId) :
    FlowLabel → Prop
  | .calls f op => s.storage.request f = q ∧ op.writesCurrentTransaction (s.load c f) = true
  | .begins _ _ _ | .forks _ _ _ => False

theorem items_setCurrentSpan (storage : SegmentStorage) (span : Option SpanRef) (q : RequestId) :
    ((HttpContextCurrentExecutionSegmentsContainer.setCurrentSpan storage f span).items
      q).currentTransaction = (storage.items q).currentTransaction := by
  simp only [HttpContextCurrentExecutionSegmentsContainer, httpContext?_setAsyncLocal]
  cases storage.httpContext? f with
  | none => rfl
  | some q' => by_cases hq : q = q' <;> simp [setItems, setAsyncLocal, hq]

/-- The transaction a call sets is written to the `HttpContext`, where there is one. -/
theorem items_call (hcall : s.call HttpContextCurrentExecutionSegmentsContainer f op = some s')
    (hctx : s.storage.hasHttpContext f = true)
    (hwrites : op.writesCurrentTransaction
      (s.load HttpContextCurrentExecutionSegmentsContainer f) = true) :
    (s'.storage.items (s.storage.request f)).currentTransaction =
      s'.objects.currentTransaction := by
  obtain ⟨σ', -, rfl⟩ := call_eq_some.mp hcall
  have hset : ((HttpContextCurrentExecutionSegmentsContainer.setCurrentTransaction s.storage f
      σ'.currentTransaction).items (s.storage.request f)).currentTransaction =
        σ'.currentTransaction := by
    have hq := httpContext?_eq_some.mpr ⟨hctx, rfl⟩
    simp only [HttpContextCurrentExecutionSegmentsContainer, httpContext?_setAsyncLocal, hq,
      items_setItems]
  simp only [store, hwrites, if_true]
  split
  · rw [items_setCurrentSpan, hset]
  · exact hset

theorem items_step {l : FlowLabel} {q : RequestId}
    (hl : ¬s.SetsTransaction HttpContextCurrentExecutionSegmentsContainer q l)
    (hstep : s.step HttpContextCurrentExecutionSegmentsContainer l = some s') :
    (s'.storage.items q).currentTransaction = (s.storage.items q).currentTransaction := by
  cases l with
  | begins f q' hasHttpContext => cases hstep; rfl
  | forks f g hasHttpContext => cases hstep; rfl
  | calls f op =>
    obtain ⟨σ', hσ', rfl⟩ := call_eq_some.mp hstep
    by_cases hq : s.storage.request f = q
    · have hwrites : op.writesCurrentTransaction
          (s.load HttpContextCurrentExecutionSegmentsContainer f) = false := by
        simpa [SetsTransaction, hq] using hl
      simp only [store, hwrites]
      split
      · exact items_setCurrentSpan _ _ _
      · rfl
    · have hagrees :=
        (store_load lawful_httpContextCurrentExecutionSegmentsContainer hσ').agrees q hq
      rw [hagrees.items]

theorem items_run {ls : List FlowLabel} {q : RequestId}
    (hls : (flowSystem HttpContextCurrentExecutionSegmentsContainer).Along
      (fun s l => ¬s.SetsTransaction HttpContextCurrentExecutionSegmentsContainer q l) s ls)
    (hrun : (flowSystem HttpContextCurrentExecutionSegmentsContainer).run s ls = some s') :
    (s'.storage.items q).currentTransaction = (s.storage.items q).currentTransaction := by
  induction ls generalizing s with
  | nil => cases hrun; rfl
  | cons l ls ih =>
    obtain ⟨t, hstep, hrest⟩ := LTS.System.run_cons_eq_some.mp hrun
    obtain ⟨hl, hls⟩ := hls t hstep
    exact (ih hls hrest).trans (items_step hl hstep)

/-- A thread handed to a request without its execution context finds the transaction that was
    last made current in a flow with the `HttpContext` of the request. -/
theorem handedThread_currentTransaction {s'' : Flows} {ls : List FlowLabel} {g : Flow}
    (hcall : s.call HttpContextCurrentExecutionSegmentsContainer f op = some s')
    (hctx : s.storage.hasHttpContext f = true)
    (hwrites : op.writesCurrentTransaction
      (s.load HttpContextCurrentExecutionSegmentsContainer f) = true)
    (hrun : (flowSystem HttpContextCurrentExecutionSegmentsContainer).run s' ls = some s'')
    (hls : (flowSystem HttpContextCurrentExecutionSegmentsContainer).Along
      (fun t l => ¬t.SetsTransaction HttpContextCurrentExecutionSegmentsContainer
        (s.storage.request f) l) s' ls) :
    HttpContextCurrentExecutionSegmentsContainer.currentTransaction
        (s''.storage.begins g (s.storage.request f) true) g =
      HttpContextCurrentExecutionSegmentsContainer.currentTransaction s'.storage f := by
  obtain ⟨σ', hstep, rfl⟩ := call_eq_some.mp hcall
  have hcurrent :=
    (store_load lawful_httpContextCurrentExecutionSegmentsContainer hstep).current
  simp only [current, CurrentSegments.mk.injEq] at hcurrent
  rw [hcurrent.2]
  have hitems := (items_run hls hrun).trans (items_call hcall hctx hwrites)
  simpa [HttpContextCurrentExecutionSegmentsContainer, SegmentStorage.begins, httpContext?,
    CurrentSegments.new] using hitems

/-- One thread, which was handed to a request. -/
def oneThread : Flows := { new with storage := new.storage.begins 1 2 true }

theorem handedThread_currentTransaction_oneSpan :
    ∃ s' s'' : Flows,
      oneThread.call HttpContextCurrentExecutionSegmentsContainer 1
        (.startTransaction .sampled) = some s' ∧
      (flowSystem HttpContextCurrentExecutionSegmentsContainer).run s'
        [.calls 1 (.startSpanOnCurrentExecutionSegment ⟨"a1b2c3d4e5f60718", 1⟩)] = some s'' ∧
      HttpContextCurrentExecutionSegmentsContainer.currentTransaction
          (s''.storage.begins 3 (oneThread.storage.request 1) true) 3 =
        HttpContextCurrentExecutionSegmentsContainer.currentTransaction s'.storage 1 := by
  refine ⟨_, _, rfl, rfl, @handedThread_currentTransaction oneThread _ 1
    (.startTransaction .sampled) _
    [.calls 1 (.startSpanOnCurrentExecutionSegment ⟨"a1b2c3d4e5f60718", 1⟩)] 3
    rfl rfl rfl rfl ?_⟩
  intro s' hs'
  constructor
  · rintro ⟨-, ⟨⟩⟩
  · trivial

end Flows

end ApmAgent
