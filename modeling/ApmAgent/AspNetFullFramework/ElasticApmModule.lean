import ApmAgent.AspNetCore.WebRequestTransactionCreator
import ApmAgent.Model.ExecutionFlows
import ApmAgent.Report.PayloadItemSerializer

/-! # Requests on the full framework

  `ElasticApmModule` starts a transaction when IIS begins a request and ends it
  when IIS ends the request. The two events may be raised on different threads,
  and the thread that ends a request may have lost the execution context of the
  one that began it: the module ends whatever is the current transaction then.

  `WebApplication` has any number of requests, the threads IIS hands to them and
  the flows the application starts, in any order. `requests_ended` says that the
  transaction that is ended is the request's own, and what it is reported with.
-/

namespace ApmAgent

open SegmentStorage

/-! ### The module -/

/-- What `ProcessEndRequest` finds. -/
structure EndedRequest where
  /-- `GetLastError()` is not null. -/
  hasLastError : Bool
  /-- The application has set the name of the transaction. -/
  hasCustomName : Bool
  /-- What the route data give as the name of the transaction, if anything. -/
  routeName : Except RuntimeException (Option String)
  statusCode : Int32
  /-- The response and the user are written to the context without an exception. -/
  fillsContext : Bool
  now : Int

/-- What `ProcessEndRequest` sets on a transaction; `name` is null where it keeps its name. -/
structure RequestFields where
  name : Option String
  result : String
  outcome : Outcome
  deriving DecidableEq

/-- `Transaction.StatusCodeToResult`. -/
def Transaction.statusCodeToResult (protocolName : String) (statusCode : Int32) : String :=
  protocolName ++ " " ++ String.ofList ((toString statusCode.toInt).toList.take 1) ++ "xx"

namespace EndedRequest

/-- The new name of a `Transaction`. -/
def name (e : EndedRequest) : Except RuntimeException (Option String) :=
  if e.hasCustomName then .ok none else e.routeName

def fields (e : EndedRequest) (name : Option String) : RequestFields where
  name := name
  result := Transaction.statusCodeToResult "HTTP" e.statusCode
  outcome := if 500 ≤ e.statusCode.toInt then .failure else .success

end EndedRequest

/-- How far IIS is with a request, and the transaction it got, if it got one. -/
inductive RequestPhase where
  | notBegun
  | handled (transaction : Option TransactionRef)
  | ended (transaction : Option TransactionRef) (e : EndedRequest)

def RequestPhase.isBegun : RequestPhase → Bool
  | .notBegun => false
  | .handled _ | .ended _ _ => true

structure WebApplication where
  flows : Flows
  phase : RequestId → RequestPhase
  /-- What the module has set on the transactions. -/
  fields : TransactionRef → Option RequestFields

namespace ElasticApmModule

/-- The container of `BuildAgentComponents`. -/
abbrev container : ICurrentExecutionSegmentsContainer :=
  HttpContextCurrentExecutionSegmentsContainer

section

variable [InvariantCulture]

/-- How the transaction of a request is started, where it gets one. -/
def transactionStart? (transactionIgnoreUrls : List WildcardMatcher) (request : IncomingRequest)
    (a : TransactionStart) : Option TransactionStart :=
  if isAnyMatch transactionIgnoreUrls (some request.path) then none
  else
    match extractIncomingDistributedTracingData request.headers with
    | .ok data => some { a with distributedTracingData := data }
    | .error _ => none

theorem processBeginRequest_eq (σ : Tracer) (transactionIgnoreUrls : List WildcardMatcher)
    (request : IncomingRequest) (a : TransactionStart) :
    processBeginRequest σ transactionIgnoreUrls request a =
      match transactionStart? transactionIgnoreUrls request a with
      | some a => σ.startTransaction a
      | none => σ := by
  unfold processBeginRequest transactionStart?
  split
  · rfl
  · cases extractIncomingDistributedTracingData request.headers <;> rfl

/-- `OnBeginRequest`, and the transaction that was started. -/
def onBeginRequest (flows : Flows) (f : Flow) (transactionIgnoreUrls : List WildcardMatcher)
    (request : IncomingRequest) (a : TransactionStart) : Flows × Option TransactionRef :=
  let σ := flows.load container f
  let σ' := processBeginRequest σ transactionIgnoreUrls request a
  if σ'.transactions.size = σ.transactions.size then (flows, none)
  else
    ({ objects := σ'
       storage := container.setCurrentTransaction flows.storage f σ'.currentTransaction
       startedBy := flows.starts f σ' }, some σ.transactions.size)

/-- The call on the tracer that the module makes when a request begins, if it makes one. -/
def beginCall (flows : Flows) (f : Flow) : Option TransactionStart → Option Flows
  | some a => flows.call container f (.startTransaction a)
  | none => some flows

theorem onBeginRequest_eq (flows : Flows) (f : Flow)
    (transactionIgnoreUrls : List WildcardMatcher) (request : IncomingRequest)
    (a : TransactionStart) :
    beginCall flows f (transactionStart? transactionIgnoreUrls request a) =
        some (onBeginRequest flows f transactionIgnoreUrls request a).1 ∧
      (onBeginRequest flows f transactionIgnoreUrls request a).2 =
        (transactionStart? transactionIgnoreUrls request a).map
          fun _ => flows.objects.transactions.size := by
  unfold onBeginRequest
  simp only [processBeginRequest_eq]
  cases transactionStart? transactionIgnoreUrls request a with
  | none =>
    rw [if_pos rfl]
    exact ⟨rfl, rfl⟩
  | some b =>
    have hsize : ((flows.load container f).startTransaction b).transactions.size ≠
        (flows.load container f).transactions.size := by
      unfold Tracer.startTransaction
      split <;> simp [Transaction.new, NoopTransaction.new]
    simp only [if_neg hsize]
    exact ⟨rfl, rfl⟩

end

/-- `SendErrorEventIfPresent`. -/
def sendErrorEventIfPresent (flows : Flows) (f : Flow) (r : TransactionRef) (e : EndedRequest) :
    Option Flows :=
  if e.hasLastError then flows.call container f (.captureException (.transaction r) none)
  else some flows

/-- `OnEndRequest`, which catches what `ProcessEndRequest` throws; then the transaction is not
    ended. -/
def onEndRequest (s : WebApplication) (f : Flow) (e : EndedRequest) : Option WebApplication :=
  match container.currentTransaction s.flows.storage f with
  | none => some s
  | some r => do
    let flows ← sendErrorEventIfPresent s.flows f r e
    let transaction := flows.objects.transaction? r
    -- A no-op transaction keeps its name, and is not sampled.
    match if transaction.isSome then e.name else .ok none with
    | .error _ => return { s with flows := flows }
    | .ok name =>
      let fields := Function.update s.fields r (some (e.fields name))
      if transaction.any (·.isSampled) && !e.fillsContext then
        return { s with flows := flows, fields := fields }
      let flows ← flows.call container f (.endSegment (.transaction r) e.now)
      return { s with flows := flows, fields := fields }

end ElasticApmModule

/-! ### The application -/

/-- Threads that work on no request. -/
def outside : RequestId := 0

inductive WebLabel where
  /-- IIS begins a request, on a thread it hands to it. -/
  | beginRequest (f : Flow) (q : RequestId) (transactionIgnoreUrls : List WildcardMatcher)
      (request : IncomingRequest) (a : TransactionStart)
  /-- A thread is handed over, or the application does something. -/
  | flow (l : FlowLabel)
  /-- IIS ends the request of a thread. -/
  | endRequest (f : Flow) (e : EndedRequest)

namespace WebApplication

open ElasticApmModule

def new : WebApplication where
  flows := .new
  phase := fun _ => .notBegun
  fields := fun _ => none

def setPhase (s : WebApplication) (q : RequestId) (phase : RequestPhase) : WebApplication :=
  { s with phase := Function.update s.phase q phase }

/-- The thread with the `HttpContext` of a request that begins. -/
def handThread (s : WebApplication) (f : Flow) (q : RequestId) : Flows :=
  { s.flows with storage := s.flows.storage.begins f q true }

/-- IIS only hands threads to requests it has begun. -/
def allows (s : WebApplication) : FlowLabel → Bool
  | .begins _ q _ => q = outside || (s.phase q).isBegun
  | .forks _ _ _ | .calls _ _ => true

def step [InvariantCulture] (s : WebApplication) : WebLabel → Option WebApplication
  | .beginRequest f q transactionIgnoreUrls request a =>
    if q = outside || (s.phase q).isBegun then none
    else
      let (flows, transaction) :=
        onBeginRequest (s.handThread f q) f transactionIgnoreUrls request a
      some ({ s with flows := flows }.setPhase q (.handled transaction))
  | .flow l =>
    if s.allows l then (s.flows.step container l).map fun flows => { s with flows := flows }
    else none
  | .endRequest f e =>
    match s.phase (s.flows.storage.request f) with
    | .handled transaction =>
      if s.flows.storage.hasHttpContext f then
        (onEndRequest s f e).map fun s' =>
          s'.setPhase (s.flows.storage.request f) (.ended transaction e)
      else none
    | .notBegun | .ended _ _ => none

end WebApplication

def webSystem [InvariantCulture] : LTS.System WebApplication WebLabel where
  init s := s = .new
  step := WebApplication.step

/-! ### What a call leaves as it is -/

namespace Tracer

variable {σ σ' : Tracer} {op : Op}

theorem startTransaction_spec {a : TransactionStart}
    (hstep : σ.step (.startTransaction a) = some σ') :
    ∃ t : ITransaction, t.isEnded = false ∧ σ'.transactions = σ.transactions.alloc t ∧
      σ'.currentTransaction = some σ.transactions.size := by
  simp only [step, startTransaction, Option.some.injEq] at hstep
  subst hstep
  split <;> exact ⟨_, rfl, rfl, rfl⟩

theorem exists_transaction {r : TransactionRef} (hr : σ.hasSegment (.transaction r)) :
    ∃ t, σ.transactions.get? r = some t := by
  simp only [hasSegment, decide_eq_true_eq] at hr
  exact ⟨_, List.getElem?_eq_getElem hr⟩

/-- Only its own `End` ends a transaction. -/
theorem isEnded_step_eq (hstep : σ.step op = some σ') {r : TransactionRef}
    (hr : σ.hasSegment (.transaction r))
    (hop : ∀ now, op ≠ .endSegment (.transaction r) now) :
    σ'.isEnded (.transaction r) = σ.isEnded (.transaction r) := by
  have hne : r ≠ σ.transactions.size := by
    simp only [hasSegment, decide_eq_true_eq] at hr
    exact Nat.ne_of_lt hr
  have hother {r' : TransactionRef} {f : ITransaction → ITransaction} (h : r' ≠ r) :
      ((σ.transactions.update r' f).get? r).map (·.isEnded) =
        (σ.transactions.get? r).map (·.isEnded) := by
    rw [Store.get?_update_ne _ h]
  cases step_transition hstep with
  | newTransaction a => simp [isEnded, Transaction.new, Store.get?_alloc, hne]
  | newNoopTransaction a => simp [isEnded, NoopTransaction.new, Store.get?_alloc, hne]
  | @newSpan op seg t parentId traceId parentSpan a hon hreal ht hhanded hparent =>
    by_cases hseg : seg.transactionRef = r
    · -- Counting a span does not touch the flag.
      have hcount : t.countSpan.isEnded = t.isEnded := by
        unfold Transaction.countSpan
        split <;> rfl
      rw [hseg] at ht
      simp [isEnded, Span.new, hseg, ht, ITransaction.isEnded, hcount]
    · exact congrArg (·.getD false) (hother hseg)
  | endTransaction now ht =>
    rw [isEnded, isEnded, Transaction.endTransaction_transactions]
    exact congrArg (·.getD false) (hother fun h => hop now (h ▸ rfl))
  | endNoopTransaction now hn =>
    exact congrArg (·.getD false) (hother fun h => hop now (h ▸ rfl))
  | endSpan now hs ht => rw [isEnded, isEnded, Span.endSpan_transactions]
  | _ => rfl

/-- A call that does not set `CurrentTransaction` starts no transaction, -/
theorem transactions_size_step (hstep : σ.step op = some σ')
    (hwrites : op.writesCurrentTransaction σ = false) :
    σ'.transactions.size = σ.transactions.size := by
  cases step_transition hstep with
  | newTransaction a => simp [Op.writesCurrentTransaction] at hwrites
  | newNoopTransaction a => simp [Op.writesCurrentTransaction] at hwrites
  | newSpan a hon hreal ht hhanded hparent => simp [Span.new]
  | endTransaction now ht => simp
  | endNoopTransaction now hn => simp [NoopTransaction.endTransaction]
  | endSpan now hs ht => simp
  | _ => rfl

/-- and ends none. -/
theorem isEnded_step_of_not_writes (hstep : σ.step op = some σ') {r : TransactionRef}
    (hr : σ.hasSegment (.transaction r)) (hwrites : op.writesCurrentTransaction σ = false) :
    σ'.isEnded (.transaction r) = σ.isEnded (.transaction r) := by
  by_cases hop : ∃ now, op = .endSegment (.transaction r) now
  · obtain ⟨now, rfl⟩ := hop
    -- An `End` that does not clear the slot is a later one.
    have hended : σ.isEnded (.transaction r) = true := by
      obtain ⟨seg, hseg, -⟩ := Option.map_eq_some_iff.mp hstep
      have hspec := resolve_spec hseg
      cases seg with
      | transaction r' t =>
        obtain ⟨⟨rfl⟩, ht⟩ := hspec
        have hended : t.isEnded = true := by
          simpa [Op.writesCurrentTransaction, hseg] using hwrites
        simp [isEnded, ht, ITransaction.isEnded, hended]
      | noopTransaction r' => simp [Op.writesCurrentTransaction, hseg] at hwrites
      | span k s t => cases hspec.1
      | noopSpan k s => cases hspec.1
    rw [hended, isEnded_step hstep hended]
  · exact isEnded_step_eq hstep hr fun now h => hop ⟨now, h⟩

end Tracer

/-- A call that starts no transaction. -/
theorem Flows.startedBy_call {s s' : Flows} {f : Flow} {op : Op}
    (hcall : s.call ElasticApmModule.container f op = some s')
    (hsize : s'.objects.transactions.size = s.objects.transactions.size) (r : TransactionRef) :
    s'.startedBy (.transaction r) = s.startedBy (.transaction r) := by
  obtain ⟨σ', -, rfl⟩ := Flows.call_eq_some.mp hcall
  have hsame : σ'.hasSegment (.transaction r) = s.objects.hasSegment (.transaction r) := by
    simp only [Tracer.hasSegment]
    rw [show σ'.transactions.size = s.objects.transactions.size from hsize]
  by_cases hold : s.objects.hasSegment (.transaction r) <;>
    simp [Flows.starts, hsame, hold]

/-! ### What the flows leave as it is for a request -/

/-- What the module relies on between the two events of a request. -/
structure KeepsTransaction (q : RequestId) (s s' : Flows) : Prop where
  startedBy : ∀ r, s'.startedBy (.transaction r) = some q ↔ s.startedBy (.transaction r) = some q
  isEnded : ∀ r, s.startedBy (.transaction r) = some q →
    s'.objects.isEnded (.transaction r) = s.objects.isEnded (.transaction r)
  isSampled : ∀ r, s.startedBy (.transaction r) = some q →
    s'.objects.isSampled? r = s.objects.isSampled? r
  items : (s'.storage.items q).currentTransaction = (s.storage.items q).currentTransaction
  /-- A flow of the request finds what one of its flows found, or nothing. -/
  asyncLocal : ∀ f, s'.storage.request f = q →
    (s'.storage.asyncLocal f).currentTransaction = none ∨
      ∃ g, s.storage.request g = q ∧
        (s'.storage.asyncLocal f).currentTransaction =
          (s.storage.asyncLocal g).currentTransaction

namespace KeepsTransaction

open ElasticApmModule (container)

variable {q : RequestId} {s s' s'' : Flows} {f g : Flow} {op : Op}

theorem refl (q : RequestId) (s : Flows) : KeepsTransaction q s s :=
  ⟨fun _ => .rfl, fun _ _ => rfl, fun _ _ => rfl, rfl, fun f hf => .inr ⟨f, hf, rfl⟩⟩

theorem trans (h : KeepsTransaction q s s') (h' : KeepsTransaction q s' s'') :
    KeepsTransaction q s s'' where
  startedBy r := (h'.startedBy r).trans (h.startedBy r)
  isEnded r hr := (h'.isEnded r ((h.startedBy r).mpr hr)).trans (h.isEnded r hr)
  isSampled r hr := (h'.isSampled r ((h.startedBy r).mpr hr)).trans (h.isSampled r hr)
  items := h'.items.trans h.items
  asyncLocal f hf := by
    obtain hnone | ⟨g, hg, heq⟩ := h'.asyncLocal f hf
    · exact .inl hnone
    · obtain hnone | ⟨i, hi, heq'⟩ := h.asyncLocal g hg
      · exact .inl (heq.trans hnone)
      · exact .inr ⟨i, hi, heq.trans heq'⟩

theorem begins (q' : RequestId) (hasHttpContext : Bool) :
    KeepsTransaction q s { s with storage := s.storage.begins f q' hasHttpContext } where
  startedBy _ := .rfl
  isEnded _ _ := rfl
  isSampled _ _ := rfl
  items := rfl
  asyncLocal g hg := by
    by_cases hgf : g = f
    · subst hgf
      exact .inl (by simp [SegmentStorage.begins, CurrentSegments.new])
    · simp only [SegmentStorage.begins, Function.update_of_ne hgf] at hg ⊢
      exact .inr ⟨g, hg, rfl⟩

theorem forks (hasHttpContext : Bool) :
    KeepsTransaction q s { s with storage := s.storage.forks f g hasHttpContext } where
  startedBy _ := .rfl
  isEnded _ _ := rfl
  isSampled _ _ := rfl
  items := rfl
  asyncLocal i hi := by
    by_cases hig : i = g
    · subst hig
      simp only [SegmentStorage.forks, Function.update_self] at hi ⊢
      exact .inr ⟨f, hi, rfl⟩
    · simp only [SegmentStorage.forks, Function.update_of_ne hig] at hi ⊢
      exact .inr ⟨i, hi, rfl⟩

theorem asyncLocal_setCurrentSpan (storage : SegmentStorage) (span : Option SpanRef) :
    ((container.setCurrentSpan storage f span).asyncLocal g).currentTransaction =
      (storage.asyncLocal g).currentTransaction := by
  simp only [container, HttpContextCurrentExecutionSegmentsContainer, httpContext?_setAsyncLocal]
  by_cases hgf : g = f
  · subst hgf
    cases storage.httpContext? g <;> simp
  · cases storage.httpContext? f <;> simp [setAsyncLocal, hgf]

/-- A call keeps all that when it does not set the current transaction of the request. -/
theorem call (h : s.Apart) (hconfined : s.Confined (.calls f op))
    (hcall : s.call container f op = some s')
    (hwrites : s.storage.request f = q →
      op.writesCurrentTransaction (s.load container f) = false) : KeepsTransaction q s s' := by
  have hitems := Flows.items_step (l := .calls f op) (q := q)
    (fun hsets => absurd ((hwrites hsets.1).symm.trans hsets.2) (by decide)) hcall
  obtain ⟨σ', hstep, rfl⟩ := Flows.call_eq_some.mp hcall
  have hhas {r : TransactionRef} (hr : s.startedBy (.transaction r) = some q) :
      s.objects.hasSegment (.transaction r) := by
    rw [← h.known, hr]
    rfl
  constructor
  case startedBy =>
    intro r
    by_cases hq : s.storage.request f = q
    · have hsize : σ'.transactions.size = s.objects.transactions.size :=
        Tracer.transactions_size_step (σ := s.load container f) hstep (hwrites hq)
      rw [Flows.startedBy_call hcall hsize]
    · by_cases hold : s.objects.hasSegment (.transaction r)
      · change s.starts f σ' (.transaction r) = some q ↔ _
        rw [Flows.starts_old hold]
      · -- A new transaction is one of another request.
        have hnone : s.startedBy (.transaction r) = none := by
          simpa [hold] using h.known (.transaction r)
        simp [Flows.starts, hold, hnone, hq]
  case isEnded =>
    intro r hr
    by_cases hq : s.storage.request f = q
    · exact Tracer.isEnded_step_of_not_writes hstep (hhas hr) (hwrites hq)
    · refine Tracer.isEnded_step_eq hstep (hhas hr) fun now hop => hq ?_
      subst hop
      exact Option.some.inj ((hconfined _ rfl).symm.trans hr)
  case isSampled =>
    intro r hr
    obtain ⟨t, ht⟩ := Tracer.exists_transaction (hhas hr)
    exact Tracer.isSampled?_step hstep ht
  case items => exact hitems
  case asyncLocal =>
    intro g hg
    have hsets := Flows.store_load lawful_httpContextCurrentExecutionSegmentsContainer hstep
    have hgq : s.storage.request g = q := (hsets.request g).symm.trans hg
    refine .inr ⟨g, hgq, ?_⟩
    by_cases hq : s.storage.request f = q
    · simp only [Flows.store, hwrites hq]
      split
      · exact asyncLocal_setCurrentSpan _ _
      · rfl
    · rw [(hsets.agrees q hq).asyncLocal g hgq]

end KeepsTransaction

/-! ### The phases of a request -/

namespace EndedRequest

/-- What is set on the request's transaction, given whether it is sampled where it is a
    `Transaction`. -/
def fieldsOf (e : EndedRequest) (isSampled : Option Bool) : Option RequestFields :=
  match if isSampled.isSome then e.name else .ok none with
  | .error _ => none
  | .ok name => some (e.fields name)

/-- The transaction is ended: nothing was thrown before. -/
def ends (e : EndedRequest) (isSampled : Option Bool) : Bool :=
  (e.fieldsOf isSampled).isSome && !(isSampled = some true && !e.fillsContext)

end EndedRequest

namespace WebApplication

open ElasticApmModule

/-- The transaction of the request, the only one started in it. -/
def TransactionIs (s : Flows) (q : RequestId) (transaction : Option TransactionRef) : Prop :=
  ∀ r, s.startedBy (.transaction r) = some q ↔ transaction = some r

/-- Where the flows of a request look for its transaction. -/
structure Finds (s : SegmentStorage) (q : RequestId) (transaction : Option TransactionRef) :
    Prop where
  items : (s.items q).currentTransaction = transaction
  asyncLocal : ∀ f, s.request f = q →
    (s.asyncLocal f).currentTransaction = none ∨
      (s.asyncLocal f).currentTransaction = transaction

def InPhase (s : WebApplication) (q : RequestId) : RequestPhase → Prop
  | .notBegun =>
    TransactionIs s.flows q none ∧ Finds s.flows.storage q none ∧
      ∀ f, s.flows.storage.request f ≠ q
  | .handled transaction =>
    TransactionIs s.flows q transaction ∧ Finds s.flows.storage q transaction ∧
      ∀ r, transaction = some r →
        s.flows.objects.isEnded (.transaction r) = false ∧ s.fields r = none
  | .ended transaction e =>
    TransactionIs s.flows q transaction ∧ ∀ r, transaction = some r →
      s.flows.objects.isEnded (.transaction r) = e.ends (s.flows.objects.isSampled? r) ∧
        s.fields r = e.fieldsOf (s.flows.objects.isSampled? r)

structure WebInv (s : WebApplication) : Prop where
  apart : s.flows.Apart
  counted : s.flows.objects.EndsCounted
  fields : ∀ r, s.fields r ≠ none → s.flows.objects.hasSegment (.transaction r)
  outside : s.phase outside = .notBegun
  inPhase : ∀ q, q ≠ ApmAgent.outside → s.InPhase q (s.phase q)

variable {s s' : WebApplication} {q : RequestId} {f : Flow}

/-- Every thread with the `HttpContext` finds the transaction. -/
theorem Finds.currentTransaction {storage : SegmentStorage} {transaction : Option TransactionRef}
    (h : Finds storage (storage.request f) transaction)
    (hctx : storage.hasHttpContext f = true) :
    container.currentTransaction storage f = transaction := by
  have hq : storage.httpContext? f = some (storage.request f) :=
    httpContext?_eq_some.mpr ⟨hctx, rfl⟩
  simp only [container, HttpContextCurrentExecutionSegmentsContainer, hq, Option.bind_some,
    h.items]
  obtain hnone | hsome := h.asyncLocal f rfl
  · simp [hnone]
  · cases transaction <;> simp [hsome]

theorem Finds.keeps {t t' : Flows} {transaction : Option TransactionRef}
    (h : Finds t.storage q transaction) (hkeeps : KeepsTransaction q t t') :
    Finds t'.storage q transaction where
  items := hkeeps.items.trans h.items
  asyncLocal f hf := by
    obtain hnone | ⟨g, hg, heq⟩ := hkeeps.asyncLocal f hf
    · exact .inl hnone
    · exact (h.asyncLocal g hg).imp heq.trans heq.trans

/-- A request that the step is not about. -/
theorem InPhase.keeps {phase : RequestPhase} (h : s.InPhase q phase)
    (hkeeps : KeepsTransaction q s.flows s'.flows)
    (hrequest : phase = .notBegun → ∀ f, s'.flows.storage.request f ≠ q)
    (hfields : ∀ r, s.flows.startedBy (.transaction r) = some q → s'.fields r = s.fields r) :
    s'.InPhase q phase := by
  have htransaction {transaction : Option TransactionRef}
      (h : TransactionIs s.flows q transaction) : TransactionIs s'.flows q transaction :=
    fun r => (hkeeps.startedBy r).trans (h r)
  cases phase with
  | notBegun => exact ⟨htransaction h.1, h.2.1.keeps hkeeps, hrequest rfl⟩
  | handled transaction =>
    refine ⟨htransaction h.1, h.2.1.keeps hkeeps, fun r hr => ?_⟩
    have hq := (h.1 r).mpr hr
    rw [hkeeps.isEnded r hq, hfields r hq]
    exact h.2.2 r hr
  | ended transaction e =>
    refine ⟨htransaction h.1, fun r hr => ?_⟩
    have hq := (h.1 r).mpr hr
    rw [hkeeps.isEnded r hq, hfields r hq, hkeeps.isSampled r hq]
    exact h.2 r hr

/-! ### Steps of the flows -/

theorem hasSegment_flowStep {flows flows' : Flows} {l : FlowLabel} {seg : Segment}
    (hstep : flows.step container l = some flows') (hseg : flows.objects.hasSegment seg) :
    flows'.objects.hasSegment seg := by
  cases l with
  | begins f q hasHttpContext => cases hstep; exact hseg
  | forks f g hasHttpContext => cases hstep; exact hseg
  | calls f op =>
    obtain ⟨σ', hσ', rfl⟩ := Flows.call_eq_some.mp hstep
    have hload : (flows.load container f).hasSegment seg = true := by cases seg <;> exact hseg
    exact Tracer.step_hasSegment hσ' hload

/-- What a flow of another request does, and what the application may do in its own. -/
theorem keeps_flowStep {flows flows' : Flows} {l : FlowLabel} (h : flows.Apart)
    (hconfined : flows.Confined l)
    (hwrites : ∀ f op, l = .calls f op → flows.storage.request f = q →
      op.writesCurrentTransaction (flows.load container f) = false)
    (hstep : flows.step container l = some flows') : KeepsTransaction q flows flows' := by
  cases l with
  | begins f q hasHttpContext => cases hstep; exact .begins q hasHttpContext
  | forks f g hasHttpContext => cases hstep; exact .forks hasHttpContext
  | calls f op => exact .call h hconfined hstep (hwrites f op rfl)

/-- Only a thread that is handed over comes to work on a request no flow works on. -/
theorem request_flowStep {flows flows' : Flows} {l : FlowLabel}
    (hl : ∀ f hasHttpContext, l ≠ .begins f q hasHttpContext)
    (hstep : flows.step container l = some flows')
    (hrequest : ∀ f, flows.storage.request f ≠ q) (f : Flow) :
    flows'.storage.request f ≠ q := by
  cases l with
  | begins g q' hasHttpContext =>
    cases hstep
    by_cases hfg : f = g
    · subst hfg
      have hq : q' ≠ q := fun hq => hl f hasHttpContext (hq ▸ rfl)
      simpa [SegmentStorage.begins] using hq
    · simpa [SegmentStorage.begins, hfg] using hrequest f
  | forks i g hasHttpContext =>
    cases hstep
    by_cases hfg : f = g
    · subst hfg
      simpa [SegmentStorage.forks] using hrequest i
    · simpa [SegmentStorage.forks, hfg] using hrequest f
  | calls g op =>
    obtain ⟨σ', hσ', rfl⟩ := Flows.call_eq_some.mp hstep
    have hsets := Flows.store_load lawful_httpContextCurrentExecutionSegmentsContainer hσ'
    rw [hsets.request]
    exact hrequest f

/-- Steps in flows of one request, as the other requests see them. -/
structure WorksOn (p : RequestId) (flows flows' : Flows) : Prop where
  apart : flows'.Apart
  counted : flows'.objects.EndsCounted
  hasSegment : ∀ seg, flows.objects.hasSegment seg → flows'.objects.hasSegment seg
  keeps : ∀ q, q ≠ p → KeepsTransaction q flows flows'
  request : ∀ q, q ≠ p → (∀ f, flows.storage.request f ≠ q) →
    ∀ f, flows'.storage.request f ≠ q

theorem WorksOn.refl (p : RequestId) {flows : Flows} (h : flows.Apart)
    (hcounted : flows.objects.EndsCounted) : WorksOn p flows flows :=
  ⟨h, hcounted, fun _ hseg => hseg, fun q _ => .refl q flows, fun _ _ hrequest => hrequest⟩

theorem WorksOn.trans {p : RequestId} {flows flows' flows'' : Flows}
    (h : WorksOn p flows flows') (h' : WorksOn p flows' flows'') : WorksOn p flows flows'' where
  apart := h'.apart
  counted := h'.counted
  hasSegment seg hseg := h'.hasSegment seg (h.hasSegment seg hseg)
  keeps q hq := (h.keeps q hq).trans (h'.keeps q hq)
  request q hq hrequest := h'.request q hq (h.request q hq hrequest)

theorem worksOn_begins {flows : Flows} (h : flows.Apart) (hcounted : flows.objects.EndsCounted)
    (p : RequestId) (hasHttpContext : Bool) :
    WorksOn p flows { flows with storage := flows.storage.begins f p hasHttpContext } := by
  have hstep : flows.step container (.begins f p hasHttpContext) = some
      { flows with storage := flows.storage.begins f p hasHttpContext } := rfl
  have hconfined : flows.Confined (.begins f p hasHttpContext) := trivial
  refine ⟨h.step lawful_httpContextCurrentExecutionSegmentsContainer hconfined hstep,
    Flows.endsCounted_step hcounted hstep, fun _ => hasSegment_flowStep hstep,
    fun q _ => .begins p hasHttpContext, fun q hq => request_flowStep ?_ hstep⟩
  rintro g b ⟨⟩
  exact hq rfl

theorem worksOn_call {flows flows' : Flows} {op : Op} (h : flows.Apart)
    (hcounted : flows.objects.EndsCounted) (hconfined : flows.Confined (.calls f op))
    (hcall : flows.call container f op = some flows') :
    WorksOn (flows.storage.request f) flows flows' := by
  have hstep : flows.step container (.calls f op) = some flows' := hcall
  exact ⟨h.step lawful_httpContextCurrentExecutionSegmentsContainer hconfined hstep,
    Flows.endsCounted_step hcounted hstep, fun _ => hasSegment_flowStep hstep,
    fun q hq => .call h hconfined hcall fun heq => absurd heq.symm hq,
    fun q hq => request_flowStep (by simp) hstep⟩

/-- The requests a step is not about. -/
theorem WebInv.inPhase_of_ne (h : s.WebInv) {p : RequestId} (hworks : WorksOn p s.flows s'.flows)
    (hphase : ∀ q, q ≠ p → s'.phase q = s.phase q)
    (hfields : ∀ r, s.flows.startedBy (.transaction r) ≠ some p → s'.fields r = s.fields r)
    (hq : q ≠ p) (hne : q ≠ ApmAgent.outside) : s'.InPhase q (s'.phase q) := by
  have hold := h.inPhase q hne
  rw [hphase q hq]
  refine hold.keeps (hworks.keeps q hq) (fun hphase => ?_) fun r hr => hfields r ?_
  · rw [hphase] at hold
    exact hworks.request q hq hold.2.2
  · rw [hr]
    exact fun heq => hq (Option.some.inj heq)

/-- A request goes into its next phase. -/
theorem WebInv.setPhase (h : s.WebInv) {p : RequestId} {phase : RequestPhase}
    (hp : p ≠ ApmAgent.outside) (hworks : WorksOn p s.flows s'.flows)
    (hphase : s'.phase = s.phase)
    (hfields : ∀ r, s.flows.startedBy (.transaction r) ≠ some p → s'.fields r = s.fields r)
    (hknown : ∀ r, s'.fields r ≠ none → s'.flows.objects.hasSegment (.transaction r))
    (hin : s'.InPhase p phase) : (s'.setPhase p phase).WebInv where
  apart := hworks.apart
  counted := hworks.counted
  fields := hknown
  outside := by simpa [WebApplication.setPhase, Ne.symm hp, hphase] using h.outside
  inPhase q hq := by
    by_cases hqp : q = p
    · subst hqp
      have hself : (s'.setPhase q phase).phase q = phase := by simp [WebApplication.setPhase]
      rw [hself]
      exact hin
    · exact h.inPhase_of_ne hworks
        (fun q' hq' => by simp [WebApplication.setPhase, hq', hphase]) hfields hqp hq

/-! ### The steps of the application -/

/-- The application works in a request on its own segments, and neither starts nor ends a
    transaction there. -/
def LeavesTransactions (s : WebApplication) : WebLabel → Prop
  | .flow l => s.flows.Confined l ∧ ∀ f op, l = .calls f op →
      s.flows.storage.request f ≠ ApmAgent.outside →
        op.writesCurrentTransaction (s.flows.load container f) = false
  | .beginRequest _ _ _ _ _ | .endRequest _ _ => True

section

variable [InvariantCulture]

omit [InvariantCulture] in
theorem webInv_new : new.WebInv where
  apart := Flows.apart_new
  counted := Tracer.endsCounted_new
  fields r h := absurd rfl h
  outside := rfl
  inPhase q hq := ⟨by simp [TransactionIs, new, Flows.new], ⟨rfl, fun _ _ => .inl rfl⟩,
    fun _ => Ne.symm hq⟩

theorem WebInv.flow (h : s.WebInv) {l : FlowLabel} (hl : s.LeavesTransactions (.flow l))
    (hstep : s.step (.flow l) = some s') : s'.WebInv := by
  simp only [step] at hstep
  split at hstep
  case isFalse => cases hstep
  case isTrue hallows =>
    obtain ⟨flows', hflow, rfl⟩ := Option.map_eq_some_iff.mp hstep
    obtain ⟨hconfined, hwrites⟩ := hl
    refine ⟨h.apart.step lawful_httpContextCurrentExecutionSegmentsContainer hconfined hflow,
      Flows.endsCounted_step h.counted hflow, fun r hr => hasSegment_flowStep hflow (h.fields r hr),
      h.outside, fun q hq => ?_⟩
    have hold := h.inPhase q hq
    refine hold.keeps (keeps_flowStep h.apart hconfined (fun f op hop hf => ?_) hflow)
      (fun hphase => ?_) fun _ _ => rfl
    · exact hwrites f op hop (hf ▸ hq)
    · rw [hphase] at hold
      refine request_flowStep (fun f b hl => ?_) hflow hold.2.2
      subst hl
      simp [allows, hq, hphase, RequestPhase.isBegun] at hallows

omit [InvariantCulture] in
/-- The transaction that is started is the one of the request. -/
theorem transactionIs_started {flows : Flows} {σ' : Tracer} {t : ITransaction}
    (h : flows.Apart) (hq : flows.storage.request f = q) (hnone : TransactionIs flows q none)
    (htransactions : σ'.transactions = flows.objects.transactions.alloc t)
    (r : TransactionRef) :
    flows.starts f σ' (.transaction r) = some q ↔
      some flows.objects.transactions.size = some r := by
  have hold := hnone r
  have hknown := h.known (.transaction r)
  simp only [Tracer.hasSegment] at hknown
  have hsize : σ'.transactions.size = flows.objects.transactions.size + 1 := by
    rw [htransactions, Store.size_alloc]
  simp only [Flows.starts, Tracer.hasSegment, hsize, hq]
  rcases Nat.lt_trichotomy r flows.objects.transactions.size with hlt | rfl | hgt
  · simpa [hlt, Nat.ne_of_gt hlt] using hold
  · simp
  · have hle : ¬r < flows.objects.transactions.size + 1 :=
      Nat.not_lt.mpr (Nat.succ_le_of_lt hgt)
    simpa [hle, Nat.ne_of_lt hgt] using hold

omit [InvariantCulture] in
/-- The thread of a request that begins finds the transaction the module has started. -/
theorem handled_beginCall {flows flows' : Flows} {start : Option TransactionStart}
    (h : flows.Apart) (hq : flows.storage.request f = q)
    (hctx : flows.storage.hasHttpContext f = true) (hnone : TransactionIs flows q none)
    (hfinds : Finds flows.storage q none) (honly : ∀ g, flows.storage.request g = q → g = f)
    (hcall : beginCall flows f start = some flows') :
    TransactionIs flows' q (start.map fun _ => flows.objects.transactions.size) ∧
      Finds flows'.storage q (start.map fun _ => flows.objects.transactions.size) ∧
      (start ≠ none →
        flows'.objects.isEnded (.transaction flows.objects.transactions.size) = false) := by
  cases start with
  | none =>
    cases hcall
    exact ⟨hnone, hfinds, fun hne => absurd rfl hne⟩
  | some a =>
    have hitems := Flows.items_call hcall hctx rfl
    obtain ⟨σ', hstep, rfl⟩ := Flows.call_eq_some.mp hcall
    obtain ⟨t, hended, htransactions, hcurrent⟩ := Tracer.startTransaction_spec hstep
    refine ⟨transactionIs_started h hq hnone htransactions, ⟨?_, fun g hg => .inr ?_⟩, fun _ => ?_⟩
    · rw [← hq, hitems, hcurrent]
      rfl
    · have hsets := Flows.store_load lawful_httpContextCurrentExecutionSegmentsContainer hstep
      have hg : g = f := honly g ((hsets.request g).symm.trans hg)
      subst hg
      have hhttp : flows.storage.httpContext? g = some q := httpContext?_eq_some.mpr ⟨hctx, hq⟩
      change ((container.setCurrentTransaction flows.storage g σ'.currentTransaction).asyncLocal
        g).currentTransaction = _
      simp [container, HttpContextCurrentExecutionSegmentsContainer, hhttp, hcurrent, Flows.load]
    · have hget : σ'.transactions.get? flows.objects.transactions.size = some t := by
        rw [htransactions]
        exact Store.get?_alloc_size _ t
      simp [Tracer.isEnded, hget, hended]

theorem WebInv.beginRequest (h : s.WebInv) {transactionIgnoreUrls : List WildcardMatcher}
    {request : IncomingRequest} {a : TransactionStart}
    (hstep : s.step (.beginRequest f q transactionIgnoreUrls request a) = some s') :
    s'.WebInv := by
  simp only [step] at hstep
  split at hstep
  case isTrue => cases hstep
  case isFalse hguard =>
    obtain ⟨hcall, htransaction⟩ :=
      onBeginRequest_eq (s.handThread f q) f transactionIgnoreUrls request a
    rw [Option.some_inj] at hstep
    subst hstep
    rw [htransaction]
    simp only [Bool.or_eq_true, decide_eq_true_eq, not_or] at hguard
    obtain ⟨hne, hbegun⟩ := hguard
    have hphase : s.phase q = .notBegun := by
      revert hbegun
      cases s.phase q <;> simp [RequestPhase.isBegun]
    have hold := h.inPhase q hne
    rw [hphase] at hold
    obtain ⟨hnone, hfinds, hrequest⟩ := hold
    generalize transactionStart? transactionIgnoreUrls request a = start at hcall ⊢
    generalize (onBeginRequest (s.handThread f q) f transactionIgnoreUrls request a).1 = flows'
      at hcall ⊢
    have hbegins : WorksOn q s.flows (s.handThread f q) :=
      worksOn_begins h.apart h.counted q true
    -- The thread that was handed over is the only flow of the request.
    have hof : (s.handThread f q).storage.request f = q := by
      simp [handThread, SegmentStorage.begins]
    have honly (g : Flow) (hg : (s.handThread f q).storage.request g = q) : g = f := by
      by_contra hgf
      exact hrequest g (by simpa [handThread, SegmentStorage.begins, hgf] using hg)
    have hworks : WorksOn q s.flows flows' := by
      cases start with
      | none => cases hcall; exact hbegins
      | some a =>
        have hcall' := worksOn_call hbegins.apart hbegins.counted (by rintro _ ⟨⟩) hcall
        rw [hof] at hcall'
        exact hbegins.trans hcall'
    obtain ⟨htransaction, hfinds', hended⟩ :=
      handled_beginCall hbegins.apart hof (by simp [handThread, SegmentStorage.begins])
        hnone (hfinds.keeps (.begins q true)) honly hcall
    refine h.setPhase hne hworks rfl (fun _ _ => rfl)
      (fun r hr => hworks.hasSegment _ (h.fields r hr)) ⟨htransaction, hfinds', fun r hr => ?_⟩
    obtain ⟨b, hb, rfl⟩ := Option.map_eq_some_iff.mp hr
    refine ⟨hended (by simp [hb]), ?_⟩
    -- Nothing was set on a transaction that was not there.
    by_contra hfields
    simpa [Tracer.hasSegment, handThread] using h.fields _ hfields

omit [InvariantCulture] in
/-- What `OnEndRequest` does where it finds a transaction nothing was set on. -/
theorem onEndRequest_spec {e : EndedRequest} {r : TransactionRef}
    (hcurrent : container.currentTransaction s.flows.storage f = some r)
    (hfields : s.fields r = none) (hend : onEndRequest s f e = some s') :
    ∃ flows, sendErrorEventIfPresent s.flows f r e = some flows ∧ s'.phase = s.phase ∧
      s'.fields = Function.update s.fields r (e.fieldsOf (flows.objects.isSampled? r)) ∧
      if e.ends (flows.objects.isSampled? r) then
        flows.call container f (.endSegment (.transaction r) e.now) = some s'.flows
      else s'.flows = flows := by
  have hsampled (σ : Tracer) : σ.isSampled? r = (σ.transaction? r).map (·.isSampled) := by
    unfold Tracer.isSampled? Tracer.transaction?
    rcases σ.transactions.get? r with _ | t | n <;> rfl
  unfold onEndRequest at hend
  rw [hcurrent] at hend
  obtain ⟨flows, herror, hend⟩ := Option.bind_eq_some_iff.mp hend
  refine ⟨flows, herror, ?_⟩
  dsimp only at hend
  have hsome : (flows.objects.transaction? r).isSome =
      (flows.objects.isSampled? r).isSome := by
    rw [hsampled, Option.isSome_map]
  have hany : (flows.objects.transaction? r).any (·.isSampled) =
      decide (flows.objects.isSampled? r = some true) := by
    rw [hsampled]
    cases flows.objects.transaction? r <;> simp
  rw [hsome, hany] at hend
  split at hend
  · next error hname =>
    have hnone : e.fieldsOf (flows.objects.isSampled? r) = none := by
      rw [EndedRequest.fieldsOf, hname]
    cases hend
    rw [EndedRequest.ends, hnone]
    refine ⟨rfl, ?_, rfl⟩
    rw [← hfields, Function.update_eq_self]
  · next name hname =>
    have hset : e.fieldsOf (flows.objects.isSampled? r) = some (e.fields name) := by
      rw [EndedRequest.fieldsOf, hname]
    rw [EndedRequest.ends, hset]
    split at hend
    · next hthrows =>
      cases hend
      rw [hthrows]
      exact ⟨rfl, rfl, rfl⟩
    · next hfills =>
      obtain ⟨flows', hcall, hend⟩ := Option.bind_eq_some_iff.mp hend
      cases hend
      rw [Bool.not_eq_true] at hfills
      rw [hfills]
      exact ⟨rfl, rfl, hcall⟩

omit [InvariantCulture] in
/-- Reporting the error of a request changes nothing about its transaction. -/
theorem worksOn_sendErrorEventIfPresent {flows flows' : Flows} {r : TransactionRef}
    {e : EndedRequest} (h : flows.Apart) (hcounted : flows.objects.EndsCounted)
    (hr : flows.startedBy (.transaction r) = some (flows.storage.request f))
    (hsend : sendErrorEventIfPresent flows f r e = some flows') :
    WorksOn (flows.storage.request f) flows flows' ∧
      KeepsTransaction (flows.storage.request f) flows flows' ∧
      flows'.storage.request f = flows.storage.request f := by
  unfold sendErrorEventIfPresent at hsend
  split at hsend
  · have hconfined : flows.Confined (.calls f (.captureException (.transaction r) none)) := by
      rintro _ ⟨⟩
      exact hr
    refine ⟨worksOn_call h hcounted hconfined hsend, .call h hconfined hsend fun _ => rfl, ?_⟩
    obtain ⟨σ', hσ', rfl⟩ := Flows.call_eq_some.mp hsend
    exact (Flows.store_load lawful_httpContextCurrentExecutionSegmentsContainer hσ').request f
  · cases hsend
    exact ⟨.refl _ h hcounted, .refl _ flows, rfl⟩

omit [InvariantCulture] in
/-- `End` ends the transaction, and starts none. -/
theorem endSegment_call {flows flows' : Flows} {r : TransactionRef} {now : Int}
    (hcall : flows.call container f (.endSegment (.transaction r) now) = some flows') :
    flows'.objects.isEnded (.transaction r) = true ∧
      flows'.objects.isSampled? r = flows.objects.isSampled? r ∧
      ∀ r', flows'.startedBy (.transaction r') = flows.startedBy (.transaction r') := by
  have hcall' := hcall
  obtain ⟨σ', hstep, rfl⟩ := Flows.call_eq_some.mp hcall'
  have hsize : σ'.transactions.size = flows.objects.transactions.size ∧
      ∃ t, flows.objects.transactions.get? r = some t := by
    obtain ⟨seg, hseg, rfl⟩ := Option.map_eq_some_iff.mp hstep
    have hspec := Tracer.resolve_spec hseg
    cases seg with
    | transaction r' t =>
      obtain ⟨⟨rfl⟩, ht⟩ := hspec
      exact ⟨by simp [IExecutionSegment.endSegment, Flows.load], .transaction t, ht⟩
    | noopTransaction r' =>
      obtain ⟨⟨rfl⟩, n, hn⟩ := hspec
      exact ⟨by simp [IExecutionSegment.endSegment, NoopTransaction.endTransaction, Flows.load],
        .noop n, hn⟩
    | span k s t => cases hspec.1
    | noopSpan k s => cases hspec.1
  obtain ⟨hsize, t, ht⟩ := hsize
  exact ⟨Tracer.isEnded_endSegment hstep, Tracer.isSampled?_step hstep ht,
    Flows.startedBy_call hcall hsize⟩

theorem WebInv.endRequest (h : s.WebInv) {e : EndedRequest}
    (hstep : s.step (.endRequest f e) = some s') : s'.WebInv := by
  simp only [step] at hstep
  split at hstep
  case h_2 => cases hstep
  case h_3 => cases hstep
  case h_1 transaction hphase =>
    split at hstep
    case isFalse => cases hstep
    case isTrue hctx =>
      obtain ⟨t, hend, rfl⟩ := Option.map_eq_some_iff.mp hstep
      have hne : s.flows.storage.request f ≠ ApmAgent.outside := by
        intro hq
        rw [hq, h.outside] at hphase
        cases hphase
      have hold := h.inPhase _ hne
      rw [hphase] at hold
      obtain ⟨htransaction, hfinds, hopen⟩ := hold
      have hcurrent := hfinds.currentTransaction hctx
      cases transaction with
      | none =>
        rw [onEndRequest, hcurrent] at hend
        cases hend
        exact h.setPhase hne (.refl _ h.apart h.counted) rfl (fun _ _ => rfl) h.fields
          ⟨htransaction, by simp⟩
      | some r =>
        obtain ⟨hopened, hunset⟩ := hopen r rfl
        have hr := (htransaction r).mpr rfl
        obtain ⟨flows, hsend, hsame, hfields, hends⟩ := onEndRequest_spec hcurrent hunset hend
        obtain ⟨hworks, hkeeps, hrequest⟩ :=
          worksOn_sendErrorEventIfPresent h.apart h.counted hr hsend
        have hr' := (hkeeps.startedBy r).mpr hr
        have hother (r' : TransactionRef)
            (hne : s.flows.startedBy (.transaction r') ≠ some (s.flows.storage.request f)) :
            t.fields r' = s.fields r' := by
          rw [hfields, Function.update_of_ne]
          rintro rfl
          exact hne hr
        -- What the module has done after it has reported the error.
        have hended : WorksOn (s.flows.storage.request f) flows t.flows ∧
            TransactionIs t.flows (s.flows.storage.request f) (some r) ∧
            t.flows.objects.isSampled? r = flows.objects.isSampled? r ∧
            t.flows.objects.isEnded (.transaction r) =
              e.ends (flows.objects.isSampled? r) := by
          by_cases hcase : e.ends (flows.objects.isSampled? r) = true
          · rw [if_pos hcase] at hends
            obtain ⟨hended, hsampled, hstartedBy⟩ := endSegment_call hends
            have hworks' := worksOn_call hworks.apart hworks.counted
              (by rintro _ ⟨⟩; rw [hr', hrequest]) hends
            rw [hrequest] at hworks'
            refine ⟨hworks', fun r' => ?_, hsampled, hended.trans hcase.symm⟩
            rw [hstartedBy, hkeeps.startedBy, htransaction]
          · rw [if_neg hcase] at hends
            rw [hends]
            refine ⟨.refl _ hworks.apart hworks.counted, fun r' => ?_, rfl, ?_⟩
            · rw [hkeeps.startedBy, htransaction]
            · rw [hkeeps.isEnded r hr, hopened]
              simpa using hcase
        obtain ⟨hworks', hstartedBy, hsampled, hended⟩ := hended
        have hall := hworks.trans hworks'
        refine h.setPhase hne hall hsame hother (fun r' hr' => ?_) ⟨hstartedBy, ?_⟩
        · by_cases heq : r' = r
          · subst heq
            refine hall.hasSegment _ ?_
            rw [← h.apart.known, hr]
            rfl
          · rw [hfields, Function.update_of_ne heq] at hr'
            exact hall.hasSegment _ (h.fields r' hr')
        · rintro _ ⟨rfl⟩
          rw [hsampled, hfields, Function.update_self]
          exact ⟨hended, rfl⟩

theorem WebInv.step (h : s.WebInv) {l : WebLabel} (hl : s.LeavesTransactions l)
    (hstep : s.step l = some s') : s'.WebInv := by
  cases l with
  | beginRequest f q transactionIgnoreUrls request a => exact h.beginRequest hstep
  | flow l => exact h.flow hl hstep
  | endRequest f e => exact h.endRequest hstep

end

/-! ### Every request has its own transaction -/

/-- What is reported of the requests of an application. -/
structure RequestsEnded (s : WebApplication) : Prop where
  /-- A request that is handled is in its transaction, on every thread with its `HttpContext`. -/
  handled : ∀ q transaction, s.phase q = .handled transaction →
    TransactionIs s.flows q transaction ∧
      (∀ f, s.flows.storage.request f = q → s.flows.storage.hasHttpContext f = true →
        container.currentTransaction s.flows.storage f = transaction) ∧
      ∀ r, transaction = some r → s.flows.objects.isEnded (.transaction r) = false
  /-- A request that has ended has ended its transaction, with what the request ended with, unless
      something was thrown. -/
  ended : ∀ q transaction e, s.phase q = .ended transaction e →
    TransactionIs s.flows q transaction ∧ ∀ r, transaction = some r →
      s.flows.objects.isEnded (.transaction r) = e.ends (s.flows.objects.isSampled? r) ∧
        s.fields r = e.fieldsOf (s.flows.objects.isSampled? r)
  /-- A transaction is reported once, when it is ended. -/
  reported : ∀ r t, s.flows.objects.transactions.get? r = some (.transaction t) →
    s.flows.objects.queued.count (.transaction r) = if t.isEnded then 1 else 0

/-- Two requests, handled at the same time. The first goes on, and is ended, on a thread without
    its execution context. -/
def twoRequests : List WebLabel :=
  [.beginRequest 1 1 [] ⟨"/a", []⟩ .sampled, .beginRequest 2 2 [] ⟨"/b", []⟩ .sampled,
    .flow (.begins 3 1 true),
    .flow (.calls 3 (.startSpan (.transaction 0) ⟨"a1b2c3d4e5f60718", 1⟩)),
    .endRequest 2 ⟨false, true, .ok none, 200, true, 2⟩,
    .endRequest 3 ⟨true, false, .ok (some "GET Home/Index"), 500, true, 3⟩]

theorem leavesTransactions_twoRequests :
    (@webSystem .ascii).Along LeavesTransactions new twoRequests := by
  -- Two requests begin, and a thread is handed to the first one,
  iterate 2
    intro s' hs'
    refine ⟨trivial, ?_⟩
    cases hs'
  intro s' hs'
  refine ⟨⟨trivial, fun _ _ h => by cases h⟩, ?_⟩
  cases hs'
  -- on which a span is started.
  intro s' hs'
  refine ⟨⟨by rintro _ ⟨⟩; rfl, fun _ _ h _ => by cases h; rfl⟩, ?_⟩
  cases hs'
  iterate 2
    intro s' hs'
    refine ⟨trivial, ?_⟩
    cases hs'
  trivial

end WebApplication

end ApmAgent
