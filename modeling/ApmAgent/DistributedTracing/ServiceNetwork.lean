import ApmAgent.DistributedTracing.RequestHeaders
import ApmAgent.Framework.Components

/-! # A network of services

  Services that call each other over HTTP, each with an agent of its own. The
  network is not trusted with anything: a request may be lost, or arrive late,
  more than once, and at any service. What is relied on is that a `traceparent`
  was written by one of the agents, and that generated ids are valid.

  `descends_from_root`: every transaction descends from one that no other
  started, through services whose headers were followed; it is in the trace of
  that root and is sampled exactly if the root is. In particular its parent id
  is the id of a segment some service sends.
-/

namespace ApmAgent

open TraceContext

/-! ### The system -/

/-- What happens at one service. -/
inductive ServiceLabel (TRequest : Type) where
  /-- An event of the HTTP listener, or a call on the tracer. -/
  | listener (l : ListenerLabel (HttpEvent TRequest))
  /-- A request comes in. -/
  | beginRequest (framework : WebFramework) (configSnapshot : ConfigSnapshot)
      (request : IncomingRequest) (a : TransactionStart)

/-- The tracer is what an incoming request changes of a service. -/
def HttpDiagnosticListener.withTracer {TRequest : Type} (s : HttpDiagnosticListener TRequest)
    (σ : Tracer) : HttpDiagnosticListener TRequest :=
  { s with spans := { s.spans with agent := { s.spans.agent with tracer := σ } } }

section

variable [InvariantCulture] {TRequest : Type} [DecidableEq TRequest]

/-- A freshly started service, and what happens to it. -/
def serviceSystem (impl : HttpDiagnosticListenerImpl) :
    LTS.System (HttpDiagnosticListener TRequest) (ServiceLabel TRequest) where
  init s := s.spans.IsNew ∧ s.spans.tracer = .new ∧ s.headersAdded = []
  step s
    | .listener l => HttpDiagnosticListener.step impl s l
    | .beginRequest framework configSnapshot request a =>
      some (s.withTracer (framework.beginRequest s.spans.tracer configSnapshot request a))

variable {Service : Type} [DecidableEq Service]

/-- The services of the network; each runs on one of the two frameworks. -/
def network (impl : Service → HttpDiagnosticListenerImpl) :
    LTS.System (Service → HttpDiagnosticListener TRequest) (Service × ServiceLabel TRequest) :=
  LTS.System.family fun i => serviceSystem (impl i)

end

section

variable {TRequest Service : Type}

/-- The state of the network. -/
abbrev Network (Service TRequest : Type) := Service → HttpDiagnosticListener TRequest

namespace Network

/-- A transaction of some service. -/
def lineage? (net : Network Service TRequest) (x : Service × TransactionRef) :
    Option TransactionLineage :=
  (net x.1).spans.tracer.lineage? x.2

/-- An agent has added a header with this `traceparent` to a request. -/
def Added (net : Network Service TRequest) (v : String) : Prop :=
  ∃ i request name, (request, name, v) ∈ (net i).headersAdded ∧
    HttpDiagnosticListener.IsTraceparentName name

/-- The parent id of `x` is the id of `y` or of a span of `y` that is sent, and both are in one
    trace with one sampling decision. -/
def ChildOf (net : Network Service TRequest) (x y : Service × TransactionRef) : Prop :=
  ∃ l m id, net.lineage? x = some l ∧ net.lineage? y = some m ∧ l.parentId = some id ∧
    (net y.1).spans.tracer.IsKeptId y.2 id ∧ l.traceId = m.traceId ∧ l.isSampled = m.isSampled

/-- A transaction that continues no trace. -/
def IsRoot (net : Network Service TRequest) (x : Service × TransactionRef) : Prop :=
  ∃ l, net.lineage? x = some l ∧ l.parentId = none

/-- Every transaction descends from a root. -/
def Rooted (net : Network Service TRequest) : Prop :=
  ∀ x l, net.lineage? x = some l → Descends net.IsRoot net.ChildOf x

/-- No transaction is an orphan, and a trace has one root, which decided on its sampling. -/
structure TracesAreWhole (net : Network Service TRequest) : Prop where
  parent : ∀ x l id, net.lineage? x = some l → l.parentId = some id →
    ∃ y, net.ChildOf x y ∧ (net y.1).spans.tracer.IsKeptId y.2 id
  root : ∀ x l, net.lineage? x = some l →
    ∃ y m, net.lineage? y = some m ∧ m.parentId = none ∧
      Relation.ReflTransGen net.ChildOf x y ∧ l.traceId = m.traceId ∧ l.isSampled = m.isSampled

/-- Nothing but requests carries tracing data from service to service, and their `traceparent`
    was written by an agent; the ids that are generated are valid. -/
def IsAuthentic [InvariantCulture] (net : Network Service TRequest) :
    Service × ServiceLabel TRequest → Prop
  | (_, .listener l) => HttpDiagnosticListener.LabelStaysInside l
  | (_, .beginRequest _ _ request a) =>
    IsHexId a.id.toList 16 ∧ IsHexId a.traceId.toList 32 ∧
      ∀ v, request.headers.traceparent = some v → net.Added v

/-! ### One service -/

/-- What is true of each service. -/
structure ServiceInvariant (s : HttpDiagnosticListener TRequest) : Prop where
  traced : s.spans.tracer.Traced
  validIds : s.spans.tracer.HasValidIds
  headers : s.NamedHeaders

/-- What happens to one service keeps its transactions and the ids it has handed out. -/
structure Keeps (s t : HttpDiagnosticListener TRequest) : Prop where
  lineage? : ∀ r l, s.spans.tracer.lineage? r = some l → t.spans.tracer.lineage? r = some l
  isKeptId : ∀ r id, s.spans.tracer.IsKeptId r id → t.spans.tracer.IsKeptId r id

theorem Keeps.refl (s : HttpDiagnosticListener TRequest) : Keeps s s :=
  ⟨fun _ _ => id, fun _ _ => id⟩

theorem keeps_of_moves {allowed : Op → Prop} {s t : HttpDiagnosticListener TRequest}
    (h : HttpDiagnosticListener.Moves allowed s t) : Keeps s t where
  lineage? _ _ hl := Tracer.Move.keeps (fun _ _ => Tracer.lineage?_move) h hl
  isKeptId _ _ hkept := Tracer.Move.keeps (fun _ _ => Tracer.isKeptId_move) h hkept

/-- An agent can tell where data comes from that it has read from a header of the network. -/
theorem exists_names_of_added [InvariantCulture] {net : Network Service TRequest}
    (hnet : ∀ i, ServiceInvariant (net i)) {v : String} (hadded : net.Added v)
    {traceStateValue : Option String} {d : DistributedTracingData}
    (hread : tryExtractTracingData (some v) traceStateValue = .ok (some d)) :
    ∃ j q e, (net j).spans.tracer.NamesTransaction q e ∧ IsHexId d.traceId.toList 32 ∧
      d.traceId = e.traceId ∧ d.parentId = e.parentId ∧ d.flagRecorded = e.flagRecorded := by
  obtain ⟨j, request, name, hmem, hname⟩ := hadded
  obtain ⟨q, e, hnames, hv⟩ := (hnet j).headers request name v hmem hname
  have hback := hnames.read (hnet j).validIds traceStateValue
  rw [hv, hread] at hback
  cases hback
  obtain ⟨l, hl, htraceId, -⟩ := hnames.lineage
  exact ⟨j, q, e, hnames, by rw [htraceId]; exact ((hnet j).validIds.transactions q l hl).2,
    rfl, rfl, rfl⟩

/-! ### Starting transactions -/

/-- The transaction is a root, or continues the trace of one in the network. -/
def Attached (net : Network Service TRequest) (l : TransactionLineage) : Prop :=
  l.parentId = none ∨ ∃ y m id, net.lineage? y = some m ∧ l.parentId = some id ∧
    (net y.1).spans.tracer.IsKeptId y.2 id ∧ l.traceId = m.traceId ∧ l.isSampled = m.isSampled

theorem attached_of_names {net : Network Service TRequest} {a : TransactionStart}
    {d e : DistributedTracingData} {j : Service} {q : TransactionRef}
    (hdata : a.distributedTracingData = some d)
    (hnames : (net j).spans.tracer.NamesTransaction q e) (htraceId : d.traceId = e.traceId)
    (hparentId : d.parentId = e.parentId) (hflag : d.flagRecorded = e.flagRecorded) :
    net.Attached (Transaction.ofStart a).lineage := by
  obtain ⟨m, hm, hm₁, hm₂⟩ := hnames.lineage
  refine .inr ⟨(j, q), m, e.parentId, hm, ?_, hnames.parent, ?_, ?_⟩
  · simp [Transaction.lineage, Transaction.ofStart, hdata, hparentId]
  · simp [Transaction.lineage, Transaction.ofStart, hdata, htraceId, hm₁]
  · simp [Transaction.lineage, Transaction.ofStart, hdata, hflag, hm₂]

theorem attached_of_none {net : Network Service TRequest} {a : TransactionStart}
    (hdata : a.distributedTracingData = none) :
    net.Attached (Transaction.ofStart a).lineage := by
  refine .inl ?_
  simp [Transaction.lineage, Transaction.ofStart, hdata]

/-- What one step at a service does, as the network sees it. -/
structure ServiceStep (net : Network Service TRequest) (i : Service)
    (t : HttpDiagnosticListener TRequest) : Prop where
  invariant : ServiceInvariant t
  keeps : Keeps (net i) t
  started : ∀ r l, t.spans.tracer.lineage? r = some l →
    (net i).spans.tracer.lineage? r = some l ∨ net.Attached l

/-- A transaction that was not there before a move has been started without incoming data. -/
theorem attached_of_moves {net : Network Service TRequest} {σ σ' : Tracer}
    (h : Relation.ReflTransGen (Tracer.Move HttpDiagnosticListener.StaysInside) σ σ')
    {r : TransactionRef} {l : TransactionLineage} (hl : σ'.lineage? r = some l) :
    σ.lineage? r = some l ∨ net.Attached l := by
  induction h with
  | refl => exact .inl hl
  | tail _ hmove ih =>
    cases hmove with
    | flow _ _ => exact ih hl
    | call hop hstep =>
      rcases Tracer.lineage?_of_step hstep hl with hold | ⟨a, rfl, -, rfl⟩
      · exact ih hold
      · exact .inr (attached_of_none (hop.2 a rfl))

variable {net : Network Service TRequest}

theorem serviceStep_listener [DecidableEq TRequest] (impl : HttpDiagnosticListenerImpl) {i : Service}
    {l : ListenerLabel (HttpEvent TRequest)} {t : HttpDiagnosticListener TRequest}
    (hnet : ∀ j, ServiceInvariant (net j)) (hl : HttpDiagnosticListener.LabelStaysInside l)
    (hstep : HttpDiagnosticListener.step impl (net i) l = some t) : net.ServiceStep i t where
  invariant :=
    have hmoves := (HttpDiagnosticListener.step_moves impl hl hstep).1
    { traced := Tracer.Move.keeps (fun _ _ => Tracer.Traced.move) hmoves (hnet i).traced
      validIds := Tracer.Move.keeps (fun _ _ => Tracer.HasValidIds.move fun _ h => h.1) hmoves
        (hnet i).validIds
      headers := (hnet i).headers.step impl hl (hnet i).traced hstep }
  keeps := keeps_of_moves (HttpDiagnosticListener.step_moves impl hl hstep).1
  started _ _ := attached_of_moves (HttpDiagnosticListener.step_moves impl hl hstep).1

/-- `StartTransaction` at a service. -/
theorem serviceStep_startTransaction {i : Service} {a : TransactionStart}
    (hnet : ∀ j, ServiceInvariant (net j)) (hid : IsHexId a.id.toList 16)
    (htraceId : IsHexId (Transaction.ofStart a).traceId.toList 32)
    (hattached : net.Attached (Transaction.ofStart a).lineage) :
    net.ServiceStep i ((net i).withTracer ((net i).spans.tracer.startTransaction a)) := by
  have hstep : (net i).spans.tracer.step (.startTransaction a) =
      some ((net i).spans.tracer.startTransaction a) := rfl
  have hvalid : Tracer.GeneratesValidIds (.startTransaction a) := by
    refine ⟨?_, ?_⟩
    · intro id h
      have h : a.id = id := Option.some.inj h
      rwa [← h]
    · intro b hb
      have hb : a = b := Op.startTransaction.inj hb
      rwa [← hb]
  have hmove : Tracer.Move (fun _ => True) (net i).spans.tracer
      ((net i).spans.tracer.startTransaction a) := .call trivial hstep
  refine ⟨⟨(hnet i).traced.step hstep, (hnet i).validIds.step hvalid hstep, ?_⟩, ⟨?_, ?_⟩, ?_⟩
  · intro request name v hmem hname
    obtain ⟨r, d, hnames, hv⟩ := (hnet i).headers request name v hmem hname
    exact ⟨r, d, hnames.move hmove, hv⟩
  · exact fun r l => Tracer.lineage?_step hstep
  · exact fun r id => Tracer.isKeptId_step hstep
  · intro r l hl
    rcases Tracer.lineage?_of_step hstep hl with hold | ⟨b, hb, -, rfl⟩
    · exact .inl hold
    · rw [← Op.startTransaction.inj hb]
      exact .inr hattached

theorem serviceStep_beginRequest [InvariantCulture] {i : Service} {framework : WebFramework}
    {configSnapshot : ConfigSnapshot} {request : IncomingRequest} {a : TransactionStart}
    (hnet : ∀ j, ServiceInvariant (net j)) (hid : IsHexId a.id.toList 16)
    (htraceId : IsHexId a.traceId.toList 32)
    (hadded : ∀ v, request.headers.traceparent = some v → net.Added v) :
    net.ServiceStep i ((net i).withTracer
      (framework.beginRequest (net i).spans.tracer configSnapshot request a)) := by
  rcases beginRequest_cases framework (net i).spans.tracer configSnapshot request a with
    hsame | ⟨data, hstart, hdata⟩
  · rw [hsame]
    exact ⟨hnet i, .refl _, fun _ _ => .inl⟩
  · rw [hstart]
    obtain rfl | ⟨v, d, hv, rfl, hread⟩ := hdata
    · exact serviceStep_startTransaction hnet hid htraceId (attached_of_none rfl)
    · obtain ⟨j, q, e, hnames, hhex, h₁, h₂, h₃⟩ :=
        exists_names_of_added hnet (hadded v hv) hread
      exact serviceStep_startTransaction hnet hid hhex (attached_of_names rfl hnames h₁ h₂ h₃)

theorem serviceStep [InvariantCulture] [DecidableEq TRequest] (impl : HttpDiagnosticListenerImpl) {i : Service}
    {l : ServiceLabel TRequest} {t : HttpDiagnosticListener TRequest}
    (hnet : ∀ j, ServiceInvariant (net j)) (hl : net.IsAuthentic (i, l))
    (hstep : (serviceSystem impl).step (net i) l = some t) : net.ServiceStep i t := by
  cases l with
  | listener l => exact serviceStep_listener impl hnet hl hstep
  | beginRequest framework configSnapshot request a =>
    cases hstep
    exact serviceStep_beginRequest hnet hl.1 hl.2.1 hl.2.2

/-! ### The whole network -/

variable [DecidableEq Service]

theorem lineage?_update {i : Service} {t : HttpDiagnosticListener TRequest}
    (h : net.ServiceStep i t) {x : Service × TransactionRef} {l : TransactionLineage}
    (hl : net.lineage? x = some l) : lineage? (Function.update net i t) x = some l := by
  unfold lineage? at hl ⊢
  by_cases hx : x.1 = i
  · subst hx
    rw [Function.update_self]
    exact h.keeps.lineage? x.2 l hl
  · rwa [Function.update_of_ne hx]

theorem isKeptId_update {i : Service} {t : HttpDiagnosticListener TRequest}
    (h : net.ServiceStep i t) {x : Service × TransactionRef} {id : String}
    (hkept : (net x.1).spans.tracer.IsKeptId x.2 id) :
    (Function.update net i t x.1).spans.tracer.IsKeptId x.2 id := by
  by_cases hx : x.1 = i
  · subst hx
    rw [Function.update_self]
    exact h.keeps.isKeptId x.2 id hkept
  · rwa [Function.update_of_ne hx]

/-- A step at a service leaves no transaction without a root. -/
theorem Rooted.update {i : Service} {t : HttpDiagnosticListener TRequest} (hrooted : net.Rooted)
    (h : net.ServiceStep i t) : Rooted (Function.update net i t) := by
  have hroot : ∀ x, net.IsRoot x → IsRoot (Function.update net i t) x := by
    rintro x ⟨l, hl, hnone⟩
    exact ⟨l, lineage?_update h hl, hnone⟩
  have hchild : ∀ x y, net.ChildOf x y → ChildOf (Function.update net i t) x y := by
    rintro x y ⟨l, m, id, hl, hm, hid, hkept, hsame⟩
    exact ⟨l, m, id, lineage?_update h hl, lineage?_update h hm, hid, isKeptId_update h hkept,
      hsame⟩
  have hold {x : Service × TransactionRef} {l : TransactionLineage}
      (hl : net.lineage? x = some l) :
      Descends (IsRoot (Function.update net i t)) (ChildOf (Function.update net i t)) x :=
    (hrooted x l hl).mono hroot hchild
  rintro ⟨k, r⟩ l hl
  by_cases hk : k = i
  · subst hk
    have hl' : t.spans.tracer.lineage? r = some l := by
      simpa only [lineage?, Function.update_self] using hl
    rcases h.started r l hl' with hthere | hnone | ⟨y, m, id, hm, hid, hkept, hsame⟩
    · exact hold hthere
    · exact .of_origin ⟨l, hl, hnone⟩
    · exact .of_parent ⟨l, m, id, hl, lineage?_update h hm, hid, isKeptId_update h hkept, hsame⟩
        (hold hm)
  · refine hold (l := l) ?_
    simpa only [lineage?, Function.update_of_ne hk] using hl

omit [DecidableEq Service] in
theorem Rooted.tracesAreWhole (h : net.Rooted) : net.TracesAreWhole where
  parent x l parentId hl hparentId := by
    have hnotRoot : ¬net.IsRoot x := by
      rintro ⟨l', hl', hnone⟩
      rw [hl] at hl'
      cases hl'
      rw [hparentId] at hnone
      cases hnone
    obtain ⟨y, hchild⟩ := (h x l hl).exists_parent hnotRoot
    have ⟨l', m, id', hl', _, hid', hkept, _⟩ := hchild
    rw [hl] at hl'
    cases hl'
    rw [hparentId] at hid'
    cases hid'
    exact ⟨y, hchild, hkept⟩
  root x l hl := by
    let shared (x : Service × TransactionRef) : Option (String × Bool) :=
      (net.lineage? x).map fun l => (l.traceId, l.isSampled)
    have hshared : ∀ x y, net.ChildOf x y → shared x = shared y := by
      rintro x y ⟨l, m, id, hl, hm, -, -, htraceId, hsampled⟩
      simp [shared, hl, hm, htraceId, hsampled]
    obtain ⟨y, ⟨m, hm, hnone⟩, hchain, hsame⟩ := (h x l hl).exists_eq shared hshared
    simp only [shared, hl, hm, Option.map_some, Option.some.injEq, Prod.mk.injEq] at hsame
    exact ⟨y, m, hm, hnone, hchain, hsame.1, hsame.2⟩

variable [InvariantCulture] [DecidableEq TRequest]

theorem always_rooted {impl : Service → HttpDiagnosticListenerImpl}
    {net : Network Service TRequest} (hinit : (network impl).init net)
    {ls : List (Service × ServiceLabel TRequest)}
    (hauthentic : (network impl).Along IsAuthentic net ls) :
    (network impl).Always Rooted net ls := by
  have hnew : ∀ i, ServiceInvariant (net i) := by
    intro i
    obtain ⟨-, htracer, hheaders⟩ := hinit i
    refine ⟨?_, ?_, ?_⟩
    · rw [htracer]
      exact Tracer.traced_new
    · rw [htracer]
      exact Tracer.hasValidIds_new
    · intro request name v hmem
      rw [hheaders] at hmem
      cases hmem
  have hrooted : Rooted net := by
    intro x l hl
    rw [lineage?, (hinit x.1).2.1] at hl
    cases hl
  have halways : (network impl).Always (fun s => (∀ i, ServiceInvariant (s i)) ∧ Rooted s) net ls :=
    LTS.System.family_always
      (fun s i l t hs _ hl hstep => (serviceStep (impl i) hs hl hstep).invariant)
      (fun s i l t hs hQ hl hstep => hQ.update (serviceStep (impl i) hs hl hstep)) hnew hrooted
      hauthentic
  exact halways.mono fun _ h => h.2

/-- Every transaction of a network descends from a root, in the trace of the root and with the
    sampling decision made there; and its parent id is that of a segment some service sends. -/
theorem descends_from_root {impl : Service → HttpDiagnosticListenerImpl}
    {net : Network Service TRequest} (hinit : (network impl).init net)
    {ls : List (Service × ServiceLabel TRequest)}
    (hauthentic : (network impl).Along IsAuthentic net ls) :
    (network impl).Always TracesAreWhole net ls :=
  (always_rooted hinit hauthentic).mono fun _ => Rooted.tracesAreWhole

end Network

end

/-! ### Two services -/

section

attribute [local instance] InvariantCulture.ascii

namespace Network

/-- Two services that were just started. -/
def twoServices : Network Bool Unit := fun _ =>
  { spans :=
      { agent := { tracer := .new, instrumentationFlag := fun _ => .none }
        processing := fun _ => none
        started := [] }
    headersAdded := []
    contextHttp := fun _ => none
    outcome := fun _ => .unknown }

/-- The start of an outgoing request. -/
def requestOutStart : HttpEvent Unit where
  key := some "System.Net.Http.HttpRequestOut.Start"
  value := some
    { request := .ofType ()
      requestGetUri := some ⟨true, .dns, "https", "example.com", 443, true⟩
      isRequestFilteredOut := false
      requestGetMethod := "GET"
      requestHeadersContain := fun _ => false
      response := .null
      exception := .null
      statusCode := .null }
  spanStart := ⟨"a1b2c3d4e5f60718", 1⟩
  now := 1

/-- The `traceparent` of that request. -/
def requestTraceparent : String := "00-4bf92f3577b34da6a3ce929d0e0e4736-a1b2c3d4e5f60718-01"

/-- The first service calls the second in the course of a transaction. -/
def oneCall : List (Bool × ServiceLabel Unit) :=
  [(false, .listener (.elsewhere (.call (.startTransaction .sampled) .none))),
    (false, .listener (.event requestOutStart)),
    (true, .beginRequest .aspNetCore { ConfigSnapshot.defaults with transactionIgnoreUrls := [] }
      ⟨"/", [("Traceparent", requestTraceparent)]⟩
      { TransactionStart.sampled with id := "b7ad6b7169203331" })]

theorem descends_from_root_oneCall :
    ∃ net : Network Bool Unit, (network fun _ => .core).run twoServices oneCall = some net ∧
      net.TracesAreWhole ∧
      (net.lineage? (true, 0)).map (·.parentId) = some (some "a1b2c3d4e5f60718") := by
  have hinit : (network fun _ => HttpDiagnosticListenerImpl.core).init twoServices :=
    fun _ => ⟨⟨fun _ => rfl, rfl⟩, rfl, rfl⟩
  have hvalid (id : String) (h : isTraceParentValid id.toList = true) : IsHexId id.toList 16 :=
    isTraceParentValid_iff.mp h
  have hauthentic : (network fun _ => .core).Along IsAuthentic twoServices oneCall := by
    refine (LTS.System.along_cons_of_step rfl).mpr ⟨⟨⟨?_, ?_⟩, ?_⟩,
      (LTS.System.along_cons_of_step rfl).mpr ⟨hvalid _ (by decide),
        (LTS.System.along_cons_of_step rfl).mpr ⟨⟨hvalid _ (by decide), ?_, ?_⟩, trivial⟩⟩⟩
    · intro id hid
      rw [← Option.some.inj hid]
      exact hvalid _ (by decide)
    · intro a ha
      rw [← Op.startTransaction.inj ha]
      exact isTraceIdValid_iff.mp (by decide)
    · intro a ha
      rw [← Op.startTransaction.inj ha]
      rfl
    · exact isTraceIdValid_iff.mp (by decide)
    · intro v hv
      have hv : some requestTraceparent = some v := hv
      cases hv
      exact ⟨false, (), traceParentHeaderName, by decide +kernel, .inl rfl⟩
  refine ⟨_, rfl, (descends_from_root hinit hauthentic).last rfl, ?_⟩
  rfl

end Network

end

end ApmAgent
