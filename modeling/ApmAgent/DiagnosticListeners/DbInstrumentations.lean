import ApmAgent.DiagnosticListeners.TracedSpans

/-! # Competing instrumentations of databases

  Entity Framework sends its commands through SqlClient, so that an application
  with the instrumentations of both has each command seen twice. Each of the
  three instrumentations here looks at the `InstrumentationFlag` of the current
  span before it does anything, when a command starts and again when it ends.

  `DbCalls` is what an application does in one flow of control: commands and
  spans of its own, nested in any way. `DbCalls.expected` is what is meant to be
  reported of it, and `DbCalls.reportedOnce` says that this is what is reported.
-/

namespace ApmAgent

/-! ### The three instrumentations -/

/-- How an instrumentation differs from the others. -/
structure DbListener where
  flag : InstrumentationFlag
  /-- The check for competing instrumentation, on the flag of the current span. -/
  competesWith : InstrumentationFlag → Bool
  /-- `SetUserState` replaces what is there, `TryAdd` does not. -/
  replaces : Bool
  /-- `TryRemove` removes what it finds, `FindUserState` does not. -/
  removes : Bool
  capturesException : Bool
  /-- The duration handed to `EndSpan`, of a command that failed or not. -/
  duration : Bool → Option Int → Option Int

/-- `EfCoreDiagnosticListener`. -/
def EfCoreDiagnosticListener : DbListener where
  flag := .efCore
  competesWith flag := flag = .sqlClient
  replaces := false
  removes := true
  capturesException := true
  duration _ duration := duration

/-- `Ef6Interceptor`. -/
def Ef6Interceptor : DbListener where
  flag := .efClassic
  competesWith flag := flag = .sqlClient
  replaces := true
  removes := false
  capturesException := false
  duration _ _ := none

/-- `SqlClientDiagnosticListener`. -/
def SqlClientDiagnosticListener : DbListener where
  flag := .sqlClient
  competesWith flag := flag = .efCore || flag = .efClassic
  replaces := false
  removes := true
  capturesException := true
  -- Only the event of a command that succeeded has statistics.
  duration failed duration := if failed then none else duration

inductive DbInstrumentation where
  | efCore
  | efClassic
  | sqlClient
  deriving DecidableEq, Repr

def DbInstrumentation.listener : DbInstrumentation → DbListener
  | .efCore => EfCoreDiagnosticListener
  | .efClassic => Ef6Interceptor
  | .sqlClient => SqlClientDiagnosticListener

/-- No instrumentation competes with itself. -/
theorem DbInstrumentation.not_competesWith_flag (i : DbInstrumentation) :
    i.listener.competesWith i.listener.flag = false := by
  cases i <;> rfl

theorem DbInstrumentation.flag_inj {i j : DbInstrumentation}
    (h : i.listener.flag = j.listener.flag) : i = j := by
  cases i <;> cases j <;> first | rfl | cases h

/-- The `InstrumentationFlag` of the current span, where that is a `Span`. -/
def Instrumented.currentFlag? (s : Instrumented) : Option InstrumentationFlag :=
  s.tracer.currentSpan.bind fun k => (s.tracer.span? k).map fun _ => s.instrumentationFlag k

/-- A command, with the choices of the environment while it is processed. -/
structure DbOperation where
  instrumentation : DbInstrumentation
  /-- The id of the command, or its interception context. -/
  id : Nat
  command : DbCommand
  /-- A command that is executed has a connection. -/
  isConnected : command.connection.isSome
  failed : Bool
  duration : Option Int
  spanStart : SpanStart
  now : Int

/-- The agent, and where the instrumentations keep the spans of commands. -/
structure DbAgent where
  agent : Instrumented
  spans : DbInstrumentation → Nat → Option SpanRef

namespace DbAgent

def tracer (s : DbAgent) : Tracer := s.agent.tracer

def isCompeting (s : DbAgent) (i : DbInstrumentation) : Bool :=
  s.agent.currentFlag?.any i.listener.competesWith

def setSpan (s : DbAgent) (i : DbInstrumentation) (id : Nat) (span : Option SpanRef) : DbAgent :=
  { s with spans := Function.update s.spans i (Function.update (s.spans i) id span) }

/-- `_spans.TryAdd` and `SetUserState`. -/
def addSpan (s : DbAgent) (i : DbInstrumentation) (id : Nat) (span : SpanRef) : DbAgent :=
  if (s.spans i id).isSome && !i.listener.replaces then s else s.setSpan i id (some span)

/-- The events before a command is executed. -/
def executing (s : DbAgent) (o : DbOperation) : Option DbAgent :=
  let i := o.instrumentation
  if s.isCompeting i then some s
  else if s.tracer.currentTransaction.isNone then some s
  -- `dbCommand.CommandText.Replace` throws before the span is started.
  else if o.command.commandText.isNone then some s
  else
    (s.agent.startSpanOnCurrentExecutionSegment i.listener.flag o.spanStart).map
      fun (agent, span) =>
        match span with
        | none => { s with agent := agent }
        | some span => { s with agent := agent }.addSpan i o.id span

/-- `CaptureException`, of the exception of a command that failed. -/
def captureException (s : DbAgent) (o : DbOperation) (span : SpanRef) : Option Instrumented :=
  if o.failed && o.instrumentation.listener.capturesException then
    s.agent.call (.captureException (.span span) none)
  else some s.agent

/-- `DbSpanCommon.EndSpan`, after the exception is captured. -/
def endSpan (s : DbAgent) (o : DbOperation) (span : SpanRef) : Option DbAgent := do
  let agent ← s.captureException o span
  let seg ← agent.tracer.resolve (.span span)
  let duration := o.instrumentation.listener.duration o.failed o.duration
  return { s with
    agent :=
      { agent with tracer := DbSpanCommon.endSpan agent.tracer o.command duration o.now seg } }

/-- The events after a command was executed. -/
def executed (s : DbAgent) (o : DbOperation) : Option DbAgent :=
  let i := o.instrumentation
  if s.isCompeting i then some s
  else
    match s.spans i o.id with
    | none => some s
    | some span =>
      if i.listener.removes then (s.setSpan i o.id none).endSpan o span else s.endSpan o span

end DbAgent

/-! ### What an application does -/

/-- The flag of a span that is no command. -/
abbrev OtherFlag :=
  { flag : InstrumentationFlag // ∀ i : DbInstrumentation, i.listener.flag ≠ flag }

/-- Commands and spans, one after the other. -/
inductive DbCalls where
  | done
  /-- A command, and what happens while it is executed. -/
  | command (o : DbOperation) (inner next : DbCalls)
  /-- A span of the application or of another instrumentation. -/
  | span (flag : OtherFlag) (a : SpanStart) (now : Int) (inner next : DbCalls)

namespace DbCalls

def run : DbCalls → DbAgent → Option DbAgent
  | .done, s => some s
  | .command o inner next, s => do
    let s ← s.executing o
    let s ← inner.run s
    let s ← s.executed o
    next.run s
  | .span flag a now inner next, s => do
    let (agent, started) ← s.agent.startSpanOnCurrentExecutionSegment flag.val a
    let s ← inner.run { s with agent := agent }
    match started with
    | none => next.run s
    | some k => do
      let agent ← s.agent.call (.endSegment (.span k) now)
      next.run { s with agent := agent }

end DbCalls

/-! ### What is meant to be reported -/

/-- Spans, one after the other, each with the spans started in it. -/
inductive SpanForest where
  | done
  | span (flag : InstrumentationFlag) (inner next : SpanForest)
  deriving DecidableEq, Repr

namespace SpanForest

def append : SpanForest → SpanForest → SpanForest
  | .done, rest => rest
  | .span flag inner next, rest => .span flag inner (next.append rest)

def size : SpanForest → Nat
  | .done => 0
  | .span _ inner next => inner.size + 1 + next.size

/-- The spans from `n` on are those of the forest, in the order they were started, below
    `parent`; and they are ended. -/
def Shown (s : Instrumented) : SpanForest → Option SpanRef → Nat → Prop
  | .done, _, _ => True
  | .span flag inner next, parent, n =>
    (∃ u, s.tracer.span? n = some u ∧ u.isEnded = true ∧ u.parentSpan = parent) ∧
      s.instrumentationFlag n = flag ∧ inner.Shown s (some n) (n + 1) ∧
      next.Shown s parent (n + 1 + inner.size)

/-- No span of an instrumentation is right below a span it competes with. -/
def Separate : Option InstrumentationFlag → SpanForest → Prop
  | _, .done => True
  | below, .span flag inner next =>
    (∀ i : DbInstrumentation, i.listener.flag = flag →
      below.any i.listener.competesWith = false) ∧
      inner.Separate (some flag) ∧ next.Separate below

end SpanForest

namespace DbCalls

/-- A command is reported unless the span it is executed in competes with its
    instrumentation. -/
def expected : Option InstrumentationFlag → DbCalls → SpanForest
  | _, .done => .done
  | below, .command o inner next =>
    if below.any o.instrumentation.listener.competesWith || o.command.commandText.isNone then
      (inner.expected below).append (next.expected below)
    else
      .span o.instrumentation.listener.flag
        (inner.expected (some o.instrumentation.listener.flag)) (next.expected below)
  | below, .span flag _ _ inner next =>
    .span flag.val (inner.expected (some flag.val)) (next.expected below)

/-- Under which a command is kept. -/
def keys : DbCalls → List (DbInstrumentation × Nat)
  | .done => []
  | .command o inner next => (o.instrumentation, o.id) :: inner.keys ++ next.keys
  | .span _ _ _ inner next => inner.keys ++ next.keys

end DbCalls

/-! ### Starting and ending one span -/

namespace Tracer

/-- There is a transaction, and it or a span of it is current. -/
structure IsTracing (σ : Tracer) : Prop where
  currentTransaction : σ.currentTransaction.isSome
  current :
    (∃ k u t, σ.currentSpan = some k ∧ σ.resolve (.span k) = some (.span k u t)) ∨
    (σ.currentSpan = none ∧ ∃ r t, σ.currentTransaction = some r ∧
      σ.transactions.get? r = some (.transaction t))

/-- The spans before `n` are as they were, and transactions are still there. -/
structure KeepsBelow (σ σ' : Tracer) (n : SpanRef) : Prop where
  spans : ∀ k < n, σ'.spans.get? k = σ.spans.get? k
  transactions : ∀ r, (∃ t, σ.transactions.get? r = some (.transaction t)) →
    ∃ t, σ'.transactions.get? r = some (.transaction t)
  currentTransaction : σ'.currentTransaction = σ.currentTransaction

theorem KeepsBelow.refl (σ : Tracer) (n : SpanRef) : σ.KeepsBelow σ n :=
  ⟨fun _ _ => rfl, fun _ => id, rfl⟩

theorem KeepsBelow.trans {σ σ' σ'' : Tracer} {m n : SpanRef} (h : σ.KeepsBelow σ' m)
    (h' : σ'.KeepsBelow σ'' n) (hmn : m ≤ n) : σ.KeepsBelow σ'' m where
  spans k hk := (h'.spans k (Nat.lt_of_lt_of_le hk hmn)).trans (h.spans k hk)
  transactions r hr := h'.transactions r (h.transactions r hr)
  currentTransaction := h'.currentTransaction.trans h.currentTransaction

theorem KeepsBelow.span? {σ σ' : Tracer} {n k : SpanRef} (h : σ.KeepsBelow σ' n) (hk : k < n) :
    σ'.span? k = σ.span? k := by
  unfold Tracer.span?
  rw [h.spans k hk]

/-- Whether spans can be started depends on the current span and on what is older. -/
theorem IsTracing.of_keepsBelow {σ σ' : Tracer} (hσ : σ.IsTracing)
    (h : σ.KeepsBelow σ' σ.spans.size) (hcurrent : σ'.currentSpan = σ.currentSpan) :
    σ'.IsTracing := by
  refine ⟨by rw [h.currentTransaction]; exact hσ.currentTransaction, ?_⟩
  rw [hcurrent, h.currentTransaction]
  obtain ⟨k, u, t, hk, hseg⟩ | ⟨hnone, r, t, hr, ht⟩ := hσ.current
  · obtain ⟨-, hu, ht⟩ := resolve_span_eq_some.mp hseg
    obtain ⟨t', ht'⟩ := h.transactions _ ⟨t, ht⟩
    exact .inl ⟨k, u, t', hk, resolve_span_eq_some.mpr
      ⟨rfl, (h.spans k (Store.lt_size hu)).trans hu, ht'⟩⟩
  · exact .inr ⟨hnone, r, (h.transactions r ⟨t, ht⟩).imp fun _ ht' => ⟨hr, ht'⟩⟩

end Tracer

namespace Instrumented

/-- A span is started and becomes the current one. -/
structure Starts (s s' : Instrumented) (flag : InstrumentationFlag) : Prop where
  size : s'.tracer.spans.size = s.tracer.spans.size + 1
  keeps : s.tracer.KeepsBelow s'.tracer s.tracer.spans.size
  flags : ∀ k < s.tracer.spans.size, s'.instrumentationFlag k = s.instrumentationFlag k
  flag : s'.instrumentationFlag s.tracer.spans.size = flag
  span : ∃ u t, s'.tracer.resolve (.span s.tracer.spans.size) =
    some (.span s.tracer.spans.size u t) ∧ u.isEnded = false ∧
      u.parentSpan = s.tracer.currentSpan
  currentSpan : s'.tracer.currentSpan = some s.tracer.spans.size

theorem starts_new {s : Instrumented} {flag : InstrumentationFlag} {a : SpanStart}
    {parentId traceId : String} {r : TransactionRef} {t : Transaction}
    (hr : s.tracer.transactions.get? r = some (.transaction t)) :
    s.Starts
      { tracer := Span.new s.tracer parentId traceId r t s.tracer.currentSpan a
        instrumentationFlag :=
          Function.update s.instrumentationFlag s.tracer.spans.size flag } flag := by
  have hr' : (Span.new s.tracer parentId traceId r t s.tracer.currentSpan a).transactions.get? r =
      some (.transaction t.countSpan) := by
    simp [Span.new, hr]
  constructor
  case size => simp [Span.new]
  case keeps =>
    refine ⟨fun k hk => ?_, fun q hq => ?_, rfl⟩
    · simp [Span.new, Store.get?_alloc, Nat.ne_of_lt hk]
    · by_cases hqr : r = q
      · subst hqr
        exact ⟨_, hr'⟩
      · simpa [Span.new, Store.get?_update_ne _ hqr] using hq
  case flags => exact fun k hk => Function.update_of_ne (Nat.ne_of_lt hk) _ _
  case flag => exact Function.update_self ..
  case span =>
    exact ⟨_, _, Tracer.resolve_span_eq_some.mpr ⟨rfl, by simp [Span.new]; rfl, hr'⟩, rfl, rfl⟩
  case currentSpan => rfl

theorem startSpanOnCurrentExecutionSegment_starts {s : Instrumented} (h : s.tracer.IsTracing)
    (flag : InstrumentationFlag) (a : SpanStart) :
    ∃ s', s.startSpanOnCurrentExecutionSegment flag a = some (s', some s.tracer.spans.size) ∧
      s.Starts s' flag := by
  obtain ⟨k, u, t, hk, hseg⟩ | ⟨hnone, r, t, hr, ht⟩ := h.current
  · have hstart : s.tracer.startSpanOnCurrentExecutionSegment a =
        some (Span.new s.tracer u.id u.traceId u.enclosingTransaction t (some k) a) := by
      simp [Tracer.startSpanOnCurrentExecutionSegment, Tracer.getCurrentExecutionSegment, hk, hseg,
        IExecutionSegment.startSpanInternal, Span.startSpanInternal]
    refine ⟨_, by simp [startSpanOnCurrentExecutionSegment, hstart,
      Tracer.getCurrentExecutionSegment, hk]; rfl, ?_⟩
    rw [← hk]
    exact starts_new (Tracer.resolve_span_eq_some.mp hseg).2.2
  · have hstart : s.tracer.startSpanOnCurrentExecutionSegment a =
        some (Span.new s.tracer t.id t.traceId r t none a) := by
      simp [Tracer.startSpanOnCurrentExecutionSegment, Tracer.getCurrentExecutionSegment, hnone,
        hr, Tracer.resolve, ht, IExecutionSegment.startSpanInternal,
        Transaction.startSpanInternal]
    refine ⟨_, by simp [startSpanOnCurrentExecutionSegment, hstart,
      Tracer.getCurrentExecutionSegment, hnone, hr]; rfl, ?_⟩
    rw [← hnone]
    exact starts_new ht

/-- A span that was open is ended, and its parent span becomes the current one. -/
structure Ends (s s' : Instrumented) (k : SpanRef) : Prop where
  size : s'.tracer.spans.size = s.tracer.spans.size
  keeps : s.tracer.KeepsBelow s'.tracer k
  flags : s'.instrumentationFlag = s.instrumentationFlag
  others : ∀ j, j ≠ k → s'.tracer.spans.get? j = s.tracer.spans.get? j
  span : ∃ u u', s.tracer.span? k = some u ∧ s'.tracer.span? k = some u' ∧ u'.isEnded = true ∧
    u'.parentSpan = u.parentSpan ∧ s'.tracer.currentSpan = u.parentSpan

section

variable {s s' : Instrumented} {k : SpanRef} {u : Span} {t : Transaction}

theorem ends_of_spans (hseg : s.tracer.resolve (.span k) = some (.span k u t)) {v : Span}
    (hv : v.isEnded = true ∧ v.parentSpan = u.parentSpan)
    (hflags : s'.instrumentationFlag = s.instrumentationFlag)
    (hsize : s'.tracer.spans.size = s.tracer.spans.size)
    (hspans : ∀ j, s'.tracer.spans.get? j =
      if k = j then some (.span v) else s.tracer.spans.get? j)
    (htransactions : s'.tracer.transactions = s.tracer.transactions)
    (hcurrent : s'.tracer.currentSpan = u.parentSpan)
    (htransaction : s'.tracer.currentTransaction = s.tracer.currentTransaction) :
    s.Ends s' k := by
  have hothers (j : SpanRef) (hj : j ≠ k) : s'.tracer.spans.get? j = s.tracer.spans.get? j := by
    rw [hspans, if_neg hj.symm]
  constructor
  case size => exact hsize
  case keeps =>
    refine ⟨fun j hj => hothers j (Nat.ne_of_lt hj), fun r hr => ?_, htransaction⟩
    rwa [htransactions]
  case flags => exact hflags
  case others => exact hothers
  case span =>
    refine ⟨u, v, ?_, ?_, hv.1, hv.2, hcurrent⟩
    · simp [Tracer.span?, (Tracer.resolve_span_eq_some.mp hseg).2.1]
    · simp [Tracer.span?, hspans]

theorem call_endSegment_ends (hseg : s.tracer.resolve (.span k) = some (.span k u t))
    (hopen : u.isEnded = false) (now : Int) :
    ∃ s', s.call (.endSegment (.span k) now) = some s' ∧ s.Ends s' k := by
  have hu := (Tracer.resolve_span_eq_some.mp hseg).2.1
  refine ⟨{ s with tracer := Span.endSpan s.tracer k u t now }, ?_, ?_⟩
  · simp [call, Tracer.step, hseg, IExecutionSegment.endSegment]
  · refine ends_of_spans hseg (v := u.ended now) ⟨rfl, rfl⟩ rfl ?_ (fun j => ?_) ?_ ?_ ?_
    · simp
    · simp only [Span.endSpan_spans, Store.get?_update]
      split
      · next hj => subst hj; simp [hu]
      · rfl
    · simp
    · simp [hopen]
    · simp

theorem dbEndSpan_ends (hseg : s.tracer.resolve (.span k) = some (.span k u t))
    (hopen : u.isEnded = false) {dbCommand : DbCommand}
    (hthrows : DbSpanCommon.throwsOn dbCommand u t = false) (duration : Option Int) (now : Int) :
    s.Ends
      { s with tracer := DbSpanCommon.endSpan s.tracer dbCommand duration now (.span k u t) }
      k := by
  have hu := (Tracer.resolve_span_eq_some.mp hseg).2.1
  simp only [DbSpanCommon.endSpan, hthrows]
  -- The second `End` finds the span ended and changes its record only.
  refine ends_of_spans hseg (v := ((Tracer.withDuration u duration).ended now).ended now)
    ⟨rfl, rfl⟩ rfl ?_ (fun j => ?_) ?_ ?_ ?_
  · cases duration <;> simp [DbSpanCommon.setDuration]
  · have hset := Tracer.setDuration_spans hu duration
    by_cases hj : k = j
    · subst hj
      simp [hset, Tracer.withDuration]
    · simp [Store.get?_update, hset, hj]
  · simp [Tracer.setDuration_transactions]
  · simp [Span.ended, hopen]
  · cases duration <;> simp [DbSpanCommon.setDuration]

end

end Instrumented

/-! ### Forests of spans -/

namespace SpanForest

@[simp] theorem size_append (f g : SpanForest) : (f.append g).size = f.size + g.size := by
  induction f with
  | done => simp [append, size]
  | span flag inner next _ ih => simp [append, size, ih]; omega

theorem shown_append {s : Instrumented} {f g : SpanForest} {parent : Option SpanRef}
    {n : Nat} :
    (f.append g).Shown s parent n ↔ f.Shown s parent n ∧ g.Shown s parent (n + f.size) := by
  induction f generalizing n with
  | done => simp [append, Shown, size]
  | span flag inner next _ ih =>
    have hn : n + 1 + inner.size + next.size = n + (inner.size + 1 + next.size) := by omega
    simp only [append, Shown, size, ih, hn, and_assoc]

/-- Only the spans of the forest matter. -/
theorem Shown.congr {s s' : Instrumented} {f : SpanForest} {parent : Option SpanRef}
    {n : Nat} (h : f.Shown s parent n)
    (hsame : ∀ k : Nat, n ≤ k → k < n + f.size →
      s'.tracer.span? k = s.tracer.span? k ∧ s'.instrumentationFlag k = s.instrumentationFlag k) :
    f.Shown s' parent n := by
  induction f generalizing parent n with
  | done => trivial
  | span flag inner next ihinner ihnext =>
    simp only [size] at hsame
    obtain ⟨hspan, hflag, hinner, hnext⟩ := h
    obtain ⟨hspan', hflag'⟩ := hsame n (Nat.le_refl n) (by omega)
    refine ⟨by rwa [hspan'], by rwa [hflag'], ihinner hinner fun k hk hk' => ?_,
      ihnext hnext fun k hk hk' => ?_⟩
    · exact hsame k (by omega) (by omega)
    · exact hsame k (by omega) (by omega)

theorem separate_append {below : Option InstrumentationFlag} {f g : SpanForest} :
    (f.append g).Separate below ↔ f.Separate below ∧ g.Separate below := by
  induction f with
  | done => simp [append, Separate]
  | span flag inner next _ ih => simp only [append, Separate, ih, and_assoc]

end SpanForest

/-- What is meant to be reported never has a command twice. -/
theorem DbCalls.separate_expected (calls : DbCalls) (below : Option InstrumentationFlag) :
    (calls.expected below).Separate below := by
  induction calls generalizing below with
  | done => trivial
  | command o inner next ihinner ihnext =>
    simp only [expected]
    split
    · exact SpanForest.separate_append.mpr ⟨ihinner below, ihnext below⟩
    · next h =>
      refine ⟨fun i hi => ?_, ihinner _, ihnext below⟩
      obtain rfl := DbInstrumentation.flag_inj hi
      simpa using (Bool.or_eq_false_iff.mp (Bool.eq_false_iff.mpr h)).1
  | span flag a now inner next ihinner ihnext =>
    exact ⟨fun i hi => absurd hi (flag.property i), ihinner _, ihnext below⟩

/-! ### What a flow of control reports -/

/-- The spans of the forest are started and ended, and the current span is what it was. -/
structure Instrumented.Reports (s s' : Instrumented) (forest : SpanForest) : Prop where
  size : s'.tracer.spans.size = s.tracer.spans.size + forest.size
  keeps : s.tracer.KeepsBelow s'.tracer s.tracer.spans.size
  flags : ∀ k < s.tracer.spans.size, s'.instrumentationFlag k = s.instrumentationFlag k
  currentSpan : s'.tracer.currentSpan = s.tracer.currentSpan
  shown : forest.Shown s' s.tracer.currentSpan s.tracer.spans.size

namespace Instrumented

variable {s s' s'' : Instrumented} {forest forest' : SpanForest}

theorem Reports.refl (s : Instrumented) : s.Reports s .done :=
  ⟨rfl, .refl _ _, fun _ _ => rfl, rfl, trivial⟩

theorem Reports.trans (h : s.Reports s' forest) (h' : s'.Reports s'' forest') :
    s.Reports s'' (forest.append forest') := by
  have hle : s.tracer.spans.size ≤ s'.tracer.spans.size := by
    rw [h.size]
    exact Nat.le_add_right _ _
  constructor
  case size => rw [h'.size, h.size, SpanForest.size_append, Nat.add_assoc]
  case keeps => exact h.keeps.trans h'.keeps hle
  case flags =>
    exact fun k hk => (h'.flags k (Nat.lt_of_lt_of_le hk hle)).trans (h.flags k hk)
  case currentSpan => exact h'.currentSpan.trans h.currentSpan
  case shown =>
    refine SpanForest.shown_append.mpr ⟨h.shown.congr fun k _ hk => ?_, ?_⟩
    · rw [← h.size] at hk
      exact ⟨h'.keeps.span? hk, h'.flags k hk⟩
    · have hshown := h'.shown
      rwa [h.currentSpan, h.size] at hshown

/-- A span with what was started in it. -/
theorem Reports.span {s₀ s₁ : Instrumented} {flag : InstrumentationFlag}
    (hstart : s.Starts s₀ flag) (h : s₀.Reports s₁ forest)
    (hend : s₁.Ends s' s.tracer.spans.size) : s.Reports s' (.span flag forest .done) := by
  have hlt : s.tracer.spans.size < s₀.tracer.spans.size := by
    rw [hstart.size]
    exact Nat.lt_succ_self _
  obtain ⟨u, t, hseg, -, hparent⟩ := hstart.span
  obtain ⟨v, v', hv, hv', hended, hparent', hcurrent⟩ := hend.span
  -- The span that is ended is the one that was started.
  have huv : v.parentSpan = s.tracer.currentSpan := by
    rw [h.keeps.span? hlt, Tracer.span?, (Tracer.resolve_span_eq_some.mp hseg).2.1] at hv
    cases hv
    exact hparent
  constructor
  case size =>
    rw [hend.size, h.size, hstart.size]
    simp only [SpanForest.size]
    omega
  case keeps =>
    exact (hstart.keeps.trans h.keeps (Nat.le_of_lt hlt)).trans hend.keeps (Nat.le_refl _)
  case flags =>
    intro k hk
    rw [hend.flags, h.flags k (Nat.lt_trans hk hlt), hstart.flags k hk]
  case currentSpan => exact hcurrent.trans huv
  case shown =>
    refine ⟨⟨v', hv', hended, hparent'.trans huv⟩, ?_, ?_, trivial⟩
    · rw [hend.flags, h.flags _ hlt, hstart.flag]
    · have hshown := h.shown
      rw [hstart.currentSpan, hstart.size] at hshown
      refine hshown.congr fun k hk _ => ⟨?_, by rw [hend.flags]⟩
      unfold Tracer.span?
      rw [hend.others k (Nat.ne_of_gt (Nat.lt_of_succ_le hk))]

theorem Reports.isTracing (h : s.Reports s' forest) (hs : s.tracer.IsTracing) :
    s'.tracer.IsTracing :=
  hs.of_keepsBelow h.keeps h.currentSpan

theorem Reports.currentFlag? (h : s.Reports s' forest) (hs : s.tracer.IsTracing) :
    s'.currentFlag? = s.currentFlag? := by
  unfold Instrumented.currentFlag?
  rw [h.currentSpan]
  obtain ⟨k, u, t, hk, hseg⟩ | ⟨hnone, -⟩ := hs.current
  · have hlt := Store.lt_size (Tracer.resolve_span_eq_some.mp hseg).2.1
    simp only [hk, Option.bind_some, h.keeps.span? hlt, h.flags k hlt]
  · simp only [hnone, Option.bind_none]

theorem Starts.isTracing {flag : InstrumentationFlag} (h : s.Starts s' flag)
    (hs : s.tracer.IsTracing) : s'.tracer.IsTracing := by
  obtain ⟨u, t, hseg, -⟩ := h.span
  exact ⟨by rw [h.keeps.currentTransaction]; exact hs.currentTransaction,
    .inl ⟨_, u, t, h.currentSpan, hseg⟩⟩

theorem Starts.currentFlag? {flag : InstrumentationFlag} (h : s.Starts s' flag) :
    s'.currentFlag? = some flag := by
  obtain ⟨u, t, hseg, -⟩ := h.span
  simp [Instrumented.currentFlag?, h.currentSpan, Tracer.span?,
    (Tracer.resolve_span_eq_some.mp hseg).2.1, h.flag]

end Instrumented

/-! ### The events of a command -/

namespace DbAgent

variable {s : DbAgent} {o : DbOperation}

/-- The command is not reported where the current span is the one there is now. -/
def skips (s : DbAgent) (o : DbOperation) : Bool :=
  s.isCompeting o.instrumentation || o.command.commandText.isNone

@[simp] theorem setSpan_self (s : DbAgent) (i : DbInstrumentation) (id : Nat)
    (span : Option SpanRef) : (s.setSpan i id span).spans i id = span := by
  simp [setSpan]

theorem setSpan_of_ne (s : DbAgent) {i j : DbInstrumentation} {id id' : Nat}
    (span : Option SpanRef) (h : (j, id') ≠ (i, id)) :
    (s.setSpan i id span).spans j id' = s.spans j id' := by
  by_cases hj : j = i
  · subst hj
    have hid : id' ≠ id := fun hid => h (by rw [hid])
    simp [setSpan, hid]
  · simp [setSpan, hj]

theorem executing_skips (h : s.skips o) : s.executing o = some s := by
  simp only [skips, Bool.or_eq_true] at h
  unfold executing
  obtain hcompeting | htext := h
  · simp [hcompeting]
  · simp [htext]

theorem executed_skips
    (h : s.isCompeting o.instrumentation ∨ s.spans o.instrumentation o.id = none) :
    s.executed o = some s := by
  unfold executed
  obtain hcompeting | hnone := h
  · simp [hcompeting]
  · simp [hnone]

/-- A command that is skipped when it starts is skipped when it ends. -/
theorem executed_skips_of_skips {s' : DbAgent} (h : s.skips o)
    (hflag : s'.agent.currentFlag? = s.agent.currentFlag?)
    (hfresh : s'.spans o.instrumentation o.id = none) : s'.executed o = some s' := by
  simp only [skips, Bool.or_eq_true] at h
  obtain hcompeting | htext := h
  · refine executed_skips (.inl ?_)
    unfold isCompeting at hcompeting ⊢
    rw [hflag, hcompeting]
  · exact executed_skips (.inr hfresh)

theorem executing_starts (hs : s.tracer.IsTracing) (h : s.skips o = false)
    (hfresh : s.spans o.instrumentation o.id = none) :
    ∃ s', s.executing o = some s' ∧
      s.agent.Starts s'.agent o.instrumentation.listener.flag ∧
      s'.spans o.instrumentation o.id = some s.tracer.spans.size ∧
      ∀ i id, (i, id) ≠ (o.instrumentation, o.id) → s'.spans i id = s.spans i id := by
  obtain ⟨hcompeting, htext⟩ := Bool.or_eq_false_iff.mp h
  obtain ⟨agent, hstart, hstarts⟩ := Instrumented.startSpanOnCurrentExecutionSegment_starts hs
    o.instrumentation.listener.flag o.spanStart
  have hcurrent := hs.currentTransaction
  refine ⟨{ s with agent := agent }.setSpan o.instrumentation o.id (some s.tracer.spans.size), ?_,
    hstarts, setSpan_self _ _ _ _, fun i id hne => setSpan_of_ne _ _ hne⟩
  simp [executing, hcompeting, htext, Option.isSome_iff_ne_none.mp hcurrent, hstart, addSpan,
    hfresh]
  rfl

theorem throwsOn_eq_false (htext : o.command.commandText.isNone = false) (u : Span)
    (t : Transaction) : DbSpanCommon.throwsOn o.command u t = false := by
  simp [DbSpanCommon.throwsOn, htext, o.isConnected]

section

variable {k : SpanRef} {u : Span} {t : Transaction}

/-- Capturing the exception queues an error and changes nothing else. -/
theorem captureException_eq (hseg : s.tracer.resolve (.span k) = some (.span k u t)) :
    ∃ queued, s.captureException o k =
      some { s.agent with tracer := { s.tracer with queued := queued } } := by
  have hseg' : s.agent.tracer.resolve (.span k) = some (.span k u t) := hseg
  unfold captureException
  split
  · refine ⟨s.tracer.queued ++ [.error u.enclosingTransaction
      ⟨t.traceId, t.id, (u.errorParentId t none).getD u.id⟩], ?_⟩
    simp only [Instrumented.call, Tracer.step, hseg', Option.map_some]
    rfl
  · exact ⟨s.tracer.queued, rfl⟩

theorem endSpan_ends (hseg : s.tracer.resolve (.span k) = some (.span k u t))
    (hopen : u.isEnded = false) (htext : o.command.commandText.isNone = false) :
    ∃ s', s.endSpan o k = some s' ∧ s.agent.Ends s'.agent k ∧ s'.spans = s.spans := by
  obtain ⟨queued, hcapture⟩ := captureException_eq (o := o) hseg
  have hseg' : { s.tracer with queued := queued }.resolve (.span k) = some (.span k u t) := hseg
  have hends := Instrumented.dbEndSpan_ends
    (s := { s.agent with tracer := { s.tracer with queued := queued } }) hseg' hopen
    (throwsOn_eq_false htext u t) (o.instrumentation.listener.duration o.failed o.duration) o.now
  have hkeeps := hends.keeps
  refine ⟨{ s with agent := { s.agent with tracer := _ } }, ?_,
    ⟨hends.size, ⟨hkeeps.spans, hkeeps.transactions, hkeeps.currentTransaction⟩, hends.flags,
      hends.others, hends.span⟩, rfl⟩
  simp only [endSpan, hcapture, Option.bind_eq_bind, Option.bind_some, hseg']
  rfl

/-- The command ends while its own span is current. -/
theorem executed_ends (hseg : s.tracer.resolve (.span k) = some (.span k u t))
    (hopen : u.isEnded = false) (hcompeting : s.isCompeting o.instrumentation = false)
    (htext : o.command.commandText.isNone = false)
    (hspan : s.spans o.instrumentation o.id = some k) :
    ∃ s', s.executed o = some s' ∧ s.agent.Ends s'.agent k ∧
      ∀ i id, (i, id) ≠ (o.instrumentation, o.id) → s'.spans i id = s.spans i id := by
  simp only [executed, hcompeting, hspan, Bool.false_eq_true, if_false]
  split
  · obtain ⟨s', hs', hends, hspans⟩ := endSpan_ends
      (s := s.setSpan o.instrumentation o.id none) hseg hopen htext
    refine ⟨s', hs', hends, fun i id hne => ?_⟩
    rw [hspans]
    exact setSpan_of_ne _ _ hne
  · obtain ⟨s', hs', hends, hspans⟩ := endSpan_ends hseg hopen htext
    exact ⟨s', hs', hends, fun i id _ => by rw [hspans]⟩

end

end DbAgent

/-! ### All that an application does -/

theorem Tracer.KeepsBelow.resolve {σ σ' : Tracer} {k n : SpanRef} {u : Span} {t : Transaction}
    (h : σ.KeepsBelow σ' n) (hk : k < n)
    (hseg : σ.resolve (.span k) = some (.span k u t)) :
    ∃ t', σ'.resolve (.span k) = some (.span k u t') := by
  obtain ⟨-, hu, ht⟩ := resolve_span_eq_some.mp hseg
  obtain ⟨t', ht'⟩ := h.transactions _ ⟨t, ht⟩
  exact ⟨t', resolve_span_eq_some.mpr ⟨rfl, (h.spans k hk).trans hu, ht'⟩⟩

namespace DbCalls

/-- No command is kept yet, and no two are kept under one key. -/
structure Fresh (calls : DbCalls) (s : DbAgent) : Prop where
  nodup : calls.keys.Nodup
  free : ∀ i id, (i, id) ∈ calls.keys → s.spans i id = none

/-- What the calls do to the spans, and to what the instrumentations keep. -/
structure Captures (calls : DbCalls) (s s' : DbAgent) : Prop where
  run : calls.run s = some s'
  reports : s.agent.Reports s'.agent (calls.expected s.agent.currentFlag?)
  keeps : ∀ i id, (i, id) ∉ calls.keys → s'.spans i id = s.spans i id

variable {s s' s₀ s₁ s₂ : DbAgent} {o : DbOperation} {inner next : DbCalls}

theorem Fresh.command (h : (command o inner next).Fresh s) :
    s.spans o.instrumentation o.id = none ∧ (o.instrumentation, o.id) ∉ inner.keys ∧
      inner.Fresh s ∧ next.Fresh s ∧ ∀ key ∈ next.keys, key ∉ inner.keys ∧
        key ≠ (o.instrumentation, o.id) := by
  obtain ⟨hnodup, hnone⟩ := h
  simp only [keys, List.cons_append, List.nodup_cons, List.mem_append, not_or,
    List.nodup_append] at hnodup
  obtain ⟨⟨hinner, hnext⟩, hinner', hnext', hdisjoint⟩ := hnodup
  refine ⟨hnone o.instrumentation o.id (by simp [keys]), hinner, ⟨hinner', fun i id h => ?_⟩,
    ⟨hnext', fun i id h => ?_⟩, fun key hkey => ⟨fun hkey' => ?_, ?_⟩⟩
  · exact hnone i id (by simp [keys, h])
  · exact hnone i id (by simp [keys, h])
  · exact hdisjoint key hkey' key hkey rfl
  · rintro rfl
    exact hnext hkey

theorem Fresh.span {flag : OtherFlag} {a : SpanStart} {now : Int}
    (h : (span flag a now inner next).Fresh s) :
    inner.Fresh s ∧ next.Fresh s ∧ ∀ key ∈ next.keys, key ∉ inner.keys := by
  obtain ⟨hnodup, hfree⟩ := h
  obtain ⟨hinner, hnext, hdisjoint⟩ := List.nodup_append.mp hnodup
  exact ⟨⟨hinner, fun i id h => hfree i id (List.mem_append_left _ h)⟩,
    ⟨hnext, fun i id h => hfree i id (List.mem_append_right _ h)⟩,
    fun key hkey hkey' => hdisjoint key hkey' key hkey rfl⟩

/-- Keys that are free stay free while other keys are used. -/
theorem Fresh.of_eq {calls : DbCalls} (h : calls.Fresh s)
    (hspans : ∀ i id, (i, id) ∈ calls.keys → s'.spans i id = s.spans i id) : calls.Fresh s' :=
  ⟨h.nodup, fun i id hkey => (hspans i id hkey).trans (h.free i id hkey)⟩

/-- A command that is skipped, with what happens while it is executed and after it. -/
theorem Captures.skipped (h : inner.Captures s s₁) (hs : s.tracer.IsTracing) (hskips : s.skips o)
    (hfree : s.spans o.instrumentation o.id = none)
    (hinner : (o.instrumentation, o.id) ∉ inner.keys) (h' : next.Captures s₁ s') :
    (command o inner next).Captures s s' := by
  have hflag := h.reports.currentFlag? hs
  have hexecuted : s₁.executed o = some s₁ :=
    DbAgent.executed_skips_of_skips hskips hflag ((h.keeps _ _ hinner).trans hfree)
  constructor
  case run => simp [DbCalls.run, DbAgent.executing_skips hskips, h.run, hexecuted, h'.run]
  case reports =>
    have hexpected : (command o inner next).expected s.agent.currentFlag? =
        (inner.expected s.agent.currentFlag?).append (next.expected s.agent.currentFlag?) :=
      if_pos hskips
    have hreports := h'.reports
    rw [hflag] at hreports
    rw [hexpected]
    exact h.reports.trans hreports
  case keeps =>
    intro i id hkey
    simp only [keys, List.cons_append, List.mem_cons, List.mem_append, not_or] at hkey
    exact (h'.keeps i id hkey.2.2).trans (h.keeps i id hkey.2.1)

/-- A command that is reported. -/
theorem Captures.reported (h : inner.Captures s₀ s₁) (hs : s.tracer.IsTracing)
    (hskips : s.skips o = false) (hexecuting : s.executing o = some s₀)
    (hstart : s.agent.Starts s₀.agent o.instrumentation.listener.flag)
    (hothers : ∀ i id, (i, id) ≠ (o.instrumentation, o.id) → s₀.spans i id = s.spans i id)
    (hexecuted : s₁.executed o = some s₂)
    (hend : s₁.agent.Ends s₂.agent s.tracer.spans.size)
    (hothers' : ∀ i id, (i, id) ≠ (o.instrumentation, o.id) → s₂.spans i id = s₁.spans i id)
    (h' : next.Captures s₂ s') : (command o inner next).Captures s s' := by
  have hreports := h.reports
  rw [hstart.currentFlag?] at hreports
  have hspan := Instrumented.Reports.span hstart hreports hend
  constructor
  case run => simp [DbCalls.run, hexecuting, h.run, hexecuted, h'.run]
  case reports =>
    have hexpected : (command o inner next).expected s.agent.currentFlag? =
        (SpanForest.span o.instrumentation.listener.flag
          (inner.expected (some o.instrumentation.listener.flag)) .done).append
            (next.expected s.agent.currentFlag?) :=
      if_neg (Bool.eq_false_iff.mp hskips)
    have hnext := h'.reports
    rw [hspan.currentFlag? hs] at hnext
    rw [hexpected]
    exact hspan.trans hnext
  case keeps =>
    intro i id hkey
    simp only [keys, List.cons_append, List.mem_cons, List.mem_append, not_or] at hkey
    rw [h'.keeps i id hkey.2.2, hothers' i id hkey.1, h.keeps i id hkey.2.1,
      hothers i id hkey.1]

/-- A span of the application. -/
theorem Captures.ownSpan {agent agent' : Instrumented} {flag : OtherFlag} {a : SpanStart} {now : Int}
    (h : inner.Captures { s with agent := agent } s₁) (hs : s.tracer.IsTracing)
    (hstarted : s.agent.startSpanOnCurrentExecutionSegment flag.val a =
      some (agent, some s.tracer.spans.size))
    (hstart : s.agent.Starts agent flag.val)
    (hended : s₁.agent.call (.endSegment (.span s.tracer.spans.size) now) = some agent')
    (hend : s₁.agent.Ends agent' s.tracer.spans.size)
    (h' : next.Captures { s₁ with agent := agent' } s') :
    (span flag a now inner next).Captures s s' := by
  have hreports := h.reports
  rw [hstart.currentFlag?] at hreports
  have hspan := Instrumented.Reports.span hstart hreports hend
  constructor
  case run => simp [DbCalls.run, hstarted, h.run, hended, h'.run]
  case reports =>
    have hnext := h'.reports
    rw [hspan.currentFlag? hs] at hnext
    exact hspan.trans hnext
  case keeps =>
    intro i id hkey
    simp only [keys, List.mem_append, not_or] at hkey
    exact (h'.keeps i id hkey.2).trans (h.keeps i id hkey.1)

/-- The span that was started is still open, and current, when what was started in it is over. -/
theorem Captures.resolve {agent : Instrumented} {flag : InstrumentationFlag}
    (h : inner.Captures s₀ s₁) (hstart : agent.Starts s₀.agent flag) :
    ∃ u t, s₁.tracer.resolve (.span agent.tracer.spans.size) =
      some (.span agent.tracer.spans.size u t) ∧ u.isEnded = false := by
  obtain ⟨u, t, hseg, hopen, -⟩ := hstart.span
  have hlt : agent.tracer.spans.size < s₀.agent.tracer.spans.size := by
    rw [hstart.size]
    exact Nat.lt_succ_self _
  obtain ⟨t', hseg'⟩ := h.reports.keeps.resolve hlt hseg
  exact ⟨u, t', hseg', hopen⟩

/-- What is reported is what is meant to be. -/
theorem exists_captures (calls : DbCalls) (hs : s.tracer.IsTracing) (hfresh : calls.Fresh s) :
    ∃ s', calls.Captures s s' := by
  -- Along the calls; what is started in a command or a span comes before what follows it.
  induction calls generalizing s with
  | done => exact ⟨s, rfl, .refl _, fun _ _ _ => rfl⟩
  | command o inner next ihinner ihnext =>
    obtain ⟨hfree, hoinner, hinner, hnext, hapart⟩ := hfresh.command
    by_cases hskips : s.skips o
    · obtain ⟨s₁, h₁⟩ := ihinner hs hinner
      obtain ⟨s₂, h₂⟩ := ihnext (h₁.reports.isTracing hs)
        (hnext.of_eq fun i id h => h₁.keeps i id (hapart _ h).1)
      exact ⟨s₂, h₁.skipped hs hskips hfree hoinner h₂⟩
    · have hskips : s.skips o = false := by simpa using hskips
      obtain ⟨s₀, hexecuting, hstarts, hkept, hothers⟩ :=
        DbAgent.executing_starts hs hskips hfree
      obtain ⟨s₁, h₁⟩ := ihinner (hstarts.isTracing hs) (hinner.of_eq fun i id h =>
        hothers i id (by rintro hkey; exact hoinner (hkey ▸ h)))
      obtain ⟨u, t, hseg, hopen⟩ := h₁.resolve hstarts
      have hnotCompeting : s₁.isCompeting o.instrumentation = false := by
        unfold DbAgent.isCompeting
        rw [h₁.reports.currentFlag? (hstarts.isTracing hs), hstarts.currentFlag?]
        exact o.instrumentation.not_competesWith_flag
      obtain ⟨s₂, hexecuted, hends, hothers'⟩ := DbAgent.executed_ends hseg hopen hnotCompeting
        (Bool.or_eq_false_iff.mp hskips).2 ((h₁.keeps _ _ hoinner).trans hkept)
      have hreports := h₁.reports
      rw [hstarts.currentFlag?] at hreports
      have hspan := Instrumented.Reports.span hstarts hreports hends
      obtain ⟨s₃, h₃⟩ := ihnext (hspan.isTracing hs) (hnext.of_eq fun i id h => by
        rw [hothers' i id (hapart _ h).2, h₁.keeps i id (hapart _ h).1,
          hothers i id (hapart _ h).2])
      exact ⟨s₃, h₁.reported hs hskips hexecuting hstarts hothers hexecuted hends hothers' h₃⟩
  | span flag a now inner next ihinner ihnext =>
    obtain ⟨hinner, hnext, hapart⟩ := hfresh.span
    obtain ⟨agent, hstarted, hstarts⟩ :=
      Instrumented.startSpanOnCurrentExecutionSegment_starts hs flag.val a
    obtain ⟨s₁, h₁⟩ := ihinner (s := { s with agent := agent }) (hstarts.isTracing hs)
      (hinner.of_eq fun _ _ _ => rfl)
    obtain ⟨u, t, hseg, hopen⟩ := h₁.resolve hstarts
    obtain ⟨agent', hended, hends⟩ := Instrumented.call_endSegment_ends hseg hopen now
    have hreports := h₁.reports
    rw [hstarts.currentFlag?] at hreports
    have hspan := Instrumented.Reports.span hstarts hreports hends
    obtain ⟨s₂, h₂⟩ := ihnext (s := { s₁ with agent := agent' }) (hspan.isTracing hs)
      (hnext.of_eq fun i id h => h₁.keeps i id (hapart _ h))
    exact ⟨s₂, h₁.ownSpan hs hstarted hstarts hended hends h₂⟩

/-- A query of Entity Framework, the command it sends through SqlClient, which fails, and a
    command of the application. -/
def queries : DbCalls :=
  .command (operation .efCore 1 true)
    (.command (operation .sqlClient 1 true) .done .done)
    (.command (operation .sqlClient 2 false) .done .done)
where
  operation (i : DbInstrumentation) (id : Nat) (failed : Bool) : DbOperation :=
    { instrumentation := i
      id := id
      command := ⟨some "Microsoft.Data.SqlClient.SqlConnection", some "SELECT 1"⟩
      isConnected := rfl
      failed := failed
      duration := some 5
      spanStart := ⟨"a1b2c3d4e5f60718", 1⟩
      now := 2 }

example : queries.expected none =
    .span .efCore .done (.span .sqlClient .done .done) := by decide

/-- A running agent, with a transaction. -/
def tracingAgent : DbAgent where
  agent := ⟨Tracer.new.startTransaction .sampled, fun _ => .none⟩
  spans _ _ := none

end DbCalls

end ApmAgent
