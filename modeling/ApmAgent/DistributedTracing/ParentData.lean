import ApmAgent.DistributedTracing.TraceContinuity
import ApmAgent.Model.NoOrphans
import Mathlib.Logic.Relation

/-! # Parent data

  Tracing data is true of a tracer if it has the trace id and the sampling
  decision of one of its transactions, and as the parent id the id of that
  transaction or of a span of it that is sent. What a segment hands out is true
  when it is handed out; `NamesTransaction.move` says that it stays true,
  whatever is called on the tracer and whichever flow of control goes on.
-/

namespace ApmAgent

open TraceContext

/-- What a transaction hands on to those that continue its trace, and where it came from. -/
structure TransactionLineage where
  id : String
  traceId : String
  parentId : Option String
  isSampled : Bool
  deriving DecidableEq, Repr

def Transaction.lineage (t : Transaction) : TransactionLineage where
  id := t.id
  traceId := t.traceId
  parentId := t.parentId
  isSampled := t.isSampled

def ITransaction.lineage? : ITransaction → Option TransactionLineage
  | .transaction t => some t.lineage
  | .noop _ => none

@[simp] theorem Transaction.lineage_countSpan (t : Transaction) :
    t.countSpan.lineage = t.lineage := by
  unfold countSpan
  split <;> rfl

namespace Tracer

def lineage? (σ : Tracer) (r : TransactionRef) : Option TransactionLineage :=
  (σ.transactions.get? r).bind ITransaction.lineage?

theorem lineage?_eq_some {σ : Tracer} {r : TransactionRef} {l : TransactionLineage} :
    σ.lineage? r = some l ↔
      ∃ t, σ.transactions.get? r = some (.transaction t) ∧ t.lineage = l := by
  unfold lineage?
  rw [Option.bind_eq_some_iff]
  constructor
  · rintro ⟨t | n, ht, hl⟩
    · exact ⟨t, ht, Option.some.inj hl⟩
    · cases hl
  · rintro ⟨t, ht, rfl⟩
    exact ⟨_, ht, rfl⟩

/-! ### Calls and flows -/

/-- A call that meets a condition, or another flow of control going on. -/
inductive Move (allowed : Op → Prop) (σ : Tracer) : Tracer → Prop where
  | call {op : Op} {σ' : Tracer} (hop : allowed op) (hstep : σ.step op = some σ') :
      Move allowed σ σ'
  | flow (currentTransaction : Option TransactionRef) (currentSpan : Option SpanRef) :
      Move allowed σ
        { σ with currentTransaction := currentTransaction, currentSpan := currentSpan }

variable {allowed : Op → Prop} {σ σ' : Tracer} {r : TransactionRef} {l : TransactionLineage}

/-- What every call and every change of flow keeps is kept by any number of them. -/
theorem Move.keeps {P : Tracer → Prop} (hP : ∀ σ σ', Move allowed σ σ' → P σ → P σ')
    (h : Relation.ReflTransGen (Move allowed) σ σ') (hσ : P σ) : P σ' := by
  induction h with
  | refl => exact hσ
  | tail _ hmove ih => exact hP _ _ hmove ih

/-- A transaction keeps its lineage. -/
theorem lineage?_step {op : Op} (hstep : σ.step op = some σ') (h : σ.lineage? r = some l) :
    σ'.lineage? r = some l := by
  obtain ⟨t, ht, rfl⟩ := lineage?_eq_some.mp h
  obtain ⟨t', ht', hsame⟩ := step_transaction_keeps (f := ITransaction.lineage?)
    (fun t => by simp [ITransaction.lineage?]) (fun _ _ => rfl) (fun _ _ => rfl) hstep ht
  unfold lineage?
  rw [ht']
  exact hsame

theorem lineage?_move (h : Move allowed σ σ') (hl : σ.lineage? r = some l) :
    σ'.lineage? r = some l := by
  cases h with
  | call _ hstep => exact lineage?_step hstep hl
  | flow _ _ => exact hl

/-- What a call does to the transactions: it starts one, or the ones there are keep their
    lineage. -/
theorem lineage?_of_step {op : Op} (hstep : σ.step op = some σ')
    (hl : σ'.lineage? r = some l) :
    σ.lineage? r = some l ∨
      ∃ a, op = .startTransaction a ∧ r = σ.transactions.size ∧
        l = (Transaction.ofStart a).lineage := by
  by_cases hlt : ∃ t, σ.transactions.get? r = some t
  · -- An older transaction: forward, nothing else than its lineage can come out.
    obtain ⟨t, ht⟩ := hlt
    obtain ⟨t', ht', hsame⟩ := step_transaction_keeps (f := ITransaction.lineage?)
      (fun t => by simp [ITransaction.lineage?]) (fun _ _ => rfl) (fun _ _ => rfl) hstep ht
    left
    unfold lineage? at hl ⊢
    rw [ht'] at hl
    rw [ht]
    exact hsame.symm.trans hl
  · right
    obtain ⟨t', ht', rfl⟩ := lineage?_eq_some.mp hl
    have hnone : σ.transactions.get? r = none := by
      rcases hget : σ.transactions.get? r with _ | t
      · rfl
      · exact absurd ⟨t, hget⟩ hlt
    have hupdated {q : TransactionRef} {u : ITransaction}
        (h : (σ.transactions.update q fun _ => u).get? r = some (.transaction t')) : False := by
      obtain ⟨a, ha, -⟩ := Store.get?_update_eq_some.mp h
      rw [hnone] at ha
      cases ha
    cases step_transition hstep with
    | newTransaction a =>
      rw [Transaction.new, Store.get?_alloc] at ht'
      split at ht'
      · next hr =>
        cases ht'
        exact ⟨a, rfl, hr, rfl⟩
      · rw [hnone] at ht'
        cases ht'
    | newNoopTransaction a =>
      rw [NoopTransaction.new, Store.get?_alloc] at ht'
      split at ht'
      · cases ht'
      · rw [hnone] at ht'
        cases ht'
    | newSpan a hon hreal ht hhanded hparent => exact (hupdated ht').elim
    | endTransaction now ht =>
      rw [Transaction.endTransaction_transactions] at ht'
      exact (hupdated ht').elim
    | endNoopTransaction now hn => exact (hupdated ht').elim
    | endSpan now hs ht =>
      rw [Span.endSpan_transactions, hnone] at ht'
      cases ht'
    | _ =>
      -- The call leaves the transactions as they are.
      change σ.transactions.get? r = some (.transaction t') at ht'
      rw [hnone] at ht'
      cases ht'

/-! ### Data that names a transaction -/

/-- The data is what the transaction `r`, or a span of it, hands out. -/
structure NamesTransaction (σ : Tracer) (r : TransactionRef) (d : DistributedTracingData) :
    Prop where
  lineage : ∃ l, σ.lineage? r = some l ∧ d.traceId = l.traceId ∧ d.flagRecorded = l.isSampled
  parent : σ.IsKeptId r d.parentId

theorem isKeptId_step {op : Op} {id : String} (hstep : σ.step op = some σ')
    (h : σ.IsKeptId r id) : σ'.IsKeptId r id :=
  have hlinks := step_linkStep hstep
  h.mono hlinks.transactionLink?_mono hlinks.link?_mono

theorem isKeptId_move {id : String} (h : Move allowed σ σ') (hkept : σ.IsKeptId r id) :
    σ'.IsKeptId r id := by
  cases h with
  | call _ hstep => exact isKeptId_step hstep hkept
  | flow _ _ => exact hkept

theorem NamesTransaction.move {d : DistributedTracingData} (hmove : Move allowed σ σ')
    (h : σ.NamesTransaction r d) : σ'.NamesTransaction r d where
  lineage := by
    obtain ⟨l, hl, hsame⟩ := h.lineage
    exact ⟨l, lineage?_move hmove hl, hsame⟩
  parent := isKeptId_move hmove h.parent

/-- What a segment hands out names its transaction. -/
theorem namesTransaction_outgoing (htraced : σ.Traced) {receiver : Segment}
    {seg : IExecutionSegment} {d : DistributedTracingData} (hseg : σ.resolve receiver = some seg)
    (hd : seg.outgoingDistributedTracingData = some d) :
    σ.NamesTransaction seg.transactionRef d where
  lineage := by
    obtain ⟨t, ht, hof⟩ := htraced.resolve hseg
    obtain ⟨u, hu, htraceId, hflag⟩ := hof.outgoing d hd
    rcases t with t | n
    · cases hu
      exact ⟨t.lineage, lineage?_eq_some.mpr ⟨t, ht, rfl⟩, htraceId, hflag⟩
    · cases hu
  parent := outgoing_isKeptId hseg hd

theorem Traced.move (hmove : Move allowed σ σ') (h : σ.Traced) : σ'.Traced := by
  cases hmove with
  | call _ hstep => exact h.step hstep
  | flow _ _ => exact h

/-! ### Valid ids -/

/-- The ids a call generates are valid, and so is the trace id of a transaction it starts. -/
def GeneratesValidIds (op : Op) : Prop :=
  (∀ id, op.generatedId = some id → IsHexId id.toList 16) ∧
    ∀ a, op = .startTransaction a → IsHexId (Transaction.ofStart a).traceId.toList 32

/-- The ids of all transactions and spans can be sent in a header. -/
structure HasValidIds (σ : Tracer) : Prop where
  transactions : ∀ r l, σ.lineage? r = some l →
    IsHexId l.id.toList 16 ∧ IsHexId l.traceId.toList 32
  spans : ∀ k s, σ.spans.get? k = some (.span s) → IsHexId s.id.toList 16

theorem hasValidIds_new : Tracer.new.HasValidIds where
  transactions r l h := by cases h
  spans k s h := by cases h

theorem HasValidIds.step {op : Op} (h : σ.HasValidIds) (hop : GeneratesValidIds op)
    (hstep : σ.step op = some σ') : σ'.HasValidIds where
  transactions := by
    intro r l hl
    rcases lineage?_of_step hstep hl with hold | ⟨a, rfl, -, rfl⟩
    · exact h.transactions r l hold
    · exact ⟨hop.1 a.id rfl, hop.2 a rfl⟩
  spans := by
    intro k s hs
    rcases step_span_trace hstep with ⟨receiver, seg, a, s', hseg, ha, hspans, hcreated⟩ | hkeep
    · rw [hspans, Store.get?_alloc] at hs
      split at hs
      · cases hs
        rw [(hcreated.ids s.id s.traceId rfl).1]
        exact hop.1 a.id ha
      · exact h.spans k s hs
    · obtain ⟨s', hs', htrace⟩ := hkeep k _ hs
      have hids := congrArg SpanTrace.ids htrace
      rcases s' with s' | n
      · obtain ⟨hid, -⟩ := Prod.mk.inj (Option.some.inj hids)
        rw [hid]
        exact h.spans k s' hs'
      · cases hids

theorem HasValidIds.move (hallowed : ∀ op, allowed op → GeneratesValidIds op)
    (hmove : Move allowed σ σ') (h : σ.HasValidIds) : σ'.HasValidIds := by
  cases hmove with
  | call hop hstep => exact h.step (hallowed _ hop) hstep
  | flow _ _ => exact ⟨h.transactions, h.spans⟩

/-- Data that names a transaction is read back from its header as it is. -/
theorem NamesTransaction.read {d : DistributedTracingData} (h : σ.NamesTransaction r d)
    (hids : σ.HasValidIds) (traceStateValue : Option String) :
    tryExtractTracingData (buildTraceparent (some d)) traceStateValue =
      .ok (some { d with traceState := traceStateValue.bind validateTracestate }) := by
  obtain ⟨l, hl, htraceId, -⟩ := h.lineage
  have htraceId : IsHexId d.traceId.toList 32 := by
    rw [htraceId]
    exact (hids.transactions r l hl).2
  have hparentId : IsHexId d.parentId.toList 16 := by
    obtain ⟨t, ht, hid | ⟨k, s, hs, -, -, hid⟩⟩ := h.parent
    · rw [hid]
      exact (hids.transactions r t.lineage (lineage?_eq_some.mpr ⟨t, ht, rfl⟩)).1
    · rw [hid]
      exact hids.spans k s hs
  obtain ⟨hgrammar, hdata⟩ := isTraceparent_traceparentText d.flagRecorded htraceId hparentId rfl
  rw [String.ofList_toList, String.ofList_toList] at hdata
  have hread := (tryExtractTracingData_reads _ traceStateValue).1 hgrammar
  rw [buildTraceparent_eq, hread]
  -- The `tracestate` header is read apart from the `traceparent`.
  let withTraceState (e : DistributedTracingData) : DistributedTracingData :=
    { e with traceState := traceStateValue.bind validateTracestate }
  exact congrArg (fun e => Except.ok (some (withTraceState e))) hdata

end Tracer

end ApmAgent
