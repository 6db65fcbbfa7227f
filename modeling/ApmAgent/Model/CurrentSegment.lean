import ApmAgent.Model.TracerSteps

/-! # The current execution segment

  `CurrentSpan` is documented as the currently active span. Four operations
  write the two slots, each from its own saved parent: `End` of a transaction
  does not look at `CurrentSpan`, and `End` of a span restores its parent span
  without asking whether that one is still open.

  `currentSegmentLive_iff_keepsCurrentLive` says in which runs the slots never
  hold an ended segment.
-/

namespace ApmAgent

namespace Tracer

/-! ### Live segments -/

/-- A transaction on which `End` was not called. -/
def TransactionLive (σ : Tracer) (r : TransactionRef) : Prop :=
  ∃ t, σ.transactions.get? r = some t ∧ t.isEnded = false

/-- A span on which `End` was not called, of a transaction on which `End` was not called. -/
def SpanLive (σ : Tracer) (k : SpanRef) : Prop :=
  ∃ s, σ.spans.get? k = some s ∧ s.isEnded = false ∧ σ.TransactionLive s.startedIn

def SegmentLive (σ : Tracer) : Segment → Prop
  | .transaction r => σ.TransactionLive r
  | .span k => σ.SpanLive k

/-- No slot holds an ended segment, and `GetCurrentExecutionSegment` returns none. -/
structure CurrentSegmentLive (σ : Tracer) : Prop where
  currentSpan : ∀ k, σ.currentSpan = some k → σ.SpanLive k
  currentTransaction : ∀ r, σ.currentTransaction = some r → σ.TransactionLive r
  currentExecutionSegment : ∀ seg, σ.getCurrentExecutionSegment = some seg → σ.SegmentLive seg

/-- The segment `GetCurrentExecutionSegment` returns comes from one of the slots. -/
theorem getCurrentExecutionSegment_eq_some {σ : Tracer} {seg : Segment}
    (h : σ.getCurrentExecutionSegment = some seg) :
    (∃ k, σ.currentSpan = some k ∧ seg = .span k) ∨
    (∃ r, σ.currentTransaction = some r ∧ seg = .transaction r) := by
  unfold getCurrentExecutionSegment at h
  -- `CurrentSpan` wins when it is set.
  cases hspan : σ.currentSpan with
  | some k =>
    left
    simpa [hspan, eq_comm] using h
  | none =>
    right
    simpa [hspan, eq_comm, and_comm] using h

theorem currentSegmentLive_iff {σ : Tracer} :
    σ.CurrentSegmentLive ↔
      (∀ k, σ.currentSpan = some k → σ.SpanLive k) ∧
      (∀ r, σ.currentTransaction = some r → σ.TransactionLive r) := by
  constructor
  · intro h
    exact ⟨h.currentSpan, h.currentTransaction⟩
  · rintro ⟨hspan, htx⟩
    refine ⟨hspan, htx, fun seg hseg => ?_⟩
    obtain ⟨k, hk, rfl⟩ | ⟨r, hr, rfl⟩ := getCurrentExecutionSegment_eq_some hseg
    · exact hspan k hk
    · exact htx r hr

/-! ### Which segments a change of the stores leaves live -/

theorem transactionLive_congr {σ σ' : Tracer} {q : TransactionRef}
    (h : σ'.transactions.get? q = σ.transactions.get? q) :
    σ'.TransactionLive q ↔ σ.TransactionLive q := by
  unfold TransactionLive
  rw [h]

/-- Replacing a transaction by one that is as ended as it was changes nothing. -/
theorem transactionLive_update {σ σ' : Tracer} {r : TransactionRef} {t t' : ITransaction}
    (ht : σ.transactions.get? r = some t) (hended : t'.isEnded = t.isEnded)
    (hσ' : σ'.transactions = σ.transactions.update r fun _ => t') (q : TransactionRef) :
    σ'.TransactionLive q ↔ σ.TransactionLive q := by
  unfold TransactionLive
  rw [hσ', Store.get?_update]
  split
  · next hq =>
    subst hq
    simp [ht, hended]
  · rfl

/-- Ending a transaction leaves the others live. -/
theorem transactionLive_end {σ σ' : Tracer} {r : TransactionRef} {t t' : ITransaction}
    (ht : σ.transactions.get? r = some t) (hended : t'.isEnded = true)
    (hσ' : σ'.transactions = σ.transactions.update r fun _ => t') (q : TransactionRef) :
    σ'.TransactionLive q ↔ σ.TransactionLive q ∧ q ≠ r := by
  unfold TransactionLive
  rw [hσ', Store.get?_update]
  split
  · next hq =>
    subst hq
    simp [ht, hended]
  · next hq =>
    have hne : q ≠ r := fun h => hq h.symm
    simp [hne]

theorem TransactionLive.alloc {σ σ' : Tracer} {q : TransactionRef} {t : ITransaction}
    (h : σ.TransactionLive q) (hσ' : σ'.transactions = σ.transactions.alloc t) :
    σ'.TransactionLive q := by
  obtain ⟨u, hu, hlive⟩ := h
  exact ⟨u, by rw [hσ']; exact Store.get?_alloc_of_some hu t, hlive⟩

theorem spanLive_congr {σ σ' : Tracer} {k : SpanRef}
    (hspan : σ'.spans.get? k = σ.spans.get? k)
    (htx : ∀ q, σ'.TransactionLive q ↔ σ.TransactionLive q) :
    σ'.SpanLive k ↔ σ.SpanLive k := by
  unfold SpanLive
  simp only [hspan, htx]

/-- The newest span is live when its transaction is. -/
theorem spanLive_alloc_size {σ σ' : Tracer} {s : ISpan} (hs : s.isEnded = false)
    (hσ' : σ'.spans = σ.spans.alloc s) :
    σ'.SpanLive σ.spans.size ↔ σ'.TransactionLive s.startedIn := by
  unfold SpanLive
  rw [hσ']
  simp [hs]

/-! ### Parent spans are older -/

/-- A span was started after its parent span. -/
def ParentsOlder (σ : Tracer) : Prop :=
  ∀ k s j, σ.spans.get? k = some s → s.parentSpan = some j → j < k

theorem parentsOlder_new : Tracer.new.ParentsOlder := by
  intro k s j hs
  simp [Tracer.new] at hs

theorem ParentsOlder.alloc {σ σ' : Tracer} {s : ISpan} (h : σ.ParentsOlder)
    (hparent : ∀ j, s.parentSpan = some j → ∃ p, σ.spans.get? j = some p)
    (hσ' : σ'.spans = σ.spans.alloc s) : σ'.ParentsOlder := by
  intro k u j hu hj
  rw [hσ', Store.get?_alloc] at hu
  split at hu
  · next hk =>
    cases hu
    obtain ⟨p, hp⟩ := hparent j hj
    rw [hk]
    exact Store.lt_size hp
  · exact h k u j hu hj

theorem ParentsOlder.update {σ σ' : Tracer} {k : SpanRef} {s s' : ISpan}
    (h : σ.ParentsOlder) (hs : σ.spans.get? k = some s)
    (hσ' : σ'.spans = σ.spans.update k fun _ => s')
    (hparent : s'.parentSpan = s.parentSpan) : σ'.ParentsOlder := by
  intro j u p hu hp
  rw [hσ', Store.get?_update] at hu
  split at hu
  · next hk =>
    subst hk
    rw [hs] at hu
    cases hu
    exact h k s p hs (by rw [← hparent]; exact hp)
  · exact h j u p hu hp

theorem ParentsOlder.step {σ σ' : Tracer} {op : Op} (h : σ.ParentsOlder)
    (hstep : σ.step op = some σ') : σ'.ParentsOlder := by
  cases step_transition hstep with
  | newTransaction a => exact h
  | newNoopTransaction a => exact h
  | newSpan a hon hreal ht hhanded hparent =>
    -- The parent span exists when the span is created, so it was created before.
    refine h.alloc (fun j hj => ?_) rfl
    obtain ⟨hnone, -⟩ | ⟨k, s, hk, hs, -⟩ := hparent
    · rw [ISpan.parentSpan, hnone] at hj
      cases hj
    · rw [ISpan.parentSpan, hk] at hj
      cases hj
      exact ⟨_, hs⟩
  | newNoopSpan hon hnoop hhanded hparent =>
    refine h.alloc (fun j hj => ?_) rfl
    obtain ⟨s, hs, -⟩ := hparent j hj
    exact ⟨_, hs⟩
  | startNothing a hnone => exact h
  | error hop hseg ht hid => exact h
  | noError hop hseg hnone => exact h
  | endTransaction now ht => simpa [ParentsOlder] using h
  | endNoopTransaction now hn => exact h
  | endSpan now hs ht => exact h.update hs (Span.endSpan_spans ..) rfl
  | endNoopSpan now hs => exact h.update hs (NoopSpan.endSpan_spans ..) rfl

/-! ### The condition on a call -/

end Tracer

/-- Whether `End` on the span writes `CurrentSpan`: the first call on a `Span`, every call on a
    `NoopSpan`. -/
def ISpan.endRestoresParent : ISpan → Bool
  | .span s => !s.isEnded
  | .noop _ => true

namespace Tracer

/-- A span is started in a live transaction, a transaction is ended when the current span is
    not one of its spans, and a span is ended when its parent span is live or absent. -/
def KeepsCurrentLive (σ : Tracer) : Op → Prop
  | .endSegment (.transaction r) _ =>
    ∀ k s, σ.currentSpan = some k → σ.spans.get? k = some s → s.startedIn ≠ r
  | .endSegment (.span k) _ =>
    ∀ s p, σ.spans.get? k = some s → s.endRestoresParent → s.parentSpan = some p → σ.SpanLive p
  | op => ∀ seg, op.startsSpanOn σ = some seg → σ.TransactionLive seg.transactionRef

theorem keepsCurrentLive_of_startsSpanOn {σ : Tracer} {op : Op} {seg : IExecutionSegment}
    (hon : op.startsSpanOn σ = some seg) :
    σ.KeepsCurrentLive op ↔ σ.TransactionLive seg.transactionRef := by
  cases op with
  | startSpan receiver a => simp [KeepsCurrentLive, hon]
  | startSpanInternal receiver a => simp [KeepsCurrentLive, hon]
  | startSpanOnCurrentExecutionSegment a => simp [KeepsCurrentLive, hon]
  | _ => simp [Op.startsSpanOn] at hon

theorem keepsCurrentLive_of_endRestoresParent {σ : Tracer} {k : SpanRef} {s : ISpan} {now : Int}
    (hs : σ.spans.get? k = some s) (hrestores : s.endRestoresParent) :
    σ.KeepsCurrentLive (.endSegment (.span k) now) ↔
      ∀ p, s.parentSpan = some p → σ.SpanLive p := by
  constructor
  · intro h p hp
    exact h s p hs hrestores hp
  · intro h s' p hs' _ hp
    rw [hs] at hs'
    cases hs'
    exact h p hp

/-! ### One step -/

/-- Starting a transaction of either class. -/
theorem currentSegmentLive_of_newTransaction {σ σ' : Tracer} {t : ITransaction}
    (h : σ.CurrentSegmentLive) (htxs : σ'.transactions = σ.transactions.alloc t)
    (ht : t.isEnded = false) (hspans : σ'.spans = σ.spans)
    (hcur : σ'.currentSpan = σ.currentSpan)
    (hcurTx : σ'.currentTransaction = some σ.transactions.size) : σ'.CurrentSegmentLive := by
  rw [currentSegmentLive_iff, hcur, hcurTx]
  constructor
  · -- The span of an outer transaction stays current: the constructor leaves `CurrentSpan`.
    intro k hk
    obtain ⟨s, hs, hopen, hlive⟩ := h.currentSpan k hk
    exact ⟨s, by rw [hspans]; exact hs, hopen, hlive.alloc htxs⟩
  · rintro _ ⟨rfl⟩
    exact ⟨t, by rw [htxs]; exact Store.get?_alloc_size _ _, ht⟩

/-- Starting a span of either class. -/
theorem currentSegmentLive_of_alloc {σ σ' : Tracer} {s : ISpan} {r : TransactionRef}
    (h : σ.CurrentSegmentLive) (hspans : σ'.spans = σ.spans.alloc s)
    (hs : s.isEnded = false) (hr : s.startedIn = r)
    (hcur : σ'.currentSpan = some σ.spans.size)
    (hcurTx : σ'.currentTransaction = σ.currentTransaction)
    (htx : ∀ q, σ'.TransactionLive q ↔ σ.TransactionLive q) :
    σ'.CurrentSegmentLive ↔ σ.TransactionLive r := by
  have hnew := (spanLive_alloc_size hs hspans).trans (htx s.startedIn)
  rw [hr] at hnew
  rw [currentSegmentLive_iff, hcur, hcurTx]
  constructor
  · rintro ⟨hspan, -⟩
    exact hnew.mp (hspan _ rfl)
  · intro hlive
    refine ⟨?_, fun r hr => (htx r).mpr (h.currentTransaction r hr)⟩
    rintro _ ⟨rfl⟩
    exact hnew.mpr hlive

/-- Ending a transaction of either class. -/
theorem currentSegmentLive_of_endTransaction {σ σ' : Tracer} {r : TransactionRef}
    {t t' : ITransaction} (h : σ.CurrentSegmentLive)
    (ht : σ.transactions.get? r = some t)
    (htxs : σ'.transactions = σ.transactions.update r fun _ => t') (hended : t'.isEnded = true)
    (hspans : σ'.spans = σ.spans) (hcur : σ'.currentSpan = σ.currentSpan)
    (hcurTx : σ'.currentTransaction = none) :
    σ'.CurrentSegmentLive ↔
      ∀ k s, σ.currentSpan = some k → σ.spans.get? k = some s → s.startedIn ≠ r := by
  have htx := transactionLive_end ht hended htxs
  rw [currentSegmentLive_iff, hcur, hcurTx]
  constructor
  · -- A current span of `r` is not live any more.
    rintro ⟨hspan, -⟩ k s hk hs
    obtain ⟨s', hs', -, hlive⟩ := hspan k hk
    rw [hspans, hs] at hs'
    cases hs'
    exact ((htx _).mp hlive).2
  · intro hne
    refine ⟨fun k hk => ?_, fun _ hr => by cases hr⟩
    obtain ⟨s, hs, hopen, hlive⟩ := h.currentSpan k hk
    exact ⟨s, by rw [hspans]; exact hs, hopen, (htx _).mpr ⟨hlive, hne k s hk hs⟩⟩

/-- Ending a span of either class, when that writes the slot. -/
theorem currentSegmentLive_of_endSpan {σ σ' : Tracer} {k : SpanRef} {s s' : ISpan}
    (hold : σ.ParentsOlder) (h : σ.CurrentSegmentLive) (hs : σ.spans.get? k = some s)
    (hspans : σ'.spans = σ.spans.update k fun _ => s')
    (htxs : σ'.transactions = σ.transactions) (hcur : σ'.currentSpan = s.parentSpan)
    (hcurTx : σ'.currentTransaction = σ.currentTransaction) :
    σ'.CurrentSegmentLive ↔ ∀ p, s.parentSpan = some p → σ.SpanLive p := by
  have htx : ∀ q, σ'.TransactionLive q ↔ σ.TransactionLive q :=
    fun q => transactionLive_congr (by rw [htxs])
  -- The span that becomes current is not the one that was ended: it is older.
  have hparent : ∀ p, s.parentSpan = some p → (σ'.SpanLive p ↔ σ.SpanLive p) := by
    intro p hp
    have hlt := hold k s p hs hp
    refine spanLive_congr ?_ htx
    rw [hspans, Store.get?_update_ne _ (Nat.ne_of_gt hlt)]
  rw [currentSegmentLive_iff, hcur, hcurTx]
  constructor
  · rintro ⟨hspan, -⟩ p hp
    exact (hparent p hp).mp (hspan p hp)
  · intro hlive
    exact ⟨fun p hp => (hparent p hp).mpr (hlive p hp),
      fun r hr => (htx r).mpr (h.currentTransaction r hr)⟩

/-- A second `End` of a transaction changes no slot, and no current span is in an ended
    transaction. -/
theorem currentSegmentLive_of_endedTransaction {σ : Tracer} {r : TransactionRef}
    {t : Transaction} (now : Int) (h : σ.CurrentSegmentLive)
    (ht : σ.transactions.get? r = some (.transaction t)) (hended : t.isEnded) :
    (Transaction.endTransaction σ r t now).CurrentSegmentLive ∧
      σ.KeepsCurrentLive (.endSegment (.transaction r) now) := by
  have htx : ∀ q, (Transaction.endTransaction σ r t now).TransactionLive q ↔
      σ.TransactionLive q :=
    transactionLive_update ht
      (by simpa [ITransaction.isEnded, Transaction.ended] using hended.symm)
      (Transaction.endTransaction_transactions σ r t now)
  constructor
  · rw [currentSegmentLive_iff]
    constructor
    · intro k hk
      rw [Transaction.endTransaction_currentSpan] at hk
      exact (spanLive_congr (by simp) htx).mpr (h.currentSpan k hk)
    · intro q hq
      rw [Transaction.endTransaction_currentTransaction, if_pos hended] at hq
      exact (htx q).mpr (h.currentTransaction q hq)
  · rintro k s hk hs rfl
    -- The current span's transaction would be both open and ended.
    obtain ⟨s', hs', -, t', ht', hlive⟩ := h.currentSpan k hk
    rw [hs] at hs'
    cases hs'
    rw [ht] at ht'
    cases ht'
    simp [ITransaction.isEnded, hended] at hlive

/-- A second `End` of a span changes no slot, and the current span is another one. -/
theorem currentSegmentLive_of_endedSpan {σ : Tracer} {k : SpanRef} {s : Span}
    {t : Transaction} (now : Int) (h : σ.CurrentSegmentLive)
    (hs : σ.spans.get? k = some (.span s)) (hended : s.isEnded) :
    (Span.endSpan σ k s t now).CurrentSegmentLive ∧
      σ.KeepsCurrentLive (.endSegment (.span k) now) := by
  have htx : ∀ q, (Span.endSpan σ k s t now).TransactionLive q ↔ σ.TransactionLive q := by
    intro q
    exact transactionLive_congr (by simp)
  constructor
  · rw [currentSegmentLive_iff]
    constructor
    · intro j hj
      rw [Span.endSpan_currentSpan, if_pos hended] at hj
      have hlive := h.currentSpan j hj
      have hne : k ≠ j := by
        rintro rfl
        obtain ⟨s', hs', hopen, -⟩ := hlive
        rw [hs] at hs'
        cases hs'
        simp [ISpan.isEnded, hended] at hopen
      refine (spanLive_congr ?_ htx).mpr hlive
      rw [Span.endSpan_spans, Store.get?_update_ne _ hne]
    · intro q hq
      rw [Span.endSpan_currentTransaction] at hq
      exact (htx q).mpr (h.currentTransaction q hq)
  · intro s' p hs' hrestores
    rw [hs] at hs'
    cases hs'
    simp [ISpan.endRestoresParent, hended] at hrestores

/-- A step leaves no ended segment current exactly when it meets the condition. -/
theorem currentSegmentLive_step {σ σ' : Tracer} {op : Op} (hold : σ.ParentsOlder)
    (h : σ.CurrentSegmentLive) (hstep : σ.step op = some σ') :
    σ'.CurrentSegmentLive ↔ σ.KeepsCurrentLive op := by
  -- Where a call cannot go wrong both sides hold; a span start and the first `End` decide.
  cases step_transition hstep with
  | newTransaction a =>
    have hlive : (Transaction.new σ a).CurrentSegmentLive :=
      currentSegmentLive_of_newTransaction h rfl rfl rfl rfl rfl
    have hkeeps : σ.KeepsCurrentLive (.startTransaction a) := by
      simp [KeepsCurrentLive, Op.startsSpanOn]
    exact iff_of_true hlive hkeeps
  | newNoopTransaction a =>
    have hlive : (NoopTransaction.new σ).CurrentSegmentLive :=
      currentSegmentLive_of_newTransaction h rfl rfl rfl rfl rfl
    have hkeeps : σ.KeepsCurrentLive (.startTransaction a) := by
      simp [KeepsCurrentLive, Op.startsSpanOn]
    exact iff_of_true hlive hkeeps
  | newSpan a hon hreal ht hhanded hparent =>
    rw [keepsCurrentLive_of_startsSpanOn hon]
    -- The constructor of `Span` also counts the span in its transaction.
    refine currentSegmentLive_of_alloc h rfl rfl rfl rfl rfl ?_
    refine transactionLive_update ht ?_ rfl
    simp only [ITransaction.isEnded, Transaction.countSpan]
    split <;> rfl
  | newNoopSpan hon hnoop hhanded hparent =>
    rw [keepsCurrentLive_of_startsSpanOn hon]
    exact currentSegmentLive_of_alloc h rfl rfl rfl rfl rfl fun q => Iff.rfl
  | startNothing a hnone =>
    have hkeeps : σ.KeepsCurrentLive (.startSpanOnCurrentExecutionSegment a) := by
      simp [KeepsCurrentLive, Op.startsSpanOn, hnone]
    exact iff_of_true h hkeeps
  | error hop hseg ht hid =>
    -- Queueing an error leaves both slots and all segments as they are.
    refine iff_of_true (currentSegmentLive_iff.mpr ⟨h.currentSpan, h.currentTransaction⟩) ?_
    rcases hop with rfl | rfl <;> simp [KeepsCurrentLive, Op.startsSpanOn]
  | noError hop hseg hnone =>
    refine iff_of_true h ?_
    rcases hop with rfl | rfl <;> simp [KeepsCurrentLive, Op.startsSpanOn]
  | @endTransaction r t now ht =>
    by_cases hended : t.isEnded
    · obtain ⟨hlive, hkeeps⟩ := currentSegmentLive_of_endedTransaction now h ht hended
      exact iff_of_true hlive hkeeps
    · exact currentSegmentLive_of_endTransaction h ht
        (Transaction.endTransaction_transactions ..) rfl (by simp) (by simp) (by simp [hended])
  | endNoopTransaction now hn =>
    exact currentSegmentLive_of_endTransaction h hn rfl rfl rfl rfl rfl
  | @endSpan k s t now hs ht =>
    by_cases hended : s.isEnded
    · obtain ⟨hlive, hkeeps⟩ := currentSegmentLive_of_endedSpan (t := t) now h hs hended
      exact iff_of_true hlive hkeeps
    · have hcur : (Span.endSpan σ k s t now).currentSpan = (ISpan.span s).parentSpan := by
        simp [hended, ISpan.parentSpan]
      have hrestores : (ISpan.span s).endRestoresParent := by
        simpa [ISpan.endRestoresParent] using hended
      rw [keepsCurrentLive_of_endRestoresParent hs hrestores]
      exact currentSegmentLive_of_endSpan hold h hs (Span.endSpan_spans ..)
        (Span.endSpan_transactions ..) hcur (by simp)
  | endNoopSpan now hs =>
    rw [keepsCurrentLive_of_endRestoresParent hs rfl]
    exact currentSegmentLive_of_endSpan hold h hs (NoopSpan.endSpan_spans ..) rfl rfl rfl

/-! ### All runs -/

theorem currentSegmentLive_new : Tracer.new.CurrentSegmentLive := by
  rw [currentSegmentLive_iff]
  simp [Tracer.new]

/-- A transaction is ended while its span is open, and the span stays current. -/
def endTransactionFirst : List Op :=
  [.startTransaction .sampled, .startSpan (.transaction 0) ⟨"a1b2c3d4e5f60718", 1⟩,
    .endSegment (.transaction 0) 2]

/-- A span is ended before its child, and becomes current again when the child ends. -/
def endParentFirst : List Op :=
  [.startTransaction .sampled, .startSpan (.transaction 0) ⟨"a1b2c3d4e5f60718", 1⟩,
    .startSpan (.span 0) ⟨"b2c3d4e5f6071829", 2⟩, .endSegment (.span 0) 3,
    .endSegment (.span 1) 4]

end Tracer

end ApmAgent
