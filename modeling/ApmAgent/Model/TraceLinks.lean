import ApmAgent.Model.TracerSteps

/-! # Parent ids

  Three paths emit parent ids: a span handed to the payload sender, a captured
  error, and the outgoing distributed tracing data. A parent id should name the
  transaction or a span of it that is sent, not one dropped by
  `TransactionMaxSpans`.

  The spans of a transaction are dropped from some span on as long as the `int`
  counter behind the decision does not wrap around;
  `noOrphans_iff_keepsLinks` says when nothing is orphaned.
-/

namespace ApmAgent

/-! ### What never changes of a segment -/

/-- The part of a transaction that parent ids and drop decisions depend on. -/
structure TransactionLink where
  id : String
  isSampled : Bool
  maxSpans : Int32
  deriving DecidableEq, Repr

def Transaction.link (t : Transaction) : TransactionLink where
  id := t.id
  isSampled := t.isSampled
  maxSpans := t.configSnapshot.transactionMaxSpans

/-- The part of a span that parent ids depend on. -/
structure SpanLink where
  id : String
  parentId : String
  transaction : TransactionRef
  isDropped : Bool
  deriving DecidableEq, Repr

def Span.link (s : Span) : SpanLink where
  id := s.id
  parentId := s.parentId
  transaction := s.enclosingTransaction
  isDropped := s.isDropped

def ITransaction.link? : ITransaction → Option TransactionLink
  | .transaction t => some t.link
  | .noop _ => none

def ISpan.link? : ISpan → Option SpanLink
  | .span s => some s.link
  | .noop _ => none

@[simp] theorem Transaction.link_countSpan (t : Transaction) : t.countSpan.link = t.link := by
  unfold countSpan
  split <;> rfl

theorem Transaction.countSpan_total (t : Transaction) (h : t.isSampled) :
    t.countSpan.spanCount.total = t.spanCount.total + 1 := by
  rw [countSpan, if_pos h]
  unfold SpanCount.countSpan
  split <;> rfl

namespace Tracer

def transactionLink? (σ : Tracer) (r : TransactionRef) : Option TransactionLink :=
  (σ.transactions.get? r).bind ITransaction.link?

def link? (σ : Tracer) (k : SpanRef) : Option SpanLink :=
  (σ.spans.get? k).bind ISpan.link?

/-- How often `IncrementTotal` was called for a transaction, as an `int`. -/
def total? (σ : Tracer) (r : TransactionRef) : Option Int32 :=
  (σ.transaction? r).map (·.spanCount.total)

theorem transactionLink?_eq_some {σ : Tracer} {r : TransactionRef} {l : TransactionLink} :
    σ.transactionLink? r = some l ↔
      ∃ t, σ.transactions.get? r = some (.transaction t) ∧ t.link = l := by
  unfold transactionLink?
  rw [Option.bind_eq_some_iff]
  constructor
  · rintro ⟨t | n, ht, hl⟩
    · exact ⟨t, ht, by simpa [ITransaction.link?] using hl⟩
    · cases hl
  · rintro ⟨t, ht, rfl⟩
    exact ⟨_, ht, rfl⟩

theorem link?_eq_some {σ : Tracer} {k : SpanRef} {l : SpanLink} :
    σ.link? k = some l ↔ ∃ s, σ.spans.get? k = some (.span s) ∧ s.link = l := by
  unfold link?
  rw [Option.bind_eq_some_iff]
  constructor
  · rintro ⟨s | n, hs, hl⟩
    · exact ⟨s, hs, by simpa [ISpan.link?] using hl⟩
    · cases hl
  · rintro ⟨s, hs, rfl⟩
    exact ⟨_, hs, rfl⟩

theorem total?_eq_some {σ : Tracer} {r : TransactionRef} {n : Int32} :
    σ.total? r = some n ↔
      ∃ t, σ.transactions.get? r = some (.transaction t) ∧ t.spanCount.total = n := by
  simp [total?, Option.map_eq_some_iff, transaction?_eq_some]

/-- The id of a transaction, or of a span of it that is sent to the server. -/
def IsKeptId (σ : Tracer) (r : TransactionRef) (id : String) : Prop :=
  ∃ t, σ.transactions.get? r = some (.transaction t) ∧
    (id = t.id ∨
      ∃ k s, σ.spans.get? k = some (.span s) ∧ s.enclosingTransaction = r ∧
        s.shouldBeSentToApmServer t ∧ id = s.id)

theorem isKeptId_iff {σ : Tracer} {r : TransactionRef} {id : String} :
    σ.IsKeptId r id ↔
      ∃ t, σ.transactionLink? r = some t ∧
        (id = t.id ∨ t.isSampled ∧
          ∃ k s, σ.link? k = some s ∧ s.transaction = r ∧ s.isDropped = false ∧ id = s.id) := by
  constructor
  · rintro ⟨t, ht, hid | ⟨k, s, hs, hr, hsent, hid⟩⟩
    · exact ⟨_, transactionLink?_eq_some.mpr ⟨t, ht, rfl⟩, .inl hid⟩
    · simp only [Span.shouldBeSentToApmServer, Bool.and_eq_true, Bool.not_eq_true'] at hsent
      exact ⟨_, transactionLink?_eq_some.mpr ⟨t, ht, rfl⟩,
        .inr ⟨hsent.1, k, _, link?_eq_some.mpr ⟨s, hs, rfl⟩, hr, hsent.2, hid⟩⟩
  · rintro ⟨_, hlink, hid⟩
    obtain ⟨t, ht, rfl⟩ := transactionLink?_eq_some.mp hlink
    rcases hid with hid | ⟨hsampled, k, _, hlink', hr, hkept, hid⟩
    · exact ⟨t, ht, .inl hid⟩
    · obtain ⟨s, hs, rfl⟩ := link?_eq_some.mp hlink'
      refine ⟨t, ht, .inr ⟨k, s, hs, hr, ?_, hid⟩⟩
      have hsampled' : t.isSampled = true := hsampled
      have hkept' : s.isDropped = false := hkept
      simp [Span.shouldBeSentToApmServer, hsampled', hkept']

/-- The parent id a segment hands out is kept. -/
theorem outgoing_isKeptId {σ : Tracer} {receiver : Segment} {seg : IExecutionSegment}
    {d : DistributedTracingData} (hseg : σ.resolve receiver = some seg)
    (hd : seg.outgoingDistributedTracingData = some d) :
    σ.IsKeptId seg.transactionRef d.parentId := by
  have hspec := resolve_spec hseg
  cases seg with
  | transaction r t =>
    cases hd
    exact ⟨t, hspec.2, .inl rfl⟩
  | span k s t =>
    cases hd
    -- A span that is not sent hands out the id of its transaction.
    by_cases hsent : s.shouldBeSentToApmServer t
    · exact ⟨t, hspec.2.2, .inr ⟨k, s, hspec.2.1, rfl, hsent, by
        simp [Span.outgoingDistributedTracingData, hsent]⟩⟩
    · exact ⟨t, hspec.2.2, .inl (by simp [Span.outgoingDistributedTracingData, hsent])⟩
  | noopTransaction r => cases hd
  | noopSpan k s => cases hd

/-! ### How a step changes the links -/

/-- What the links are made of is the same. -/
structure SameLinks (σ σ' : Tracer) : Prop where
  transactionLink? : ∀ r, σ'.transactionLink? r = σ.transactionLink? r
  link? : ∀ k, σ'.link? k = σ.link? k
  total? : ∀ r, σ'.total? r = σ.total? r

theorem SameLinks.of_eq {σ σ' : Tracer} (htxs : σ'.transactions = σ.transactions)
    (hspans : σ'.spans = σ.spans) : SameLinks σ σ' := by
  constructor <;> intro r
  · simp [Tracer.transactionLink?, htxs]
  · simp [Tracer.link?, hspans]
  · simp [Tracer.total?, transaction?, htxs]

theorem transactionLink?_update {σ σ' : Tracer} {r : TransactionRef} {t t' : ITransaction}
    (ht : σ.transactions.get? r = some t)
    (htxs : σ'.transactions = σ.transactions.update r fun _ => t')
    (hlink : t'.link? = t.link?) (q : TransactionRef) :
    σ'.transactionLink? q = σ.transactionLink? q := by
  unfold transactionLink?
  rw [htxs, Store.get?_update]
  split
  · next hq =>
    subst hq
    simp [ht, hlink]
  · rfl

theorem total?_update {σ σ' : Tracer} {r : TransactionRef} {t' : Transaction}
    {t : ITransaction} (ht : σ.transactions.get? r = some t)
    (htxs : σ'.transactions = σ.transactions.update r fun _ => .transaction t')
    (q : TransactionRef) :
    σ'.total? q = if r = q then some t'.spanCount.total else σ.total? q := by
  by_cases hq : r = q
  · subst hq
    simp [total?, transaction?, htxs, ht]
  · simp [total?, transaction?, htxs, Store.get?_update_ne _ hq, hq]

theorem link?_update {σ σ' : Tracer} {k : SpanRef} {s s' : ISpan}
    (hs : σ.spans.get? k = some s)
    (hspans : σ'.spans = σ.spans.update k fun _ => s')
    (hlink : s'.link? = s.link?) (j : SpanRef) : σ'.link? j = σ.link? j := by
  unfold link?
  rw [hspans, Store.get?_update]
  split
  · next hj =>
    subst hj
    simp [hs, hlink]
  · rfl

theorem link?_alloc {σ σ' : Tracer} {s : ISpan} (hspans : σ'.spans = σ.spans.alloc s)
    (j : SpanRef) :
    σ'.link? j = if j = σ.spans.size then s.link? else σ.link? j := by
  unfold link?
  rw [hspans, Store.get?_alloc]
  split <;> rfl

theorem transactionLink?_alloc {σ σ' : Tracer} {t : ITransaction}
    (htxs : σ'.transactions = σ.transactions.alloc t) (q : TransactionRef) :
    σ'.transactionLink? q =
      if q = σ.transactions.size then t.link? else σ.transactionLink? q := by
  unfold transactionLink?
  rw [htxs, Store.get?_alloc]
  split <;> rfl

theorem link?_size (σ : Tracer) : σ.link? σ.spans.size = none := by
  simp [link?, Store.get?_size]

theorem transactionLink?_size (σ : Tracer) :
    σ.transactionLink? σ.transactions.size = none := by
  simp [transactionLink?, Store.get?_size]

end Tracer

/-- The parent id a caller gives an error it captures, and the transaction of the error. -/
def Op.givenParent (σ : Tracer) : Op → Option (TransactionRef × String)
  | .captureException receiver (some p) | .captureError receiver (some p) =>
    (σ.resolve receiver).bind fun seg => seg.transaction?.map fun _ => (seg.transactionRef, p)
  | _ => none

namespace Tracer

/-- A call as the links see it. -/
inductive LinkStep (σ : Tracer) (op : Op) (σ' : Tracer) : Prop where
  /-- No link changes, and at most a transaction is queued. -/
  | idle (hnoSpan : op.createsSpanIn σ = none) (hnoParent : op.givenParent σ = none)
      (hsame : SameLinks σ σ')
      (hqueued : σ'.queued = σ.queued ∨ ∃ r, σ'.queued = σ.queued ++ [.transaction r])
  | newTransaction (t : Transaction) (hnoSpan : op.createsSpanIn σ = none)
      (hnoParent : op.givenParent σ = none) (hnew : t.spanCount = .new)
      (hqueued : σ'.queued = σ.queued) (hlink : ∀ k, σ'.link? k = σ.link? k)
      (htx : ∀ r, σ'.transactionLink? r =
        if r = σ.transactions.size then some t.link else σ.transactionLink? r)
      (htotal : ∀ r, σ'.total? r =
        if r = σ.transactions.size then some t.spanCount.total else σ.total? r)
  | newSpan (t : Transaction) (l : SpanLink) (hspan : op.createsSpanIn σ = some t)
      (hnoParent : op.givenParent σ = none) (hqueued : σ'.queued = σ.queued)
      (ht : σ.transactions.get? l.transaction = some (.transaction t))
      (hdropped : l.isDropped = t.dropsNextSpan)
      (hparent : l.parentId = t.id ∨
        ∃ j p, σ.link? j = some p ∧ p.transaction = l.transaction ∧ l.parentId = p.id)
      (hlink : ∀ k, σ'.link? k = if k = σ.spans.size then some l else σ.link? k)
      (htx : ∀ r, σ'.transactionLink? r = σ.transactionLink? r)
      (htotal : ∀ r, σ'.total? r =
        if l.transaction = r then some t.countSpan.spanCount.total else σ.total? r)
  | error (r : TransactionRef) (e : Error) (hnoSpan : op.createsSpanIn σ = none)
      (hparent : op.givenParent σ = some (r, e.parentId) ∨
        op.givenParent σ = none ∧ σ.IsKeptId r e.parentId)
      (hsame : SameLinks σ σ') (hqueued : σ'.queued = σ.queued ++ [.error r e])
  | endSpan (k : SpanRef) (l : SpanLink) (t : TransactionLink)
      (hnoSpan : op.createsSpanIn σ = none) (hnoParent : op.givenParent σ = none)
      (hl : σ.link? k = some l) (ht : σ.transactionLink? l.transaction = some t)
      (hsent : t.isSampled ∧ l.isDropped = false) (hsame : SameLinks σ σ')
      (hqueued : σ'.queued = σ.queued ++ [.span k])

theorem givenParent_of_startsSpanOn {σ : Tracer} {op : Op} {seg : IExecutionSegment}
    (hon : op.startsSpanOn σ = some seg) : op.givenParent σ = none := by
  cases op <;> simp [Op.startsSpanOn, Op.givenParent] at hon ⊢

theorem sameLinks_endTransaction {σ : Tracer} {r : TransactionRef} {t : Transaction} {now : Int}
    (ht : σ.transactions.get? r = some (.transaction t)) :
    SameLinks σ (Transaction.endTransaction σ r t now) where
  transactionLink? := transactionLink?_update ht (Transaction.endTransaction_transactions ..) rfl
  link? k := by simp [Tracer.link?]
  total? q := by
    rw [total?_update ht (Transaction.endTransaction_transactions ..)]
    split
    · next hq =>
      subst hq
      exact (total?_eq_some.mpr ⟨t, ht, rfl⟩).symm
    · rfl

theorem sameLinks_endNoopTransaction {σ : Tracer} {r : TransactionRef} {n : NoopTransaction}
    (hn : σ.transactions.get? r = some (.noop n)) :
    SameLinks σ (NoopTransaction.endTransaction σ r) where
  transactionLink? := transactionLink?_update hn rfl rfl
  link? k := rfl
  total? q := by
    by_cases hq : r = q
    · subst hq
      simp [Tracer.total?, transaction?, NoopTransaction.endTransaction, hn]
    · simp [Tracer.total?, transaction?, NoopTransaction.endTransaction,
        Store.get?_update_ne _ hq]

theorem sameLinks_endSpan {σ : Tracer} {k : SpanRef} {s : Span} {t : Transaction} {now : Int}
    (hs : σ.spans.get? k = some (.span s)) : SameLinks σ (Span.endSpan σ k s t now) where
  transactionLink? r := by simp [Tracer.transactionLink?]
  link? := link?_update hs (Span.endSpan_spans ..) rfl
  total? r := by simp [Tracer.total?, transaction?]

/-- Every call, as the links see it. -/
theorem step_linkStep {σ σ' : Tracer} {op : Op} (hstep : σ.step op = some σ') :
    LinkStep σ op σ' := by
  -- The no-op segments have no links, and the two `End`s change none.
  cases step_transition hstep with
  | newTransaction a =>
    refine .newTransaction (.ofStart a) rfl rfl rfl rfl (fun k => rfl)
      (fun r => by rw [transactionLink?_alloc rfl]; rfl) (fun r => ?_)
    by_cases hr : r = σ.transactions.size <;>
      simp [Tracer.total?, transaction?, Transaction.new, Store.get?_alloc, hr]
  | newNoopTransaction a =>
    refine .idle rfl rfl ⟨fun r => ?_, fun k => rfl, fun r => ?_⟩ (.inl rfl)
    · rw [transactionLink?_alloc rfl]
      split
      · next hr => rw [hr, transactionLink?_size]; rfl
      · rfl
    · by_cases hr : r = σ.transactions.size <;>
        simp [Tracer.total?, transaction?, NoopTransaction.new, Store.get?_alloc, hr,
          Store.get?_size]
  | @newSpan op seg t parentId traceId parentSpan a hon hreal ht hhanded hparent =>
    refine .newSpan t ⟨a.id, parentId, seg.transactionRef, t.dropsNextSpan⟩ hreal
      (givenParent_of_startsSpanOn hon) rfl ht rfl ?_ (fun k => by rw [link?_alloc rfl]; rfl)
      (transactionLink?_update ht rfl ?_) (fun r => total?_update ht rfl r)
    · obtain ⟨-, hid⟩ | ⟨k, s, -, hs, hr, hid⟩ := hparent
      · exact .inl hid
      · exact .inr ⟨k, _, link?_eq_some.mpr ⟨s, hs, rfl⟩, hr, hid⟩
    · simp [ITransaction.link?]
  | newNoopSpan hon hnoop hhanded hparent =>
    refine .idle hnoop (givenParent_of_startsSpanOn hon)
      ⟨fun r => rfl, fun k => ?_, fun r => rfl⟩ (.inl rfl)
    rw [link?_alloc rfl]
    split
    · next hk => rw [hk, link?_size]; rfl
    · rfl
  | startNothing a hnone =>
    exact .idle (by simp [Op.createsSpanIn, hnone]) rfl (.of_eq rfl rfl) (.inl rfl)
  | @error op receiver parentId t seg id hop hseg ht hid =>
    refine .error _ _ (by rcases hop with rfl | rfl <;> rfl) ?_ (.of_eq rfl rfl) rfl
    obtain ⟨d, hd, rfl⟩ := Option.map_eq_some_iff.mp hid
    cases parentId with
    | none =>
      -- The error gets the id the segment hands out.
      refine .inr ⟨by rcases hop with rfl | rfl <;> rfl, ?_⟩
      exact outgoing_isKeptId hseg hd
    | some p =>
      left
      have hreal : ∃ t, seg.transaction? = some t := by
        cases seg <;> simp [IExecutionSegment.outgoingDistributedTracingData] at hd <;>
          exact ⟨_, rfl⟩
      obtain ⟨t, ht⟩ := hreal
      rcases hop with rfl | rfl <;> simp [Op.givenParent, hseg, ht]
  | @noError op receiver parentId seg hop hseg hnone =>
    refine .idle (by rcases hop with rfl | rfl <;> rfl) ?_ (.of_eq rfl rfl) (.inl rfl)
    have hnoop : seg.transaction? = none := by
      cases seg <;> simp [IExecutionSegment.outgoingDistributedTracingData] at hnone <;> rfl
    cases parentId <;> rcases hop with rfl | rfl <;> simp [Op.givenParent, hseg, hnoop]
  | @endTransaction r t now ht =>
    refine .idle rfl rfl (sameLinks_endTransaction ht) ?_
    rw [Transaction.endTransaction_eq]
    cases t.isEnded with
    | true => exact .inl rfl
    | false => exact .inr ⟨r, rfl⟩
  | endNoopTransaction now hn => exact .idle rfl rfl (sameLinks_endNoopTransaction hn) (.inl rfl)
  | @endSpan k s t now hs ht =>
    -- Queued on the first call, and only if it is sent.
    by_cases hsent : s.shouldBeSentToApmServer t && !s.isEnded
    · have hqueued : (Span.endSpan σ k s t now).queued = σ.queued ++ [.span k] := by
        rw [Span.endSpan_eq, if_pos hsent]
      simp only [Span.shouldBeSentToApmServer, Bool.and_eq_true, Bool.not_eq_true'] at hsent
      exact .endSpan k s.link t.link rfl rfl (link?_eq_some.mpr ⟨s, hs, rfl⟩)
        (transactionLink?_eq_some.mpr ⟨t, ht, rfl⟩) hsent.1 (sameLinks_endSpan hs) hqueued
    · refine .idle rfl rfl (sameLinks_endSpan hs) (.inl ?_)
      rw [Span.endSpan_eq, if_neg hsent]
  | endNoopSpan now hs =>
    exact .idle rfl rfl ⟨fun r => rfl, link?_update hs (NoopSpan.endSpan_spans ..) rfl,
      fun r => rfl⟩ (.inl rfl)

end Tracer

end ApmAgent
