import ApmAgent.Framework.MachineInt
import ApmAgent.Model.TraceLinks

/-! # No orphaned trace events

  The spans of a transaction form a tree whose edges go to older spans. If
  dropped spans are followed by dropped spans only, then a span that is sent
  has no dropped ancestor.

  The drop decision compares a counter with `TransactionMaxSpans`, so it is
  monotone until the counter wraps around: `Linked` states what is true of the
  counter in every state, and what is true of it while dropping is monotone.
-/

namespace ApmAgent

namespace Tracer

/-! ### Nothing is orphaned -/

/-- Once a span of the transaction was dropped, all later ones were. -/
def DropMonotone (σ : Tracer) (r : TransactionRef) : Prop :=
  ∀ j k s u, j < k → σ.spans.get? j = some (.span s) → σ.spans.get? k = some (.span u) →
    s.enclosingTransaction = r → u.enclosingTransaction = r → s.isDropped → u.isDropped

/-- Every parent id emitted so far, or handed out now, is that of the transaction or of a span
    of it that is sent; and dropping is monotone. -/
structure NoOrphans (σ : Tracer) : Prop where
  spans : ∀ k s, .span k ∈ σ.queued → σ.spans.get? k = some (.span s) →
    σ.IsKeptId s.enclosingTransaction s.parentId
  errors : ∀ r e, .error r e ∈ σ.queued → σ.IsKeptId r e.parentId
  outgoing : ∀ receiver seg d, σ.resolve receiver = some seg →
    seg.outgoingDistributedTracingData = some d → σ.IsKeptId seg.transactionRef d.parentId
  dropped : ∀ r, σ.DropMonotone r

theorem dropMonotone_iff {σ : Tracer} {r : TransactionRef} :
    σ.DropMonotone r ↔
      ∀ j k s u, j < k → σ.link? j = some s → σ.link? k = some u →
        s.transaction = r → u.transaction = r → s.isDropped → u.isDropped := by
  constructor
  · intro h j k _ _ hjk hj hk hs hu hdropped
    obtain ⟨s, hgs, rfl⟩ := link?_eq_some.mp hj
    obtain ⟨u, hgu, rfl⟩ := link?_eq_some.mp hk
    exact h j k s u hjk hgs hgu hs hu hdropped
  · intro h j k s u hjk hj hk hs hu hdropped
    exact h j k s.link u.link hjk (link?_eq_some.mpr ⟨s, hj, rfl⟩)
      (link?_eq_some.mpr ⟨u, hk, rfl⟩) hs hu hdropped

theorem dropMonotone_congr {σ σ' : Tracer} (hlink : ∀ k, σ'.link? k = σ.link? k)
    (r : TransactionRef) : σ'.DropMonotone r ↔ σ.DropMonotone r := by
  simp only [dropMonotone_iff, hlink]

/-- Spans that are only added break the monotonicity, never repair it. -/
theorem DropMonotone.of_mono {σ σ' : Tracer} {r : TransactionRef} (h : σ'.DropMonotone r)
    (hlink : ∀ k l, σ.link? k = some l → σ'.link? k = some l) : σ.DropMonotone r := by
  rw [dropMonotone_iff] at h ⊢
  intro j k s u hjk hs hu
  exact h j k s u hjk (hlink j s hs) (hlink k u hu)

theorem IsKeptId.mono {σ σ' : Tracer} {r : TransactionRef} {id : String}
    (h : σ.IsKeptId r id)
    (htx : ∀ r t, σ.transactionLink? r = some t → σ'.transactionLink? r = some t)
    (hlink : ∀ k l, σ.link? k = some l → σ'.link? k = some l) : σ'.IsKeptId r id := by
  rw [isKeptId_iff] at h ⊢
  obtain ⟨t, ht, hid | ⟨hsampled, k, s, hs, hrest⟩⟩ := h
  · exact ⟨t, htx r t ht, .inl hid⟩
  · exact ⟨t, htx r t ht, .inr ⟨hsampled, k, s, hlink k s hs, hrest⟩⟩

theorem LinkStep.transactionLink?_mono {σ σ' : Tracer} {op : Op} (h : LinkStep σ op σ')
    (r : TransactionRef) (t : TransactionLink) (ht : σ.transactionLink? r = some t) :
    σ'.transactionLink? r = some t := by
  cases h with
  | idle hnoSpan hnoParent hsame hqueued => rw [hsame.transactionLink?, ht]
  | newTransaction t' hnoSpan hnoParent hnew hqueued hlink htx htotal =>
    have hne : r ≠ σ.transactions.size := by
      rintro rfl
      rw [transactionLink?_size] at ht
      cases ht
    rw [htx, if_neg hne, ht]
  | newSpan t' l hspan hnoParent hqueued ht' hdropped hparent hlink htx htotal => rw [htx, ht]
  | error r e hnoSpan hparent hsame hqueued => rw [hsame.transactionLink?, ht]
  | endSpan k l t' hnoSpan hnoParent hl ht' hsent hsame hqueued =>
    rw [hsame.transactionLink?, ht]

theorem LinkStep.link?_mono {σ σ' : Tracer} {op : Op} (h : LinkStep σ op σ')
    (k : SpanRef) (l : SpanLink) (hl : σ.link? k = some l) : σ'.link? k = some l := by
  cases h with
  | idle hnoSpan hnoParent hsame hqueued => rw [hsame.link?, hl]
  | newTransaction t' hnoSpan hnoParent hnew hqueued hlink htx htotal => rw [hlink, hl]
  | newSpan t' l' hspan hnoParent hqueued ht' hdropped hparent hlink htx htotal =>
    have hne : k ≠ σ.spans.size := by
      rintro rfl
      rw [link?_size] at hl
      cases hl
    rw [hlink, if_neg hne, hl]
  | error r e hnoSpan hparent hsame hqueued => rw [hsame.link?, hl]
  | endSpan k l t' hnoSpan hnoParent hl' ht' hsent hsame hqueued => rw [hsame.link?, hl]

/-! ### The tree of spans and the counter -/

/-- The counter shows that spans of the transaction have to be dropped. -/
def LimitReached (t : TransactionLink) (total : Int32) : Prop :=
  t.isSampled ∧ 0 ≤ t.maxSpans ∧ t.maxSpans < total

theorem dropsNextSpan_iff {t : Transaction} :
    t.dropsNextSpan ↔ LimitReached t.link t.countSpan.spanCount.total := by
  by_cases hsampled : t.isSampled
  · have htotal := t.countSpan_total hsampled
    simp [Transaction.dropsNextSpan, LimitReached, SpanCount.isOverLimit,
      SpanCount.incrementTotal, Transaction.link, hsampled, htotal, and_comm]
    exact fun _ => decide_eq_true_iff
  · simp [Transaction.dropsNextSpan, LimitReached, Transaction.link, hsampled]

/-- Some span of the transaction was dropped. -/
def HasDropped (σ : Tracer) (r : TransactionRef) : Prop :=
  ∃ k s, σ.link? k = some s ∧ s.transaction = r ∧ s.isDropped

/-- What holds of the links in every state. -/
structure Linked (σ : Tracer) : Prop where
  parent : ∀ k s, σ.link? k = some s → ∃ t, σ.transactionLink? s.transaction = some t ∧
    (s.parentId = t.id ∨
      ∃ j p, j < k ∧ σ.link? j = some p ∧ p.transaction = s.transaction ∧ s.parentId = p.id)
  queued : ∀ k, .span k ∈ σ.queued → ∃ s t, σ.link? k = some s ∧
    σ.transactionLink? s.transaction = some t ∧ t.isSampled ∧ s.isDropped = false
  limit_dropped : ∀ r t n, σ.transactionLink? r = some t → σ.total? r = some n →
    LimitReached t n → σ.HasDropped r
  dropped_limit : ∀ r t n, σ.transactionLink? r = some t → σ.total? r = some n →
    σ.DropMonotone r → σ.HasDropped r → LimitReached t n

theorem linked_new : Tracer.new.Linked where
  parent k s hs := by cases hs
  queued k hk := by cases hk
  limit_dropped r t n ht := by cases ht
  dropped_limit r t n ht := by cases ht

/-- What holds of the spans queued so far still holds of them after a step. -/
theorem Linked.queued_mono {σ σ' : Tracer} {op : Op} (h : σ.Linked) (hstep : LinkStep σ op σ')
    (k : SpanRef) (hk : .span k ∈ σ.queued) : ∃ s t, σ'.link? k = some s ∧
      σ'.transactionLink? s.transaction = some t ∧ t.isSampled ∧ s.isDropped = false := by
  obtain ⟨s, t, hs, ht, hsent⟩ := h.queued k hk
  exact ⟨s, t, hstep.link?_mono k s hs, hstep.transactionLink?_mono _ t ht, hsent⟩

/-- Steps that leave the links as they are. -/
theorem Linked.of_sameLinks {σ σ' : Tracer} (h : σ.Linked) (hsame : SameLinks σ σ')
    (hqueued : ∀ k, .span k ∈ σ'.queued → ∃ s t, σ'.link? k = some s ∧
      σ'.transactionLink? s.transaction = some t ∧ t.isSampled ∧ s.isDropped = false) :
    σ'.Linked where
  parent := by
    simp only [hsame.link?, hsame.transactionLink?]
    exact h.parent
  queued := hqueued
  limit_dropped := by
    simp only [HasDropped, hsame.link?, hsame.transactionLink?, hsame.total?]
    exact h.limit_dropped
  dropped_limit := by
    simp only [HasDropped, dropMonotone_congr hsame.link?, hsame.link?,
      hsame.transactionLink?, hsame.total?]
    exact h.dropped_limit

theorem link?_lt {σ : Tracer} {k : SpanRef} {l : SpanLink} (h : σ.link? k = some l) :
    k < σ.spans.size := by
  obtain ⟨s, hs, -⟩ := link?_eq_some.mp h
  exact Store.lt_size hs

/-- Starting a transaction. -/
theorem Linked.newTransaction {σ σ' : Tracer} {op : Op} {t : Transaction} (h : σ.Linked)
    (hls : LinkStep σ op σ') (hnew : t.spanCount = .new) (hqueued : σ'.queued = σ.queued)
    (hlink : ∀ k, σ'.link? k = σ.link? k)
    (htx : ∀ r, σ'.transactionLink? r =
      if r = σ.transactions.size then some t.link else σ.transactionLink? r)
    (htotal : ∀ r, σ'.total? r =
      if r = σ.transactions.size then some t.spanCount.total else σ.total? r) :
    σ'.Linked := by
  constructor
  · intro k s hs
    rw [hlink] at hs
    obtain ⟨u, hu, hparent⟩ := h.parent k s hs
    refine ⟨u, hls.transactionLink?_mono _ u hu, ?_⟩
    simpa only [hlink] using hparent
  · intro k hk
    rw [hqueued] at hk
    exact h.queued_mono hls k hk
  · intro r u n hu hn hlimit
    rw [htx] at hu
    rw [htotal] at hn
    split at hu
    · next hr =>
      -- The counter of the new transaction is zero.
      rw [if_pos hr, hnew] at hn
      cases hn
      obtain ⟨-, hpos, hlt⟩ := hlimit
      have hlt' := Int32.lt_iff_toInt_lt.mp hlt
      have hpos' := Int32.le_iff_toInt_le.mp hpos
      have hzero : SpanCount.new.total.toInt = (0 : Int32).toInt := rfl
      omega
    · next hr =>
      rw [if_neg hr] at hn
      simpa only [HasDropped, hlink] using h.limit_dropped r u n hu hn hlimit
  · intro r u n hu hn hmonotone hdropped
    rw [dropMonotone_congr hlink] at hmonotone
    simp only [HasDropped, hlink] at hdropped
    -- The new transaction has no span yet, let alone a dropped one.
    obtain ⟨k, s, hs, hsr, -⟩ := id hdropped
    obtain ⟨v, hv, -⟩ := h.parent k s hs
    have hr : r ≠ σ.transactions.size := by
      rintro rfl
      rw [hsr, transactionLink?_size] at hv
      cases hv
    rw [htx, if_neg hr] at hu
    rw [htotal, if_neg hr] at hn
    exact h.dropped_limit r u n hu hn hmonotone hdropped

/-- Starting a span. -/
theorem Linked.newSpan {σ σ' : Tracer} {op : Op} {t : Transaction} {l : SpanLink}
    (h : σ.Linked) (hls : LinkStep σ op σ') (hqueued : σ'.queued = σ.queued)
    (ht : σ.transactions.get? l.transaction = some (.transaction t))
    (hdropped : l.isDropped = t.dropsNextSpan)
    (hparent : l.parentId = t.id ∨
      ∃ j p, σ.link? j = some p ∧ p.transaction = l.transaction ∧ l.parentId = p.id)
    (hlink : ∀ k, σ'.link? k = if k = σ.spans.size then some l else σ.link? k)
    (htx : ∀ r, σ'.transactionLink? r = σ.transactionLink? r)
    (htotal : ∀ r, σ'.total? r =
      if l.transaction = r then some t.countSpan.spanCount.total else σ.total? r) :
    σ'.Linked := by
  have htl := transactionLink?_eq_some.mpr ⟨t, ht, rfl⟩
  have hnew : σ'.link? σ.spans.size = some l := by rw [hlink, if_pos rfl]
  have hmono := hls.link?_mono
  constructor
  · intro k s hs
    rw [hlink] at hs
    simp only [htx]
    split at hs
    · next hk =>
      -- The parent of the new span exists already, so it is older.
      cases hs
      refine ⟨t.link, htl, ?_⟩
      rcases hparent with hid | ⟨j, p, hp, hpr, hid⟩
      · exact .inl hid
      · exact .inr ⟨j, p, by rw [hk]; exact link?_lt hp, hmono j p hp, hpr, hid⟩
    · obtain ⟨u, hu, hid | ⟨j, p, hjk, hp, hpr, hid⟩⟩ := h.parent k s hs
      · exact ⟨u, hu, .inl hid⟩
      · exact ⟨u, hu, .inr ⟨j, p, hjk, hmono j p hp, hpr, hid⟩⟩
  · intro k hk
    rw [hqueued] at hk
    exact h.queued_mono hls k hk
  · intro r u n hu hn hlimit
    rw [htx] at hu
    rw [htotal] at hn
    split at hn
    · next hr =>
      -- The new span is itself a dropped one.
      subst hr
      cases hn
      rw [htl] at hu
      cases hu
      exact ⟨_, l, hnew, rfl, by rw [hdropped]; exact dropsNextSpan_iff.mpr hlimit⟩
    · obtain ⟨k, s, hs, hsr⟩ := h.limit_dropped r u n hu hn hlimit
      exact ⟨k, s, hmono k s hs, hsr⟩
  · intro r u n hu hn hmonotone hhas
    rw [htx] at hu
    rw [htotal] at hn
    obtain ⟨k, s, hs, hsr, hsd⟩ := hhas
    split at hn
    · next hr =>
      -- The new span is dropped: it is the dropped one, or later than it.
      subst hr
      cases hn
      rw [htl] at hu
      cases hu
      refine dropsNextSpan_iff.mp (hdropped ▸ ?_)
      rw [hlink] at hs
      split at hs
      · cases hs
        exact hsd
      · exact dropMonotone_iff.mp hmonotone k _ s l (link?_lt hs) (hmono k s hs) hnew hsr rfl hsd
    · next hr =>
      rw [hlink] at hs
      split at hs
      · cases hs
        exact absurd hsr hr
      · exact h.dropped_limit r u n hu hn (hmonotone.of_mono hmono) ⟨k, s, hs, hsr, hsd⟩

theorem Linked.step {σ σ' : Tracer} {op : Op} (h : σ.Linked) (hstep : σ.step op = some σ') :
    σ'.Linked := by
  have hls := step_linkStep hstep
  -- `hls` is kept for the facts that survive every step.
  cases step_linkStep hstep with
  | idle hnoSpan hnoParent hsame hqueued =>
    refine h.of_sameLinks hsame fun k hk => h.queued_mono hls k ?_
    rcases hqueued with hqueued | ⟨r, hqueued⟩ <;> simpa [hqueued] using hk
  | newTransaction t hnoSpan hnoParent hnew hqueued hlink htx htotal =>
    exact h.newTransaction hls hnew hqueued hlink htx htotal
  | newSpan t l hspan hnoParent hqueued ht hdropped hparent hlink htx htotal =>
    exact h.newSpan hls hqueued ht hdropped hparent hlink htx htotal
  | error r e hnoSpan hparent hsame hqueued =>
    refine h.of_sameLinks hsame fun k hk => h.queued_mono hls k ?_
    simpa [hqueued] using hk
  | endSpan k l t hnoSpan hnoParent hl ht hsent hsame hqueued =>
    refine h.of_sameLinks hsame fun j hj => ?_
    rw [hqueued, List.mem_append] at hj
    rcases hj with hj | hj
    · exact h.queued_mono hls j hj
    · -- The span queued now passed `ShouldBeSentToApmServer`.
      cases List.mem_singleton.mp hj
      exact ⟨l, t, by rw [hsame.link?, hl], by rw [hsame.transactionLink?, ht], hsent⟩

/-- Where dropping is monotone, a span that is sent has a parent that is kept. -/
theorem Linked.parent_isKeptId {σ : Tracer} (h : σ.Linked) (hmonotone : ∀ r, σ.DropMonotone r)
    {k : SpanRef} {s : Span} (hk : .span k ∈ σ.queued)
    (hs : σ.spans.get? k = some (.span s)) :
    σ.IsKeptId s.enclosingTransaction s.parentId := by
  have hlink : σ.link? k = some s.link := link?_eq_some.mpr ⟨s, hs, rfl⟩
  obtain ⟨l, t, hl, ht, hsampled, hkept⟩ := h.queued k hk
  rw [hlink] at hl
  cases hl
  rw [isKeptId_iff]
  refine ⟨t, ht, ?_⟩
  obtain ⟨t', ht', hid | ⟨j, p, hjk, hp, hpr, hid⟩⟩ := h.parent k s.link hlink
  · rw [ht] at ht'
    cases ht'
    exact .inl hid
  · refine .inr ⟨hsampled, j, p, hp, hpr, ?_, hid⟩
    -- A dropped parent would be followed by this span, which is not dropped.
    by_contra hdropped
    have hdropped' : p.isDropped = true := by simpa using hdropped
    have := dropMonotone_iff.mp (hmonotone _) j k p s.link hjk hp hlink hpr rfl hdropped'
    rw [hkept] at this
    cases this

theorem noOrphans_iff {σ : Tracer} (h : σ.Linked) :
    σ.NoOrphans ↔
      (∀ r e, .error r e ∈ σ.queued → σ.IsKeptId r e.parentId) ∧ ∀ r, σ.DropMonotone r := by
  constructor
  · intro ho
    exact ⟨ho.errors, ho.dropped⟩
  · rintro ⟨herrors, hmonotone⟩
    exact
      { spans := fun k s hk hs => h.parent_isKeptId hmonotone hk hs
        errors := herrors
        outgoing := fun receiver seg d hseg hd => outgoing_isKeptId hseg hd
        dropped := hmonotone }

end Tracer

/-! ### The condition on a call -/

/-- Counting the next span does not make the counter wrap around, unless no span is ever
    dropped: the limit is off, or the largest number the counter reaches. -/
def Transaction.CounterInRange (t : Transaction) : Prop :=
  t.isSampled → t.spanCount.total = Int32.maxValue →
    t.configSnapshot.transactionMaxSpans < 0 ∨
    t.configSnapshot.transactionMaxSpans = Int32.maxValue

namespace Tracer

/-- A span is created only where the counter has room, and a parent id the caller gives an
    error is one that is kept. -/
structure KeepsLinks (σ : Tracer) (op : Op) : Prop where
  counter : ∀ t, op.createsSpanIn σ = some t → t.CounterInRange
  givenParent : ∀ r id, op.givenParent σ = some (r, id) → σ.IsKeptId r id

theorem KeepsLinks.of_none {σ : Tracer} {op : Op} (hnoSpan : op.createsSpanIn σ = none)
    (hnoParent : op.givenParent σ = none) : σ.KeepsLinks op where
  counter t ht := by rw [hnoSpan] at ht; cases ht
  givenParent r id h := by rw [hnoParent] at h; cases h

/-! ### One step -/

/-- The next span continues the dropping exactly when the counter has room. -/
theorem dropsNextSpan_of_hasDropped_iff {σ : Tracer} (h : σ.Linked) {r : TransactionRef}
    {t : Transaction} (ht : σ.transactions.get? r = some (.transaction t))
    (hmonotone : σ.DropMonotone r) :
    (σ.HasDropped r → t.dropsNextSpan) ↔ t.CounterInRange := by
  have htl := transactionLink?_eq_some.mpr ⟨t, ht, rfl⟩
  have hn := total?_eq_some.mpr ⟨t, ht, rfl⟩
  constructor
  · intro hdrops hsampled htotal
    -- At the largest counter the limit is reached, but the next comparison is with the smallest.
    by_contra hout
    obtain ⟨hpos, hne⟩ := not_or.mp hout
    have hlt : t.configSnapshot.transactionMaxSpans < t.spanCount.total := by
      rw [htotal]
      exact Int32.lt_of_le_of_ne (Int32.le_maxValue _) hne
    have hdropped := h.limit_dropped r _ _ htl hn ⟨hsampled, Int32.not_lt.mp hpos, hlt⟩
    obtain ⟨-, -, hover⟩ := dropsNextSpan_iff.mp (hdrops hdropped)
    rw [t.countSpan_total hsampled, htotal, MachineInt.maxValue_add_one] at hover
    exact Int32.not_lt_minValue hover
  · intro hrange hdropped
    -- The limit was reached before, and the counter grows.
    obtain ⟨hsampled, hpos, hlt⟩ := h.dropped_limit r _ _ htl hn hmonotone hdropped
    refine dropsNextSpan_iff.mpr ⟨hsampled, hpos, ?_⟩
    rw [t.countSpan_total hsampled]
    refine MachineInt.lt_add_one hlt fun htotal => ?_
    rcases hrange hsampled htotal with hneg | hmax
    · exact Int32.lt_irrefl (Int32.lt_of_le_of_lt hpos hneg)
    · rw [htotal, ← hmax] at hlt
      exact Int32.lt_irrefl hlt

/-- After a span is added, dropping is monotone if it was and the span continues it. -/
theorem dropMonotone_newSpan_iff {σ σ' : Tracer} {l : SpanLink}
    (hlink : ∀ k, σ'.link? k = if k = σ.spans.size then some l else σ.link? k)
    (hmonotone : ∀ r, σ.DropMonotone r) :
    (∀ r, σ'.DropMonotone r) ↔ (σ.HasDropped l.transaction → l.isDropped) := by
  have hold : ∀ k s, σ.link? k = some s → σ'.link? k = some s := by
    intro k s hs
    rw [hlink, if_neg (Nat.ne_of_lt (link?_lt hs)), hs]
  have hnew : σ'.link? σ.spans.size = some l := by rw [hlink, if_pos rfl]
  constructor
  · rintro h ⟨k, s, hs, hr, hdropped⟩
    exact dropMonotone_iff.mp (h _) k _ s l (link?_lt hs) (hold k s hs) hnew hr rfl hdropped
  · intro hcontinues r
    rw [dropMonotone_iff]
    intro j k s u hjk hs hu hr hur hdropped
    rw [hlink] at hs hu
    -- The new span is the last one, so only the later of the two can be it.
    split at hu
    · next hk =>
      cases hu
      rw [if_neg (by rw [← hk]; exact Nat.ne_of_lt hjk)] at hs
      exact hcontinues ⟨j, s, hs, hr.trans hur.symm, hdropped⟩
    · next hk =>
      have hj : j ≠ σ.spans.size := Nat.ne_of_lt (Nat.lt_trans hjk (link?_lt hu))
      rw [if_neg hj] at hs
      exact dropMonotone_iff.mp (hmonotone r) j k s u hjk hs hu hr hur hdropped

/-- A step that captures no error and starts no span orphans nothing. -/
theorem noOrphans_of_noNewError {σ σ' : Tracer} {op : Op} (ho : σ.NoOrphans)
    (hls : LinkStep σ op σ') (hlink : ∀ k, σ'.link? k = σ.link? k)
    (herrors : ∀ r e, .error r e ∈ σ'.queued → .error r e ∈ σ.queued) :
    (∀ r e, .error r e ∈ σ'.queued → σ'.IsKeptId r e.parentId) ∧ ∀ r, σ'.DropMonotone r := by
  constructor
  · intro r e he
    have hkept := ho.errors r e (herrors r e he)
    exact hkept.mono hls.transactionLink?_mono hls.link?_mono
  · intro r
    exact (dropMonotone_congr hlink r).mpr (ho.dropped r)

/-- A step orphans nothing exactly when it meets the condition. -/
theorem noOrphans_step {σ σ' : Tracer} {op : Op} (h : σ.Linked) (ho : σ.NoOrphans)
    (hstep : σ.step op = some σ') : σ'.NoOrphans ↔ σ.KeepsLinks op := by
  have hls := step_linkStep hstep
  have hkept : ∀ r id, σ.IsKeptId r id → σ'.IsKeptId r id :=
    fun r id hid => hid.mono hls.transactionLink?_mono hls.link?_mono
  rw [noOrphans_iff (h.step hstep)]
  cases step_linkStep hstep with
  | idle hnoSpan hnoParent hsame hqueued =>
    have herrors : ∀ r e, .error r e ∈ σ'.queued → .error r e ∈ σ.queued := by
      intro r e he
      rcases hqueued with hqueued | ⟨q, hqueued⟩ <;> simpa [hqueued] using he
    exact iff_of_true (noOrphans_of_noNewError ho hls hsame.link? herrors)
      (.of_none hnoSpan hnoParent)
  | newTransaction t hnoSpan hnoParent hnew hqueued hlink htx htotal =>
    have herrors : ∀ r e, .error r e ∈ σ'.queued → .error r e ∈ σ.queued := by
      intro r e he
      rwa [hqueued] at he
    exact iff_of_true (noOrphans_of_noNewError ho hls hlink herrors)
      (.of_none hnoSpan hnoParent)
  | newSpan t l hspan hnoParent hqueued ht hdropped hparent hlink htx htotal =>
    -- Nothing is emitted; the new span may break the monotonicity.
    have hrange := dropsNextSpan_of_hasDropped_iff h ht (ho.dropped l.transaction)
    rw [dropMonotone_newSpan_iff hlink ho.dropped, hdropped, hrange]
    constructor
    · rintro ⟨-, hcounter⟩
      constructor
      · intro t' ht'
        rw [hspan] at ht'
        cases ht'
        exact hcounter
      · intro r id hid
        rw [hnoParent] at hid
        cases hid
    · intro hk
      exact ⟨fun r e he => hkept r _ (ho.errors r e (by rwa [hqueued] at he)),
        hk.counter t hspan⟩
  | error r e hnoSpan hparent hsame hqueued =>
    -- A parent id the caller gave may be any string; the default one is kept.
    constructor
    · rintro ⟨herrors, -⟩
      refine ⟨fun t ht => ?_, fun q id hid => ?_⟩
      · rw [hnoSpan] at ht
        cases ht
      rcases hparent with hgiven | ⟨hnone, -⟩
      · rw [hgiven] at hid
        cases hid
        refine (herrors r e (by simp [hqueued])).mono ?_ ?_
        · intro q t ht
          rwa [hsame.transactionLink?] at ht
        · intro k l hl
          rwa [hsame.link?] at hl
      · rw [hnone] at hid
        cases hid
    · intro hk
      refine ⟨fun q f hf => ?_, fun q => (dropMonotone_congr hsame.link? q).mpr (ho.dropped q)⟩
      rw [hqueued, List.mem_append] at hf
      rcases hf with hf | hf
      · exact hkept q _ (ho.errors q f hf)
      · cases List.mem_singleton.mp hf
        rcases hparent with hgiven | ⟨-, hid⟩
        · exact hkept r _ (hk.givenParent r e.parentId hgiven)
        · exact hkept r _ hid
  | endSpan k l t hnoSpan hnoParent hl ht hsent hsame hqueued =>
    have herrors : ∀ r e, .error r e ∈ σ'.queued → .error r e ∈ σ.queued := by
      intro r e he
      simpa [hqueued] using he
    exact iff_of_true (noOrphans_of_noNewError ho hls hsame.link? herrors)
      (.of_none hnoSpan hnoParent)

/-! ### All runs -/

theorem noOrphans_new : Tracer.new.NoOrphans := by
  rw [noOrphans_iff linked_new]
  constructor
  · intro r e he
    cases he
  · intro r j k s u hjk hs
    cases hs

/-- In all states of a run nothing is orphaned if and only if none of its calls creates a span
    in a transaction whose counter is about to wrap around, or gives an error a parent id that
    is not kept. -/
theorem noOrphans_iff_keepsLinks (ops : List Op) :
    tracerSystem.Always NoOrphans .new ops ↔ tracerSystem.Along KeepsLinks .new ops := by
  have hinv : ∀ σ op σ', Linked σ → tracerSystem.step σ op = some σ' → Linked σ' := by
    intro σ op σ' h hstep
    exact h.step hstep
  have hexact : ∀ σ op σ', Linked σ → NoOrphans σ → tracerSystem.step σ op = some σ' →
      (NoOrphans σ' ↔ KeepsLinks σ op) := by
    intro σ op σ' h ho hstep
    exact noOrphans_step h ho hstep
  exact LTS.System.always_iff_along hinv hexact linked_new noOrphans_new ops

/-! ### The counter does wrap around -/

/-- A configuration under which all spans are to be dropped. -/
def noSpansConfig : ConfigSnapshot := { ConfigSnapshot.defaults with transactionMaxSpans := 0 }

def oneSpan : SpanStart := ⟨"a1b2c3d4e5f60718", 1⟩

/-- `n` spans of one transaction, all of them to be dropped. -/
def startSpans (n : Nat) : List Op :=
  .startTransaction { TransactionStart.sampled with currentConfig := noSpansConfig } ::
    List.replicate n (.startSpan (.transaction 0) oneSpan)

/-- The state after `n` of these spans: the `k`-th one is dropped if its number, as an `int`,
    is positive. -/
structure SpansStarted (σ : Tracer) (n : Nat) : Prop where
  size : σ.spans.size = n
  transaction : ∃ t, σ.transactions.get? 0 = some (.transaction t) ∧ t.isSampled = true ∧
    t.configSnapshot = noSpansConfig ∧ t.spanCount.total = Int32.ofNat n
  spans : ∀ k < n, ∃ s, σ.spans.get? k = some (.span s) ∧ s.enclosingTransaction = 0 ∧
    s.isDropped = decide (0 < Int32.ofNat (k + 1))

theorem SpansStarted.step {σ : Tracer} {n : Nat} (h : SpansStarted σ n) :
    ∃ σ', σ.step (.startSpan (.transaction 0) oneSpan) = some σ' ∧ SpansStarted σ' (n + 1) := by
  obtain ⟨t, ht, hsampled, hconfig, htotal⟩ := h.transaction
  have hseg : σ.resolve (.transaction 0) = some (.transaction 0 t) := by
    simp [resolve, ht]
  have hrec : t.isRecording = true := by rw [Transaction.isRecording, hconfig]; rfl
  refine ⟨Transaction.startSpanInternal σ 0 t oneSpan, ?_, ?_, ?_, ?_⟩
  · simp [Tracer.step, hseg, IExecutionSegment.startSpan, Transaction.startSpan, hrec]
  · simp [Transaction.startSpanInternal, Span.new, h.size]
  · refine ⟨t.countSpan, ?_, ?_, ?_, ?_⟩
    · simp [Transaction.startSpanInternal, Span.new, ht]
    · simp [Transaction.countSpan, hsampled]
    · simp [Transaction.countSpan, hsampled, hconfig]
    · rw [t.countSpan_total hsampled, htotal, Int32.ofNat_add]
      rfl
  · intro k hk
    simp only [Transaction.startSpanInternal, Span.new, Store.get?_alloc, h.size]
    split
    · next hkn =>
      subst hkn
      refine ⟨_, rfl, rfl, ?_⟩
      simp only [Transaction.dropsNextSpan, SpanCount.isOverLimit, SpanCount.incrementTotal,
        hsampled, hconfig, htotal, noSpansConfig, Int32.ofNat_add]
      have hzero : decide ((0 : Int32) ≤ 0) = true := by decide
      rw [hzero, Bool.and_true, Bool.true_and]
      rfl
    · exact h.spans k (by omega)

theorem spansStarted_run (n : Nat) :
    ∃ σ, tracerSystem.run .new (startSpans n) = some σ ∧ SpansStarted σ n := by
  -- One more span is one more step at the end of the run.
  induction n with
  | zero =>
    refine ⟨_, rfl, rfl, ⟨_, rfl, rfl, rfl, rfl⟩, fun k hk => by omega⟩
  | succ n ih =>
    obtain ⟨σ, hrun, hσ⟩ := ih
    obtain ⟨σ', hstep, hσ'⟩ := hσ.step
    refine ⟨σ', ?_, hσ'⟩
    rw [startSpans, List.replicate_succ', ← List.cons_append]
    exact LTS.System.run_concat_eq_some.mpr ⟨σ, hrun, hstep⟩

/-- Span number 2³¹ is not dropped, although the first one was. -/
theorem noOrphans_counterexample :
    ¬ tracerSystem.Always NoOrphans .new (startSpans (2 ^ 31)) := by
  intro h
  obtain ⟨σ, hrun, hσ⟩ := spansStarted_run (2 ^ 31)
  obtain ⟨s, hs, hsr, hsd⟩ := hσ.spans 0 (by decide)
  obtain ⟨u, hu, hur, hud⟩ := hσ.spans (2 ^ 31 - 1) (by decide)
  have hdropped := (h.last hrun).dropped 0 0 (2 ^ 31 - 1) s u (by decide) hs hu hsr hur
    (by rw [hsd]; decide)
  rw [hud] at hdropped
  exact absurd hdropped (by decide)

end Tracer

end ApmAgent
