import ApmAgent.Framework.MachineInt
import ApmAgent.Model.TraceLinks

/-! # Span accounting

  Spans may be started on a transaction by several threads at once. The `Span`
  constructor counts in three steps that other threads can come between: it
  increments the total, decides by the value this gives, and increments one of
  the two other counters.

  A construction is followed by its place in the constructor. The counters are
  related to how many constructions have passed each place; once all have
  finished, only their number and the limit matter.
-/

namespace ApmAgent

/-! ### The constructor, step by step -/

/-- Where a construction stands in the `Span` constructor. -/
inductive ConstructorPlace where
  /-- Before `IncrementTotal`. -/
  | entered
  /-- Before `IncrementDropped`. -/
  | overLimit
  /-- Before `IncrementStarted`. -/
  | withinLimit
  | finished
  deriving DecidableEq, Repr

/-- A `Span` while it is constructed, and after. -/
structure SpanConstruction where
  place : ConstructorPlace
  isDropped : Bool
  isEnded : Bool
  deriving DecidableEq, Repr

/-- A transaction, the spans started on it, and those queued. -/
structure SpanAccounting where
  transaction : Transaction
  constructions : Store SpanConstruction
  queued : List SpanRef

/-- One step of some thread. -/
inductive AccountingStep where
  /-- A thread calls the `Span` constructor. -/
  | enter
  /-- The construction of a span does its next step. -/
  | advance (k : SpanRef)
  /-- `End` on a span that is constructed. -/
  | endSpan (k : SpanRef)
  deriving DecidableEq, Repr

namespace SpanConstruction

/-- `ShouldBeSentToApmServer`. -/
def shouldBeSentToApmServer (c : SpanConstruction) (t : Transaction) : Bool :=
  t.isSampled && !c.isDropped

/-- The next step of a construction: the span and the counters after it. -/
def advance (t : Transaction) (c : SpanConstruction) :
    Option (SpanConstruction × SpanCount) :=
  match c.place with
  | .entered =>
    if t.isSampled then
      -- The total is incremented and compared with the limit as one step.
      if t.spanCount.isOverLimit t.configSnapshot.transactionMaxSpans then
        some ({ c with place := .overLimit, isDropped := true }, t.spanCount.incrementTotal)
      else some ({ c with place := .withinLimit }, t.spanCount.incrementTotal)
    else some ({ c with place := .finished }, t.spanCount)
  | .overLimit => some ({ c with place := .finished }, t.spanCount.incrementDropped)
  | .withinLimit => some ({ c with place := .finished }, t.spanCount.incrementStarted)
  | .finished => none

end SpanConstruction

namespace SpanAccounting

/-- A transaction on which no span was started. -/
def start (t : Transaction) : SpanAccounting where
  transaction := { t with spanCount := .new }
  constructions := .empty
  queued := []

def step (s : SpanAccounting) : AccountingStep → Option SpanAccounting
  | .enter =>
    some { s with constructions := s.constructions.alloc ⟨.entered, false, false⟩ }
  | .advance k => do
    let c ← s.constructions.get? k
    let (c', spanCount) ← c.advance s.transaction
    return { s with
      transaction := { s.transaction with spanCount := spanCount }
      constructions := s.constructions.update k fun _ => c' }
  | .endSpan k => do
    let c ← s.constructions.get? k
    if c.place ≠ .finished then none
    else
      return { s with
        constructions := s.constructions.update k fun _ => { c with isEnded := true }
        queued :=
          if c.shouldBeSentToApmServer s.transaction && !c.isEnded then s.queued ++ [k]
          else s.queued }

end SpanAccounting

/-- Any number of threads that start and end spans of one transaction. -/
def spanAccountingSystem (t : Transaction) : LTS.System SpanAccounting AccountingStep where
  init s := s = .start t
  step := SpanAccounting.step

namespace SpanAccounting

/-- What a step does. -/
inductive Transition (s : SpanAccounting) : AccountingStep → SpanAccounting → Prop where
  | enter :
      Transition s .enter
        { s with constructions := s.constructions.alloc ⟨.entered, false, false⟩ }
  | advance {k : SpanRef} {c c' : SpanConstruction} {spanCount : SpanCount}
      (hc : s.constructions.get? k = some c)
      (hadvance : c.advance s.transaction = some (c', spanCount)) :
      Transition s (.advance k)
        { s with
          transaction := { s.transaction with spanCount := spanCount }
          constructions := s.constructions.update k fun _ => c' }
  | endSpan {k : SpanRef} {c : SpanConstruction} (hc : s.constructions.get? k = some c)
      (hfinished : c.place = .finished) :
      Transition s (.endSpan k)
        { s with
          constructions := s.constructions.update k fun _ => { c with isEnded := true }
          queued :=
            if c.shouldBeSentToApmServer s.transaction && !c.isEnded then s.queued ++ [k]
            else s.queued }

theorem step_transition {s s' : SpanAccounting} {a : AccountingStep} (h : s.step a = some s') :
    Transition s a s' := by
  cases a with
  | enter =>
    cases h
    exact .enter
  | advance k =>
    obtain ⟨c, hc, hrest⟩ := Option.bind_eq_some_iff.mp h
    obtain ⟨⟨c', spanCount⟩, hadvance, hs'⟩ := Option.bind_eq_some_iff.mp hrest
    cases hs'
    exact .advance hc hadvance
  | endSpan k =>
    obtain ⟨c, hc, hrest⟩ := Option.bind_eq_some_iff.mp h
    by_cases hfinished : c.place = .finished
    · rw [if_neg (not_not.mpr hfinished)] at hrest
      cases hrest
      exact .endSpan hc hfinished
    · rw [if_pos hfinished] at hrest
      cases hrest

end SpanAccounting

/-- A construction that no other thread comes between counts as `SpanCount.countSpan` does. -/
theorem advance_advance (t : Transaction) (hsampled : t.isSampled) :
    ∃ c spanCount, SpanConstruction.advance t ⟨.entered, false, false⟩ = some (c, spanCount) ∧
      c.advance { t with spanCount := spanCount } =
        some (⟨.finished, t.dropsNextSpan, false⟩, t.countSpan.spanCount) := by
  by_cases hover : t.spanCount.isOverLimit t.configSnapshot.transactionMaxSpans
  · refine ⟨⟨.overLimit, true, false⟩, t.spanCount.incrementTotal, ?_, ?_⟩
    · simp [SpanConstruction.advance, hsampled, hover]
    · simp [SpanConstruction.advance, Transaction.dropsNextSpan, Transaction.countSpan,
        SpanCount.countSpan, hsampled, hover]
  · refine ⟨⟨.withinLimit, false, false⟩, t.spanCount.incrementTotal, ?_, ?_⟩
    · simp [SpanConstruction.advance, hsampled, hover]
    · simp [SpanConstruction.advance, Transaction.dropsNextSpan, Transaction.countSpan,
        SpanCount.countSpan, hsampled, hover]

/-! ### The counters and the places -/

namespace SpanConstruction

/-- The total was incremented. -/
def isCounted (c : SpanConstruction) : Bool := c.place ≠ .entered

def hasDropped (c : SpanConstruction) : Bool := c.place = .finished && c.isDropped

def hasStarted (c : SpanConstruction) : Bool := c.place = .finished && !c.isDropped

/-- The flag `_isDropped` at each place; only sampled transactions count. -/
structure Consistent (t : Transaction) (c : SpanConstruction) : Prop where
  entered : c.place = .entered → c.isDropped = false
  overLimit : c.place = .overLimit → t.isSampled ∧ c.isDropped = true
  withinLimit : c.place = .withinLimit → t.isSampled ∧ c.isDropped = false

end SpanConstruction

/-- How many of `n` spans the limit drops; a negative limit is off. -/
def droppedOf (maxSpans : Int32) (n : Nat) : Nat :=
  if 0 ≤ maxSpans.toInt then n - maxSpans.toInt.toNat else 0

namespace SpanAccounting

/-- The counters of a sampled transaction say how many constructions have passed their
    increments, and so many are dropped as the limit says. -/
structure Counted (s : SpanAccounting) : Prop where
  total : s.transaction.spanCount.total.toInt = s.constructions.countP (·.isCounted)
  dropped : s.transaction.spanCount.dropped.toInt = s.constructions.countP (·.hasDropped)
  started : s.transaction.spanCount.started.toInt = s.constructions.countP (·.hasStarted)
  isDropped : s.constructions.countP (·.isDropped) =
    droppedOf s.transaction.configSnapshot.transactionMaxSpans
      (s.constructions.countP (·.isCounted))

/-- What holds in every state: only sampled transactions count, and only their spans are
    queued. -/
structure Accounts (t : Transaction) (s : SpanAccounting) : Prop where
  transaction : s.transaction = { t with spanCount := s.transaction.spanCount }
  consistent : ∀ k c, s.constructions.get? k = some c → c.Consistent t
  sampled : t.isSampled → s.constructions.size < 2 ^ 31 → s.Counted
  unsampled : t.isSampled = false → s.transaction.spanCount = .new ∧ s.queued = []

theorem accounts_start (t : Transaction) : (start t).Accounts t where
  transaction := rfl
  consistent k c hc := by cases hc
  sampled _ _ := by
    refine ⟨rfl, rfl, rfl, ?_⟩
    simp [start, droppedOf]
  unsampled _ := ⟨rfl, rfl⟩

/-- The drop decision in terms of the number of constructions counted before. -/
theorem isOverLimit_iff {c : SpanCount} (maxSpans : Int32) {n : Nat} (hn : c.total.toInt = n)
    (hbound : n + 1 < 2 ^ 31) :
    c.isOverLimit maxSpans ↔ 0 ≤ maxSpans.toInt ∧ maxSpans.toInt < (n + 1 : Nat) := by
  have htotal := MachineInt.toInt_add_one hn hbound
  have hzero : (0 : Int32).toInt = 0 := by decide
  simp only [SpanCount.isOverLimit, SpanCount.incrementTotal, Bool.and_eq_true,
    decide_eq_true_eq, Int32.lt_iff_toInt_lt, Int32.le_iff_toInt_le, htotal, hzero]
  omega

/-- One more construction is counted, and dropped or not as the limit says. -/
theorem droppedOf_succ {c : SpanCount} (maxSpans : Int32) {n : Nat} (hn : c.total.toInt = n)
    (hbound : n + 1 < 2 ^ 31) :
    droppedOf maxSpans (n + 1) =
      droppedOf maxSpans n + if c.isOverLimit maxSpans then 1 else 0 := by
  have hiff := isOverLimit_iff maxSpans hn hbound
  unfold droppedOf
  by_cases hpos : 0 ≤ maxSpans.toInt
  · rw [if_pos hpos, if_pos hpos]
    by_cases hover : c.isOverLimit maxSpans
    · have := (hiff.mp hover).2
      rw [if_pos hover]
      omega
    · have : ¬ maxSpans.toInt < (n + 1 : Nat) := fun hlt => hover (hiff.mpr ⟨hpos, hlt⟩)
      rw [if_neg hover]
      omega
  · have hover : ¬ c.isOverLimit maxSpans := fun h => hpos (hiff.mp h).1
    rw [if_neg hpos, if_neg hpos, if_neg hover]

/-- A new construction has passed no increment. -/
theorem countP_enter (st : Store SpanConstruction) {p : SpanConstruction → Bool}
    (hp : p ⟨.entered, false, false⟩ = false) :
    (st.alloc ⟨.entered, false, false⟩).countP p = st.countP p := by
  rw [Store.countP_alloc, hp]
  rfl

theorem Counted.enter {s s' : SpanAccounting} (h : s.Counted) (hstep : s.step .enter = some s') :
    s'.Counted := by
  cases hstep
  refine ⟨?_, ?_, ?_, ?_⟩ <;> dsimp only
  · rw [countP_enter _ rfl, h.total]
  · rw [countP_enter _ rfl, h.dropped]
  · rw [countP_enter _ rfl, h.started]
  · rw [countP_enter _ rfl, countP_enter _ rfl, h.isDropped]

theorem countP_lt_size {st : Store SpanConstruction} {k : SpanRef} {c : SpanConstruction}
    (hc : st.get? k = some c) {p : SpanConstruction → Bool} (hp : p c = false) :
    st.countP p < st.size := by
  refine lt_of_le_of_ne List.countP_le_length fun hall => ?_
  have := List.countP_eq_length.mp hall c (List.mem_of_getElem? hc)
  rw [hp] at this
  cases this

/-- A step that leaves a predicate as it is, and one that makes it true. -/
theorem countP_same {st : Store SpanConstruction} {k : SpanRef} {c c' : SpanConstruction}
    {p : SpanConstruction → Bool} (hc : st.get? k = some c) (hp : p c' = p c) :
    (st.update k fun _ => c').countP p = st.countP p := by
  have := Store.countP_update hc p fun _ => c'
  rw [hp] at this
  omega

theorem countP_more {st : Store SpanConstruction} {k : SpanRef} {c c' : SpanConstruction}
    {p : SpanConstruction → Bool} (hc : st.get? k = some c) (hp : p c = false)
    (hp' : p c' = true) : (st.update k fun _ => c').countP p = st.countP p + 1 := by
  have := Store.countP_update hc p fun _ => c'
  rwa [hp, hp'] at this

/-- The total is incremented: the decision agrees with how many spans are dropped so far. -/
theorem Counted.incrementTotal {s : SpanAccounting} {k : SpanRef} {c c' : SpanConstruction}
    (h : s.Counted) (hc : s.constructions.get? k = some c)
    (hsize : s.constructions.size < 2 ^ 31) (hentered : c.place = .entered)
    (hnot : c.isDropped = false)
    (hplace : c'.place = if s.transaction.spanCount.isOverLimit
      s.transaction.configSnapshot.transactionMaxSpans then .overLimit else .withinLimit)
    (hdrop : c'.isDropped = s.transaction.spanCount.isOverLimit
      s.transaction.configSnapshot.transactionMaxSpans) :
    Counted { s with
      transaction := { s.transaction with spanCount := s.transaction.spanCount.incrementTotal }
      constructions := s.constructions.update k fun _ => c' } := by
  have hbefore : c.isCounted = false := by simp [SpanConstruction.isCounted, hentered]
  have hafter : c'.isCounted = true := by
    simp only [SpanConstruction.isCounted, hplace]
    split <;> rfl
  have hlt : s.constructions.countP (·.isCounted) < s.constructions.size :=
    countP_lt_size hc hbefore
  have hsucc := droppedOf_succ s.transaction.configSnapshot.transactionMaxSpans h.total (by omega)
  have htotal := MachineInt.toInt_add_one h.total (by omega)
  refine ⟨?_, ?_, ?_, ?_⟩ <;> dsimp only
  · rw [countP_more hc hbefore hafter]
    exact htotal
  · -- Neither before nor after has the construction passed the other increments.
    rw [countP_same hc]
    · exact h.dropped
    · simp only [SpanConstruction.hasDropped, hplace, hentered]
      split <;> rfl
  · rw [countP_same hc]
    · exact h.started
    · simp only [SpanConstruction.hasStarted, hplace, hentered]
      split <;> rfl
  · rw [countP_more hc hbefore hafter, hsucc, ← h.isDropped]
    have hupdate := Store.countP_update hc (·.isDropped) fun _ => c'
    simp only [hnot, hdrop, Bool.false_eq_true, if_false, Nat.add_zero] at hupdate
    exact hupdate

/-- Behind the total, a construction passes one of the other two increments. -/
theorem Counted.incrementOther {s : SpanAccounting} {k : SpanRef} {c c' : SpanConstruction}
    {spanCount : SpanCount} (h : s.Counted) (hc : s.constructions.get? k = some c)
    (htotal : spanCount.total = s.transaction.spanCount.total)
    (hcounted : c'.isCounted = c.isCounted) (hisDropped : c'.isDropped = c.isDropped)
    (hdropped : spanCount.dropped.toInt =
      (s.constructions.update k fun _ => c').countP (·.hasDropped))
    (hstarted : spanCount.started.toInt =
      (s.constructions.update k fun _ => c').countP (·.hasStarted)) :
    Counted { s with
      transaction := { s.transaction with spanCount := spanCount }
      constructions := s.constructions.update k fun _ => c' } where
  total := by
    show spanCount.total.toInt = _
    rw [htotal, h.total, countP_same hc hcounted]
  dropped := hdropped
  started := hstarted
  isDropped := by
    show (s.constructions.update k fun _ => c').countP (·.isDropped) = _
    rw [countP_same hc hisDropped, h.isDropped, countP_same hc hcounted]

/-- One step of a construction, counter by counter. -/
theorem Counted.advance {s s' : SpanAccounting} {k : SpanRef} (h : s.Counted)
    (hsampled : s.transaction.isSampled) (hsize : s.constructions.size < 2 ^ 31)
    (hconsistent : ∀ c, s.constructions.get? k = some c → c.Consistent s.transaction)
    (hstep : s.step (.advance k) = some s') : s'.Counted := by
  cases step_transition hstep with
  | @advance _ c c' spanCount hc hadvance =>
    have hcons := hconsistent c hc
    obtain ⟨place, isDropped, isEnded⟩ := c
    cases place with
    | entered =>
      have hnot : isDropped = false := hcons.entered rfl
      subst hnot
      simp only [SpanConstruction.advance, hsampled, if_true] at hadvance
      split at hadvance
      · next hover =>
        cases hadvance
        exact h.incrementTotal hc hsize rfl rfl (by simp [hover]) (by simp [hover])
      · next hover =>
        cases hadvance
        exact h.incrementTotal hc hsize rfl rfl (by simp [hover]) (by simp [hover])
    | overLimit =>
      have hset : isDropped = true := (hcons.overLimit rfl).2
      subst hset
      have hlt : s.constructions.countP (·.hasDropped) < s.constructions.size :=
        countP_lt_size hc rfl
      cases hadvance
      refine h.incrementOther hc rfl rfl rfl ?_ ?_
      · rw [countP_more hc]
        · exact MachineInt.toInt_add_one h.dropped (by omega)
        · rfl
        · rfl
      · rw [countP_same hc]
        · exact h.started
        · rfl
    | withinLimit =>
      have hnot : isDropped = false := (hcons.withinLimit rfl).2
      subst hnot
      have hlt : s.constructions.countP (·.hasStarted) < s.constructions.size :=
        countP_lt_size hc rfl
      cases hadvance
      refine h.incrementOther hc rfl rfl rfl ?_ ?_
      · rw [countP_same hc]
        · exact h.dropped
        · rfl
      · rw [countP_more hc]
        · exact MachineInt.toInt_add_one h.started (by omega)
        · rfl
        · rfl
    | finished => cases hadvance

/-- `End` leaves the counters, and what they count, as they are. -/
theorem Counted.endSpan {s s' : SpanAccounting} {k : SpanRef} (h : s.Counted)
    (hstep : s.step (.endSpan k) = some s') : s'.Counted := by
  cases step_transition hstep with
  | endSpan hc hfinished =>
    refine ⟨?_, ?_, ?_, ?_⟩ <;> dsimp only
    · rw [countP_same hc, h.total]
      rfl
    · rw [countP_same hc, h.dropped]
      rfl
    · rw [countP_same hc, h.started]
      rfl
    · rw [countP_same hc, countP_same hc, h.isDropped]
      · rfl
      · rfl

/-! ### Every run -/

/-- A step changes the transaction at its counters only. -/
theorem step_spanCount {s s' : SpanAccounting} {a : AccountingStep} (h : s.step a = some s') :
    s'.transaction = { s.transaction with spanCount := s'.transaction.spanCount } := by
  cases step_transition h with
  | enter => rfl
  | advance hc hadvance => rfl
  | endSpan hc hfinished => rfl

/-- Only `enter` starts a construction. -/
theorem size_le_of_step {s s' : SpanAccounting} {a : AccountingStep} (h : s.step a = some s') :
    s.constructions.size ≤ s'.constructions.size := by
  cases step_transition h with
  | enter => simp
  | advance hc hadvance => simp
  | endSpan hc hfinished => simp

theorem consistent_advance {t : Transaction} {c c' : SpanConstruction} {spanCount : SpanCount}
    (hc : c.Consistent t) (h : c.advance t = some (c', spanCount)) : c'.Consistent t := by
  obtain ⟨place, isDropped, isEnded⟩ := c
  cases place with
  | entered =>
    have hnot : isDropped = false := hc.entered rfl
    by_cases hsampled : t.isSampled
    · simp only [SpanConstruction.advance, hsampled, if_true] at h
      split at h
      · cases h
        exact ⟨by simp, fun _ => ⟨hsampled, rfl⟩, by simp⟩
      · cases h
        exact ⟨by simp, by simp, fun _ => ⟨hsampled, hnot⟩⟩
    · simp only [SpanConstruction.advance, if_neg hsampled] at h
      cases h
      exact ⟨by simp, by simp, by simp⟩
  | overLimit =>
    cases h
    exact ⟨by simp, by simp, by simp⟩
  | withinLimit =>
    cases h
    exact ⟨by simp, by simp, by simp⟩
  | finished => cases h

/-- Consistency looks at the transaction's sampling decision only. -/
theorem consistent_congr {t t' : Transaction} {c : SpanConstruction}
    (h : t'.isSampled = t.isSampled) (hc : c.Consistent t) : c.Consistent t' := by
  refine ⟨hc.entered, ?_, ?_⟩
  · rw [h]
    exact hc.overLimit
  · rw [h]
    exact hc.withinLimit

theorem consistent_step {s s' : SpanAccounting} {a : AccountingStep} (h : s.step a = some s')
    (hcons : ∀ k c, s.constructions.get? k = some c → c.Consistent s.transaction) :
    ∀ k c, s'.constructions.get? k = some c → c.Consistent s.transaction := by
  -- A construction that is replaced, among those that stay.
  have hupdate {k : SpanRef} {c' : SpanConstruction} (hc' : c'.Consistent s.transaction)
      (j : SpanRef) (d : SpanConstruction)
      (hd : (s.constructions.update k fun _ => c').get? j = some d) :
      d.Consistent s.transaction := by
    obtain ⟨e, he, rfl⟩ := Store.get?_update_eq_some.mp hd
    by_cases hkj : k = j
    · rw [if_pos hkj]
      exact hc'
    · rw [if_neg hkj]
      exact hcons j e he
  cases step_transition h with
  | enter =>
    intro j d hd
    rw [Store.get?_alloc] at hd
    split at hd
    · cases hd
      exact ⟨by simp, by simp, by simp⟩
    · exact hcons j d hd
  | advance hc hadvance => exact hupdate (consistent_advance (hcons _ _ hc) hadvance)
  | endSpan hc hfinished =>
    have hck := hcons _ _ hc
    exact hupdate ⟨hck.entered, hck.overLimit, hck.withinLimit⟩

/-- Of a transaction that is not sampled, no step counts or queues a span. -/
theorem step_unsampled {s s' : SpanAccounting} {a : AccountingStep} (h : s.step a = some s')
    (hunsampled : s.transaction.isSampled = false)
    (hcons : ∀ k c, s.constructions.get? k = some c → c.Consistent s.transaction) :
    s'.transaction.spanCount = s.transaction.spanCount ∧ s'.queued = s.queued := by
  cases step_transition h with
  | enter => exact ⟨rfl, rfl⟩
  | @advance k c c' spanCount hc hadvance =>
    refine ⟨?_, rfl⟩
    have hck := hcons k c hc
    -- A construction of this transaction never reaches the two later increments.
    obtain ⟨place, isDropped, isEnded⟩ := c
    cases place with
    | entered =>
      simp only [SpanConstruction.advance, hunsampled, Bool.false_eq_true, if_false] at hadvance
      cases hadvance
      rfl
    | overLimit =>
      have hsampled := (hck.overLimit rfl).1
      rw [hunsampled] at hsampled
      cases hsampled
    | withinLimit =>
      have hsampled := (hck.withinLimit rfl).1
      rw [hunsampled] at hsampled
      cases hsampled
    | finished => cases hadvance
  | endSpan hc hfinished =>
    refine ⟨rfl, ?_⟩
    simp [SpanConstruction.shouldBeSentToApmServer, hunsampled]

theorem Accounts.step {t : Transaction} {s s' : SpanAccounting} {a : AccountingStep}
    (h : s.Accounts t) (hstep : s.step a = some s') : s'.Accounts t := by
  have hsame : s.transaction.isSampled = t.isSampled := by rw [h.transaction]
  have hcons (k c) (hc : s.constructions.get? k = some c) : c.Consistent s.transaction :=
    consistent_congr hsame (h.consistent k c hc)
  refine ⟨?_, ?_, ?_, ?_⟩
  · rw [step_spanCount hstep, h.transaction]
  · intro k c hc
    exact consistent_congr hsame.symm (consistent_step hstep hcons k c hc)
  · intro hsampled hsize
    have hle := size_le_of_step hstep
    have hcounted := h.sampled hsampled (by omega)
    cases a with
    | enter => exact hcounted.enter hstep
    | advance k =>
      rw [← hsame] at hsampled
      exact hcounted.advance hsampled (by omega) (hcons k) hstep
    | endSpan k => exact hcounted.endSpan hstep
  · intro hunsampled
    obtain ⟨hnew, hqueued⟩ := h.unsampled hunsampled
    rw [← hsame] at hunsampled
    obtain ⟨hcount', hqueued'⟩ := step_unsampled hstep hunsampled hcons
    exact ⟨hcount'.trans hnew, hqueued'.trans hqueued⟩

/-- Over whole runs. -/
theorem always_accounts (t : Transaction) (ls : List AccountingStep) :
    (spanAccountingSystem t).Always (Accounts t) (start t) ls :=
  LTS.System.always_of_invariant (fun _ _ _ h hstep => h.step hstep) (accounts_start t) ls

/-! ### When all constructions have finished -/

/-- No construction is under way. -/
def AllFinished (s : SpanAccounting) : Prop :=
  ∀ k c, s.constructions.get? k = some c → c.place = .finished

theorem AllFinished.mem {s : SpanAccounting} (h : s.AllFinished) {c : SpanConstruction}
    (hc : c ∈ s.constructions.objects) : c.place = .finished := by
  obtain ⟨k, hk⟩ := List.mem_iff_getElem?.mp hc
  exact h k c hk

theorem AllFinished.countP_isCounted {s : SpanAccounting} (h : s.AllFinished) :
    s.constructions.countP (·.isCounted) = s.constructions.size := by
  refine List.countP_eq_length.mpr fun c hc => ?_
  simp [SpanConstruction.isCounted, h.mem hc]

theorem AllFinished.countP_hasDropped {s : SpanAccounting} (h : s.AllFinished) :
    s.constructions.countP (·.hasDropped) = s.constructions.countP (·.isDropped) := by
  refine List.countP_congr fun c hc => ?_
  simp [SpanConstruction.hasDropped, h.mem hc]

/-- Every finished construction counted itself as dropped or as started. -/
theorem AllFinished.countP_hasStarted {s : SpanAccounting} (h : s.AllFinished) :
    s.constructions.countP (·.hasStarted) + s.constructions.countP (·.isDropped) =
      s.constructions.size := by
  have hstarted : s.constructions.countP (·.hasStarted) =
      s.constructions.objects.countP fun c => ¬ c.isDropped := by
    refine List.countP_congr fun c hc => ?_
    simp [SpanConstruction.hasStarted, h.mem hc]
  have hlength := List.length_eq_countP_add_countP (·.isDropped) (l := s.constructions.objects)
  simp only [Store.size, hlength, hstarted]
  exact Nat.add_comm _ _

/-- The counters of a sampled transaction in terms of the number of its spans. -/
theorem Counted.finished {s : SpanAccounting} (h : s.Counted) (hfinished : s.AllFinished) :
    s.transaction.spanCount.dropped.toInt =
        droppedOf s.transaction.configSnapshot.transactionMaxSpans s.constructions.size ∧
      s.transaction.spanCount.started.toInt + s.transaction.spanCount.dropped.toInt =
        s.constructions.size ∧
      s.constructions.countP (·.isDropped) =
        droppedOf s.transaction.configSnapshot.transactionMaxSpans s.constructions.size := by
  have hdropped := h.isDropped
  rw [hfinished.countP_isCounted] at hdropped
  have hsum := hfinished.countP_hasStarted
  have hd := h.dropped
  rw [hfinished.countP_hasDropped] at hd
  have hs := h.started
  refine ⟨?_, ?_, hdropped⟩ <;> omega

/-- The spans that are not to be sent, of a transaction that is sampled. -/
theorem countP_not_sent {s : SpanAccounting} (hsampled : s.transaction.isSampled) :
    s.constructions.countP (fun c => !c.shouldBeSentToApmServer s.transaction) =
      s.constructions.countP (·.isDropped) := by
  refine List.countP_congr fun c _ => ?_
  simp [SpanConstruction.shouldBeSentToApmServer, hsampled]

/-- **Span accounting**: however the increments of the span constructions of a transaction
    interleave, with each other and with `End`, the counters are a function of how many spans
    were constructed, once all constructions have finished. Of a transaction that is not
    sampled, the counters stay zero and no span is queued in any state. -/
theorem span_accounting (t : Transaction) (ls : List AccountingStep) :
    (t.isSampled = false → (spanAccountingSystem t).Always
      (fun s => s.transaction.spanCount.started = 0 ∧ s.transaction.spanCount.dropped = 0 ∧
        s.queued = []) (start t) ls) ∧
    (t.isSampled → ∀ s, (spanAccountingSystem t).run (start t) ls = some s →
      s.AllFinished → s.constructions.size < 2 ^ 31 →
      let n : Int := s.constructions.size
      let maxSpans := t.configSnapshot.transactionMaxSpans.toInt
      let started := s.transaction.spanCount.started.toInt
      let dropped := s.transaction.spanCount.dropped.toInt
      let notSent : Int :=
        s.constructions.countP fun c => !c.shouldBeSentToApmServer s.transaction
      (0 ≤ maxSpans → started = min n maxSpans ∧ dropped = n - min n maxSpans) ∧
        (maxSpans < 0 → started = n ∧ dropped = 0) ∧
        notSent = dropped ∧ started + dropped = n) := by
  refine ⟨fun hunsampled => ?_, fun hsampled s hrun hfinished hsize => ?_⟩
  · refine (always_accounts t ls).mono fun s h => ?_
    obtain ⟨hnew, hqueued⟩ := h.unsampled hunsampled
    rw [hnew]
    exact ⟨rfl, rfl, hqueued⟩
  · have haccounts := (always_accounts t ls).last hrun
    obtain ⟨hdropped, hsum, hcount⟩ := (haccounts.sampled hsampled hsize).finished hfinished
    have hsnapshot : s.transaction.configSnapshot = t.configSnapshot := by
      rw [haccounts.transaction]
    have hsampled' : s.transaction.isSampled := by
      rw [haccounts.transaction]
      exact hsampled
    rw [hsnapshot] at hdropped hcount
    intro n maxSpans started dropped notSent
    have hnotSent : notSent = dropped := by
      show ((s.constructions.countP _ : Nat) : Int) = _
      rw [countP_not_sent hsampled', hcount]
      exact hdropped.symm
    refine ⟨fun hmax => ?_, fun hmax => ?_, hnotSent, hsum⟩
    · rw [droppedOf, if_pos hmax] at hdropped
      constructor <;> omega
    · rw [droppedOf, if_neg (by omega)] at hdropped
      constructor <;> omega

/-- A sampled transaction whose limit is one span. -/
def limitedTransaction : Transaction where
  id := "00f067aa0ba902b7"
  traceId := "4bf92f3577b34da6a3ce929d0e0e4736"
  parentId := none
  traceState := none
  isSampled := true
  configSnapshot := { ConfigSnapshot.defaults with transactionMaxSpans := 1 }
  timestamp := 0
  spanCount := .new
  duration := none
  isEnded := false

/-- Three constructions that interleave: the second to enter increments the total first. -/
def interleavedSteps : List AccountingStep :=
  [.enter, .enter, .advance 1, .advance 0, .enter, .advance 0, .advance 2, .advance 1,
    .endSpan 1, .advance 2]

theorem span_accounting_interleaved :
    ∃ s, (spanAccountingSystem limitedTransaction).run (start limitedTransaction)
        interleavedSteps = some s ∧ s.constructions.size = 3 ∧
      s.transaction.spanCount.started.toInt = 1 ∧ s.transaction.spanCount.dropped.toInt = 2 := by
  refine ⟨_, rfl, rfl, ?_⟩
  have hfinished : ∀ c ∈ [(⟨.finished, true, false⟩ : SpanConstruction),
      ⟨.finished, false, true⟩, ⟨.finished, true, false⟩], c.place = .finished := by decide
  exact ((span_accounting limitedTransaction interleavedSteps).2 rfl _ rfl
    (fun k c hc => hfinished c (List.mem_of_getElem? hc)) (by decide)).1 (by decide)

end SpanAccounting

end ApmAgent
