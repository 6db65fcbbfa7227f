import ApmAgent.Model.EndOnce
import ApmAgent.BackendComm.CentralConfigFetcher

/-! # Starting transactions while the configuration changes

  `StartTransaction` reads `CurrentSnapshot` three times: for `Enabled`, for
  `Recording`, and to hand the snapshot to the transaction. The fetcher of the
  central configuration may replace the snapshot between any two reads.

  Calls are followed from read to read. `startTransaction_consistent_iff` says
  when every transaction holds the snapshot its creation was decided on;
  `consistent_of_undisturbed` names the updates that are harmless.
-/

namespace ApmAgent

/-! ### The calls, read by read -/

/-- What a call of `StartTransaction` does next. -/
inductive StartPlace where
  | readsEnabled
  | readsRecording
  | readsConfig
  | returned (r : TransactionRef)
  deriving DecidableEq, Repr

/-- A call of `StartTransaction`. The snapshots of `start` are those it has read. -/
structure StartCall where
  place : StartPlace
  start : TransactionStart

/-- The tracer, the configuration store with its fetcher, and the calls. -/
structure StartState where
  fetcher : CentralConfigFetcher
  tracer : Tracer
  calls : Store StartCall

/-- One step of some thread. -/
inductive StartStep where
  /-- The fetcher replaces the current snapshot. -/
  | update (centralConfigReader : CentralConfigReader)
  /-- `StartTransaction` is called. -/
  | call (start : TransactionStart)
  /-- A call of `StartTransaction` does its next read. -/
  | read (k : Nat)
  /-- Any other call on the tracer. -/
  | other (c : EndCall)

/-- The next read of `CurrentSnapshot`, and what follows it up to the next one. -/
def StartCall.read (currentSnapshot : ConfigSnapshot) (σ : Tracer) (c : StartCall) :
    Option (StartCall × Tracer) :=
  match c.place with
  | .readsEnabled =>
    let start := { c.start with enabledSnapshot := currentSnapshot }
    -- `&&`: without `Enabled`, `Recording` is not read.
    if currentSnapshot.enabled then some (⟨.readsRecording, start⟩, σ)
    else some (⟨.returned σ.transactions.size, start⟩, NoopTransaction.new σ)
  | .readsRecording =>
    let start := { c.start with recordingSnapshot := currentSnapshot }
    if currentSnapshot.recording then some (⟨.readsConfig, start⟩, σ)
    else some (⟨.returned σ.transactions.size, start⟩, NoopTransaction.new σ)
  | .readsConfig =>
    let start := { c.start with currentConfig := currentSnapshot }
    some (⟨.returned σ.transactions.size, start⟩, Transaction.new σ start)
  | .returned _ => none

namespace StartState

/-- A freshly started agent. -/
def start (initialSnapshot : ConfigSnapshot) : StartState where
  fetcher := .new initialSnapshot
  tracer := .new
  calls := .empty

def step (s : StartState) : StartStep → Option StartState
  | .update centralConfigReader =>
    some { s with fetcher := s.fetcher.updateConfigStore centralConfigReader }
  | .call start => some { s with calls := s.calls.alloc ⟨.readsEnabled, start⟩ }
  | .read k => do
    let c ← s.calls.get? k
    let (c', tracer) ← c.read s.fetcher.currentSnapshot s.tracer
    return { s with calls := s.calls.update k fun _ => c', tracer := tracer }
  -- Transactions are started read by read only.
  | .other (.op (.startTransaction _)) => none
  | .other c => (s.tracer.endStep c).map fun tracer => { s with tracer := tracer }

end StartState

/-- Any number of calls of `StartTransaction`, and whatever else is called, among updates. -/
def startSystem (initialSnapshot : ConfigSnapshot) : LTS.System StartState StartStep where
  init s := s = .start initialSnapshot
  step := StartState.step

/-! ### What the reads decide -/

/-- What is known of the snapshots a call has read so far. -/
def StartCall.Decided (c : StartCall) : Prop :=
  match c.place with
  | .readsEnabled => True
  | .readsRecording => c.start.enabledSnapshot.enabled
  | .readsConfig => c.start.enabledSnapshot.enabled ∧ c.start.recordingSnapshot.recording
  | .returned _ => True

/-- What a read does: a call goes on, returns a no-op transaction, or at its last read returns a
    real one. -/
inductive StartCall.ReadStep (snapshot : ConfigSnapshot) (σ : Tracer) (start : TransactionStart) :
    StartPlace → StartCall → Tracer → Prop where
  | enabled (henabled : snapshot.enabled) :
      ReadStep snapshot σ start .readsEnabled
        ⟨.readsRecording, { start with enabledSnapshot := snapshot }⟩ σ
  | notEnabled (henabled : snapshot.enabled = false) :
      ReadStep snapshot σ start .readsEnabled
        ⟨.returned σ.transactions.size, { start with enabledSnapshot := snapshot }⟩
        (NoopTransaction.new σ)
  | recording (hrecording : snapshot.recording) :
      ReadStep snapshot σ start .readsRecording
        ⟨.readsConfig, { start with recordingSnapshot := snapshot }⟩ σ
  | notRecording (hrecording : snapshot.recording = false) :
      ReadStep snapshot σ start .readsRecording
        ⟨.returned σ.transactions.size, { start with recordingSnapshot := snapshot }⟩
        (NoopTransaction.new σ)
  | config :
      ReadStep snapshot σ start .readsConfig
        ⟨.returned σ.transactions.size, { start with currentConfig := snapshot }⟩
        (Transaction.new σ { start with currentConfig := snapshot })

theorem StartCall.read_spec {snapshot : ConfigSnapshot} {σ σ' : Tracer} {c c' : StartCall}
    (h : c.read snapshot σ = some (c', σ')) : ReadStep snapshot σ c.start c.place c' σ' := by
  obtain ⟨place, start⟩ := c
  cases place with
  | readsEnabled =>
    by_cases henabled : snapshot.enabled
    · rw [read, if_pos henabled] at h
      cases h
      exact .enabled henabled
    · rw [read, if_neg henabled] at h
      cases h
      exact .notEnabled (by simpa using henabled)
  | readsRecording =>
    by_cases hrecording : snapshot.recording
    · rw [read, if_pos hrecording] at h
      cases h
      exact .recording hrecording
    · rw [read, if_neg hrecording] at h
      cases h
      exact .notRecording (by simpa using hrecording)
  | readsConfig =>
    cases h
    exact .config
  | returned r => cases h

/-- A read leaves the tracer alone and the call open, or the call returns: a no-op transaction,
    or at its last read a real one. -/
theorem StartCall.read_cases {snapshot : ConfigSnapshot} {σ σ' : Tracer} {c c' : StartCall}
    (hc : c.Decided) (h : c.read snapshot σ = some (c', σ')) :
    (σ' = σ ∧ c'.Decided ∧ ∀ r, c'.place ≠ .returned r) ∨
      (c'.place = .returned σ.transactions.size ∧ σ' = NoopTransaction.new σ) ∨
      (c.place = .readsConfig ∧ σ' = Transaction.new σ c'.start ∧
        c' = ⟨.returned σ.transactions.size, { c.start with currentConfig := snapshot }⟩) := by
  have hread := read_spec h
  obtain ⟨place, start⟩ := c
  cases hread with
  | enabled henabled => exact .inl ⟨rfl, henabled, by simp⟩
  | notEnabled henabled => exact .inr (.inl ⟨rfl, rfl⟩)
  | recording hrecording => exact .inl ⟨rfl, ⟨hc, hrecording⟩, by simp⟩
  | notRecording hrecording => exact .inr (.inl ⟨rfl, rfl⟩)
  | config => exact .inr (.inr ⟨rfl, rfl, rfl⟩)

/-- A call that returns did to the tracer what `startTransaction` does with the snapshots it
    has read. -/
theorem StartCall.read_startTransaction {snapshot : ConfigSnapshot} {σ σ' : Tracer}
    {c c' : StartCall} (hc : c.Decided) (h : c.read snapshot σ = some (c', σ'))
    {r : TransactionRef} (hreturned : c'.place = .returned r) :
    σ' = σ.startTransaction c'.start := by
  have hread := read_spec h
  obtain ⟨place, start⟩ := c
  cases hread with
  | enabled henabled => cases hreturned
  | notEnabled henabled => simp [Tracer.startTransaction, henabled]
  | recording hrecording => cases hreturned
  | notRecording hrecording => simp [Tracer.startTransaction, hrecording]
  | config =>
    have henabled : start.enabledSnapshot.enabled = true := hc.1
    have hrecording : start.recordingSnapshot.recording = true := hc.2
    simp [Tracer.startTransaction, henabled, hrecording]

/-- A read is no call on the tracer, or a whole `startTransaction`. -/
theorem StartCall.read_step {snapshot : ConfigSnapshot} {σ σ' : Tracer} {c c' : StartCall}
    (hc : c.Decided) (h : c.read snapshot σ = some (c', σ')) :
    σ' = σ ∨ σ.endStep (.op (.startTransaction c'.start)) = some σ' := by
  rcases read_cases hc h with ⟨hsame, -⟩ | ⟨hplace, -⟩ | ⟨-, -, rfl⟩
  · exact .inl hsame
  · exact .inr (congrArg some (read_startTransaction hc h hplace).symm)
  · exact .inr (congrArg some (read_startTransaction hc h rfl).symm)

/-! ### What other calls leave alone -/

/-- The snapshot of a real transaction. -/
def ITransaction.configSnapshot? : ITransaction → Option ConfigSnapshot
  | .transaction t => some t.configSnapshot
  | .noop _ => none

theorem Transaction.configSnapshot_countSpan (t : Transaction) :
    t.countSpan.configSnapshot = t.configSnapshot := by
  unfold countSpan
  split <;> rfl

/-- `EndSpan` writes to spans only. -/
theorem DbSpanCommon.endSpan_transactions (σ : Tracer) (dbCommand : DbCommand)
    (duration : Option Int) (now : Int) (seg : IExecutionSegment) :
    (endSpan σ dbCommand duration now seg).transactions = σ.transactions := by
  cases seg with
  | span k s t =>
    dsimp only [endSpan]
    split
    · exact Tracer.setDuration_transactions σ k s duration
    · rw [Span.endSpan_transactions, Span.endSpan_transactions,
        Tracer.setDuration_transactions]
  | noopSpan k s => rfl
  | transaction r t => rfl
  | noopTransaction r => rfl

/-- No call replaces the snapshot a transaction holds, or makes a no-op one real. -/
theorem Tracer.endStep_configSnapshot {σ σ' : Tracer} {c : EndCall}
    (hstep : σ.endStep c = some σ') {r : TransactionRef} {t : ITransaction}
    (ht : σ.transactions.get? r = some t) :
    ∃ t', σ'.transactions.get? r = some t' ∧ t'.configSnapshot? = t.configSnapshot? := by
  cases c with
  | op op =>
    exact step_transaction_keeps (f := ITransaction.configSnapshot?)
      (fun u => congrArg some u.configSnapshot_countSpan) (fun _ _ => rfl) (fun _ _ => rfl)
      hstep ht
  | dbEndSpan k dbCommand duration now =>
    obtain ⟨seg, hseg, rfl⟩ := Option.map_eq_some_iff.mp hstep
    exact ⟨t, by rw [DbSpanCommon.endSpan_transactions, ht], rfl⟩

/-- Seen from the state afterwards. -/
theorem Tracer.endStep_configSnapshot_of_lt {σ σ' : Tracer} {c : EndCall}
    (hstep : σ.endStep c = some σ') {r : TransactionRef} (hr : r < σ.transactions.size)
    {t' : Transaction} (ht' : σ'.transactions.get? r = some (.transaction t')) :
    ∃ t, σ.transactions.get? r = some (.transaction t) ∧
      t'.configSnapshot = t.configSnapshot := by
  rcases ht : σ.transactions.get? r with _ | t
  · exact absurd (List.getElem?_eq_none_iff.mp ht) (Nat.not_le.mpr hr)
  · obtain ⟨u, hu, hsame⟩ := endStep_configSnapshot hstep ht
    rw [ht'] at hu
    cases hu
    cases t with
    | transaction t => exact ⟨t, rfl, Option.some.inj hsame⟩
    | noop n => cases hsame

namespace StartState

/-! ### The invariant -/

/-- A call that has returned a real transaction. -/
def Returns (s : StartState) (k : Nat) (c : StartCall) (r : TransactionRef) (t : Transaction) :
    Prop :=
  s.calls.get? k = some c ∧ c.place = .returned r ∧
    s.tracer.transactions.get? r = some (.transaction t)

/-- The calls go from read to read, and what they return is what they have read. -/
structure CallsFollowed (s : StartState) : Prop where
  ends : s.tracer.EndsCounted
  decided : ∀ k c, s.calls.get? k = some c → c.Decided
  bound : ∀ k c r, s.calls.get? k = some c → c.place = .returned r →
    r < s.tracer.transactions.size
  returned : ∀ k c r t, s.Returns k c r t →
    t.configSnapshot = c.start.currentConfig ∧ c.start.enabledSnapshot.enabled ∧
      c.start.recordingSnapshot.recording

theorem callsFollowed_start (initialSnapshot : ConfigSnapshot) :
    (start initialSnapshot).CallsFollowed where
  ends := Tracer.endsCounted_new
  decided k c hc := by cases hc
  bound k c r hc := by cases hc
  returned k c r t h := by cases h.1

theorem step_other {s s' : StartState} {c : EndCall} (h : s.step (.other c) = some s') :
    (s.tracer.endStep c).map (fun tracer => { s with tracer := tracer }) = some s' := by
  cases c with
  | dbEndSpan k dbCommand duration now => exact h
  | op op =>
    cases op with
    | startTransaction a => cases h
    | _ => exact h

/-- A step, by what it does to the tracer and the calls. -/
theorem step_cases {s s' : StartState} {l : StartStep} (h : s.step l = some s') :
    (s'.tracer = s.tracer ∧ s'.calls = s.calls) ∨
    (∃ start, l = .call start ∧ s'.tracer = s.tracer ∧
      s'.calls = s.calls.alloc ⟨.readsEnabled, start⟩) ∨
    (∃ k c c' tracer, l = .read k ∧ s.calls.get? k = some c ∧
      c.read s.fetcher.currentSnapshot s.tracer = some (c', tracer) ∧
      s' = { s with calls := s.calls.update k fun _ => c', tracer := tracer }) ∨
    (∃ c, l = .other c ∧ s.tracer.endStep c = some s'.tracer ∧ s'.calls = s.calls) := by
  cases l with
  | update centralConfigReader =>
    cases h
    exact .inl ⟨rfl, rfl⟩
  | call start =>
    cases h
    exact .inr (.inl ⟨start, rfl, rfl, rfl⟩)
  | read k =>
    obtain ⟨c, hc, hrest⟩ := Option.bind_eq_some_iff.mp h
    obtain ⟨⟨c', tracer⟩, hread, hs'⟩ := Option.bind_eq_some_iff.mp hrest
    cases hs'
    exact .inr (.inr (.inl ⟨k, c, c', tracer, rfl, hc, hread, rfl⟩))
  | other c =>
    obtain ⟨tracer, hstep, rfl⟩ := Option.map_eq_some_iff.mp (step_other h)
    exact .inr (.inr (.inr ⟨c, rfl, hstep, rfl⟩))

/-- A real transaction that was returned before a step, or is returned by it. -/
theorem returns_step {s s' : StartState} {l : StartStep} (h : s.CallsFollowed)
    (hstep : s.step l = some s') {k : Nat} {c : StartCall} {r : TransactionRef} {t : Transaction}
    (hreturns : s'.Returns k c r t) :
    (∃ t₀, s.Returns k c r t₀ ∧ t.configSnapshot = t₀.configSnapshot) ∨
    (∃ c₀, l = .read k ∧ s.calls.get? k = some c₀ ∧ c₀.place = .readsConfig ∧
      c₀.Decided ∧ c.start = { c₀.start with currentConfig := s.fetcher.currentSnapshot } ∧
      t = .ofStart c.start) := by
  obtain ⟨hc, hplace, ht⟩ := hreturns
  rcases step_cases hstep with ⟨htracer, hcalls⟩ | ⟨start, -, htracer, hcalls⟩ |
    ⟨j, d, d', tracer, rfl, hd, hread, rfl⟩ | ⟨call, -, hcall, hcalls⟩
  · rw [hcalls] at hc
    rw [htracer] at ht
    exact .inl ⟨t, ⟨hc, hplace, ht⟩, rfl⟩
  · rw [hcalls, Store.get?_alloc] at hc
    rw [htracer] at ht
    split at hc
    · cases hc
      cases hplace
    · exact .inl ⟨t, ⟨hc, hplace, ht⟩, rfl⟩
  · have hdecided := h.decided j d hd
    obtain ⟨c₀, hc₀, hcc₀⟩ := Store.get?_update_eq_some.mp hc
    by_cases hjk : j = k
    · -- The call that reads: it returns a real transaction at its last read only.
      subst hjk
      rw [if_pos rfl] at hcc₀
      subst hcc₀
      rcases StartCall.read_cases hdecided hread with
        ⟨-, -, hnot⟩ | ⟨hsize, hnoop⟩ | ⟨hlast, hnew, rfl⟩
      · exact absurd hplace (hnot r)
      · rw [hsize] at hplace
        cases hplace
        simp [hnoop, NoopTransaction.new] at ht
      · cases hplace
        simp only [hnew, Transaction.new, Store.get?_alloc_size, Option.some.injEq,
          ITransaction.transaction.injEq] at ht
        exact .inr ⟨d, rfl, hd, hlast, hdecided, rfl, ht.symm⟩
    · rw [if_neg hjk] at hcc₀
      subst hcc₀
      have hr := h.bound k c r hc₀ hplace
      left
      rcases StartCall.read_step hdecided hread with hsame | hcall
      · exact ⟨t, ⟨hc₀, hplace, by rw [← hsame]; exact ht⟩, rfl⟩
      · obtain ⟨t₀, ht₀, hsame⟩ := Tracer.endStep_configSnapshot_of_lt hcall hr ht
        exact ⟨t₀, ⟨hc₀, hplace, ht₀⟩, hsame⟩
  · rw [hcalls] at hc
    have hr := h.bound k c r hc hplace
    obtain ⟨t₀, ht₀, hsame⟩ := Tracer.endStep_configSnapshot_of_lt hcall hr ht
    exact .inl ⟨t₀, ⟨hc, hplace, ht₀⟩, hsame⟩

/-- Seen by the tracer, a step is no call or one call. -/
theorem step_tracer {s s' : StartState} {l : StartStep} (h : s.CallsFollowed)
    (hstep : s.step l = some s') :
    s'.tracer = s.tracer ∨ ∃ c, s.tracer.endStep c = some s'.tracer := by
  rcases step_cases hstep with ⟨htracer, -⟩ | ⟨start, -, htracer, -⟩ |
    ⟨k, c, c', tracer, -, hc, hread, rfl⟩ | ⟨call, -, hcall, -⟩
  · exact .inl htracer
  · exact .inl htracer
  · rcases StartCall.read_step (h.decided k c hc) hread with hsame | hcall
    · exact .inl hsame
    · exact .inr ⟨_, hcall⟩
  · exact .inr ⟨call, hcall⟩

/-- No transaction is forgotten. -/
theorem lt_size_step {s s' : StartState} {l : StartStep} (h : s.CallsFollowed)
    (hstep : s.step l = some s') {r : TransactionRef} (hr : r < s.tracer.transactions.size) :
    r < s'.tracer.transactions.size := by
  rcases step_tracer h hstep with hsame | ⟨c, hcall⟩
  · rw [hsame]
    exact hr
  · rcases ht : s.tracer.transactions.get? r with _ | t
    · exact absurd (List.getElem?_eq_none_iff.mp ht) (Nat.not_le.mpr hr)
    · obtain ⟨t', ht', -⟩ := Tracer.endStep_configSnapshot hcall ht
      exact Store.lt_size ht'

/-- A call as it stands after a step: as before, new, or one read further. -/
theorem calls_step {s s' : StartState} {l : StartStep} (hstep : s.step l = some s') {k : Nat}
    {c : StartCall} (hc : s'.calls.get? k = some c) :
    s.calls.get? k = some c ∨ c.place = .readsEnabled ∨
      ∃ c₀ tracer, l = .read k ∧ s.calls.get? k = some c₀ ∧ s'.tracer = tracer ∧
        c₀.read s.fetcher.currentSnapshot s.tracer = some (c, tracer) := by
  rcases step_cases hstep with ⟨-, hcalls⟩ | ⟨start, -, -, hcalls⟩ |
    ⟨j, d, d', tracer, rfl, hd, hread, rfl⟩ | ⟨call, -, -, hcalls⟩
  · exact .inl (hcalls ▸ hc)
  · rw [hcalls, Store.get?_alloc] at hc
    split at hc
    · cases hc
      exact .inr (.inl rfl)
    · exact .inl hc
  · obtain ⟨c₀, hc₀, hcc₀⟩ := Store.get?_update_eq_some.mp hc
    by_cases hjk : j = k
    · subst hjk
      rw [if_pos rfl] at hcc₀
      subst hcc₀
      exact .inr (.inr ⟨d, tracer, rfl, hd, rfl, hread⟩)
    · rw [if_neg hjk] at hcc₀
      subst hcc₀
      exact .inl hc₀
  · exact .inl (hcalls ▸ hc)

theorem CallsFollowed.step {s s' : StartState} {l : StartStep} (h : s.CallsFollowed)
    (hstep : s.step l = some s') : s'.CallsFollowed := by
  refine ⟨?_, ?_, ?_, ?_⟩
  · rcases step_tracer h hstep with hsame | ⟨c, hcall⟩
    · rw [hsame]
      exact h.ends
    · exact h.ends.endStep hcall
  · intro k c hc
    rcases calls_step hstep hc with hold | hnew | ⟨c₀, tracer, -, hc₀, -, hread⟩
    · exact h.decided k c hold
    · unfold StartCall.Decided
      rw [hnew]
      trivial
    · rcases StartCall.read_cases (h.decided k c₀ hc₀) hread with
        ⟨-, hdecided, -⟩ | ⟨hplace, -⟩ | ⟨-, -, rfl⟩
      · exact hdecided
      · unfold StartCall.Decided
        rw [hplace]
        trivial
      · trivial
  · intro k c r hc hplace
    rcases calls_step hstep hc with hold | hnew | ⟨c₀, tracer, -, hc₀, htracer, hread⟩
    · exact lt_size_step h hstep (h.bound k c r hold hplace)
    · rw [hnew] at hplace
      cases hplace
    · -- The transaction returned is the last one of the store.
      rcases StartCall.read_cases (h.decided k c₀ hc₀) hread with
        ⟨-, -, hnot⟩ | ⟨hsize, hnoop⟩ | ⟨-, hnew, rfl⟩
      · exact absurd hplace (hnot r)
      · rw [hsize] at hplace
        cases hplace
        rw [htracer, hnoop]
        simp [NoopTransaction.new]
      · cases hplace
        rw [htracer, hnew]
        simp [Transaction.new]
  · intro k c r t hreturns
    rcases returns_step h hstep hreturns with
      ⟨t₀, hbefore, hsame⟩ | ⟨c₀, -, -, hlast, hdecided, hstart, hnew⟩
    · obtain ⟨hconfig, hactive⟩ := h.returned k c r t₀ hbefore
      exact ⟨hsame.trans hconfig, hactive⟩
    · unfold StartCall.Decided at hdecided
      rw [hlast] at hdecided
      rw [hnew, hstart]
      exact ⟨rfl, hdecided⟩

/-! ### One snapshot -/

/-- Every transaction returned holds an active snapshot, the one on which the decision to
    create it was taken, and is queued when it has ended. -/
def IsConsistent (s : StartState) : Prop :=
  ∀ k c r t, s.Returns k c r t →
    (t.configSnapshot.enabled ∧ t.configSnapshot.recording) ∧
      (c.start.enabledSnapshot = t.configSnapshot ∧
        c.start.recordingSnapshot = t.configSnapshot) ∧
      (t.isEnded → .transaction r ∈ s.tracer.queued)

/-- At the last read of a call the store holds what it held at the two earlier ones. -/
def ReadsOneSnapshot (s : StartState) (l : StartStep) : Prop :=
  ∀ k c, l = .read k → s.calls.get? k = some c → c.place = .readsConfig →
    c.start.enabledSnapshot = s.fetcher.currentSnapshot ∧
      c.start.recordingSnapshot = s.fetcher.currentSnapshot

/-- Only the agreement of the three reads is at stake. -/
theorem isConsistent_iff {s : StartState} (h : s.CallsFollowed) :
    s.IsConsistent ↔ ∀ k c r t, s.Returns k c r t →
      c.start.enabledSnapshot = c.start.currentConfig ∧
        c.start.recordingSnapshot = c.start.currentConfig := by
  constructor
  · intro hcons k c r t hreturns
    obtain ⟨hconfig, -⟩ := h.returned k c r t hreturns
    obtain ⟨-, hagree, -⟩ := hcons k c r t hreturns
    rwa [hconfig] at hagree
  · intro hagree k c r t hreturns
    obtain ⟨hconfig, henabled, hrecording⟩ := h.returned k c r t hreturns
    obtain ⟨hagree₁, hagree₂⟩ := hagree k c r t hreturns
    rw [hconfig]
    refine ⟨⟨?_, ?_⟩, ⟨hagree₁, hagree₂⟩, ?_⟩
    · rwa [← hagree₁]
    · rwa [← hagree₂]
    · intro hended
      have hcount := h.ends.queuedOnce.transaction r t hreturns.2.2
      rw [if_pos hended] at hcount
      exact List.count_pos_iff.mp (by omega)

theorem isConsistent_start (initialSnapshot : ConfigSnapshot) :
    (start initialSnapshot).IsConsistent := by
  intro k c r t hreturns
  cases hreturns.1

/-- The last read of a call returns a real transaction. -/
theorem returns_lastRead {s s' : StartState} {k : Nat} {c : StartCall}
    (hc : s.calls.get? k = some c) (hlast : c.place = .readsConfig)
    (hstep : s.step (.read k) = some s') :
    let start := { c.start with currentConfig := s.fetcher.currentSnapshot }
    s'.Returns k ⟨.returned s.tracer.transactions.size, start⟩ s.tracer.transactions.size
      (.ofStart start) := by
  have hread : c.read s.fetcher.currentSnapshot s.tracer =
      some (⟨.returned s.tracer.transactions.size,
          { c.start with currentConfig := s.fetcher.currentSnapshot }⟩,
        Transaction.new s.tracer
          { c.start with currentConfig := s.fetcher.currentSnapshot }) := by
    unfold StartCall.read
    rw [hlast]
  simp only [step, hc, hread, Option.bind_eq_bind, Option.bind_some] at hstep
  cases hstep
  refine ⟨?_, rfl, ?_⟩
  · simp [hc]
  · simp [Transaction.new]

/-- A step keeps the snapshots consistent exactly when its read finds the snapshot the call
    has read before. -/
theorem isConsistent_step {s s' : StartState} {l : StartStep} (h : s.CallsFollowed)
    (hcons : s.IsConsistent) (hstep : s.step l = some s') :
    s'.IsConsistent ↔ s.ReadsOneSnapshot l := by
  rw [isConsistent_iff h] at hcons
  rw [isConsistent_iff (h.step hstep)]
  constructor
  · intro hcons' k c hl hc hlast
    subst hl
    exact hcons' k _ _ _ (returns_lastRead hc hlast hstep)
  · intro hreads k c r t hreturns
    rcases returns_step h hstep hreturns with
      ⟨t₀, hbefore, -⟩ | ⟨c₀, rfl, hc₀, hlast, -, hstart, -⟩
    · exact hcons k c r t₀ hbefore
    · rw [hstart]
      exact hreads k c₀ rfl hc₀ hlast

/-- **One snapshot**: in every state of a run all transactions returned are consistent, exactly
    when every last read of a call found the snapshot the call had read before. -/
theorem startTransaction_consistent_iff (initialSnapshot : ConfigSnapshot)
    (ls : List StartStep) :
    (startSystem initialSnapshot).Always IsConsistent (start initialSnapshot) ls ↔
      (startSystem initialSnapshot).Along ReadsOneSnapshot (start initialSnapshot) ls :=
  LTS.System.always_iff_along (I := CallsFollowed) (fun _ _ _ h hstep => h.step hstep)
    (fun _ _ _ h hcons hstep => isConsistent_step h hcons hstep)
    (callsFollowed_start initialSnapshot) (isConsistent_start initialSnapshot) ls

/-- A central configuration that turns recording off and sets nothing else. -/
def recordingOff : CentralConfigReader where
  eTag := "1"
  captureBody := none
  captureBodyContentTypes := none
  transactionMaxSpans := none
  transactionSampleRate := none
  captureHeaders := none
  logLevel := none
  spanFramesMinDurationInMilliseconds := none
  stackTraceLimit := none
  recording := some false

/-- Recording is turned off after `Enabled` and `Recording` were read: the transaction is created
    with a snapshot that does not record. -/
def updatedDuringStart : List StartStep :=
  [.call .sampled, .read 0, .read 0, .update recordingOff, .read 0]

theorem startTransaction_consistent_counterexample :
    ¬ ∀ initialSnapshot ls,
      (startSystem initialSnapshot).Always IsConsistent (start initialSnapshot) ls := by
  intro h
  have hlast := (h .defaults updatedDuringStart).last
    (show (startSystem .defaults).run (start .defaults) updatedDuringStart = some _ from rfl)
  have hrecording := (hlast 0 _ 0 _ ⟨rfl, rfl, rfl⟩).1.2
  cases hrecording

/-! ### Harmless updates -/

/-- An update that changes the snapshot finds no call between its first and its last read. -/
def Undisturbed (s : StartState) (l : StartStep) : Prop :=
  ∀ r, l = .update r →
    (s.fetcher.updateConfigStore r).currentSnapshot = s.fetcher.currentSnapshot ∨
      ∀ k c, s.calls.get? k = some c → c.place ≠ .readsRecording ∧ c.place ≠ .readsConfig

/-- The snapshots an open call has read are those the store holds. -/
def ReadFrom (currentSnapshot : ConfigSnapshot) (c : StartCall) : Prop :=
  match c.place with
  | .readsRecording => c.start.enabledSnapshot = currentSnapshot
  | .readsConfig =>
    c.start.enabledSnapshot = currentSnapshot ∧ c.start.recordingSnapshot = currentSnapshot
  | .readsEnabled | .returned _ => True

def StoreAsRead (s : StartState) : Prop :=
  ∀ k c, s.calls.get? k = some c → ReadFrom s.fetcher.currentSnapshot c

/-- Only updates change the store. -/
theorem step_currentSnapshot {s s' : StartState} {l : StartStep} (hstep : s.step l = some s')
    (hl : ∀ r, l ≠ .update r) : s'.fetcher.currentSnapshot = s.fetcher.currentSnapshot := by
  cases l with
  | update r => exact absurd rfl (hl r)
  | call start =>
    cases hstep
    rfl
  | read k =>
    obtain ⟨c, -, hrest⟩ := Option.bind_eq_some_iff.mp hstep
    obtain ⟨⟨c', tracer⟩, -, hs'⟩ := Option.bind_eq_some_iff.mp hrest
    cases hs'
    rfl
  | other c =>
    obtain ⟨tracer, -, rfl⟩ := Option.map_eq_some_iff.mp (step_other hstep)
    rfl

theorem StoreAsRead.step {s s' : StartState} {l : StartStep} (h : s.StoreAsRead)
    (hl : s.Undisturbed l) (hstep : s.step l = some s') : s'.StoreAsRead := by
  intro k c hc
  by_cases hupdate : ∃ r, l = .update r
  · obtain ⟨r, rfl⟩ := hupdate
    cases hstep
    rcases hl r rfl with hsame | hidle
    · rw [hsame]
      exact h k c hc
    · obtain ⟨hrecording, hconfig⟩ := hidle k c hc
      unfold ReadFrom
      split
      · contradiction
      · contradiction
      · trivial
      · trivial
  · have hstore := step_currentSnapshot hstep fun r hr => hupdate ⟨r, hr⟩
    rw [hstore]
    rcases calls_step hstep hc with hold | hnew | ⟨c₀, tracer, -, hc₀, -, hread⟩
    · exact h k c hold
    · unfold ReadFrom
      rw [hnew]
      trivial
    · -- The snapshot just read is the one in the store, and so was the one before it.
      have hbefore := h k c₀ hc₀
      have hstep := StartCall.read_spec hread
      obtain ⟨place, start⟩ := c₀
      cases hstep with
      | enabled henabled => rfl
      | recording hrecording =>
        have henabled : start.enabledSnapshot = s.fetcher.currentSnapshot := hbefore
        exact ⟨henabled, rfl⟩
      | notEnabled henabled => trivial
      | notRecording hrecording => trivial
      | config => trivial

/-- Where no update that changes the snapshot comes between the reads of a call, all
    transactions are consistent. -/
theorem consistent_of_undisturbed (initialSnapshot : ConfigSnapshot) (ls : List StartStep)
    (hls : (startSystem initialSnapshot).Along Undisturbed (start initialSnapshot) ls) :
    (startSystem initialSnapshot).Always IsConsistent (start initialSnapshot) ls := by
  refine LTS.System.Always.mono (P := fun s => s.CallsFollowed ∧ s.StoreAsRead ∧ s.IsConsistent)
    (fun s h => h.2.2) (LTS.System.always_of_along (g := Undisturbed) ?_ ?_ hls)
  · intro s l s' ⟨hfollowed, hstore, hcons⟩ hl hstep
    refine ⟨hfollowed.step hstep, hstore.step hl hstep, ?_⟩
    rw [isConsistent_step hfollowed hcons hstep]
    intro k c _ hc hlast
    have hread := hstore k c hc
    unfold ReadFrom at hread
    rwa [hlast] at hread
  · refine ⟨callsFollowed_start initialSnapshot, ?_, isConsistent_start initialSnapshot⟩
    intro k c hc
    cases hc

end StartState

end ApmAgent
