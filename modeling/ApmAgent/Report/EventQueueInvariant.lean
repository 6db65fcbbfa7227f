import ApmAgent.Report.EventQueue
import Mathlib.Data.List.Nodup

/-! # The event queue is bounded and loses nothing

  The invariant is a balance: the counter is the number of events in the block
  plus those received but not subtracted plus one for each call that has
  incremented and neither posted nor decremented yet. A second balance counts
  only the calls that will get, or got, past the test; it never exceeds the
  limit, because a call passes the test on the value its own increment
  returned.
-/

namespace ApmAgent

namespace CallPhase

/-- Between the increment and the post or the decrement: the counter counts the call. -/
def halfWay : CallPhase → Bool
  | .incremented _ | .overLimit | .underLimit | .postFailed => true
  | _ => false

/-- Half-way, and past the test or about to pass it. -/
def reserved (limit : Int) : CallPhase → Bool
  | .incremented newEventQueueCount => newEventQueueCount ≤ limit
  | .underLimit | .postFailed => true
  | _ => false

/-- The event was posted. -/
def accepted : CallPhase → Bool
  | .posted | .returned true => true
  | _ => false

theorem halfWay_of_reserved {limit : Int} {phase : CallPhase} (h : phase.reserved limit) :
    phase.halfWay := by
  cases phase <;> first | rfl | cases h

end CallPhase

namespace EventQueue

/-! ### What one step does -/

/-- The steps of the queue. `move` is every step of a call but the two that add to a balance:
    the increment and the successful post. -/
inductive Transition (cfg : QueueConfig) (q : EventQueue) : EventQueue → Prop where
  | call : Transition cfg q { q with calls := q.calls.alloc .entered }
  | move (c : CallRef) (phase phase' : CallPhase) (d : Int)
      (hphase : q.calls.get? c = some phase)
      (hhalfWay : d = (if phase'.halfWay then 1 else 0) - (if phase.halfWay then 1 else 0))
      (hreserved : phase'.reserved cfg.limit.toInt → phase.reserved cfg.limit.toInt)
      (haccepted : phase'.accepted = phase.accepted) :
      Transition cfg q { q.setPhase c phase' with count := q.count + d }
  | increment (c : CallRef) (hphase : q.calls.get? c = some .checked) :
      Transition cfg q
        { q.setPhase c (.incremented (q.count + 1)) with count := q.count + 1 }
  | post (c : CallRef) (hphase : q.calls.get? c = some .underLimit) :
      Transition cfg q { q.setPhase c .posted with queue := q.queue ++ [c] }
  | receive (size : Nat) (hnone : q.received = none) (hsize : size ≤ q.queue.length) :
      Transition cfg q
        { q with
          queue := q.queue.drop size
          batches := q.batches ++ [q.queue.take size]
          received := some size }
  | subtract (size : Nat) (hsome : q.received = some size) :
      Transition cfg q { q with count := q.count - size, received := none }
  | flag (disposed completed : Bool) :
      Transition cfg q { q with disposed := disposed, completed := completed }

/-- A step of a call that leaves the counter as it is. -/
theorem Transition.move_zero {cfg : QueueConfig} {q : EventQueue} {c : CallRef}
    {phase phase' : CallPhase} (hphase : q.calls.get? c = some phase)
    (hhalfWay : phase'.halfWay = phase.halfWay)
    (hreserved : phase'.reserved cfg.limit.toInt → phase.reserved cfg.limit.toInt)
    (haccepted : phase'.accepted = phase.accepted) :
    Transition cfg q (q.setPhase c phase') := by
  have h := Transition.move c phase phase' 0 hphase (by rw [hhalfWay]; omega) hreserved haccepted
  rwa [Int.add_zero] at h

theorem step_transition {cfg : QueueConfig} {q q' : EventQueue} {l : QueueStep}
    (h : q.step cfg l = some q') : Transition cfg q q' := by
  cases l with
  | call =>
    cases h
    exact .call
  | throwIfDisposed c =>
    simp only [step] at h
    split at h
    · next hphase =>
      cases h
      split
      · exact .move_zero hphase rfl (fun h => h) rfl
      · exact .move_zero hphase rfl (fun h => h) rfl
    · cases h
  | increment c =>
    simp only [step] at h
    split at h
    · next hphase =>
      cases h
      exact .increment c hphase
    · cases h
  | test c =>
    simp only [step] at h
    split at h
    · next n hphase =>
      cases h
      split
      · exact .move_zero hphase rfl (fun h => by cases h) rfl
      · next hle => exact .move_zero hphase rfl (fun _ => by simpa [CallPhase.reserved] using hle) rfl
    · cases h
  | discard c =>
    simp only [step] at h
    split at h
    · next hphase =>
      cases h
      exact .move c _ _ (-1) hphase rfl (fun h => by cases h) rfl
    · cases h
  | post c =>
    simp only [step] at h
    split at h
    · next hphase =>
      split at h
      · cases h
        exact .move_zero hphase rfl (fun h => h) rfl
      · cases h
        exact .post c hphase
    · cases h
  | undo c =>
    simp only [step] at h
    split at h
    · next hphase =>
      cases h
      exact .move c _ _ (-1) hphase rfl (fun h => by cases h) rfl
    · cases h
  | finish c =>
    simp only [step] at h
    split at h
    · next hphase =>
      cases h
      exact .move_zero hphase rfl (fun h => h) rfl
    · cases h
  | receive size =>
    simp only [step] at h
    split at h
    · next hok =>
      cases h
      exact .receive size hok.1 hok.2.2.2
    · cases h
  | subtract =>
    simp only [step] at h
    split at h
    · next size hsome =>
      cases h
      exact .subtract size hsome
    · cases h
  | dispose =>
    cases h
    exact .flag true q.completed
  | complete =>
    cases h
    exact .flag q.disposed true

/-! ### The invariant -/

/-- All events the block has ever taken, in order. -/
def taken (q : EventQueue) : List CallRef := q.batches.flatten ++ q.queue

structure Balanced (cfg : QueueConfig) (q : EventQueue) : Prop where
  count_eq : q.count =
    q.queue.length + (q.received.getD 0 : Nat) + q.calls.countP CallPhase.halfWay
  reserved_le : (q.queue.length + (q.received.getD 0 : Nat) +
    q.calls.countP (CallPhase.reserved cfg.limit.toInt) : Int) ≤ cfg.limit.toInt
  nodup : q.taken.Nodup
  accepted_iff : ∀ c, c ∈ q.taken ↔ ∃ phase, q.calls.get? c = some phase ∧ phase.accepted

end EventQueue

theorem QueueConfig.limit_eq_max (cfg : QueueConfig) :
    cfg.limit.toInt = max cfg.maxQueueEventCount.toInt cfg.maxBatchEventCount.toInt := by
  unfold limit
  split
  · next h =>
    have := Int32.lt_iff_toInt_lt.mp h
    omega
  · next h =>
    have := Int32.le_iff_toInt_le.mp (Int32.not_lt.mp h)
    omega

theorem QueueConfig.limit_pos (cfg : QueueConfig) : 0 < cfg.limit.toInt := by
  have h := Int32.lt_iff_toInt_lt.mp cfg.maxBatchEventCount_pos
  have hzero : (0 : Int32).toInt = 0 := rfl
  rw [cfg.limit_eq_max]
  omega

namespace EventQueue

theorem balanced_new (cfg : QueueConfig) : Balanced cfg .new where
  count_eq := rfl
  reserved_le := by
    have h := cfg.limit_pos
    simp only [new, List.length_nil, Store.countP_empty, Option.getD_none]
    omega
  nodup := by simp [taken, new]
  accepted_iff := by simp [taken, new]

/-- A call that is given another phase is still accepted exactly if it was before. -/
theorem accepted_setPhase_iff {q : EventQueue} {c : CallRef} {phase phase' : CallPhase}
    (hphase : q.calls.get? c = some phase) (haccepted : phase'.accepted = phase.accepted)
    (k : CallRef) :
    (∃ p, (q.calls.update c fun _ => phase').get? k = some p ∧ p.accepted) ↔
      ∃ p, q.calls.get? k = some p ∧ p.accepted := by
  rw [Store.get?_update]
  split
  · next hk =>
    subst hk
    simp [hphase, haccepted]
  · rfl

section
variable {cfg : QueueConfig} {q : EventQueue} (h : Balanced cfg q)
include h

theorem Balanced.call : Balanced cfg { q with calls := q.calls.alloc .entered } := by
  obtain ⟨hcount, hreserved, hnodup, haccepted⟩ := h
  refine ⟨?_, ?_, hnodup, fun c => ?_⟩
  · simpa [Store.countP_alloc, CallPhase.halfWay] using hcount
  · simpa [Store.countP_alloc, CallPhase.reserved] using hreserved
  · rw [Store.get?_alloc]
    split
    · next hc =>
      -- No event bears the name of a call that has not been made.
      have hfresh := haccepted c
      rw [hc, Store.get?_size] at hfresh
      have hnot : q.calls.size ∉ q.taken := by simpa using hfresh
      subst hc
      refine iff_of_false hnot ?_
      rintro ⟨_, ⟨rfl⟩, hp⟩
      cases hp
    · exact haccepted c

/-- The counter moves with the call, and no reservation is added. -/
theorem Balanced.move {c : CallRef} {phase phase' : CallPhase} {d : Int}
    (hphase : q.calls.get? c = some phase)
    (hd : d = (if phase'.halfWay then 1 else 0) - (if phase.halfWay then 1 else 0))
    (hres : phase'.reserved cfg.limit.toInt → phase.reserved cfg.limit.toInt)
    (hacc : phase'.accepted = phase.accepted) :
    Balanced cfg { q.setPhase c phase' with count := q.count + d } := by
  obtain ⟨hcount, hreserved, hnodup, haccepted⟩ := h
  have hhalf := Store.countP_update hphase CallPhase.halfWay fun _ => phase'
  have hresv := Store.countP_update hphase (CallPhase.reserved cfg.limit.toInt) fun _ => phase'
  refine ⟨?_, ?_, hnodup, fun k => ?_⟩
  · simp only [setPhase] at hhalf ⊢
    cases hp : phase.halfWay <;> cases hp' : phase'.halfWay <;>
      simp only [hp, hp', if_true, if_false, Bool.false_eq_true] at hd hhalf <;> omega
  · simp only [setPhase] at hresv ⊢
    by_cases hp' : phase'.reserved cfg.limit.toInt
    · simp only [hp', hres hp', if_true] at hresv
      omega
    · simp only [hp', if_false, Bool.false_eq_true] at hresv
      omega
  · exact (haccepted k).trans (accepted_setPhase_iff hphase hacc k).symm

theorem Balanced.increment {c : CallRef} (hphase : q.calls.get? c = some .checked) :
    Balanced cfg { q.setPhase c (.incremented (q.count + 1)) with count := q.count + 1 } := by
  obtain ⟨hcount, hreserved, hnodup, haccepted⟩ := h
  have hhalf := Store.countP_update hphase CallPhase.halfWay
    fun _ => .incremented (q.count + 1)
  have hresv := Store.countP_update hphase (CallPhase.reserved cfg.limit.toInt)
    fun _ => .incremented (q.count + 1)
  have hle : q.calls.countP (CallPhase.reserved cfg.limit.toInt) ≤
      q.calls.countP CallPhase.halfWay :=
    q.calls.countP_mono fun _ => CallPhase.halfWay_of_reserved
  refine ⟨?_, ?_, hnodup, fun k => ?_⟩
  · simp only [setPhase, CallPhase.halfWay, if_true, if_false, Bool.false_eq_true] at hhalf ⊢
    omega
  · -- The call passes the test only if its own increment stayed within the limit.
    simp only [setPhase, CallPhase.reserved, if_false, Bool.false_eq_true,
      decide_eq_true_eq] at hresv ⊢
    split at hresv <;> omega
  · exact (haccepted k).trans (accepted_setPhase_iff hphase (by rfl) k).symm

/-- A call that is about to post has not posted before. -/
theorem Balanced.not_mem_taken {c : CallRef} (hphase : q.calls.get? c = some .underLimit) :
    c ∉ q.taken := by
  intro hmem
  obtain ⟨phase, hp, hacc⟩ := (h.accepted_iff c).mp hmem
  rw [hphase] at hp
  cases hp
  cases hacc

theorem Balanced.post {c : CallRef} (hphase : q.calls.get? c = some .underLimit) :
    Balanced cfg { q.setPhase c .posted with queue := q.queue ++ [c] } := by
  have hfresh := h.not_mem_taken hphase
  obtain ⟨hcount, hreserved, hnodup, haccepted⟩ := h
  have hhalf := Store.countP_update hphase CallPhase.halfWay fun _ => .posted
  have hresv := Store.countP_update hphase (CallPhase.reserved cfg.limit.toInt)
    fun _ => .posted
  refine ⟨?_, ?_, ?_, fun k => ?_⟩
  · simp only [setPhase, CallPhase.halfWay, if_true, if_false, Bool.false_eq_true,
      List.length_append, List.length_singleton] at hhalf ⊢
    omega
  · simp only [setPhase, CallPhase.reserved, if_true, if_false, Bool.false_eq_true,
      List.length_append, List.length_singleton] at hresv ⊢
    omega
  · simp only [taken, setPhase, ← List.append_assoc]
    exact hnodup.append (List.nodup_singleton c) (List.disjoint_singleton.mpr hfresh)
  · simp only [taken, setPhase, ← List.append_assoc, List.mem_append, List.mem_singleton,
      Store.get?_update]
    have hk := haccepted k
    simp only [taken, List.mem_append] at hk
    rw [hk]
    split
    · next hck =>
      subst hck
      simp [hphase, CallPhase.accepted]
    · next hck =>
      simp [Ne.symm hck]

theorem Balanced.receive {size : Nat} (hnone : q.received = none)
    (hsize : size ≤ q.queue.length) :
    Balanced cfg
      { q with
        queue := q.queue.drop size
        batches := q.batches ++ [q.queue.take size]
        received := some size } := by
  obtain ⟨hcount, hreserved, hnodup, haccepted⟩ := h
  -- The batch is a prefix of the block, so what was taken stays in order.
  have htaken : (q.batches ++ [q.queue.take size]).flatten ++ q.queue.drop size = q.taken := by
    simp [taken]
  refine ⟨?_, ?_, by simpa only [taken, htaken] using hnodup, fun c => ?_⟩
  · simp only [hnone, Option.getD_none, Option.getD_some, List.length_drop] at hcount ⊢
    omega
  · simp only [hnone, Option.getD_none, Option.getD_some, List.length_drop] at hreserved ⊢
    omega
  · rw [← haccepted c, ← htaken]
    rfl

theorem Balanced.subtract {size : Nat} (hsome : q.received = some size) :
    Balanced cfg { q with count := q.count - size, received := none } := by
  obtain ⟨hcount, hreserved, hnodup, haccepted⟩ := h
  refine ⟨?_, ?_, hnodup, haccepted⟩
  · simp only [hsome, Option.getD_none, Option.getD_some] at hcount ⊢
    omega
  · simp only [hsome, Option.getD_none, Option.getD_some] at hreserved ⊢
    omega

end

theorem Balanced.step {cfg : QueueConfig} {q q' : EventQueue} {l : QueueStep}
    (h : Balanced cfg q) (hstep : q.step cfg l = some q') : Balanced cfg q' := by
  cases step_transition hstep with
  | call => exact h.call
  | move c phase phase' d hphase hd hres hacc => exact h.move hphase hd hres hacc
  | increment c hphase => exact h.increment hphase
  | post c hphase => exact h.post hphase
  | receive size hnone hsize => exact h.receive hnone hsize
  | subtract size hsome => exact h.subtract hsome
  | flag disposed completed =>
    exact ⟨h.count_eq, h.reserved_le, h.nodup, h.accepted_iff⟩

/-! ### What the invariant says -/

/-- The counter exceeds the limit by the calls under way at most. -/
theorem Balanced.count_le {cfg : QueueConfig} {q : EventQueue} (h : Balanced cfg q) :
    q.count ≤ cfg.limit.toInt + q.calls.countP CallPhase.halfWay := by
  have hcount := h.count_eq
  have hreserved := h.reserved_le
  omega

/-- The queue is bounded, its counter is right, and every event is accounted for. -/
structure Accounted (cfg : QueueConfig) (q : EventQueue) : Prop where
  queue_le : (q.queue.length : Int) ≤
    max cfg.maxQueueEventCount.toInt cfg.maxBatchEventCount.toInt
  count_nonneg : 0 ≤ q.count
  queue_le_count : q.queue.length ≤ q.count
  /-- An event that was enqueued is in one batch, once, or still in the block. -/
  enqueued : ∀ c, q.calls.get? c = some (.returned true) →
    q.batches.flatten.count c + q.queue.count c = 1
  /-- An event that was refused is in neither. -/
  refused : ∀ c, q.calls.get? c = some (.returned false) →
    (∀ batch ∈ q.batches, c ∉ batch) ∧ c ∉ q.queue
  /-- At rest the counter is exact. -/
  at_rest : (∀ c phase, q.calls.get? c = some phase → phase.halfWay = false) →
    q.received = none → q.count = q.queue.length

theorem Balanced.accounted {cfg : QueueConfig} {q : EventQueue} (h : Balanced cfg q) :
    Accounted cfg q := by
  obtain ⟨hcount, hreserved, hnodup, haccepted⟩ := h
  refine ⟨?_, by omega, by omega, fun c hc => ?_, fun c hc => ?_, fun hrest hnone => ?_⟩
  · rw [← cfg.limit_eq_max]
    omega
  · -- It was accepted, and what was taken has no duplicates.
    have hmem : c ∈ q.taken := (haccepted c).mpr ⟨_, hc, rfl⟩
    rw [← List.count_append]
    exact List.count_eq_one_of_mem hnodup hmem
  · have hmem : c ∉ q.taken := by
      intro hmem
      obtain ⟨phase, hphase, hacc⟩ := (haccepted c).mp hmem
      rw [hc] at hphase
      cases hphase
      cases hacc
    simp only [taken, List.mem_append, not_or] at hmem
    refine ⟨fun batch hbatch hcb => ?_, hmem.2⟩
    exact hmem.1 (List.mem_flatten.mpr ⟨batch, hbatch, hcb⟩)
  · -- No call and no batch is half-way.
    have hzero := Store.countP_eq_zero hrest
    rw [hnone, hzero] at hcount
    simpa using hcount

/-- In every state of every run, whatever the threads and the sender do, the queue is bounded,
    its counter is right, and every event is accounted for. -/
theorem always_accounted (cfg : QueueConfig) (steps : List QueueStep) :
    (eventQueueSystem cfg).Always (Accounted cfg) .new steps := by
  have hinv : ∀ q l q', Balanced cfg q → (eventQueueSystem cfg).step q l = some q' →
      Balanced cfg q' := by
    intro q l q' h hstep
    exact h.step hstep
  have hbalanced : (eventQueueSystem cfg).Always (Balanced cfg) .new steps :=
    LTS.System.always_of_invariant hinv (balanced_new cfg) steps
  exact hbalanced.mono fun q h => h.accounted

end EventQueue

end ApmAgent
