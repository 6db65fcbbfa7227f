import ApmAgent.Framework.LazyInit
import ApmAgent.Framework.Threads

/-! # LazyContextualInit

  A value that is produced when it is first asked for. Callers look whether it
  is there and call `InitOrGet` with a producer of their own if not, which is
  `LazyInitializer.EnsureInitialized`: a second look, a lock object that the
  first caller creates, and under the lock a third look before the producer is
  run. A producer may throw, and the next caller tries again.

  `agree`: whatever the scheduler does, one producer at most returns, and every
  call returns its value, as the sequential cell would.
-/

namespace ApmAgent

/-- `LazyContextualInit<T>`, and what the runtime keeps for its lock. -/
structure LazyContextualInit (T ι : Type) where
  isInited : Bool
  /-- `_value`, null or the default value of the type before it is assigned. -/
  value : Option T
  /-- `_lock`: the object, by the call that created it. -/
  lock : Option ι
  /-- The monitors that are entered. -/
  entered : ι → Bool
  /-- Ghost: what producers have returned, and the calls that ran them. -/
  produced : List (T × ι)

namespace LazyContextualInit

variable {T ι : Type}

def new : LazyContextualInit T ι where
  isInited := false
  value := none
  lock := none
  entered _ := false
  produced := []

/-- Where a call of `IfNotInited?.InitOrGet(producer) ?? Value` is. The variant without a value
    returns `isInitedByThisCall`. -/
inductive Place (T ι : Type) where
  /-- Before `IfNotInited` reads `IsInited`. -/
  | called
  /-- `IfNotInited` was not null: before the look of `EnsureInitialized`. -/
  | looking
  /-- Before the lock object is read. -/
  | needsLock
  /-- A lock object was created, and is about to be stored unless there is one. -/
  | storing
  /-- Before the monitor of the object is entered. -/
  | entering (o : ι)
  /-- In the monitor, before the third look. -/
  | inside (o : ι)
  | producing (o : ι)
  /-- `_value` is assigned, `_isInited` is not. -/
  | assigned (o : ι)
  /-- Before the monitor is left; `none` where the producer of this call has thrown. -/
  | leaving (o : ι) (isInitedByThisCall : Option Bool)
  /-- Before `_value` is read. -/
  | reading (isInitedByThisCall : Bool)
  | returned (value : Option T) (isInitedByThisCall : Bool)
  | threw
  deriving DecidableEq, Repr

section

variable [DecidableEq ι]

/-- The next step of a call; the choice is what its producer returns, if it does. -/
def next : LTS.ThreadStep ι (Option T) (LazyContextualInit T ι) (Place T ι)
  | _, _, m, .called => some (m, if m.isInited then .reading false else .looking)
  | _, _, m, .looking => some (m, if m.isInited then .reading false else .needsLock)
  | _, _, m, .needsLock =>
    match m.lock with
    | some o => some (m, .entering o)
    | none => some (m, .storing)
  -- `CompareExchange(ref syncLock, new object(), null) ?? syncLock`.
  | i, _, m, .storing =>
    match m.lock with
    | some o => some (m, .entering o)
    | none => some ({ m with lock := some i }, .entering i)
  | _, _, m, .entering o =>
    if m.entered o then none
    else some ({ m with entered := Function.update m.entered o true }, .inside o)
  | _, _, m, .inside o => some (m, if m.isInited then .leaving o (some false) else .producing o)
  | i, c, m, .producing o =>
    match c with
    | some v =>
      some ({ m with value := some v, produced := m.produced ++ [(v, i)] }, .assigned o)
    | none => some (m, .leaving o none)
  | _, _, m, .assigned o => some ({ m with isInited := true }, .leaving o (some true))
  | _, _, m, .leaving o isInitedByThisCall =>
    some ({ m with entered := Function.update m.entered o false },
      match isInitedByThisCall with
      | some b => .reading b
      | none => .threw)
  | _, _, m, .reading isInitedByThisCall => some (m, .returned m.value isInitedByThisCall)
  | _, _, _, .returned _ _ => none
  | _, _, _, .threw => none

end

/-- Any number of calls, each with a producer of its own. -/
def system (T ι : Type) [DecidableEq ι] :
    LTS.System (LTS.Threads ι (LazyContextualInit T ι) (Place T ι)) (ι × Option T) :=
  LTS.threadSystem (· = .new) .called next

/-! ### What calls rely on -/

/-- The monitor of the one lock object is entered. -/
def Locked (m : LazyContextualInit T ι) : Prop := ∃ o, m.lock = some o ∧ m.entered o = true

/-- Nothing was produced, or one value. -/
def Settled (m : LazyContextualInit T ι) : Prop :=
  (m.isInited = false ∧ m.produced = []) ∨
    ∃ v i, m.isInited = true ∧ m.produced = [(v, i)] ∧ m.value = some v

/-- The lock object is the only one whose monitor is entered, and what is initialised has a
    value. -/
structure MemoryOk (m : LazyContextualInit T ι) : Prop where
  entered : ∀ o, m.entered o = true → m.lock = some o
  inited : m.isInited = true → ∃ v i, m.produced = [(v, i)] ∧ m.value = some v

/-- What is there stays. -/
structure Later (m m' : LazyContextualInit T ι) : Prop where
  lock : ∀ o, m.lock = some o → m'.lock = some o
  isInited : m.isInited = true → m'.isInited = true
  produced : m'.produced = m.produced ∨ m.produced = []

namespace Place

/-- The call is in the monitor. -/
def HoldsLock : Place T ι → Prop
  | .inside _ | .producing _ | .assigned _ | .leaving _ _ => True
  | _ => False

/-- The call has returned or thrown. -/
def Ended : Place T ι → Prop
  | .returned _ _ | .threw => True
  | _ => False

/-- The lock object a call has got. -/
def lockObject : Place T ι → Option ι
  | .entering o | .inside o | .producing o | .assigned o | .leaving o _ => some o
  | _ => none

/-- The call goes on to read the value. -/
def Reads : Place T ι → Prop
  | .leaving _ isInitedByThisCall => isInitedByThisCall ≠ none
  | .reading _ => True
  | .returned _ _ => True
  | _ => False

/-- The producer of the call has returned. -/
def initedByThisCall : Place T ι → Bool
  | .assigned _ => true
  | .leaving _ b => b.getD false
  | .reading b | .returned _ b => b
  | _ => false

end Place

/-- What the call in the monitor relies on. -/
def Inside (m : LazyContextualInit T ι) : Place T ι → Prop
  | .producing _ => m.isInited = false ∧ m.produced = []
  | .assigned _ => m.isInited = false ∧ ∃ v i, m.produced = [(v, i)] ∧ m.value = some v
  | _ => Settled m

/-- What a call knows. -/
structure Knows (i : ι) (m : LazyContextualInit T ι) (p : Place T ι) : Prop where
  memory : MemoryOk m
  lock : ∀ o, p.lockObject = some o → m.lock = some o
  reads : p.Reads → m.isInited = true
  returned : ∀ value b, p = .returned value b → ∃ v k, value = some v ∧ m.produced = [(v, k)]
  byThisCall : p.initedByThisCall = true ↔ ∃ v, m.produced = [(v, i)]

/-- What a call knows stays true, unless another producer returns. -/
theorem Knows.later {i : ι} {m m' : LazyContextualInit T ι} {p : Place T ι} (h : Knows i m p)
    (hlater : Later m m') (hmemory : MemoryOk m')
    (hothers : ∀ v, m'.produced = [(v, i)] → m.produced = [(v, i)]) : Knows i m' p where
  memory := hmemory
  lock o ho := hlater.lock o (h.lock o ho)
  reads hp := hlater.isInited (h.reads hp)
  returned value b hp := by
    obtain ⟨v, k, hv, hproduced⟩ := h.returned value b hp
    obtain hsame | hnone := hlater.produced
    · exact ⟨v, k, hv, hsame.trans hproduced⟩
    · rw [hnone] at hproduced
      cases hproduced
  byThisCall := by
    rw [h.byThisCall]
    constructor
    · rintro ⟨v, hv⟩
      obtain hsame | hnone := hlater.produced
      · exact ⟨v, hsame.trans hv⟩
      · rw [hnone] at hv
        cases hv
    · rintro ⟨v, hv⟩
      exact ⟨v, hothers v hv⟩

theorem Later.refl (m : LazyContextualInit T ι) : Later m m := ⟨fun _ => id, id, .inl rfl⟩

/-- A call that moves on and leaves the memory as it is. -/
theorem Knows.move {i : ι} {m : LazyContextualInit T ι} {p p' : Place T ι} (h : Knows i m p)
    (hlock : ∀ o, p'.lockObject = some o → m.lock = some o)
    (hreads : p'.Reads → m.isInited = true) (hreturned : ∀ value b, p' ≠ .returned value b)
    (hby : p'.initedByThisCall = p.initedByThisCall) : Knows i m p' where
  memory := h.memory
  lock := hlock
  reads := hreads
  returned value b hp := absurd hp (hreturned value b)
  byThisCall := by rw [hby, h.byThisCall]

variable {i : ι} {c : Option T} {m m' : LazyContextualInit T ι} {p p' : Place T ι}

/-! ### One step of a call -/

/-- What a step makes of the memory, and what the call knows after it. -/
structure Moves (i : ι) (m m' : LazyContextualInit T ι) (p' : Place T ι) : Prop where
  knows : Knows i m' p'
  later : Later m m'
  others : ∀ j v, j ≠ i → m'.produced = [(v, j)] → m.produced = [(v, j)]

/-- Most steps leave the memory as it is. -/
theorem Knows.moves (h : Knows i m p') : Moves i m m p' := ⟨h, .refl m, fun _ _ _ => id⟩

/-- The looks in front of the lock. -/
theorem Knows.looked (h : Knows i m p) (hp : p.initedByThisCall = false)
    (hp' : p' = .looking ∨ p' = .needsLock) :
    Knows i m (if m.isInited then .reading false else p') := by
  by_cases hinited : m.isInited
  · rw [if_pos hinited]
    exact h.move nofun (fun _ => hinited) nofun hp.symm
  · rw [if_neg hinited]
    obtain rfl | rfl := hp'
    · exact h.move nofun False.elim nofun hp.symm
    · exact h.move nofun False.elim nofun hp.symm

/-- There is a lock object. -/
theorem Knows.entering {o : ι} (h : Knows i m p) (hp : p.initedByThisCall = false)
    (ho : m.lock = some o) : Knows i m (.entering o) :=
  h.move (fun _ ho' => Option.some.inj ho' ▸ ho) False.elim nofun hp.symm

/-- The look in the monitor. -/
theorem Knows.lookedInside {o : ι} (h : Knows i m (.inside o)) :
    Knows i m (if m.isInited then .leaving o (some false) else .producing o) := by
  have hlock := h.lock o rfl
  by_cases hinited : m.isInited
  · rw [if_pos hinited]
    exact h.move (fun _ ho' => Option.some.inj ho' ▸ hlock) (fun _ => hinited) nofun rfl
  · rw [if_neg hinited]
    exact h.move (fun _ ho' => Option.some.inj ho' ▸ hlock) False.elim nofun rfl

/-- The value that is read is the one that was produced. -/
theorem Knows.read {isInitedByThisCall : Bool} (h : Knows i m (.reading isInitedByThisCall)) :
    Knows i m (.returned m.value isInitedByThisCall) := by
  obtain ⟨v, k, hproduced, hvalue⟩ := h.memory.inited (h.reads trivial)
  refine ⟨h.memory, nofun, h.reads, ?_, h.byThisCall⟩
  rintro value b ⟨rfl, rfl⟩
  exact ⟨v, k, hvalue, hproduced⟩

/-- The lock object is stored where there is none, -/
theorem moves_storing (h : Knows i m .storing) (hnone : m.lock = none) :
    Moves i m { m with lock := some i } (.entering i) := by
  have hmemory : MemoryOk { m with lock := some i } := by
    refine ⟨fun o ho => ?_, h.memory.inited⟩
    have hlock := h.memory.entered o ho
    rw [hnone] at hlock
    cases hlock
  have hlater : Later m { m with lock := some i } := by
    refine ⟨fun o ho => ?_, id, .inl rfl⟩
    rw [hnone] at ho
    cases ho
  exact ⟨(h.later hlater hmemory fun _ => id).entering rfl rfl, hlater, fun _ _ _ => id⟩

/-- the producer returns, -/
theorem moves_producing {o : ι} (h : Knows i m (.producing o)) (hinited : m.isInited = false)
    (hproduced : m.produced = []) (v : T) :
    Moves i m { m with value := some v, produced := m.produced ++ [(v, i)] } (.assigned o) := by
  have hlock := h.lock o rfl
  have hmemory : MemoryOk { m with value := some v, produced := m.produced ++ [(v, i)] } := by
    refine ⟨h.memory.entered, fun hinited' => ?_⟩
    rw [show m.isInited = true from hinited'] at hinited
    cases hinited
  refine ⟨⟨hmemory, ?_, False.elim, nofun, ?_⟩, ⟨fun _ => id, id, .inr hproduced⟩, ?_⟩
  · exact fun _ ho' => Option.some.inj ho' ▸ hlock
  · exact iff_of_true rfl ⟨v, by rw [hproduced]; rfl⟩
  · intro j w hj hw
    rw [hproduced, List.nil_append, List.cons.injEq, Prod.mk.injEq] at hw
    exact absurd hw.1.2.symm hj

/-- and the value is there. -/
theorem moves_assigned {o : ι} (h : Knows i m (.assigned o))
    (hvalue : ∃ v k, m.produced = [(v, k)] ∧ m.value = some v) :
    Moves i m { m with isInited := true } (.leaving o (some true)) := by
  have hlock := h.lock o rfl
  have hlater : Later m { m with isInited := true } := ⟨fun _ => id, fun _ => rfl, .inl rfl⟩
  have hmemory : MemoryOk { m with isInited := true } := ⟨h.memory.entered, fun _ => hvalue⟩
  refine ⟨?_, hlater, fun _ _ _ => id⟩
  exact (h.later hlater hmemory fun _ => id).move
    (fun _ ho' => Option.some.inj ho' ▸ hlock) (fun _ => rfl) nofun rfl

variable [DecidableEq ι]

/-- A monitor is entered -/
theorem moves_entering {o : ι} (h : Knows i m (.entering o)) :
    Moves i m { m with entered := Function.update m.entered o true } (.inside o) := by
  have hlock := h.lock o rfl
  have hlater : Later m { m with entered := Function.update m.entered o true } :=
    ⟨fun _ => id, id, .inl rfl⟩
  have hmemory : MemoryOk { m with entered := Function.update m.entered o true } := by
    refine ⟨fun o' ho' => ?_, h.memory.inited⟩
    by_cases heq : o' = o
    · exact heq ▸ hlock
    · exact h.memory.entered o' (by simpa [heq] using ho')
  refine ⟨?_, hlater, fun _ _ _ => id⟩
  exact (h.later hlater hmemory fun _ => id).move
    (fun _ ho' => Option.some.inj ho' ▸ hlock) False.elim nofun rfl

/-- and left. -/
theorem moves_leaving {o : ι} {isInitedByThisCall : Option Bool}
    (hnext : next i c m (.leaving o isInitedByThisCall) = some (m', p'))
    (h : Knows i m (.leaving o isInitedByThisCall)) : Moves i m m' p' := by
  cases hnext
  have hlater : Later m { m with entered := Function.update m.entered o false } :=
    ⟨fun _ => id, id, .inl rfl⟩
  have hmemory : MemoryOk { m with entered := Function.update m.entered o false } := by
    refine ⟨fun o' ho' => ?_, h.memory.inited⟩
    by_cases heq : o' = o
    · simp [heq] at ho'
    · exact h.memory.entered o' (by simpa [heq] using ho')
  have hknows := h.later hlater hmemory fun _ => id
  refine ⟨?_, hlater, fun _ _ _ => id⟩
  cases isInitedByThisCall with
  | none => exact hknows.move nofun False.elim nofun rfl
  | some b => exact hknows.move nofun (fun _ => h.reads nofun) nofun rfl

theorem next_spec (hnext : next i c m p = some (m', p')) (h : Knows i m p)
    (hinside : p.HoldsLock → Inside m p) : Moves i m m' p' := by
  cases p with
  | called =>
    cases hnext
    exact (h.looked rfl (.inl rfl)).moves
  | looking =>
    cases hnext
    exact (h.looked rfl (.inr rfl)).moves
  | needsLock =>
    simp only [next] at hnext
    split at hnext
    · next o ho =>
      cases hnext
      exact (h.entering rfl ho).moves
    · cases hnext
      have hknows : Knows i m .storing := h.move nofun False.elim nofun rfl
      exact hknows.moves
  | storing =>
    simp only [next] at hnext
    split at hnext
    · next o ho =>
      cases hnext
      exact (h.entering rfl ho).moves
    · next hnone =>
      cases hnext
      exact moves_storing h hnone
  | entering o =>
    simp only [next] at hnext
    split at hnext
    · cases hnext
    · cases hnext
      exact moves_entering h
  | inside o =>
    cases hnext
    exact h.lookedInside.moves
  | producing o =>
    obtain ⟨hinited, hproduced⟩ := hinside trivial
    rcases c with _ | v
    · cases hnext
      have hlock := h.lock o rfl
      have hknows : Knows i m (.leaving o none) :=
        h.move (fun _ ho' => Option.some.inj ho' ▸ hlock) (absurd rfl) nofun rfl
      exact hknows.moves
    · cases hnext
      exact moves_producing h hinited hproduced v
  | assigned o =>
    cases hnext
    exact moves_assigned h (hinside trivial).2
  | leaving o isInitedByThisCall =>
    exact moves_leaving hnext h
  | reading isInitedByThisCall =>
    cases hnext
    exact h.read.moves
  | returned value b => cases hnext
  | threw => cases hnext

omit [DecidableEq ι] in
/-- `Settled` and `Inside` do not depend on the lock. -/
theorem inside_congr (hinited : m'.isInited = m.isInited) (hvalue : m'.value = m.value)
    (hproduced : m'.produced = m.produced) (p : Place T ι) : Inside m' p ↔ Inside m p := by
  cases p <;> simp [Inside, Settled, hinited, hvalue, hproduced]

omit [DecidableEq ι] in
/-- The third look. -/
theorem Settled.lookedInside (h : Settled m) (o : ι) :
    Inside m (if m.isInited then .leaving o (some false) else .producing o) := by
  obtain ⟨hinited, hproduced⟩ | hsettled := id h
  · simp only [hinited, Bool.false_eq_true, if_false]
    exact ⟨hinited, hproduced⟩
  · obtain ⟨v, k, hinited, -⟩ := id hsettled
    simp only [hinited, if_true]
    exact .inr hsettled

/-- The monitor that is left was the one that was entered. -/
theorem not_locked_leave {o : ι} (hlock : m.lock = some o) :
    ¬Locked { m with entered := Function.update m.entered o false } := by
  rintro ⟨o', ho', hentered⟩
  rw [show m.lock = some o' from ho'] at hlock
  cases hlock
  simp at hentered

omit [DecidableEq ι] in
/-- Without a lock object no monitor is entered. -/
theorem MemoryOk.entered_eq_false (h : MemoryOk m) (hnone : m.lock = none) (o : ι) :
    m.entered o ≠ true := by
  intro ho
  have hlock := h.entered o ho
  rw [hnone] at hlock
  cases hlock

omit [DecidableEq ι] in
theorem unaffected_storing (h : MemoryOk m) (hnone : m.lock = none) (o : ι) :
    LTS.Threads.Unaffected Locked Inside Settled m { m with lock := some o } := by
  refine ⟨iff_of_false ?_ ?_, fun q => (inside_congr rfl rfl rfl q).mpr, id⟩
  · rintro ⟨o', -, ho'⟩
    exact h.entered_eq_false hnone o' ho'
  · rintro ⟨o', -, ho'⟩
    exact h.entered_eq_false hnone o' ho'

/-- The call in the monitor stays there, or leaves it as the next one relies on. -/
theorem holder_next (hnext : next i c m p = some (m', p')) (hholds : p.HoldsLock)
    (h : Knows i m p) (hinside : Inside m p) (hlocked : Locked m) :
    (p'.HoldsLock ∧ Locked m' ∧ Inside m' p') ∨ (¬p'.HoldsLock ∧ ¬Locked m' ∧ Settled m') := by
  cases p with
  | inside o =>
    cases hnext
    refine .inl ⟨?_, hlocked, Settled.lookedInside hinside o⟩
    split <;> trivial
  | producing o =>
    obtain ⟨hinited, hproduced⟩ := id hinside
    rcases c with _ | v
    · cases hnext
      exact .inl ⟨trivial, hlocked, .inl ⟨hinited, hproduced⟩⟩
    · cases hnext
      exact .inl ⟨trivial, hlocked, hinited, v, i, by rw [hproduced]; rfl, rfl⟩
  | assigned o =>
    obtain ⟨hinited, v, k, hproduced, hvalue⟩ := id hinside
    cases hnext
    exact .inl ⟨trivial, hlocked, .inr ⟨v, k, rfl, hproduced, hvalue⟩⟩
  | leaving o isInitedByThisCall =>
    cases hnext
    refine .inr ⟨?_, not_locked_leave (h.lock o rfl), hinside⟩
    cases isInitedByThisCall <;> exact id
  | _ => exact hholds.elim

/-- A call outside of the monitor leaves it alone, or enters it where it is free. -/
theorem other_next (hnext : next i c m p = some (m', p')) (hholds : ¬p.HoldsLock)
    (h : Knows i m p) :
    (¬p'.HoldsLock ∧ LTS.Threads.Unaffected Locked Inside Settled m m') ∨
      (p'.HoldsLock ∧ ¬Locked m ∧ Locked m' ∧ (Settled m → Inside m' p')) := by
  cases p with
  | called =>
    cases hnext
    refine .inl ⟨?_, .refl m⟩
    split <;> exact id
  | looking =>
    cases hnext
    refine .inl ⟨?_, .refl m⟩
    split <;> exact id
  | needsLock =>
    simp only [next] at hnext
    split at hnext <;> cases hnext <;> exact .inl ⟨id, .refl m⟩
  | storing =>
    simp only [next] at hnext
    split at hnext
    · cases hnext
      exact .inl ⟨id, .refl m⟩
    · next hnone =>
      cases hnext
      exact .inl ⟨id, unaffected_storing h.memory hnone i⟩
  | entering o =>
    simp only [next] at hnext
    split at hnext
    · cases hnext
    · next hfree =>
      cases hnext
      have hlock := h.lock o rfl
      refine .inr ⟨trivial, ?_, ⟨o, hlock, by simp⟩, id⟩
      rintro ⟨o', ho', hentered⟩
      rw [hlock] at ho'
      cases ho'
      exact hfree hentered
  | reading isInitedByThisCall =>
    cases hnext
    exact .inl ⟨id, .refl m⟩
  | returned value b => cases hnext
  | threw => cases hnext
  | _ => exact absurd trivial hholds

theorem isLock_next :
    LTS.Threads.IsLock Locked Place.HoldsLock Inside (Settled (T := T) (ι := ι)) Knows next where
  holder _ _ _ _ _ _ hnext hholds h hinside hlocked := holder_next hnext hholds h hinside hlocked
  other _ _ _ _ _ _ hnext hholds h := other_next hnext hholds h
  knows i c m p m' p' hnext h hinside := by
    obtain ⟨hknows, hlater, hothers⟩ := next_spec hnext h hinside
    exact ⟨hknows, fun j q hj hq => hq.later hlater hknows.memory fun v => hothers j v hj⟩

/-! ### Every interleaving -/

/-- What is true of calls that overlap. -/
structure Agrees (s : LTS.Threads ι (LazyContextualInit T ι) (Place T ι)) : Prop where
  /-- At most one call is in the monitor, and so at most one producer runs at a time. -/
  exclusive : ∀ i j, (s.place i).HoldsLock → (s.place j).HoldsLock → i = j
  /-- At most one producer has returned. -/
  produced : s.shared.produced.length ≤ 1
  /-- What a call returns is what that producer has returned, and what the sequential cell that
      it filled holds, whatever the producer of the call would have returned; and
      `isInitedByThisCall` is true for the call that ran it, and for no other. -/
  returned : ∀ i value b, s.place i = .returned value b → ∃ v k,
    s.shared.produced = [(v, k)] ∧ value = some v ∧ (b = true ↔ i = k) ∧
      ∀ w, value = some (((⟨none⟩ : LazyInit T).initOrGet v).2.initOrGet w).1
  /-- Who finds the value initialised can read it. -/
  value : s.shared.isInited = true → ∃ v k, s.shared.produced = [(v, k)] ∧ s.shared.value = some v
  /-- As long as a call has not come to its end, some call can go on. -/
  live : ∀ i, ¬(s.place i).Ended → ∃ j, ∀ c, (next j c s.shared (s.place j)).isSome

theorem next_isSome_of_holdsLock (i : ι) (c : Option T) (m : LazyContextualInit T ι)
    (h : p.HoldsLock) : (next i c m p).isSome := by
  cases p with
  | inside o => rfl
  | producing o => cases c <;> rfl
  | assigned o => rfl
  | leaving o b => rfl
  | _ => exact h.elim

/-- Only a call before a monitor has to wait. -/
theorem next_isSome (i : ι) (c : Option T) (h : ¬p.Ended)
    (hfree : ∀ o, p = .entering o → m.entered o = false) : (next i c m p).isSome := by
  cases p with
  | called => rfl
  | looking => rfl
  | needsLock =>
    simp only [next]
    split <;> rfl
  | storing =>
    simp only [next]
    split <;> rfl
  | entering o => simp [next, hfree o rfl]
  | reading b => rfl
  | returned value b => exact absurd trivial h
  | threw => exact absurd trivial h
  | _ => exact next_isSome_of_holdsLock i c m trivial

theorem agree (ls : List (ι × Option T)) :
    (system T ι).Always Agrees { shared := .new, place := fun _ => .called } ls := by
  have hstart : ∀ m : LazyContextualInit T ι, m = .new →
      ¬Locked m ∧ Settled m ∧ ∀ i, Knows i m .called := by
    rintro _ rfl
    refine ⟨?_, .inl ⟨rfl, rfl⟩, fun i => ⟨⟨nofun, nofun⟩, nofun, False.elim, nofun, ?_⟩⟩
    · rintro ⟨o, ho, -⟩
      cases ho
    · exact ⟨nofun, fun h => by cases h.choose_spec⟩
  have hguarded := LTS.Threads.always_guarded isLock_next hstart id
    (s := { shared := .new, place := fun _ => .called }) ⟨rfl, fun _ => rfl⟩ ls
  refine hguarded.mono fun s h => ⟨h.exclusive, ?_, ?_, ?_, ?_⟩
  · -- In the monitor or outside of it, there is one value or none.
    have hone {m : LazyContextualInit T ι} (hm : Settled m) : m.produced.length ≤ 1 := by
      obtain ⟨-, hnone⟩ | ⟨v, k, -, hproduced, -⟩ := hm
      · simp [hnone]
      · simp [hproduced]
    by_cases hheld : ∃ i, (s.place i).HoldsLock
    · obtain ⟨i, hi⟩ := hheld
      have hinside := h.inside i hi
      cases hp : s.place i with
      | producing o =>
        rw [hp] at hinside
        simp [hinside.2]
      | assigned o =>
        rw [hp] at hinside
        obtain ⟨-, v, k, hproduced, -⟩ := hinside
        simp [hproduced]
      | _ =>
        rw [hp] at hinside
        exact hone hinside
    · exact hone (h.outside (not_exists.mp hheld))
  · intro i value b hp
    have hknows := h.knows i
    rw [hp] at hknows
    obtain ⟨v, k, hv, hproduced⟩ := hknows.returned value b rfl
    refine ⟨v, k, hproduced, hv, ?_, fun w => hv⟩
    rw [show b = true ↔ _ from hknows.byThisCall, hproduced]
    simp [eq_comm]
  · intro hinited
    by_cases hheld : ∃ i, (s.place i).HoldsLock
    · obtain ⟨i, hi⟩ := hheld
      exact (h.knows i).memory.inited hinited
    · obtain ⟨hnot, -⟩ | ⟨v, k, -, hproduced, hvalue⟩ := h.outside (not_exists.mp hheld)
      · rw [hinited] at hnot
        cases hnot
      · exact ⟨v, k, hproduced, hvalue⟩
  · intro i hi
    by_cases hheld : ∃ j, (s.place j).HoldsLock
    · obtain ⟨j, hj⟩ := hheld
      exact ⟨j, fun c => next_isSome_of_holdsLock j c _ hj⟩
    · refine ⟨i, fun c => next_isSome i c hi fun o ho => ?_⟩
      -- The monitor would be entered by a call that holds the lock.
      have hlock := (h.knows i).lock o (by rw [ho]; rfl)
      by_contra hentered
      exact hheld (h.locked_iff.mp ⟨o, hlock, by simpa using hentered⟩)

end LazyContextualInit

end ApmAgent
