import ApmAgent.Framework.Threads

/-! # DisposableHelper

  `DoOnce` runs the dispose action of its owner at most once: of the calls that
  overlap, one changes the state from before to during, the others return at
  once. The action takes steps of its own and may wait for other threads of the
  owner, which go on in the meantime.

  `always_disposesOnce`: in every interleaving the action is begun at most once,
  one call at most returns true, and it does so when the action is complete. An
  owner states what is true of it before, during and after.
-/

namespace ApmAgent

/-- `DisposableHelper.State`. -/
inductive DisposeState where
  | beforeDispose
  | duringDispose
  | afterDispose
  deriving DecidableEq, Repr

/-- An object with a dispose action. -/
structure DisposeOwner (Owner Action Other : Type) where
  /-- Where the action starts. -/
  start : Action
  /-- The next step of the action, `none` while it waits; there is no next place where it
      returns. -/
  act : Owner → Action → Option (Owner × Option Action)
  /-- What the other threads of the owner do. -/
  other : Other → Owner → Option Owner

/-- The owner, with its `DisposableHelper`. -/
structure Disposable (Owner ι : Type) where
  owner : Owner
  state : DisposeState
  /-- The assertion at the end of `DoOnce` has failed. -/
  assertionFailed : Bool
  /-- Ghost: how often the action was begun, and by which call first. -/
  begun : Nat
  winner : Option ι

namespace DisposableHelper

variable {Owner Action Other ι : Type}

def new (owner : Owner) : Disposable Owner ι where
  owner := owner
  state := .beforeDispose
  assertionFailed := false
  begun := 0
  winner := none

/-- Where a call of `DoOnce` is. -/
inductive Place (Action : Type) where
  | called
  | disposing (a : Action)
  /-- `ownerDispose` has returned. -/
  | finishing
  | returned (result : Bool)
  deriving DecidableEq, Repr

/-- The next step of a call, or of a thread of the owner, which has no name. -/
def doOnce (D : DisposeOwner Owner Action Other) :
    LTS.ThreadStep (Option ι) (Option Other) (Disposable Owner ι) (Place Action)
  | none, c, m, p =>
    (c.bind fun b => D.other b m.owner).map fun owner => ({ m with owner := owner }, p)
  | some i, _, m, .called =>
    if m.state = .beforeDispose then
      some
        ({ m with state := .duringDispose, begun := m.begun + 1, winner := m.winner.or (some i) },
          .disposing D.start)
    else some (m, .returned false)
  | some _, _, m, .disposing a =>
    (D.act m.owner a).map fun (owner, a') =>
      ({ m with owner := owner },
        match a' with
        | some a' => .disposing a'
        | none => .finishing)
  | some _, _, m, .finishing =>
    if m.state = .duringDispose then some ({ m with state := .afterDispose }, .returned true)
    else some ({ m with assertionFailed := true }, .returned true)
  | some _, _, _, .returned _ => none

/-- Any number of calls of `DoOnce`, and the other threads of the owner. -/
def system (D : DisposeOwner Owner Action Other) (owner : Owner) (ι : Type) [DecidableEq ι] :
    LTS.System (LTS.Threads (Option ι) (Disposable Owner ι) (Place Action))
      (Option ι × Option Other) :=
  LTS.threadSystem (· = new owner) .called (doOnce D)

theorem step_eq_some {D : DisposeOwner Owner Action Other} {owner : Owner} [DecidableEq ι]
    {s s' : LTS.Threads (Option ι) (Disposable Owner ι) (Place Action)} {i : Option ι}
    {c : Option Other} :
    (system D owner ι).step s (i, c) = some s' ↔
      ∃ m p, doOnce D i c s.shared (s.place i) = some (m, p) ∧
        s' = { shared := m, place := Function.update s.place i p } :=
  LTS.Threads.step_eq_some

/-! ### What is true of the owner -/

/-- What is true of the owner before, during and after the action, whatever its other threads
    do. -/
structure Phases (D : DisposeOwner Owner Action Other) where
  before : Owner → Prop
  during : Owner → Action → Prop
  after : Owner → Prop
  starts : ∀ o, before o → during o D.start
  goesOn : ∀ o a o' a', during o a → D.act o a = some (o', some a') → during o' a'
  returns : ∀ o a o', during o a → D.act o a = some (o', none) → after o'
  before_other : ∀ b o o', before o → D.other b o = some o' → before o'
  during_other : ∀ b o o' a, during o a → D.other b o = some o' → during o' a
  after_other : ∀ b o o', after o → D.other b o = some o' → after o'

/-- The call runs the action. -/
def Place.Runs : Place Action → Prop
  | .disposing _ | .finishing => True
  | _ => False

section

variable {D : DisposeOwner Owner Action Other} (P : Phases D)

/-- What the call that runs the action relies on. -/
structure Inside (m : Disposable Owner ι) (p : Place Action) : Prop where
  state : m.state = .duringDispose
  assertion : m.assertionFailed = false
  begun : m.begun = 1
  during : ∀ a, p = .disposing a → P.during m.owner a
  after : p = .finishing → P.after m.owner

/-- What is true while no call runs the action. -/
def Outside (m : Disposable Owner ι) : Prop :=
  m.assertionFailed = false ∧
    ((m.state = .beforeDispose ∧ m.begun = 0 ∧ P.before m.owner) ∨
      (m.state = .afterDispose ∧ m.begun = 1 ∧ P.after m.owner))

/-- What a call knows. -/
structure Knows (i : Option ι) (m : Disposable Owner ι) (p : Place Action) : Prop where
  winner : m.winner = none ↔ m.state = .beforeDispose
  other : i = none → p = .called
  runs : p.Runs ∨ p = .returned true → m.winner = i
  returned : p = .returned true → m.state = .afterDispose
  lost : p = .returned false → m.state ≠ .beforeDispose

variable {P}

/-- The other threads of the owner change nothing else. -/
theorem Knows.of_owner {i : Option ι} {m : Disposable Owner ι} {p : Place Action}
    (h : Knows i m p) (owner : Owner) : Knows i { m with owner := owner } p :=
  ⟨h.winner, h.other, h.runs, h.returned, h.lost⟩

/-! ### One step of a call -/

/-- What is known after a step: by the call, and by the others. -/
def Informs (i : Option ι) (m m' : Disposable Owner ι) (p' : Place Action) : Prop :=
  Knows i m' p' ∧ ∀ j (q : Place Action), j ≠ i → Knows j m q → Knows j m' q

variable {i : ι} {c : Option Other} {m m' : Disposable Owner ι} {p p' : Place Action}

/-- As long as nobody has won, nobody runs the action or has run it. -/
theorem Knows.not_runs {j : Option ι} {q : Place Action} (hq : Knows j m q)
    (hnone : m.winner = none) : ¬(q.Runs ∨ q = .returned true) := by
  intro hruns
  have hj := hq.runs hruns
  rw [hnone] at hj
  obtain rfl := hq.other hj.symm
  exact hruns.elim id nofun

/-- The call that wins. -/
theorem informs_won {a : Action} (h : Knows (some i) m (.called : Place Action))
    (hbefore : m.state = .beforeDispose) :
    Informs (some i) m
      { m with state := .duringDispose, begun := m.begun + 1, winner := m.winner.or (some i) }
      (.disposing a) := by
  have hnone : m.winner = none := h.winner.mpr hbefore
  refine ⟨⟨by simp [hnone], nofun, fun _ => by simp [hnone], nofun, nofun⟩, fun j q hij hq => ?_⟩
  have hnot := hq.not_runs hnone
  exact ⟨by simp [hnone], hq.other, fun hruns => absurd hruns hnot,
    fun hreturned => absurd (.inr hreturned) hnot, fun _ => nofun⟩

/-- The action takes a step. -/
theorem informs_disposing {a : Action}
    (hnext : doOnce D (some i) c m (.disposing a) = some (m', p'))
    (h : Knows (some i) m (.disposing a)) : Informs (some i) m m' p' := by
  obtain ⟨⟨owner, a'⟩, -, hsame⟩ := Option.map_eq_some_iff.mp hnext
  have hwon : m.winner = some i := h.runs (.inl trivial)
  cases hsame
  refine ⟨⟨h.winner, nofun, fun _ => hwon, ?_, ?_⟩, fun j q _ hq => hq.of_owner owner⟩
  · cases a' <;> nofun
  · cases a' <;> nofun

/-- The call that has won is done. -/
theorem informs_finishing (h : Knows (some i) m (.finishing : Place Action)) :
    Informs (some i) m { m with state := .afterDispose } (.returned true : Place Action) := by
  have hwon : m.winner = some i := h.runs (.inl trivial)
  refine ⟨⟨by simp [hwon], nofun, fun _ => hwon, fun _ => rfl, nofun⟩, fun j q _ hq => ?_⟩
  exact ⟨by simp [hwon], hq.other, hq.runs, fun _ => rfl, fun _ => nofun⟩

theorem informs_doOnce (hnext : doOnce D (some i) c m p = some (m', p'))
    (h : Knows (some i) m p) (hinside : p.Runs → Inside P m p) : Informs (some i) m m' p' := by
  cases p with
  | called =>
    simp only [doOnce] at hnext
    split at hnext
    · next hbefore =>
      cases hnext
      exact informs_won h hbefore
    · next hbefore =>
      cases hnext
      exact ⟨⟨h.winner, nofun, by simp [Place.Runs], nofun, fun _ => hbefore⟩, fun j q _ hq => hq⟩
  | disposing a => exact informs_disposing hnext h
  | finishing =>
    simp only [doOnce] at hnext
    split at hnext
    · cases hnext
      exact informs_finishing h
    · next hnot => exact absurd (hinside trivial).state hnot
  | returned b => cases hnext

/-- The call that runs the action goes on with it, or is done. -/
theorem holder_doOnce (hnext : doOnce D (some i) c m p = some (m', p')) (hholds : p.Runs)
    (hinside : Inside P m p) (hlocked : m.state = .duringDispose) :
    (p'.Runs ∧ m'.state = .duringDispose ∧ Inside P m' p') ∨
      (¬p'.Runs ∧ m'.state ≠ .duringDispose ∧ Outside P m') := by
  cases p with
  | disposing a =>
    obtain ⟨⟨owner, a'⟩, hact, hsame⟩ := Option.map_eq_some_iff.mp hnext
    have hduring := hinside.during a rfl
    cases hsame
    rcases a' with _ | a'
    · exact .inl ⟨trivial, hlocked, hlocked, hinside.assertion, hinside.begun, nofun,
        fun _ => P.returns _ _ _ hduring hact⟩
    · refine .inl ⟨trivial, hlocked, hlocked, hinside.assertion, hinside.begun, ?_, nofun⟩
      rintro _ ⟨rfl⟩
      exact P.goesOn _ _ _ _ hduring hact
  | finishing =>
    simp only [doOnce, hlocked, if_true] at hnext
    cases hnext
    exact .inr ⟨id, nofun, hinside.assertion, .inr ⟨rfl, hinside.begun, hinside.after rfl⟩⟩
  | _ => exact hholds.elim

/-- The other threads of the owner keep what is true of it. -/
theorem unaffected_other {b : Other} {owner : Owner} (hb : D.other b m.owner = some owner) :
    LTS.Threads.Unaffected (fun m : Disposable Owner ι => m.state = .duringDispose) (Inside P)
      (Outside P) m { m with owner := owner } := by
  refine ⟨.rfl, ?_, ?_⟩
  · exact fun q hq => ⟨hq.state, hq.assertion, hq.begun,
      fun a ha => P.during_other _ _ _ _ (hq.during a ha) hb,
      fun ha => P.after_other _ _ _ (hq.after ha) hb⟩
  · rintro ⟨hassert, ⟨hstate, hbegun, ho⟩ | ⟨hstate, hbegun, ho⟩⟩
    · exact ⟨hassert, .inl ⟨hstate, hbegun, P.before_other _ _ _ ho hb⟩⟩
    · exact ⟨hassert, .inr ⟨hstate, hbegun, P.after_other _ _ _ ho hb⟩⟩

/-- The call that wins finds the owner as it was before. -/
theorem inside_won {winner : Option ι} (hbefore : m.state = .beforeDispose) (h : Outside P m) :
    Inside P { m with state := .duringDispose, begun := m.begun + 1, winner := winner }
      (.disposing D.start) := by
  obtain ⟨hassert, ⟨-, hbegun, ho⟩ | ⟨hstate, -⟩⟩ := h
  · refine ⟨rfl, hassert, by simp [hbegun], ?_, nofun⟩
    rintro _ ⟨rfl⟩
    exact P.starts _ ho
  · rw [hbefore] at hstate
    cases hstate

theorem isLock_doOnce :
    LTS.Threads.IsLock (fun m : Disposable Owner ι => m.state = .duringDispose) Place.Runs
      (Inside P) (Outside P) Knows (doOnce D) where
  knows i c m p m' p' hnext h hinside := by
    rcases i with _ | i
    · obtain ⟨owner, -, hsame⟩ := Option.map_eq_some_iff.mp hnext
      cases hsame
      exact ⟨h.of_owner owner, fun j q _ hq => hq.of_owner owner⟩
    · exact informs_doOnce hnext h hinside
  holder i c m p m' p' hnext hholds h hinside hlocked := by
    rcases i with _ | i
    · obtain rfl := h.other rfl
      exact hholds.elim
    · exact holder_doOnce hnext hholds hinside hlocked
  other i c m p m' p' hnext hholds h := by
    rcases i with _ | i
    · obtain ⟨owner, hother, hsame⟩ := Option.map_eq_some_iff.mp hnext
      cases hsame
      obtain ⟨b, -, hb⟩ := Option.bind_eq_some_iff.mp hother
      exact .inl ⟨hholds, unaffected_other hb⟩
    cases p with
    | called =>
      simp only [doOnce] at hnext
      split at hnext
      · next hbefore =>
        cases hnext
        exact .inr ⟨trivial, by simp [hbefore], rfl, inside_won hbefore⟩
      · cases hnext
        exact .inl ⟨id, .refl m⟩
    | returned b => cases hnext
    | _ => exact absurd trivial hholds

/-- What is true of an owner with calls of `DoOnce` that overlap. -/
structure DisposesOnce (P : Phases D)
    (s : LTS.Threads (Option ι) (Disposable Owner ι) (Place Action)) : Prop where
  begun : s.shared.begun ≤ 1
  assertion : s.shared.assertionFailed = false
  /-- At most one call runs the action, and at most one returns true. -/
  exclusive : ∀ i j, (s.place i).Runs → (s.place j).Runs → i = j
  winner : ∀ i j, s.place i = .returned true → s.place j = .returned true → i = j
  phase : P.before s.shared.owner ∨ (∃ a, P.during s.shared.owner a) ∨ P.after s.shared.owner
  before : s.shared.state = .beforeDispose → P.before s.shared.owner
  during : ∀ i a, s.place i = .disposing a → P.during s.shared.owner a
  /-- Who returns true finds the action complete. -/
  returned : ∀ i, s.place i = .returned true → P.after s.shared.owner
  /-- Who returns false finds it begun. -/
  lost : ∀ i, s.place i = .returned false → s.shared.state ≠ .beforeDispose ∧ s.shared.begun = 1

theorem always_disposesOnce [DecidableEq ι] {owner : Owner} (hbefore : P.before owner)
    (ls : List (Option ι × Option Other)) :
    (system D owner ι).Always (DisposesOnce P)
      { shared := new owner, place := fun _ => .called } ls := by
  have hstart (m : Disposable Owner ι) (hm : m = new owner) :
      m.state ≠ .duringDispose ∧ Outside P m ∧ ∀ i, Knows i m (.called : Place Action) := by
    subst hm
    refine ⟨nofun, ⟨rfl, .inl ⟨rfl, rfl, hbefore⟩⟩, fun i => ?_⟩
    exact ⟨iff_of_true rfl rfl, fun _ => rfl, by simp [Place.Runs], nofun, nofun⟩
  have hguarded := LTS.Threads.always_guarded (isLock_doOnce (ι := ι) (P := P)) hstart id
    (s := { shared := new owner, place := fun _ => .called }) ⟨rfl, fun _ => rfl⟩ ls
  refine hguarded.mono fun s h => ?_
  -- Either a call runs the action, or the owner is as before or as after it.
  have hcases : (∃ i, (s.place i).Runs ∧ Inside P s.shared (s.place i)) ∨ Outside P s.shared := by
    by_cases hruns : ∃ i, (s.place i).Runs
    · exact hruns.elim fun i hi => .inl ⟨i, hi, h.inside i hi⟩
    · exact .inr (h.outside (not_exists.mp hruns))
  refine ⟨?_, ?_, h.exclusive, ?_, ?_, ?_, ?_, ?_, ?_⟩
  · obtain ⟨i, -, hi⟩ | ⟨-, ⟨-, hbegun, -⟩ | ⟨-, hbegun, -⟩⟩ := hcases
    · exact Nat.le_of_eq hi.begun
    · simp [hbegun]
    · exact Nat.le_of_eq hbegun
  · obtain ⟨i, -, hi⟩ | hout := hcases
    · exact hi.assertion
    · exact hout.1
  · intro i j hi hj
    rw [← (h.knows i).runs (.inr hi), ← (h.knows j).runs (.inr hj)]
  · obtain ⟨i, hruns, hi⟩ | ⟨-, ⟨-, -, ho⟩ | ⟨-, -, ho⟩⟩ := hcases
    · cases hp : s.place i with
      | disposing a => exact .inr (.inl ⟨a, hi.during a hp⟩)
      | finishing => exact .inr (.inr (hi.after hp))
      | _ =>
        rw [hp] at hruns
        exact hruns.elim
    · exact .inl ho
    · exact .inr (.inr ho)
  · intro hstate
    obtain ⟨i, -, hi⟩ | ⟨-, ⟨-, -, ho⟩ | ⟨hafter, -⟩⟩ := hcases
    · rw [hi.state] at hstate
      cases hstate
    · exact ho
    · rw [hafter] at hstate
      cases hstate
  · intro i a hp
    exact (h.inside i (by rw [hp]; trivial)).during a hp
  · intro i hi
    have hstate := (h.knows i).returned hi
    obtain ⟨j, -, hj⟩ | ⟨-, ⟨hbefore, -⟩ | ⟨-, -, ho⟩⟩ := hcases
    · rw [hj.state] at hstate
      cases hstate
    · rw [hbefore] at hstate
      cases hstate
    · exact ho
  · intro i hi
    have hstate := (h.knows i).lost hi
    obtain ⟨j, -, hj⟩ | ⟨-, ⟨hbefore, -⟩ | ⟨-, hbegun, -⟩⟩ := hcases
    · exact ⟨hstate, hj.begun⟩
    · exact absurd hbefore hstate
    · exact ⟨hstate, hbegun⟩

end

end DisposableHelper

end ApmAgent
