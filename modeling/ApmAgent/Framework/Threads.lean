import ApmAgent.Framework.LTS
import Mathlib.Logic.Function.Basic

/-! # Threads that share a memory

  Any number of threads run the same code. Each step of a thread reads and
  writes the shared memory and moves the thread on to its next place; which
  thread takes the next step is a choice of the scheduler. A thread may use its
  own name.

  * `always_of_stable`: what is true of the memory, of each thread, and of each
    two threads, is true in every state if no step of a thread makes it wrong
    for the thread itself or for another one;
  * `Stable.of_lock`: a lock that only its holder releases excludes all others.
-/

universe u v w x

namespace LTS

/-- The memory, and the place of each thread. -/
structure Threads (ι : Type u) (Shared : Type v) (Local : Type w) where
  shared : Shared
  place : ι → Local

/-- The next step of a thread, `none` while the thread has to wait. -/
abbrev ThreadStep (ι : Type u) (Choice : Type x) (Shared : Type v) (Local : Type w) :=
  ι → Choice → Shared → Local → Option (Shared × Local)

variable {ι : Type u} {Shared : Type v} {Local : Type w} {Choice : Type x}

/-- All threads start at one place. -/
def threadSystem [DecidableEq ι] (start : Shared → Prop) (initial : Local)
    (next : ThreadStep ι Choice Shared Local) :
    System (Threads ι Shared Local) (ι × Choice) where
  init s := start s.shared ∧ ∀ i, s.place i = initial
  step s l := (next l.1 l.2 s.shared (s.place l.1)).map fun r =>
    { shared := r.1, place := Function.update s.place l.1 r.2 }

namespace Threads

/-- What is true of the memory, of each thread, and of each two threads. -/
structure Holds (I : Shared → Prop) (J : ι → Shared → Local → Prop) (K : Local → Local → Prop)
    (s : Threads ι Shared Local) : Prop where
  shared : I s.shared
  each : ∀ i, J i s.shared (s.place i)
  both : ∀ i j, i ≠ j → K (s.place i) (s.place j)

/-- No step of a thread makes wrong what is true of itself or of another thread. -/
structure Stable (next : ThreadStep ι Choice Shared Local) (I : Shared → Prop)
    (J : ι → Shared → Local → Prop) (K : Local → Local → Prop) : Prop where
  symm : ∀ p q, K p q → K q p
  own : ∀ i c m p m' p', next i c m p = some (m', p') → I m → J i m p → I m' ∧ J i m' p'
  other : ∀ i c m p m' p' j q, j ≠ i → next i c m p = some (m', p') → I m → J i m p →
    J j m q → K p q → J j m' q ∧ K p' q

variable {next : ThreadStep ι Choice Shared Local} {I : Shared → Prop}
  {J : ι → Shared → Local → Prop}
  {K : Local → Local → Prop} {start : Shared → Prop} {initial : Local}
  {s s' : Threads ι Shared Local}

section

variable [DecidableEq ι]

theorem step_eq_some {i : ι} {c : Choice} :
    (threadSystem start initial next).step s (i, c) = some s' ↔
      ∃ m p, next i c s.shared (s.place i) = some (m, p) ∧
        s' = { shared := m, place := Function.update s.place i p } := by
  simp only [threadSystem, Option.map_eq_some_iff, Prod.exists]
  constructor
  · rintro ⟨m, p, hnext, rfl⟩
    exact ⟨m, p, hnext, rfl⟩
  · rintro ⟨m, p, hnext, rfl⟩
    exact ⟨m, p, hnext, rfl⟩

theorem Holds.step (hstable : Stable next I J K) (h : s.Holds I J K) {l : ι × Choice}
    (hstep : (threadSystem start initial next).step s l = some s') : s'.Holds I J K := by
  obtain ⟨i, c⟩ := l
  obtain ⟨m, p, hnext, rfl⟩ := step_eq_some.mp hstep
  have hown := hstable.own i c _ _ m p hnext h.shared (h.each i)
  have hother (j : ι) (hij : j ≠ i) : J j m (s.place j) ∧ K p (s.place j) :=
    hstable.other i c _ _ m p j _ hij hnext h.shared (h.each i) (h.each j) (h.both i j hij.symm)
  refine ⟨hown.1, ?_, ?_⟩
  · intro j
    by_cases hij : j = i
    · subst hij
      simpa using hown.2
    · simpa [hij] using (hother j hij).1
  · intro j k hjk
    by_cases hj : j = i
    · subst hj
      simpa [hjk.symm] using (hother k hjk.symm).2
    · by_cases hk : k = i
      · subst hk
        simpa [hj] using hstable.symm _ _ (hother j hj).2
      · simpa [hj, hk] using h.both j k hjk

/-- What is true of threads that start, and that no step makes wrong, is always true. -/
theorem always_of_stable (hstable : Stable next I J K) (hinit : ∀ m, start m → I m ∧ ∀ i, J i m initial)
    (hboth : K initial initial) (hs : (threadSystem start initial next).init s)
    (ls : List (ι × Choice)) :
    (threadSystem start initial next).Always (Holds I J K) s ls := by
  refine System.always_of_invariant (fun s l s' h hstep => h.step hstable hstep) ?_ ls
  obtain ⟨hstart, hplace⟩ := hs
  refine ⟨(hinit _ hstart).1, fun i => ?_, fun i j _ => ?_⟩
  · rw [hplace i]
    exact (hinit _ hstart).2 i
  · rw [hplace i, hplace j]
    exact hboth

end

/-! ### Locks -/

section Lock

variable (locked : Shared → Prop) (holds : Local → Prop) (inside : Shared → Local → Prop)
  (outside : Shared → Prop) (knows : ι → Shared → Local → Prop)

/-- A step that leaves the lock alone, and what the holder and the next holder rely on. -/
structure Unaffected (m m' : Shared) : Prop where
  locked : locked m' ↔ locked m
  inside : ∀ p, inside m p → inside m' p
  outside : outside m → outside m'

/-- The code around a lock. The holder relies on `inside`, the next holder on `outside`; every
    thread knows something that no step makes wrong. -/
structure IsLock (next : ThreadStep ι Choice Shared Local) : Prop where
  /-- A thread that holds the lock keeps it, or releases it. -/
  holder : ∀ i c m p m' p', next i c m p = some (m', p') → holds p → knows i m p → inside m p →
    locked m →
    (holds p' ∧ locked m' ∧ inside m' p') ∨ (¬holds p' ∧ ¬locked m' ∧ outside m')
  /-- A thread that does not hold the lock leaves it alone, or takes it where it is free. -/
  other : ∀ i c m p m' p', next i c m p = some (m', p') → ¬holds p → knows i m p →
    (¬holds p' ∧ Unaffected locked inside outside m m') ∨
      (holds p' ∧ ¬locked m ∧ locked m' ∧ (outside m → inside m' p'))
  knows : ∀ i c m p m' p', next i c m p = some (m', p') → knows i m p →
    (holds p → inside m p) → knows i m' p' ∧ ∀ j q, j ≠ i → knows j m q → knows j m' q

end Lock

variable {locked : Shared → Prop} {holds : Local → Prop} {inside : Shared → Local → Prop}
  {outside : Shared → Prop} {knows : ι → Shared → Local → Prop}

theorem Unaffected.refl (m : Shared) : Unaffected locked inside outside m m :=
  ⟨.rfl, fun _ => id, id⟩

/-- What a lock makes true of the memory, of each thread, and of each two threads. -/
abbrev LockHolds (locked : Shared → Prop) (holds : Local → Prop)
    (inside : Shared → Local → Prop) (outside : Shared → Prop) (knows : ι → Shared → Local → Prop)
    (s : Threads ι Shared Local) : Prop :=
  s.Holds (fun m => ¬locked m → outside m)
    (fun i m p => knows i m p ∧ (holds p → locked m ∧ inside m p)) (fun p q => ¬(holds p ∧ holds q))

/-- At most one thread holds the lock, and only while it is locked; what the holder relies on is
    true, and so is what is true of a free lock. -/
theorem Stable.of_lock (h : IsLock locked holds inside outside knows next) :
    Stable next (fun m => ¬locked m → outside m)
      (fun i m p => knows i m p ∧ (holds p → locked m ∧ inside m p))
      (fun p q => ¬(holds p ∧ holds q)) where
  symm p q hpq hqp := hpq ⟨hqp.2, hqp.1⟩
  own i c m p m' p' hnext hfree hp := by
    obtain ⟨hknows, hp⟩ := hp
    have hknows' := (h.knows i c m p m' p' hnext hknows fun hn => (hp hn).2).1
    by_cases hholds : holds p
    · obtain ⟨hlocked, hinside⟩ := hp hholds
      obtain ⟨-, hlocked', hinside'⟩ | ⟨hnot, hfree', hout⟩ :=
        h.holder i c m p m' p' hnext hholds hknows hinside hlocked
      · exact ⟨fun hn => absurd hlocked' hn, hknows', fun _ => ⟨hlocked', hinside'⟩⟩
      · exact ⟨fun _ => hout, hknows', fun hn => absurd hn hnot⟩
    · obtain ⟨hnot, hsame⟩ | ⟨-, hwas, hlocked', hinside'⟩ :=
        h.other i c m p m' p' hnext hholds hknows
      · exact ⟨fun hn => hsame.outside (hfree fun hl => hn (hsame.locked.mpr hl)), hknows',
          fun hn => absurd hn hnot⟩
      · exact ⟨fun hn => absurd hlocked' hn, hknows', fun _ => ⟨hlocked', hinside' (hfree hwas)⟩⟩
  other i c m p m' p' j q hij hnext hfree hp hq hpq := by
    obtain ⟨hknows, hp⟩ := hp
    obtain ⟨hknowsq, hq⟩ := hq
    have hknowsq' := (h.knows i c m p m' p' hnext hknows fun hn => (hp hn).2).2 j q hij hknowsq
    by_cases hholds : holds p
    · -- The other thread does not hold the lock, so it relies on nothing.
      have hnotq : ¬holds q := fun hholdsq => hpq ⟨hholds, hholdsq⟩
      exact ⟨⟨hknowsq', fun hholdsq => absurd hholdsq hnotq⟩, fun hn => hnotq hn.2⟩
    · obtain ⟨hnot, hsame⟩ | ⟨-, hwas, -⟩ := h.other i c m p m' p' hnext hholds hknows
      · refine ⟨⟨hknowsq', fun hholdsq => ?_⟩, fun hn => hnot hn.1⟩
        obtain ⟨hlocked, hinside⟩ := hq hholdsq
        exact ⟨hsame.locked.mpr hlocked, hsame.inside q hinside⟩
      · have hnotq : ¬holds q := fun hholdsq => hwas (hq hholdsq).1
        exact ⟨⟨hknowsq', fun hholdsq => absurd hholdsq hnotq⟩, fun hn => hnotq hn.2⟩

/-- A lock that is taken is held by some thread. -/
theorem exists_holder_step [DecidableEq ι] (h : IsLock locked holds inside outside knows next)
    {l : ι × Choice} (hstep : (threadSystem start initial next).step s l = some s')
    (hs : s.LockHolds locked holds inside outside knows)
    (hheld : locked s.shared → ∃ i, holds (s.place i)) :
    locked s'.shared → ∃ i, holds (s'.place i) := by
  obtain ⟨i, c⟩ := l
  obtain ⟨m, p, hnext, rfl⟩ := step_eq_some.mp hstep
  intro hlocked
  obtain ⟨hknows, hi⟩ := hs.each i
  by_cases hholds : holds (s.place i)
  · obtain ⟨hwas, hinside⟩ := hi hholds
    obtain ⟨hp, -⟩ | ⟨-, hfree, -⟩ := h.holder i c _ _ m p hnext hholds hknows hinside hwas
    · exact ⟨i, by simpa using hp⟩
    · exact absurd hlocked hfree
  · obtain ⟨hnot, hsame⟩ | ⟨hp, -⟩ := h.other i c _ _ m p hnext hholds hknows
    · obtain ⟨j, hj⟩ := hheld (hsame.locked.mp hlocked)
      have hij : j ≠ i := by
        rintro rfl
        exact hholds hj
      exact ⟨j, by simpa [hij] using hj⟩
    · exact ⟨i, by simpa using hp⟩

/-- A lock as it is meant: who holds it is the only one, and the memory is as the holder or the
    next holder expects it. -/
structure Guarded (locked : Shared → Prop) (holds : Local → Prop)
    (inside : Shared → Local → Prop) (outside : Shared → Prop) (knows : ι → Shared → Local → Prop)
    (s : Threads ι Shared Local) : Prop where
  exclusive : ∀ i j, holds (s.place i) → holds (s.place j) → i = j
  locked_iff : locked s.shared ↔ ∃ i, holds (s.place i)
  inside : ∀ i, holds (s.place i) → inside s.shared (s.place i)
  outside : (∀ i, ¬holds (s.place i)) → outside s.shared
  knows : ∀ i, knows i s.shared (s.place i)

/-- A lock that only its holder releases is held by at most one thread, whatever the scheduler
    does. -/
theorem always_guarded [DecidableEq ι] (h : IsLock locked holds inside outside knows next)
    (hstart : ∀ m, start m → ¬locked m ∧ outside m ∧ ∀ i, knows i m initial) (hinitial : ¬holds initial)
    (hs : (threadSystem start initial next).init s) (ls : List (ι × Choice)) :
    (threadSystem start initial next).Always (Guarded locked holds inside outside knows) s ls := by
  have hstable := Stable.of_lock h
  have hinit : s.LockHolds locked holds inside outside knows :=
    (always_of_stable hstable
      (fun m hm => ⟨fun _ => (hstart m hm).2.1,
        fun i => ⟨(hstart m hm).2.2 i, fun hn => absurd hn hinitial⟩⟩)
      (fun hn => hinitial hn.1) hs []).head
  have halways : (threadSystem start initial next).Always
      (fun s => s.LockHolds locked holds inside outside knows ∧
        (locked s.shared → ∃ i, holds (s.place i))) s ls :=
    System.always_of_invariant
      (fun s l s' hP hstep => ⟨hP.1.step hstable hstep, exists_holder_step h hstep hP.1 hP.2⟩)
      ⟨hinit, fun hlocked => absurd hlocked (hstart _ hs.1).1⟩ ls
  refine halways.mono fun s hP =>
    ⟨?_, ⟨hP.2, ?_⟩, fun i hi => ((hP.1.each i).2 hi).2, ?_, fun i => (hP.1.each i).1⟩
  · intro i j hi hj
    by_contra hij
    exact hP.1.both i j hij ⟨hi, hj⟩
  · rintro ⟨i, hi⟩
    exact ((hP.1.each i).2 hi).1
  · intro hnone
    exact hP.1.shared fun hlocked => (hP.2 hlocked).elim hnone

end Threads

end LTS
