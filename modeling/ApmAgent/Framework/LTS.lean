import Mathlib.Data.List.Induction

/-! # Deterministic Labelled Transition Systems

  A system is given by its initial states and a partial step function: the
  label carries every choice the environment or the scheduler makes, so the
  next state is a function of the state and the label, and `none` means that
  the label cannot be taken.

  This module provides the run of a list of labels and five proof rules:

  * `System.always_of_invariant`: an invariant that every step preserves;
  * `System.always_of_along`: an invariant that every step preserves whose
    pre-state and label meet a condition;
  * `System.always_iff_along`: when a condition on the step is *exactly* what
    the invariant needs, the invariant holds in all states of a run if and
    only if all steps of the run meet the condition;
  * `System.along_congr`: under an invariant, a condition may be replaced by
    one that agrees with it;
  * `System.run_history`: an invariant that also speaks about the labels.
-/

namespace LTS

universe u v

/-- A deterministic labelled transition system. -/
structure System (State : Type u) (Label : Type v) where
  /-- The states a run may start in. -/
  init : State → Prop
  /-- The state after a label, `none` when the label is not enabled. -/
  step : State → Label → Option State

variable {State : Type u} {Label : Type v}

namespace System

/-! ### Runs -/

/-- The state reached from `s` along `ls`. -/
def run (sys : System State Label) : State → List Label → Option State
  | s, [] => some s
  | s, l :: ls => (sys.step s l).bind fun s' => sys.run s' ls

@[simp] theorem run_nil (sys : System State Label) (s : State) :
    sys.run s [] = some s := rfl

theorem run_cons (sys : System State Label) (s : State) (l : Label) (ls : List Label) :
    sys.run s (l :: ls) = (sys.step s l).bind fun s' => sys.run s' ls := rfl

/-- The first step of a non-empty run. -/
theorem run_cons_eq_some {sys : System State Label} {s s'' : State} {l : Label}
    {ls : List Label} :
    sys.run s (l :: ls) = some s'' ↔
      ∃ s', sys.step s l = some s' ∧ sys.run s' ls = some s'' := by
  simp [run_cons, Option.bind_eq_some_iff]

theorem run_append (sys : System State Label) (s : State) (ls ms : List Label) :
    sys.run s (ls ++ ms) = (sys.run s ls).bind fun s' => sys.run s' ms := by
  induction ls generalizing s with
  | nil => rfl
  | cons l ls ih =>
    simp only [List.cons_append, run_cons]
    cases sys.step s l with
    | none => rfl
    | some s' => exact ih s'

/-- The last step of a run. -/
theorem run_concat_eq_some {sys : System State Label} {s s'' : State} {l : Label}
    {ls : List Label} :
    sys.run s (ls ++ [l]) = some s'' ↔
      ∃ s', sys.run s ls = some s' ∧ sys.step s' l = some s'' := by
  simp only [run_append, Option.bind_eq_some_iff, run_cons_eq_some, run_nil]
  constructor
  · rintro ⟨s', hrun, t, hstep, ht⟩
    exact ⟨s', hrun, by rw [hstep, ht]⟩
  · rintro ⟨s', hrun, hstep⟩
    exact ⟨s', hrun, s'', hstep, rfl⟩

/-! ### Conditions on the steps and on the states of a run -/

/-- Every step taken along `ls` meets the condition `g`. -/
def Along (sys : System State Label) (g : State → Label → Prop) : State → List Label → Prop
  | _, [] => True
  | s, l :: ls => ∀ s', sys.step s l = some s' → g s l ∧ sys.Along g s' ls

/-- Every state visited along `ls` satisfies `P`, the first and the last included. -/
def Always (sys : System State Label) (P : State → Prop) : State → List Label → Prop
  | s, [] => P s
  | s, l :: ls => P s ∧ ∀ s', sys.step s l = some s' → sys.Always P s' ls

theorem Always.head {sys : System State Label} {P : State → Prop} {s : State}
    {ls : List Label} (h : sys.Always P s ls) : P s := by
  cases ls with
  | nil => exact h
  | cons l ls => exact h.1

/-- The last state of a run is one of those visited. -/
theorem Always.last {sys : System State Label} {P : State → Prop} {s s' : State}
    {ls : List Label} (h : sys.Always P s ls) (hrun : sys.run s ls = some s') : P s' := by
  induction ls generalizing s with
  | nil => cases hrun; exact h
  | cons l ls ih =>
    obtain ⟨t, hstep, hrest⟩ := run_cons_eq_some.mp hrun
    exact ih (h.2 t hstep) hrest

theorem Always.mono {sys : System State Label} {P Q : State → Prop}
    (hPQ : ∀ s, P s → Q s) {s : State} {ls : List Label} (h : sys.Always P s ls) :
    sys.Always Q s ls := by
  induction ls generalizing s with
  | nil => exact hPQ s h
  | cons l ls ih => exact ⟨hPQ s h.1, fun t ht => ih (h.2 t ht)⟩

theorem Always.and {sys : System State Label} {P Q : State → Prop} {s : State}
    {ls : List Label} (hP : sys.Always P s ls) (hQ : sys.Always Q s ls) :
    sys.Always (fun s => P s ∧ Q s) s ls := by
  induction ls generalizing s with
  | nil => exact ⟨hP, hQ⟩
  | cons l ls ih => exact ⟨⟨hP.1, hQ.1⟩, fun t ht => ih (hP.2 t ht) (hQ.2 t ht)⟩

/-- A condition that all steps of a run meet is met by each of them. -/
theorem Along.of_run {sys : System State Label} {g : State → Label → Prop} {s t t' : State}
    {before after : List Label} {l : Label} (h : sys.Along g s (before ++ l :: after))
    (hrun : sys.run s before = some t) (hstep : sys.step t l = some t') : g t l := by
  induction before generalizing s with
  | nil =>
    cases hrun
    exact (h t' hstep).1
  | cons m before ih =>
    obtain ⟨u, hu, hrest⟩ := run_cons_eq_some.mp hrun
    exact ih (h u hu).2 hrest

/-- A condition may be replaced by one that follows from it and an invariant. -/
theorem Along.imp {sys : System State Label} {I : State → Prop} {g g' : State → Label → Prop}
    (hinv : ∀ s l s', I s → g s l → sys.step s l = some s' → I s')
    (himp : ∀ s l s', I s → g s l → sys.step s l = some s' → g' s l)
    {s : State} (hI : I s) {ls : List Label} (h : sys.Along g s ls) : sys.Along g' s ls := by
  -- The invariant is carried along, so that the conditions can be compared at every step.
  induction ls generalizing s with
  | nil => trivial
  | cons l ls ih =>
    intro t ht
    obtain ⟨hl, hls⟩ := h t ht
    exact ⟨himp s l t hI hl ht, ih (hinv s l t hI hl ht) hls⟩

/-- Two conditions that agree on the steps from states satisfying an invariant are met by the
    same runs. -/
theorem along_congr {sys : System State Label} {I : State → Prop}
    {g g' : State → Label → Prop}
    (hinv : ∀ s l s', I s → sys.step s l = some s' → I s')
    (hgg' : ∀ s l s', I s → sys.step s l = some s' → (g s l ↔ g' s l))
    {s : State} (hI : I s) (ls : List Label) :
    sys.Along g s ls ↔ sys.Along g' s ls := by
  constructor
  · exact Along.imp (fun s l s' hI _ => hinv s l s' hI)
      (fun s l s' hI hg hstep => (hgg' s l s' hI hstep).mp hg) hI
  · exact Along.imp (fun s l s' hI _ => hinv s l s' hI)
      (fun s l s' hI hg hstep => (hgg' s l s' hI hstep).mpr hg) hI

/-- The first step of a run whose steps meet a condition. -/
theorem along_cons_of_step {sys : System State Label} {g : State → Label → Prop} {s s' : State}
    {l : Label} {ls : List Label} (h : sys.step s l = some s') :
    sys.Along g s (l :: ls) ↔ g s l ∧ sys.Along g s' ls := by
  simp [Along, h]

/-! ### Invariant rules -/

/-- All states visited satisfy an invariant that every step preserves which meets `g`. -/
theorem always_of_along {sys : System State Label} {P : State → Prop}
    {g : State → Label → Prop}
    (hstep : ∀ s l s', P s → g s l → sys.step s l = some s' → P s')
    {s : State} (h : P s) {ls : List Label} (hg : sys.Along g s ls) : sys.Always P s ls := by
  induction ls generalizing s with
  | nil => exact h
  | cons l ls ih =>
    refine ⟨h, fun t ht => ?_⟩
    obtain ⟨hl, hls⟩ := hg t ht
    exact ih (hstep s l t h hl ht) hls

theorem always_of_invariant {sys : System State Label} {P : State → Prop}
    (hstep : ∀ s l s', P s → sys.step s l = some s' → P s') {s : State} (h : P s)
    (ls : List Label) : sys.Always P s ls := by
  induction ls generalizing s with
  | nil => exact h
  | cons l ls ih => exact ⟨h, fun t ht => ih (hstep s l t h ht)⟩

/-- When `g` is exactly what a step needs to re-establish `P`, all states visited satisfy `P`
    if and only if all steps taken meet `g`. The invariant `I` may be used to show it. -/
theorem always_iff_along {sys : System State Label} {I P : State → Prop}
    {g : State → Label → Prop}
    (hinv : ∀ s l s', I s → sys.step s l = some s' → I s')
    (hstep : ∀ s l s', I s → P s → sys.step s l = some s' → (P s' ↔ g s l))
    {s : State} (hI : I s) (hP : P s) (ls : List Label) :
    sys.Always P s ls ↔ sys.Along g s ls := by
  -- `I` holds in every state; `P` holds as long as the steps taken so far met `g`.
  induction ls generalizing s with
  | nil => simpa [Always, Along] using hP
  | cons l ls ih =>
    constructor
    · intro hall t ht
      have hPt := (hall.2 t ht).head
      have hl := (hstep s l t hI hP ht).mp hPt
      exact ⟨hl, (ih (hinv s l t hI ht) hPt).mp (hall.2 t ht)⟩
    · intro hg
      refine ⟨hP, fun t ht => ?_⟩
      obtain ⟨hl, hls⟩ := hg t ht
      have hPt := (hstep s l t hI hP ht).mpr hl
      exact (ih (hinv s l t hI ht) hPt).mpr hls

/-- An invariant of the labels taken so far and the state they lead to. -/
theorem run_history {sys : System State Label} {P : List Label → State → Prop} {s₀ : State}
    (h₀ : P [] s₀)
    (hstep : ∀ ls s l s', sys.run s₀ ls = some s → P ls s →
      sys.step s l = some s' → P (ls ++ [l]) s')
    {ls : List Label} {s : State} (hrun : sys.run s₀ ls = some s) : P ls s := by
  -- From the last label backwards, so that the history is a prefix of the run.
  induction ls using List.reverseRecOn generalizing s with
  | nil => cases hrun; exact h₀
  | append_singleton ls l ih =>
    obtain ⟨t, ht, hl⟩ := run_concat_eq_some.mp hrun
    exact hstep ls t l s ht (ih ht) hl

end System

end LTS
