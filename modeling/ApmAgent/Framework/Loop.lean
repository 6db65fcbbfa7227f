/-! # Loops That May Run for Ever

  A loop is given by what one turn does with the state: it goes on with the
  next state, or it leaves with a result. `runFor` takes a bounded number of
  turns; the loop returns when some number of turns is enough.

  * `returns_inl_iff`: a turn that goes on does not change what is returned;
  * `not_returns_of_invariant`: a loop whose turns all go on from states that
    satisfy an invariant never returns;
  * `Returns.of_invariant`: what the turns keep up holds of the result;
  * `Returns.runFor`: a loop that returns within a bound does so whenever it
    returns at all.
-/

namespace Loop

universe u v

variable {State : Type u} {Result : Type v}

/-- The result of at most `turns` turns. -/
def runFor (body : State → State ⊕ Result) : Nat → State → Option Result
  | 0, _ => none
  | turns + 1, s =>
    match body s with
    | .inl s' => runFor body turns s'
    | .inr r => some r

/-- The loop leaves with `r` after finitely many turns. -/
def Returns (body : State → State ⊕ Result) (s : State) (r : Result) : Prop :=
  ∃ turns, runFor body turns s = some r

variable {body : State → State ⊕ Result} {s s' : State} {r r' : Result}

theorem runFor_inl (h : body s = .inl s') (turns : Nat) :
    runFor body (turns + 1) s = runFor body turns s' := by
  rw [runFor, h]

theorem returns_inl_iff (h : body s = .inl s') : Returns body s r ↔ Returns body s' r := by
  constructor
  · rintro ⟨turns, hturns⟩
    cases turns with
    | zero => cases hturns
    | succ turns => exact ⟨turns, by rw [← runFor_inl h, hturns]⟩
  · rintro ⟨turns, hturns⟩
    exact ⟨turns + 1, by rw [runFor_inl h, hturns]⟩

theorem not_returns_of_invariant {I : State → Prop}
    (hstep : ∀ s, I s → ∃ s', body s = .inl s' ∧ I s') (hs : I s) : ¬ Returns body s r := by
  rintro ⟨turns, hturns⟩
  induction turns generalizing s with
  | zero => cases hturns
  | succ turns ih =>
    obtain ⟨s', hbody, hs'⟩ := hstep s hs
    rw [runFor_inl hbody] at hturns
    exact ih hs' hturns

/-- Each turn keeps the invariant, and the last one ends with what it promises. -/
theorem Returns.of_invariant {I : State → Prop} {P : Result → Prop}
    (hinl : ∀ s s', I s → body s = .inl s' → I s')
    (hinr : ∀ s r, I s → body s = .inr r → P r) (hs : I s) (h : Returns body s r) : P r := by
  obtain ⟨turns, hturns⟩ := h
  induction turns generalizing s with
  | zero => cases hturns
  | succ turns ih =>
    rw [Loop.runFor] at hturns
    cases hbody : body s with
    | inl s' =>
      rw [hbody] at hturns
      exact ih (hinl s s' hs hbody) hturns
    | inr r' =>
      rw [hbody] at hturns
      cases hturns
      exact hinr s r hs hbody

/-- More turns do not change a result. -/
theorem runFor_mono {turns turns' : Nat} (hle : turns ≤ turns')
    (h : runFor body turns s = some r) : runFor body turns' s = some r := by
  induction turns generalizing s turns' with
  | zero => cases h
  | succ turns ih =>
    obtain ⟨turns', rfl⟩ := Nat.exists_eq_add_of_le hle
    rw [show turns + 1 + turns' = turns + turns' + 1 by omega]
    unfold runFor at h ⊢
    cases hbody : body s with
    | inl s' =>
      rw [hbody] at h
      exact ih (by omega) h
    | inr r' =>
      rw [hbody] at h
      exact h

theorem Returns.unique (h : Returns body s r) (h' : Returns body s r') : r = r' := by
  obtain ⟨turns, hturns⟩ := h
  obtain ⟨turns', hturns'⟩ := h'
  have hr := runFor_mono (Nat.le_max_left turns turns') hturns
  have hr' := runFor_mono (Nat.le_max_right turns turns') hturns'
  rw [hr] at hr'
  exact Option.some.inj hr'

/-- Where the loop returns within a bound or never, the bound decides. -/
theorem Returns.runFor {bound : Nat} (h : Returns body s r)
    (hbound : (Loop.runFor body bound s).isSome) : Loop.runFor body bound s = some r := by
  obtain ⟨r', hr'⟩ := Option.isSome_iff_exists.mp hbound
  rw [hr', h.unique ⟨bound, hr'⟩]

end Loop
