import Mathlib.Order.Bounds.Basic

/-! # First indices

  What a search through a range of positions returns: the least position of
  the range that satisfies a predicate, or -1 where none does. A loop that goes
  up through the range is followed by one rule per step: `of_none`, `of_here`
  and `of_succ`. The result is unique.
-/

/-- `r` is the first index from `start` on and below `stop` that satisfies `P`, or -1. -/
def IsFirstIndex (P : Nat → Prop) (start stop r : Int) : Prop :=
  (∃ i : Nat, r = i ∧ IsLeast {k : Nat | start ≤ k ∧ k < stop ∧ P k} i) ∨
    r = -1 ∧ ∀ k : Nat, start ≤ k → k < stop → ¬ P k

namespace IsFirstIndex

variable {P : Nat → Prop} {start stop r r' : Int}

/-- Nowhere in the range. -/
theorem of_none (h : ∀ k : Nat, start ≤ k → k < stop → ¬ P k) :
    IsFirstIndex P start stop (-1) := .inr ⟨rfl, h⟩

/-- At the first position of the range. -/
theorem of_here {i : Nat} (hi : i < stop) (h : P i) : IsFirstIndex P i stop i :=
  .inl ⟨i, rfl, ⟨Int.le_refl _, hi, h⟩, fun _ hk => Int.ofNat_le.mp hk.1⟩

/-- Not at the first position, so the search goes on behind it. -/
theorem of_succ {i : Nat} (h : ¬ P i) (hrest : IsFirstIndex P (i + 1 : Nat) stop r) :
    IsFirstIndex P i stop r := by
  have hbehind {k : Nat} (hik : (i : Int) ≤ k) (hk : P k) : ((i + 1 : Nat) : Int) ≤ k := by
    have hne : k ≠ i := by
      rintro rfl
      exact h hk
    omega
  rcases hrest with ⟨k, rfl, ⟨hle, hlt, hk⟩, hleast⟩ | ⟨rfl, hnone⟩
  · refine .inl ⟨k, rfl, ⟨by omega, hlt, hk⟩, ?_⟩
    rintro k' ⟨hle', hlt', hk'⟩
    exact hleast ⟨hbehind hle' hk', hlt', hk'⟩
  · refine .of_none fun k hik hlt hk => ?_
    exact hnone k (hbehind hik hk) hlt hk

theorem unique (h : IsFirstIndex P start stop r) (h' : IsFirstIndex P start stop r') :
    r = r' := by
  rcases h with ⟨i, rfl, hi⟩ | ⟨rfl, hnone⟩
  · rcases h' with ⟨i', rfl, hi'⟩ | ⟨rfl, hnone'⟩
    · rw [hi.unique hi']
    · obtain ⟨hle, hlt, hPi⟩ := hi.1
      exact absurd hPi (hnone' i hle hlt)
  · rcases h' with ⟨i', rfl, hi'⟩ | ⟨rfl, hnone'⟩
    · obtain ⟨hle, hlt, hPi⟩ := hi'.1
      exact absurd hPi (hnone i' hle hlt)
    · rfl

end IsFirstIndex
