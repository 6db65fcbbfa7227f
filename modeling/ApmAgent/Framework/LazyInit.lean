import Mathlib.Logic.Basic

/-! # Lazily initialised cells

  A cell is empty until the first request fills it, and every later request
  gets what the first one produced. Where all requests for a cell produce the
  same value, the order in which they come does not show. Where they do not,
  the first one decides.
-/

universe u

/-- A cell that the first request fills. -/
structure LazyInit (β : Type u) where
  value? : Option β := none
  deriving DecidableEq, Repr

namespace LazyInit

variable {β : Type u} {c : LazyInit β} {v : β}

/-- What a request that would produce `v` gets, and the cell after it. -/
def initOrGet (c : LazyInit β) (v : β) : β × LazyInit β :=
  (c.value?.getD v, ⟨some (c.value?.getD v)⟩)

/-- The first request decides. -/
theorem initOrGet_snd_value? (c : LazyInit β) (v : β) :
    (c.initOrGet v).2.value? = c.value?.or (some v) := by
  obtain ⟨_ | x⟩ := c
  · rfl
  · rfl

/-- The cell is empty or holds `v`. -/
def Holds (c : LazyInit β) (v : β) : Prop := ∀ x, c.value? = some x → x = v

theorem holds_empty (v : β) : Holds ⟨none⟩ v := by
  intro x hx
  cases hx

theorem Holds.initOrGet_fst (h : c.Holds v) : (c.initOrGet v).1 = v := by
  rcases hvalue : c.value? with _ | x
  · simp only [initOrGet, hvalue, Option.getD_none]
  · simp only [initOrGet, hvalue, Option.getD_some]
    exact h x hvalue

theorem Holds.initOrGet_snd (h : c.Holds v) : (c.initOrGet v).2.Holds v := by
  intro x hx
  have hfst : (c.initOrGet v).1 = v := h.initOrGet_fst
  simp only [initOrGet, Option.some.injEq] at hx hfst
  rw [← hx, hfst]

end LazyInit
