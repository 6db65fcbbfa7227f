/-! # Fuelled Computations

  A computation takes a state to a result or an exception, and leaves a state
  in both cases. One that is defined by recursion on a fuel argument may also
  run out of it, and then ends with nothing at all.

  `Ends m s post` says that `m`, started in `s`, has enough fuel, and that
  `post` holds of what it ends with, be it a result or an exception. There is
  one rule for each way to build a computation.
-/

/-- A computation on states `σ` that may throw an `ε`. -/
abbrev Fuelled (ε σ : Type) (α : Type) := ExceptT ε (StateT σ Option) α

namespace Fuelled

variable {ε σ α β : Type}

def outOfFuel : Fuelled ε σ α := fun _ => none

/-- A result or an exception that does not depend on the state. -/
def ofExcept : Except ε α → Fuelled ε σ α
  | .ok a => pure a
  | .error e => throw e

/-- The computation ends, with a result or an exception and a state of which `post` holds. -/
def Ends (m : Fuelled ε σ α) (s : σ) (post : Except ε α → σ → Prop) : Prop :=
  ∃ r s', m.run.run s = some (r, s') ∧ post r s'

variable {m : Fuelled ε σ α} {f : α → Fuelled ε σ β} {s : σ}
  {post post' : Except ε α → σ → Prop} {post₂ : Except ε β → σ → Prop}

theorem Ends.pure {a : α} (h : post (.ok a) s) : Ends (pure a) s post :=
  ⟨.ok a, s, rfl, h⟩

theorem Ends.throw {e : ε} (h : post (.error e) s) : Ends (throw e) s post :=
  ⟨.error e, s, rfl, h⟩

/-- An exception of the first part is the exception of the whole. -/
theorem Ends.bind (h : Ends m s post) (hok : ∀ a s', post (.ok a) s' → Ends (f a) s' post₂)
    (herror : ∀ e s', post (.error e) s' → post₂ (.error e) s') : Ends (m >>= f) s post₂ := by
  obtain ⟨r, s', hrun, hpost⟩ := h
  cases r with
  | error e =>
    refine ⟨.error e, s', ?_, herror e s' hpost⟩
    simp [ExceptT.run_bind, hrun]
  | ok a =>
    obtain ⟨r, s'', hrest, hpost₂⟩ := hok a s' hpost
    refine ⟨r, s'', ?_, hpost₂⟩
    simp [ExceptT.run_bind, hrun, hrest]

/-- The handler starts in the state the exception has left. -/
theorem Ends.tryCatch {handler : ε → Fuelled ε σ α} (h : Ends m s post)
    (hok : ∀ a s', post (.ok a) s' → post' (.ok a) s')
    (herror : ∀ e s', post (.error e) s' → Ends (handler e) s' post') :
    Ends (tryCatch m handler) s post' := by
  obtain ⟨r, s', hrun, hpost⟩ := h
  cases r with
  | ok a =>
    refine ⟨.ok a, s', ?_, hok a s' hpost⟩
    show (ExceptT.tryCatch m handler).run.run s = _
    simp [ExceptT.tryCatch, ExceptT.run, ExceptT.mk] at hrun ⊢
    simp [hrun]
  | error e =>
    obtain ⟨r, s'', hrest, hpost'⟩ := herror e s' hpost
    refine ⟨r, s'', ?_, hpost'⟩
    show (ExceptT.tryCatch m handler).run.run s = _
    simp [ExceptT.tryCatch, ExceptT.run, ExceptT.mk] at hrun hrest ⊢
    simp [hrun, hrest]

theorem Ends.get_bind {f : σ → Fuelled ε σ α} (h : Ends (f s) s post) :
    Ends (get >>= f) s post := h

theorem Ends.set_bind {s' : σ} {f : PUnit → Fuelled ε σ α} (h : Ends (f ⟨⟩) s' post) :
    Ends (set s' >>= f) s post := h

theorem Ends.modify {g : σ → σ} {post : Except ε PUnit → σ → Prop} (h : post (.ok ⟨⟩) (g s)) :
    Ends (modify g) s post :=
  ⟨.ok ⟨⟩, g s, rfl, h⟩

end Fuelled
