import Mathlib.Data.List.Basic

/-! # Object stores

  The mutable objects of one class, in the order they were created. An object
  is named by its position, so a reference stays valid and means the same
  object for ever. `alloc` creates an object, `update` mutates one in place.
-/

universe u

/-- The objects of one class. -/
structure Store (α : Type u) where
  objects : List α
  deriving DecidableEq, Repr

namespace Store

variable {α : Type u}

/-- The store without objects. -/
def empty : Store α := ⟨[]⟩

/-- How many objects were created; also the reference the next one gets. -/
def size (st : Store α) : Nat := st.objects.length

/-- The object a reference names. -/
def get? (st : Store α) (r : Nat) : Option α := st.objects[r]?

/-- Create an object. -/
def alloc (st : Store α) (a : α) : Store α := ⟨st.objects ++ [a]⟩

/-- Mutate the object `r` names. -/
def update (st : Store α) (r : Nat) (f : α → α) : Store α := ⟨st.objects.modify r f⟩

/-- How many objects satisfy `p`. -/
def countP (st : Store α) (p : α → Bool) : Nat := st.objects.countP p

@[simp] theorem get?_empty (r : Nat) : (empty : Store α).get? r = none := rfl

@[simp] theorem size_empty : (empty : Store α).size = 0 := rfl

@[simp] theorem size_alloc (st : Store α) (a : α) : (st.alloc a).size = st.size + 1 := by
  simp [size, alloc]

@[simp] theorem size_update (st : Store α) (r : Nat) (f : α → α) :
    (st.update r f).size = st.size := by
  simp [size, update]

/-- A reference to an object is smaller than the size of the store. -/
theorem lt_size {st : Store α} {r : Nat} {a : α} (h : st.get? r = some a) : r < st.size :=
  (List.getElem?_eq_some_iff.mp h).1

theorem get?_size (st : Store α) : st.get? st.size = none := by
  simp [get?, size]

theorem get?_alloc (st : Store α) (a : α) (r : Nat) :
    (st.alloc a).get? r = if r = st.size then some a else st.get? r := by
  unfold get? alloc size
  -- An older object, the new one, or no object.
  rcases Nat.lt_trichotomy r st.objects.length with hlt | heq | hgt
  · rw [List.getElem?_append_left hlt, if_neg (by omega)]
  · subst heq
    simp
  · rw [if_neg (by omega), List.getElem?_eq_none (by simp; omega),
      List.getElem?_eq_none (by omega)]

@[simp] theorem get?_alloc_size (st : Store α) (a : α) :
    (st.alloc a).get? st.size = some a := by
  simp [get?_alloc]

/-- Creating an object leaves the others as they are. -/
theorem get?_alloc_of_some {st : Store α} {r : Nat} {b : α} (h : st.get? r = some b) (a : α) :
    (st.alloc a).get? r = some b := by
  have hlt := lt_size h
  rw [get?_alloc, if_neg (by omega), h]

theorem get?_update (st : Store α) (r k : Nat) (f : α → α) :
    (st.update r f).get? k = if r = k then (st.get? k).map f else st.get? k := by
  unfold get? update
  rw [List.getElem?_modify]
  split <;> simp

@[simp] theorem get?_update_self (st : Store α) (r : Nat) (f : α → α) :
    (st.update r f).get? r = (st.get? r).map f := by
  simp [get?_update]

/-- Mutating an object leaves the others as they are. -/
theorem get?_update_ne (st : Store α) {r k : Nat} (h : r ≠ k) (f : α → α) :
    (st.update r f).get? k = st.get? k := by
  rw [get?_update, if_neg h]

/-- An object that is mutated right after its creation. -/
theorem update_alloc_size (st : Store α) (a : α) (f : α → α) :
    (st.alloc a).update st.size f = st.alloc (f a) := by
  obtain ⟨objects⟩ := st
  simp only [alloc, update, size, mk.injEq]
  induction objects with
  | nil => rfl
  | cons b objects ih => simp [ih]

/-- An object of the store after a mutation, by the object it was before. -/
theorem get?_update_eq_some {st : Store α} {r k : Nat} {f : α → α} {b : α} :
    (st.update r f).get? k = some b ↔
      ∃ a, st.get? k = some a ∧ b = if r = k then f a else a := by
  rw [get?_update]
  cases st.get? k with
  | none => simp
  | some a => by_cases hrk : r = k <;> simp [hrk, eq_comm]

/-- Where the object put in has every property of `P` the old one had, so has every object. -/
theorem exists_update {st : Store α} {P : α → Prop} {r k : Nat} {a b : α}
    (ha : st.get? r = some a) (hP : P a → P b) (h : ∃ c, st.get? k = some c ∧ P c) :
    ∃ c, (st.update r fun _ => b).get? k = some c ∧ P c := by
  obtain ⟨c, hc, hPc⟩ := h
  by_cases hrk : r = k
  · subst hrk
    rw [ha] at hc
    cases hc
    exact ⟨b, by rw [get?_update_self, ha]; rfl, hP hPc⟩
  · exact ⟨c, by rw [get?_update_ne _ hrk, hc], hPc⟩

/-- Creating an object keeps what the others have. -/
theorem exists_alloc {st : Store α} {P : α → Prop} {k : Nat} (a : α)
    (h : ∃ c, st.get? k = some c ∧ P c) : ∃ c, (st.alloc a).get? k = some c ∧ P c := by
  obtain ⟨c, hc, hPc⟩ := h
  exact ⟨c, get?_alloc_of_some hc a, hPc⟩

/-! ### Counting objects -/

@[simp] theorem countP_empty (p : α → Bool) : (empty : Store α).countP p = 0 := rfl

theorem countP_alloc (st : Store α) (p : α → Bool) (a : α) :
    (st.alloc a).countP p = st.countP p + if p a then 1 else 0 := by
  simp [countP, alloc, List.countP_singleton]

/-- Mutating one object moves the count by what that object contributes before and after. -/
theorem countP_update {st : Store α} {r : Nat} {a : α} (h : st.get? r = some a)
    (p : α → Bool) (f : α → α) :
    (st.update r f).countP p + (if p a then 1 else 0) =
      st.countP p + if p (f a) then 1 else 0 := by
  obtain ⟨objects⟩ := st
  simp only [get?, countP, update] at h ⊢
  induction objects generalizing r with
  | nil => simp at h
  | cons b bs ih =>
    cases r with
    | zero =>
      simp only [List.getElem?_cons_zero, Option.some.injEq] at h
      subst h
      -- The object mutated is the first one.
      simp only [List.modify_zero_cons, List.countP_cons]
      omega
    | succ r =>
      simp only [List.getElem?_cons_succ] at h
      have := ih h
      simp only [List.modify_succ_cons, List.countP_cons]
      omega

theorem countP_mono (st : Store α) {p q : α → Bool} (h : ∀ a, p a → q a) :
    st.countP p ≤ st.countP q :=
  List.countP_mono_left fun a _ => h a

theorem countP_eq_zero {st : Store α} {p : α → Bool}
    (h : ∀ r a, st.get? r = some a → p a = false) : st.countP p = 0 := by
  refine List.countP_eq_zero.mpr fun a ha => ?_
  obtain ⟨r, hr⟩ := List.mem_iff_getElem?.mp ha
  simp [h r a hr]

end Store
