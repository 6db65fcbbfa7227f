import ApmAgent.Framework.Store

/-! # Object graphs

  Mutable objects that refer to each other. `members` gives the references an
  object holds. A set of references is *closed* when the objects it names
  refer to nothing outside it.

  * Whoever starts inside a closed set and follows references stays inside
    (`Closed.reaches`);
  * what is outside of a region is closed as long as nobody stores a reference
    into the region outside of it (`Closed.alloc`, `Closed.assign`).
-/

namespace ObjectGraph

universe u

variable {α : Type u} (members : α → List Nat)

/-- `r` is found by following references from `root`. -/
inductive Reaches (st : Store α) (root : Nat) : Nat → Prop where
  | root : Reaches st root root
  | member {r k : Nat} {a : α} (hr : Reaches st root r) (ha : st.get? r = some a)
      (hk : k ∈ members a) : Reaches st root k

/-- The objects named by `P` refer to nothing outside `P`. -/
def Closed (P : Nat → Prop) (st : Store α) : Prop :=
  ∀ r a, P r → st.get? r = some a → ∀ k ∈ members a, P k

variable {members} {st : Store α} {P : Nat → Prop}

theorem Closed.reaches (h : Closed members P st) {root r : Nat} (hroot : P root)
    (hr : Reaches members st root r) : P r := by
  -- On the references that were followed, one by one.
  induction hr with
  | root => exact hroot
  | member _ ha hk ih => exact h _ _ ih ha _ hk

/-- A new object may be inside if what it refers to is. -/
theorem Closed.alloc (h : Closed members P st) {a : α}
    (ha : P st.size → ∀ k ∈ members a, P k) : Closed members P (st.alloc a) := by
  intro r b hr hb
  rw [Store.get?_alloc] at hb
  split_ifs at hb with hnew
  · cases hb
    exact ha (hnew ▸ hr)
  · exact h r b hr hb

/-- New members may be assigned to an object inside if they refer inside. -/
theorem Closed.assign (h : Closed members P st) {r : Nat} {a : α}
    (ha : P r → ∀ k ∈ members a, P k) : Closed members P (st.update r fun _ => a) := by
  intro k b hk hb
  obtain ⟨b', hb', rfl⟩ := Store.get?_update_eq_some.mp hb
  split_ifs with heq
  · exact ha (heq ▸ hk)
  · exact h k b' hk hb'

variable (members) in
/-- Every reference names an object. -/
def NoDangling (st : Store α) : Prop :=
  ∀ r a, st.get? r = some a → ∀ k ∈ members a, k < st.size

theorem noDangling_of_forall (h : ∀ a ∈ st.objects, ∀ k ∈ members a, k < st.size) :
    NoDangling members st :=
  fun _ _ ha => h _ (List.mem_of_getElem? ha)

theorem NoDangling.closed (h : NoDangling members st) : Closed members (· < st.size) st :=
  fun r a _ ha => h r a ha

theorem NoDangling.alloc (h : NoDangling members st) {a : α}
    (ha : ∀ k ∈ members a, k < st.size) : NoDangling members (st.alloc a) := by
  intro r b hb k hk
  rw [Store.size_alloc]
  rw [Store.get?_alloc] at hb
  split_ifs at hb
  · cases hb
    exact Nat.lt_succ_of_lt (ha k hk)
  · exact Nat.lt_succ_of_lt (h r b hb k hk)

/-! ### Growing graphs -/

/-- The objects from position `n` on are still what they were. -/
def KeepsFrom (n : Nat) (st st' : Store α) : Prop :=
  ∀ r a, n ≤ r → st.get? r = some a → st'.get? r = some a

theorem KeepsFrom.mono {n m : Nat} (h : n ≤ m) {st st' : Store α} (hk : KeepsFrom n st st') :
    KeepsFrom m st st' :=
  fun r a hr ha => hk r a (Nat.le_trans h hr) ha

theorem KeepsFrom.trans {n : Nat} {st st' st'' : Store α} (h : KeepsFrom n st st')
    (h' : KeepsFrom n st' st'') : KeepsFrom n st st'' :=
  fun r a hr ha => h' r a hr (h r a hr ha)

variable (members) in
/-- `st'` has new objects, which refer to objects in `Q` that were there when they were created;
    the old objects are as they were. -/
inductive Grows (Q : Nat → Prop) (st : Store α) : Store α → Prop where
  | refl : Grows Q st st
  | alloc {st' : Store α} {a : α} (h : Grows Q st st')
      (ha : ∀ k ∈ members a, Q k ∧ k < st'.size) : Grows Q st (st'.alloc a)

namespace Grows

variable {Q R : Nat → Prop} {st' st'' : Store α}

theorem trans (h : Grows members Q st st') (h' : Grows members Q st' st'') :
    Grows members Q st st'' := by
  induction h' with
  | refl => exact h
  | alloc _ ha ih => exact .alloc ih ha

theorem mono (hQR : ∀ k, Q k → R k) (h : Grows members Q st st') : Grows members R st st' := by
  induction h with
  | refl => exact .refl
  | alloc _ ha ih => exact .alloc ih fun k hk => ⟨hQR k (ha k hk).1, (ha k hk).2⟩

theorem keeps (h : Grows members Q st st') : KeepsFrom 0 st st' := by
  induction h with
  | refl => exact fun _ _ _ ha => ha
  | alloc _ _ ih => exact fun r a hr ha => Store.get?_alloc_of_some (ih r a hr ha) _

theorem size_le (h : Grows members Q st st') : st.size ≤ st'.size := by
  induction h with
  | refl => exact Nat.le_refl _
  | alloc _ _ ih =>
    rw [Store.size_alloc]
    exact Nat.le_succ_of_le ih

/-- A closed set that contains what the new objects refer to stays closed. -/
theorem closed (h : Grows members Q st st') (hQ : ∀ k, Q k → P k) (hP : Closed members P st) :
    Closed members P st' := by
  induction h with
  | refl => exact hP
  | alloc _ ha ih => exact ih.alloc fun _ k hk => hQ k (ha k hk).1

theorem noDangling (h : Grows members Q st st') (hst : NoDangling members st) :
    NoDangling members st' := by
  induction h with
  | refl => exact hst
  | alloc _ ha ih => exact ih.alloc fun k hk => (ha k hk).2

/-- The references in use before still name the same objects. -/
theorem get?_eq (h : Grows members Q st st') {r : Nat} (hr : r < st.size) :
    st'.get? r = st.get? r := by
  -- A reference in use names an object, and objects are kept.
  have hget : st.get? r = some st.objects[r] := List.getElem?_eq_getElem hr
  rw [hget, h.keeps r _ (Nat.zero_le r) hget]

end Grows

end ObjectGraph
