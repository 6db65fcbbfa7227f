import Mathlib.Data.List.Lex
import Mathlib.Data.Prod.Lex
import Mathlib.Data.Sum.Order
import Mathlib.Order.Compare
import Mathlib.Order.WithBot

/-! # Comparing by keys

  A comparison that goes through the parts of two values one after the other is
  the comparison of their keys in a linear order: pairs and lists are ordered
  lexicographically, a sum has its left side below its right one, and a value
  may be missing at the top.

  The lemmas on `ordering` say what the comparison does in these orders.
  `ComparesBy` gives the laws of a comparison by keys.
-/

universe u v w

namespace Comparing

/-- How two keys are ordered. -/
def ordering {κ : Type w} [LinearOrder κ] (a b : κ) : Ordering := cmp a b

section

variable {κ : Type w} [LinearOrder κ] {a b : κ}

theorem ordering_eq_lt_iff : ordering a b = .lt ↔ a < b := cmp_eq_lt_iff a b

theorem ordering_eq_gt_iff : ordering a b = .gt ↔ b < a := cmp_eq_gt_iff a b

theorem ordering_eq_eq_iff : ordering a b = .eq ↔ a = b := cmp_eq_eq_iff a b

@[simp] theorem ordering_self (a : κ) : ordering a a = .eq := cmp_self_eq_eq a

theorem ordering_swap (a b : κ) : (ordering a b).swap = ordering b a := cmp_swap a b

/-- Keys are ordered by two criteria, the second one deciding where the first one does not. -/
theorem ordering_eq_then {α : Type u} {β : Type v} [LinearOrder α] [LinearOrder β] {x y : α}
    {x' y' : β} (hlt : x < y → a < b) (hgt : y < x → b < a) (hlt' : x = y → x' < y' → a < b)
    (hgt' : x = y → y' < x' → b < a) (heq : x = y → x' = y' → a = b) :
    ordering a b = (ordering x y).then (ordering x' y') := by
  rcases lt_trichotomy x y with h | h | h
  · rw [ordering_eq_lt_iff.mpr h]
    exact ordering_eq_lt_iff.mpr (hlt h)
  · rw [ordering_eq_eq_iff.mpr h, Ordering.eq_then]
    rcases lt_trichotomy x' y' with h' | h' | h'
    · rw [ordering_eq_lt_iff.mpr h', ordering_eq_lt_iff]
      exact hlt' h h'
    · rw [ordering_eq_eq_iff.mpr h', ordering_eq_eq_iff]
      exact heq h h'
    · rw [ordering_eq_gt_iff.mpr h', ordering_eq_gt_iff]
      exact hgt' h h'
  · rw [ordering_eq_gt_iff.mpr h]
    exact ordering_eq_gt_iff.mpr (hgt h)

end

/-! ### The orders of keys -/

section

variable {α : Type u} {β : Type v} [LinearOrder α] [LinearOrder β]

theorem ordering_pair (a a' : α) (b b' : β) :
    ordering (toLex (a, b)) (toLex (a', b')) = (ordering a a').then (ordering b b') := by
  apply ordering_eq_then
  · exact fun h => Prod.Lex.toLex_lt_toLex.mpr (.inl h)
  · exact fun h => Prod.Lex.toLex_lt_toLex.mpr (.inl h)
  · exact fun h h' => Prod.Lex.toLex_lt_toLex.mpr (.inr ⟨h, h'⟩)
  · exact fun h h' => Prod.Lex.toLex_lt_toLex.mpr (.inr ⟨h.symm, h'⟩)
  · rintro rfl rfl
    rfl

theorem ordering_cons (a b : α) (as bs : List α) :
    ordering (a :: as) (b :: bs) = (ordering a b).then (ordering as bs) := by
  apply ordering_eq_then
  · exact fun h => List.cons_lt_cons_iff.mpr (.inl h)
  · exact fun h => List.cons_lt_cons_iff.mpr (.inl h)
  · exact fun h h' => List.cons_lt_cons_iff.mpr (.inr ⟨h, h'⟩)
  · exact fun h h' => List.cons_lt_cons_iff.mpr (.inr ⟨h.symm, h'⟩)
  · rintro rfl rfl
    rfl

theorem ordering_nil_cons (a : α) (as : List α) : ordering [] (a :: as) = .lt :=
  ordering_eq_lt_iff.mpr (List.nil_lt_cons a as)

theorem ordering_cons_nil (a : α) (as : List α) : ordering (a :: as) [] = .gt :=
  ordering_eq_gt_iff.mpr (List.nil_lt_cons a as)

theorem ordering_inl (a a' : α) :
    ordering (Sum.inlₗ a : α ⊕ₗ β) (Sum.inlₗ a') = ordering a a' := by
  simp only [ordering, cmp, cmpUsing, Sum.Lex.inl_lt_inl_iff]

theorem ordering_inr (b b' : β) :
    ordering (Sum.inrₗ b : α ⊕ₗ β) (Sum.inrₗ b') = ordering b b' := by
  simp only [ordering, cmp, cmpUsing, Sum.Lex.inr_lt_inr_iff]

theorem ordering_inl_inr (a : α) (b : β) :
    ordering (Sum.inlₗ a : α ⊕ₗ β) (Sum.inrₗ b) = .lt :=
  ordering_eq_lt_iff.mpr (Sum.Lex.inl_lt_inr a b)

theorem ordering_inr_inl (a : α) (b : β) :
    ordering (Sum.inrₗ b : α ⊕ₗ β) (Sum.inlₗ a) = .gt :=
  ordering_eq_gt_iff.mpr (Sum.Lex.inl_lt_inr a b)

theorem ordering_coe (a a' : α) : ordering (a : WithTop α) a' = ordering a a' := by
  simp only [ordering, cmp, cmpUsing, WithTop.coe_lt_coe]

theorem ordering_coe_top (a : α) : ordering (a : WithTop α) ⊤ = .lt :=
  ordering_eq_lt_iff.mpr (WithTop.coe_lt_top a)

theorem ordering_top_coe (a : α) : ordering ⊤ (a : WithTop α) = .gt :=
  ordering_eq_gt_iff.mpr (WithTop.coe_lt_top a)

end

/-! ### The laws -/

section

variable {α : Type u} {κ : Type v} [LinearOrder κ]

/-- The comparison is that of the keys. -/
def ComparesBy (compare : α → α → Ordering) (key : α → κ) : Prop :=
  ∀ a b, compare a b = ordering (key a) (key b)

variable {compare : α → α → Ordering} {key : α → κ}

theorem ComparesBy.refl (h : ComparesBy compare key) (a : α) : compare a a = .eq := by
  rw [h, ordering_self]

theorem ComparesBy.swap (h : ComparesBy compare key) (a b : α) :
    (compare a b).swap = compare b a := by
  rw [h, h, ordering_swap]

theorem ComparesBy.eq_iff (h : ComparesBy compare key) (a b : α) :
    compare a b = .eq ↔ key a = key b := by
  rw [h, ordering_eq_eq_iff]

theorem ComparesBy.ne_gt_iff (h : ComparesBy compare key) (a b : α) :
    compare a b ≠ .gt ↔ key a ≤ key b := by
  rw [h, Ne, ordering_eq_gt_iff, not_lt]

theorem ComparesBy.trans (h : ComparesBy compare key) {a b c : α} (hab : compare a b ≠ .gt)
    (hbc : compare b c ≠ .gt) : compare a c ≠ .gt := by
  rw [h.ne_gt_iff] at hab hbc ⊢
  exact le_trans hab hbc

end

end Comparing
