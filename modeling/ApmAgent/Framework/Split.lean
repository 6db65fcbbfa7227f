import Mathlib.Data.List.Basic

/-! # Splitting and Joining Lists

  `List.splitOn` cuts a list at a separator, `List.intercalate` puts parts
  together with a separator in between.

  * `sublist_of_mem_splitOn`, `not_mem_of_mem_splitOn`: what the parts are;
  * `splitOn_eq_pair_iff`: the lists with exactly one separator;
  * `intercalate_sublist`: leaving out parts leaves out elements of the whole;
  * `append_cons_inj_of_not_mem`: what stands in front of the first separator, and behind it;
  * `takeWhile_append_of_head`, `dropWhile_append_of_head`: a list is cut behind the elements that
    satisfy a predicate.
-/

namespace List

universe u

variable {α : Type u}

/-! ### The longest prefix -/

theorem forall_mem_head?_cons {P : α → Prop} {a : α} {rest : List α} :
    (∀ b ∈ (a :: rest).head?, P b) ↔ P a := by
  simp

/-- The prefix ends where an element does not satisfy the predicate. -/
theorem takeWhile_append_of_head {p : α → Bool} {front rest : List α}
    (hfront : ∀ a ∈ front, p a = true) (hrest : ∀ a ∈ rest.head?, p a = false) :
    (front ++ rest).takeWhile p = front := by
  rw [takeWhile_append_of_pos hfront]
  cases rest with
  | nil => rw [takeWhile_nil, append_nil]
  | cons a rest => rw [takeWhile_cons_of_neg (by simp [hrest a rfl]), append_nil]

theorem dropWhile_append_of_head {p : α → Bool} {front rest : List α}
    (hfront : ∀ a ∈ front, p a = true) (hrest : ∀ a ∈ rest.head?, p a = false) :
    (front ++ rest).dropWhile p = rest := by
  rw [dropWhile_append_of_pos hfront]
  cases rest with
  | nil => rfl
  | cons a rest => exact dropWhile_cons_of_neg (by simp [hrest a rfl])

/-! ### The first separator -/

/-- A list is cut at its first separator in one way. -/
theorem append_cons_inj_of_not_mem {sep : α} {front front' rest rest' : List α}
    (h : sep ∉ front) (h' : sep ∉ front') :
    front ++ sep :: rest = front' ++ sep :: rest' ↔ front = front' ∧ rest = rest' := by
  classical
  constructor
  · intro heq
    have hparts := congrArg (splitOn sep) heq
    rw [splitOn_append_cons_self_of_not_mem h, splitOn_append_cons_self_of_not_mem h'] at hparts
    obtain rfl := (cons.inj hparts).1
    exact ⟨rfl, (cons.inj (append_cancel_left heq)).2⟩
  · rintro ⟨rfl, rfl⟩
    rfl

/-! ### Parts -/

/-- A part is some of the elements of the whole. -/
theorem sublist_intercalate_of_mem (sep : List α) {part : List α} {parts : List (List α)}
    (h : part ∈ parts) : part.Sublist (sep.intercalate parts) := by
  induction parts with
  | nil => cases h
  | cons first parts ih =>
    obtain rfl | h := mem_cons.mp h
    · cases parts with
      | nil => rw [intercalate_singleton]
      | cons second parts =>
        rw [intercalate_cons_cons, append_assoc]
        exact sublist_append_left _ _
    · rw [intercalate_cons_of_ne_nil (ne_nil_of_mem h)]
      exact (ih h).trans (sublist_append_right _ _)

/-- Leaving out parts leaves out elements of the whole. -/
theorem intercalate_sublist (sep : List α) {parts parts' : List (List α)}
    (h : parts.Sublist parts') : (sep.intercalate parts).Sublist (sep.intercalate parts') := by
  induction h with
  | slnil => exact Sublist.refl _
  | @cons parts parts' first h ih =>
    by_cases hnil : parts' = []
    · rw [hnil, sublist_nil] at h
      rw [h]
      exact nil_sublist _
    · rw [intercalate_cons_of_ne_nil hnil]
      exact ih.trans (sublist_append_right _ _)
  | @cons_cons parts parts' first h ih =>
    by_cases hnil : parts' = []
    · rw [hnil, sublist_nil] at h
      rw [h, hnil]
    · rw [intercalate_cons_of_ne_nil hnil]
      by_cases hnil' : parts = []
      · rw [hnil', intercalate_singleton, append_assoc]
        exact sublist_append_left _ _
      · rw [intercalate_cons_of_ne_nil hnil']
        exact ih.append_left _

variable [BEq α] [LawfulBEq α] {a : α} {l : List α}

theorem sublist_of_mem_splitOn {part : List α} (h : part ∈ l.splitOn a) : part.Sublist l := by
  have hpart := sublist_intercalate_of_mem [a] h
  rw [intercalate_splitOn] at hpart
  exact hpart

/-- The parts are free of the separator. -/
theorem not_mem_of_mem_splitOn {part : List α} (h : part ∈ l.splitOn a) : a ∉ part := by
  induction l generalizing part with
  | nil =>
    rw [splitOn_nil, mem_singleton] at h
    rw [h]
    exact not_mem_nil
  | cons b l ih =>
    rw [splitOn_cons_eq_if_modifyHead] at h
    split at h
    · obtain rfl | h := mem_cons.mp h
      · exact not_mem_nil
      · exact ih h
    · next hne =>
      obtain ⟨first, parts, hparts⟩ := exists_cons_of_ne_nil (splitOn_ne_nil a l)
      rw [hparts] at ih
      rw [hparts, modifyHead_cons] at h
      obtain rfl | h := mem_cons.mp h
      · rw [mem_cons, not_or]
        refine ⟨?_, ih mem_cons_self⟩
        rintro rfl
        exact hne (BEq.refl _)
      · exact ih (mem_cons_of_mem _ h)

/-- Two parts are what is before and behind a single separator. -/
theorem splitOn_eq_pair_iff {x y : List α} :
    l.splitOn a = [x, y] ↔ l = x ++ a :: y ∧ a ∉ x ∧ a ∉ y := by
  constructor
  · intro h
    refine ⟨?_, not_mem_of_mem_splitOn (by rw [h]; exact mem_cons_self),
      not_mem_of_mem_splitOn (by rw [h]; exact mem_cons_of_mem _ mem_cons_self)⟩
    have hjoin : [a].intercalate (l.splitOn a) = l := intercalate_splitOn a
    rw [h, intercalate_cons_cons, intercalate_singleton] at hjoin
    rw [← hjoin, append_assoc]
    rfl
  · rintro ⟨rfl, hx, hy⟩
    rw [splitOn_append_cons_self_of_not_mem hx, splitOn_eq_singleton hy]

end List
