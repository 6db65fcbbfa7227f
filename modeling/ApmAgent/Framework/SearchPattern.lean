import Mathlib.Data.List.Basic
import Mathlib.Data.List.Flatten

/-! # Search patterns

  A search pattern is a list of elements, each of which takes one symbol of a
  set, or any number of symbols of a set. `Matches` says that a pattern takes a
  whole text, `Occurs` that it takes a part of one. `occurs` decides the
  latter.

  The symbols that a pattern has to take are counted by `ones`. A text that has
  no more symbols than that is taken symbol by symbol.
-/

universe u

namespace SearchPattern

variable {α : Type u}

/-- An element of a pattern. -/
inductive Element (α : Type u) where
  /-- One symbol of the set. -/
  | one (p : α → Bool)
  /-- Any number of symbols of the set. -/
  | many (p : α → Bool)

/-- The elements take the text, one after the other. -/
inductive Matches : List (Element α) → List α → Prop where
  | nil : Matches [] []
  | one {p : α → Bool} {a : α} {es : List (Element α)} {s : List α} (ha : p a = true)
      (hrest : Matches es s) : Matches (.one p :: es) (a :: s)
  | done {p : α → Bool} {es : List (Element α)} {s : List α} (hrest : Matches es s) :
      Matches (.many p :: es) s
  | more {p : α → Bool} {a : α} {es : List (Element α)} {s : List α} (ha : p a = true)
      (hrest : Matches (.many p :: es) s) : Matches (.many p :: es) (a :: s)

/-- The elements take a part of the text. -/
def Occurs (es : List (Element α)) (s : List α) : Prop :=
  ∃ before part after, s = before ++ part ++ after ∧ Matches es part

/-- Does the element take exactly one symbol? -/
def Element.isOne : Element α → Bool
  | .one _ => true
  | .many _ => false

/-- The set of an element. -/
def Element.takes : Element α → α → Bool
  | .one p => p
  | .many p => p

/-- The number of elements that take exactly one symbol. -/
def ones (es : List (Element α)) : Nat := es.countP (·.isOne)

variable {es fs : List (Element α)} {s t : List α} {p : α → Bool} {a : α}

@[simp] theorem ones_nil : ones ([] : List (Element α)) = 0 := rfl

@[simp] theorem ones_cons_one : ones (.one p :: es) = ones es + 1 := by
  simp [ones, Element.isOne]

@[simp] theorem ones_cons_many : ones (.many p :: es) = ones es := by
  simp [ones, Element.isOne]

@[simp] theorem ones_append : ones (es ++ fs) = ones es + ones fs := List.countP_append

/-! ### Taking a text -/

theorem Matches.append (hs : Matches es s) (ht : Matches fs t) :
    Matches (es ++ fs) (s ++ t) := by
  induction hs with
  | nil => exact ht
  | one ha _ ih => exact .one ha ih
  | done _ ih => exact .done ih
  | more ha _ ih => exact .more ha ih

/-- The elements in front take the text in front. -/
theorem Matches.of_append (h : Matches (es ++ fs) s) :
    ∃ u v, s = u ++ v ∧ Matches es u ∧ Matches fs v := by
  generalize hgs : es ++ fs = gs at h
  induction h generalizing es with
  | nil =>
    obtain ⟨rfl, rfl⟩ := List.append_eq_nil_iff.mp hgs
    exact ⟨[], [], rfl, .nil, .nil⟩
  | one ha hrest ih =>
    cases es with
    | nil =>
      subst hgs
      exact ⟨[], _, rfl, .nil, .one ha hrest⟩
    | cons e es =>
      cases hgs
      obtain ⟨u, v, rfl, hu, hv⟩ := ih rfl
      exact ⟨_ :: u, v, rfl, .one ha hu, hv⟩
  | done hrest ih =>
    cases es with
    | nil =>
      subst hgs
      exact ⟨[], _, rfl, .nil, .done hrest⟩
    | cons e es =>
      cases hgs
      obtain ⟨u, v, rfl, hu, hv⟩ := ih rfl
      exact ⟨u, v, rfl, .done hu, hv⟩
  | more ha hrest ih =>
    cases es with
    | nil =>
      subst hgs
      exact ⟨[], _, rfl, .nil, .more ha hrest⟩
    | cons e es =>
      cases hgs
      obtain ⟨u, v, rfl, hu, hv⟩ := @ih (_ :: es) rfl
      exact ⟨_ :: u, v, rfl, .more ha hu, hv⟩

theorem Matches.ones_le (h : Matches es s) : ones es ≤ s.length := by
  induction h with
  | nil => exact Nat.le_refl 0
  | one _ _ ih =>
    rw [ones_cons_one, List.length_cons]
    exact Nat.succ_le_succ ih
  | done _ ih =>
    rw [ones_cons_many]
    exact ih
  | more _ _ ih => exact Nat.le_succ_of_le ih

theorem matches_cons_one : Matches (.one p :: es) s ↔ ∃ a t, s = a :: t ∧ p a = true ∧
    Matches es t := by
  constructor
  · intro h
    cases h with
    | one ha hrest => exact ⟨_, _, rfl, ha, hrest⟩
  · rintro ⟨a, t, rfl, ha, hrest⟩
    exact .one ha hrest

/-- A symbol that no element takes is in no text that they take. -/
theorem Matches.not_mem (h : Matches es s) (hnot : ∀ e ∈ es, e.takes a = false) : a ∉ s := by
  induction h with
  | nil => exact List.not_mem_nil
  | one hb _ ih =>
    rw [List.mem_cons, not_or]
    constructor
    · rintro rfl
      exact Bool.false_ne_true ((hnot _ List.mem_cons_self).symm.trans hb)
    · exact ih fun e he => hnot e (List.mem_cons_of_mem _ he)
  | done _ ih => exact ih fun e he => hnot e (List.mem_cons_of_mem _ he)
  | more hb _ ih =>
    rw [List.mem_cons, not_or]
    constructor
    · rintro rfl
      exact Bool.false_ne_true ((hnot _ List.mem_cons_self).symm.trans hb)
    · exact ih hnot

/-- Elements for any number of symbols may take none. -/
theorem matches_nil_of_ones (h : ∀ e ∈ es, e.isOne = false) : Matches es [] := by
  induction es with
  | nil => exact .nil
  | cons e es ih =>
    have hrest := ih fun e' he' => h e' (List.mem_cons_of_mem _ he')
    cases e with
    | one p => exact absurd (h _ List.mem_cons_self) (by simp [Element.isOne])
    | many p => exact .done hrest

theorem length_flatMap_le {β : Type*} {items : List β} {els : β → List (Element α)}
    {text : β → List α} (h : ∀ b ∈ items, (text b).length ≤ ones (els b)) :
    (items.flatMap text).length ≤ ones (items.flatMap els) := by
  induction items with
  | nil => exact Nat.le_refl 0
  | cons b items ih =>
    rw [List.flatMap_cons, List.flatMap_cons, List.length_append, ones_append]
    exact Nat.add_le_add (h b List.mem_cons_self)
      (ih fun b' hb' => h b' (List.mem_cons_of_mem _ hb'))

/-- Texts that the elements of each item of a list take, one after the other. -/
theorem Matches.flatMap {β : Type*} {items : List β} {els : β → List (Element α)}
    {text : β → List α} (h : ∀ b ∈ items, Matches (els b) (text b)) :
    Matches (items.flatMap els) (items.flatMap text) := by
  induction items with
  | nil => exact .nil
  | cons b items ih =>
    rw [List.flatMap_cons, List.flatMap_cons]
    exact (h b List.mem_cons_self).append (ih fun b' hb' => h b' (List.mem_cons_of_mem _ hb'))

/-- If none of the texts is longer than it has to be, there is no other way to take them. -/
theorem Matches.of_flatMap {β : Type*} {items : List β} {els : β → List (Element α)}
    {text : β → List α} (hlength : ∀ b ∈ items, (text b).length ≤ ones (els b))
    (h : Matches (items.flatMap els) (items.flatMap text)) :
    ∀ b ∈ items, Matches (els b) (text b) := by
  induction items with
  | nil => exact List.forall_mem_nil _
  | cons b items ih =>
    rw [List.flatMap_cons, List.flatMap_cons] at h
    obtain ⟨u, v, huv, hu, hv⟩ := h.of_append
    have hrest : (items.flatMap text).length ≤ ones (items.flatMap els) :=
      length_flatMap_le fun b' hb' => hlength b' (List.mem_cons_of_mem _ hb')
    have hle := hlength b List.mem_cons_self
    have hule := hu.ones_le
    have hvle := hv.ones_le
    have hsum := congrArg List.length huv
    rw [List.length_append, List.length_append] at hsum
    obtain ⟨rfl, rfl⟩ := List.append_inj huv (by omega)
    rw [List.forall_mem_cons]
    exact ⟨hu, ih (fun b' hb' => hlength b' (List.mem_cons_of_mem _ hb')) hv⟩

/-- An element for any number of any symbols takes every text. -/
theorem matches_many_true {n : Nat} (s : List α) :
    Matches (List.replicate (n + 1) (.many fun _ => true)) s := by
  have hnone : Matches (List.replicate n (.many fun _ : α => true)) [] :=
    matches_nil_of_ones fun e he => by rw [List.eq_of_mem_replicate he]; rfl
  induction s with
  | nil => exact .done hnone
  | cons a s ih => exact .more rfl ih

/-! ### Taking a part of a text -/

theorem Matches.occurs (h : Matches es s) : Occurs es s := ⟨[], s, [], by simp, h⟩

/-- What occurs in a text occurs in every longer one. -/
theorem Occurs.extend (h : Occurs es s) (before after : List α) :
    Occurs es (before ++ s ++ after) := by
  obtain ⟨u, part, v, rfl, hpart⟩ := h
  exact ⟨before ++ u, part, v ++ after, by simp only [List.append_assoc], hpart⟩

theorem Occurs.ones_le (h : Occurs es s) : ones es ≤ s.length := by
  obtain ⟨u, part, v, rfl, hpart⟩ := h
  have := hpart.ones_le
  simp only [List.length_append]
  omega

/-- A part of a text that is just long enough is the whole text. -/
theorem Occurs.matches (h : Occurs es s) (hlength : s.length ≤ ones es) : Matches es s := by
  obtain ⟨u, part, v, rfl, hpart⟩ := h
  have hle := hpart.ones_le
  simp only [List.length_append] at hlength
  have hu : u = [] := List.length_eq_zero_iff.mp (by omega)
  have hv : v = [] := List.length_eq_zero_iff.mp (by omega)
  subst hu hv
  simpa using hpart

/-- Elements at the ends that may take nothing make no difference. -/
theorem occurs_append_iff {front back : List (Element α)} (hfront : ∀ e ∈ front, e.isOne = false)
    (hback : ∀ e ∈ back, e.isOne = false) : Occurs (front ++ es ++ back) s ↔ Occurs es s := by
  constructor
  · rintro ⟨u, part, v, rfl, hpart⟩
    obtain ⟨x, y, rfl, hx, -⟩ := hpart.of_append
    obtain ⟨w, z, rfl, -, hz⟩ := hx.of_append
    exact ⟨u ++ w, z, y ++ v, by simp only [List.append_assoc], hz⟩
  · rintro ⟨u, part, v, rfl, hpart⟩
    have hmatches := ((matches_nil_of_ones hfront).append hpart).append (matches_nil_of_ones hback)
    rw [List.nil_append, List.append_nil] at hmatches
    exact ⟨u, part, v, rfl, hmatches⟩

/-- Between elements for any number of any symbols, it is enough to take a part. -/
theorem matches_many_true_iff {m n : Nat} :
    Matches (List.replicate (m + 1) (.many fun _ => true) ++ es ++
      List.replicate (n + 1) (.many fun _ => true)) s ↔ Occurs es s := by
  constructor
  · intro h
    obtain ⟨x, after, rfl, hx, -⟩ := h.of_append
    obtain ⟨before, part, rfl, -, hpart⟩ := hx.of_append
    exact ⟨before, part, after, rfl, hpart⟩
  · rintro ⟨before, part, after, rfl, hpart⟩
    exact ((matches_many_true before).append hpart).append (matches_many_true after)

/-- A symbol that no element takes separates the places where they occur. -/
theorem Occurs.of_separated (h : Occurs es (s ++ a :: t))
    (hseparates : ∀ e ∈ es, e.takes a = false) : Occurs es s ∨ Occurs es t := by
  obtain ⟨u, part, v, heq, hpart⟩ := h
  have hnot := hpart.not_mem hseparates
  rw [List.append_assoc] at heq
  rcases List.append_eq_append_iff.mp heq with ⟨w, -, hw⟩ | ⟨w, hs, hw⟩
  · -- The part begins behind the text in front.
    cases w with
    | nil =>
      cases part with
      | nil => exact .inl ⟨s, [], [], by simp, hpart⟩
      | cons b part =>
        rw [List.nil_append, List.cons_append] at hw
        cases hw
        exact absurd List.mem_cons_self hnot
    | cons b w =>
      rw [List.cons_append, List.cons.injEq] at hw
      exact .inr ⟨w, part, v, by rw [hw.2, List.append_assoc], hpart⟩
  · rcases List.append_eq_append_iff.mp hw with ⟨x, hx, -⟩ | ⟨x, hx, hrest⟩
    · exact .inl ⟨u, part, x, by rw [hs, hx, List.append_assoc], hpart⟩
    · cases x with
      | nil => exact .inl ⟨u, part, [], by simp [hs, hx], hpart⟩
      | cons b x =>
        -- It would contain the separator.
        rw [List.cons_append, List.cons.injEq] at hrest
        refine absurd ?_ hnot
        rw [hx, hrest.1]
        exact List.mem_append_right _ List.mem_cons_self

/-! ### Deciding -/

/-- Can symbols of the set be left out at the beginning of the text, such that the rest
    satisfies `f`? -/
def afterMany (p : α → Bool) (f : List α → Bool) : List α → Bool
  | [] => f []
  | a :: s => f (a :: s) || (p a && afterMany p f s)

/-- Do the elements take the beginning of the text? -/
def startsWith : List (Element α) → List α → Bool
  | [], _ => true
  | .one _ :: _, [] => false
  | .one p :: es, a :: s => p a && startsWith es s
  | .many p :: es, s => afterMany p (startsWith es) s

/-- Do the elements take a part of the text? -/
def occurs (es : List (Element α)) : List α → Bool
  | [] => startsWith es []
  | a :: s => startsWith es (a :: s) || occurs es s

theorem afterMany_iff {f : List α → Bool} :
    afterMany p f s = true ↔ ∃ u v, s = u ++ v ∧ (∀ a ∈ u, p a = true) ∧ f v = true := by
  induction s with
  | nil =>
    constructor
    · intro h
      exact ⟨[], [], rfl, by simp, h⟩
    · rintro ⟨u, v, huv, -, hv⟩
      obtain ⟨rfl, rfl⟩ := List.append_eq_nil_iff.mp huv.symm
      exact hv
  | cons a s ih =>
    simp only [afterMany, Bool.or_eq_true, Bool.and_eq_true, ih]
    constructor
    · rintro (h | ⟨ha, u, v, rfl, hu, hv⟩)
      · exact ⟨[], a :: s, rfl, by simp, h⟩
      · exact ⟨a :: u, v, rfl, by simpa using ⟨ha, hu⟩, hv⟩
    · rintro ⟨u, v, huv, hu, hv⟩
      cases u with
      | nil =>
        rw [List.nil_append] at huv
        exact .inl (huv ▸ hv)
      | cons b u =>
        rw [List.cons_append, List.cons.injEq] at huv
        obtain ⟨rfl, rfl⟩ := huv
        exact .inr ⟨hu a List.mem_cons_self, u, v, rfl,
          fun b hb => hu b (List.mem_cons_of_mem _ hb), hv⟩

theorem matches_cons_many : Matches (.many p :: es) s ↔
    ∃ u v, s = u ++ v ∧ (∀ a ∈ u, p a = true) ∧ Matches es v := by
  constructor
  · intro h
    generalize hfs : Element.many p :: es = fs at h
    induction h with
    | nil => cases hfs
    | one => cases hfs
    | done hrest =>
      cases hfs
      exact ⟨[], _, rfl, by simp, hrest⟩
    | more ha _ ih =>
      obtain ⟨u, v, rfl, hu, hv⟩ := ih hfs
      cases hfs
      exact ⟨_ :: u, v, rfl, by simpa using ⟨ha, hu⟩, hv⟩
  · rintro ⟨u, v, rfl, hu, hv⟩
    induction u with
    | nil => exact .done hv
    | cons a u ih =>
      exact .more (hu a List.mem_cons_self) (ih fun b hb => hu b (List.mem_cons_of_mem _ hb))

theorem startsWith_iff : startsWith es s = true ↔ ∃ u v, s = u ++ v ∧ Matches es u := by
  induction es generalizing s with
  | nil => exact iff_of_true rfl ⟨[], s, rfl, .nil⟩
  | cons e es ih =>
    cases e with
    | one p =>
      cases s with
      | nil =>
        refine iff_of_false Bool.false_ne_true ?_
        rintro ⟨u, v, huv, hu⟩
        obtain ⟨rfl, -⟩ := List.append_eq_nil_iff.mp huv.symm
        cases hu
      | cons a s =>
        simp only [startsWith, Bool.and_eq_true, ih, matches_cons_one]
        constructor
        · rintro ⟨ha, u, v, rfl, hu⟩
          exact ⟨a :: u, v, rfl, a, u, rfl, ha, hu⟩
        · rintro ⟨_, v, huv, b, u, rfl, hb, hu⟩
          rw [List.cons_append, List.cons.injEq] at huv
          obtain ⟨rfl, rfl⟩ := huv
          exact ⟨hb, u, v, rfl, hu⟩
    | many p =>
      simp only [startsWith, afterMany_iff, ih, matches_cons_many]
      constructor
      · rintro ⟨u, _, rfl, hu, w, v, rfl, hw⟩
        exact ⟨u ++ w, v, (List.append_assoc u w v).symm, u, w, rfl, hu, hw⟩
      · rintro ⟨_, v, rfl, u, w, rfl, hu, hw⟩
        exact ⟨u, w ++ v, List.append_assoc u w v, hu, w, v, rfl, hw⟩

theorem occurs_iff : occurs es s = true ↔ Occurs es s := by
  induction s with
  | nil =>
    rw [occurs, startsWith_iff]
    constructor
    · rintro ⟨u, v, huv, hu⟩
      exact ⟨[], u, v, huv, hu⟩
    · rintro ⟨u, part, v, huv, hpart⟩
      obtain ⟨hfront, rfl⟩ := List.append_eq_nil_iff.mp huv.symm
      obtain ⟨rfl, rfl⟩ := List.append_eq_nil_iff.mp hfront
      exact ⟨[], [], rfl, hpart⟩
  | cons a s ih =>
    rw [occurs, Bool.or_eq_true, startsWith_iff, ih]
    constructor
    · rintro (⟨u, v, huv, hu⟩ | h)
      · exact ⟨[], u, v, huv, hu⟩
      · have := h.extend [a] []
        simpa using this
    · rintro ⟨u, part, v, huv, hpart⟩
      cases u with
      | nil => exact .inl ⟨part, v, huv, hpart⟩
      | cons b u =>
        rw [List.cons_append, List.cons_append, List.cons.injEq] at huv
        exact .inr ⟨u, part, v, huv.2, hpart⟩

end SearchPattern
