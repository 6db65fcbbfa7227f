import ApmAgent.DistributedTracing.Tracestate

/-! # The characters of a `tracestate` key

  A key may have a blank next to a tab. `ValidateKey` looks at the character
  before a blank and at the one behind it, but at the latter only if one more
  character follows.

  * `validatesKeyText_iff`: the keys that are rejected for that reason.
-/

namespace ApmAgent

namespace TraceContext

/-- A digit, a lowercase letter, `_`, `-`, `*`, `/` or a tab. -/
def AllowedInKey (c : Char) : Prop :=
  ('0' ≤ c ∧ c ≤ '9') ∨ ('a' ≤ c ∧ c ≤ 'z') ∨ c ∈ ['_', '-', '*', '/', '\t']

instance (c : Char) : Decidable (AllowedInKey c) := inferInstanceAs (Decidable (_ ∨ _))

/-- Every character is one that is allowed everywhere, or a blank that has a tab immediately
    before or behind it. -/
def IsKeyText (str : List Char) : Prop :=
  ∀ i c, str[i]? = some c → AllowedInKey c ∨
    (c = ' ' ∧ ((0 < i ∧ str[i - 1]? = some '\t') ∨ str[i + 1]? = some '\t'))

/-- `ValidateKey` accepts the string exactly when it should. -/
def ValidatesKeyText (str : List Char) : Prop :=
  validateKeyByIndex str = .ok true ↔ IsKeyText str

theorem isKeyChar_iff {c : Char} : isKeyChar c = true ↔ AllowedInKey c := by
  simp only [isKeyChar, AllowedInKey, Bool.or_eq_true, Bool.and_eq_true, decide_eq_true_eq,
    List.mem_cons, List.not_mem_nil, or_false, or_assoc]

/-- What `ValidateKey` accepts: a tab behind a blank does not count at the end. -/
theorem validateKey_iff (str : List Char) :
    validateKey str = true ↔
      ∀ i c, str[i]? = some c → AllowedInKey c ∨
        (c = ' ' ∧ ((0 < i ∧ str[i - 1]? = some '\t') ∨
          (i + 2 < str.length ∧ str[i + 1]? = some '\t'))) := by
  have hchars : validateKey str = str.zipIdx.all fun ci =>
      isKeyChar ci.1 || isBlankNextToTab str ci.2 ci.1 := rfl
  rw [hchars, List.all_eq_true]
  constructor
  · intro h i c hc
    have hci := h (c, i) (List.mk_mem_zipIdx_iff_getElem?.mpr hc)
    simpa [isBlankNextToTab, isKeyChar_iff] using hci
  · intro h ci hci
    have hchar := h ci.2 ci.1 (List.mem_zipIdx_iff_getElem?.mp hci)
    simpa [isBlankNextToTab, isKeyChar_iff] using hchar

theorem IsKeyText.of_validateKey {str : List Char} (h : validateKey str = true) :
    IsKeyText str := by
  intro i c hc
  obtain hchar | ⟨hblank, htab⟩ := (validateKey_iff str).mp h i c hc
  · exact .inl hchar
  · exact .inr ⟨hblank, htab.imp_right And.right⟩

/-- In front of a blank a key text ends like one. -/
theorem isKeyText_append_blank {str rest : List Char} :
    IsKeyText (str ++ ' ' :: rest) → IsKeyText str := by
  intro h i c hc
  have hi := (List.getElem?_eq_some_iff.mp hc).1
  have hc' : (str ++ ' ' :: rest)[i]? = some c := by
    rw [List.getElem?_append_left hi]
    exact hc
  obtain hchar | ⟨hblank, hbefore | hbehind⟩ := h i c hc'
  · exact .inl hchar
  · rw [List.getElem?_append_left (by omega)] at hbefore
    exact .inr ⟨hblank, .inl hbefore⟩
  · by_cases hlast : i + 1 < str.length
    · rw [List.getElem?_append_left hlast] at hbehind
      exact .inr ⟨hblank, .inr hbehind⟩
    · -- What is behind the last character is the blank, which is no tab.
      rw [show i + 1 = str.length by omega, List.getElem?_append_right (Nat.le_refl _),
        Nat.sub_self] at hbehind
      cases hbehind

theorem isKeyText_append_blank_tab {str : List Char} (h : IsKeyText str) :
    IsKeyText (str ++ [' ', '\t']) := by
  intro i c hc
  by_cases hi : i < str.length
  · rw [List.getElem?_append_left hi] at hc
    obtain hchar | ⟨hblank, hbefore | hbehind⟩ := h i c hc
    · exact .inl hchar
    · refine .inr ⟨hblank, .inl ⟨hbefore.1, ?_⟩⟩
      rw [List.getElem?_append_left (by omega)]
      exact hbefore.2
    · have hnext := (List.getElem?_eq_some_iff.mp hbehind).1
      refine .inr ⟨hblank, .inr ?_⟩
      rw [List.getElem?_append_left hnext]
      exact hbehind
  · obtain ⟨k, rfl⟩ := Nat.exists_eq_add_of_le (Nat.not_lt.mp hi)
    rw [List.getElem?_append_right (Nat.le_add_right _ _), Nat.add_sub_cancel_left] at hc
    match k with
    | 0 =>
      cases hc
      refine .inr ⟨rfl, .inr ?_⟩
      rw [List.getElem?_append_right (by omega), show str.length + 0 + 1 - str.length = 1 by omega]
      rfl
    | 1 =>
      cases hc
      exact .inl (by decide)
    | k + 2 => cases hc

/-- The blank of a key text that is not accepted stands before the tab that ends it. -/
theorem exists_blank_tab {str : List Char} (h : IsKeyText str)
    (hrejected : validateKey str = false) :
    ∃ front, str = front ++ [' ', '\t'] ∧ front.getLast? ≠ some '\t' := by
  have hnot : ¬validateKey str = true := by
    rw [hrejected]
    exact Bool.false_ne_true
  rw [validateKey_iff] at hnot
  push Not at hnot
  obtain ⟨i, c, hc, hchar, hblank⟩ := hnot
  obtain hallowed | ⟨rfl, htab⟩ := h i c hc
  · exact absurd hallowed hchar
  · obtain ⟨hbefore, hbehind⟩ := hblank rfl
    have htab' : str[i + 1]? = some '\t' :=
      htab.resolve_left fun hbefore' => hbefore hbefore'.1 hbefore'.2
    have hlength := (List.getElem?_eq_some_iff.mp htab').1
    have hend : str.length = i + 2 := by
      by_contra hne
      exact hbehind (by omega) htab'
    have hdrop : str.drop i = [' ', '\t'] := by
      rw [List.drop_eq_getElem?_toList_append, hc, List.drop_eq_getElem?_toList_append, htab',
        List.drop_eq_nil_of_le (by omega)]
      rfl
    refine ⟨str.take i, ?_, ?_⟩
    · rw [← hdrop, List.take_append_drop]
    · intro hlast
      rw [List.getLast?_eq_getElem?, List.length_take, Nat.min_eq_left (by omega)] at hlast
      have hi : 0 < i := by
        by_contra hzero
        rw [show i = 0 by omega, List.take_zero] at hlast
        cases hlast
      rw [List.getElem?_take_of_lt (by omega)] at hlast
      exact hbefore hi hlast

/-- A key is accepted when it should be unless it is a key text followed by a blank and a tab,
    and the blank has no tab before it. -/
theorem validatesKeyText_iff (str : List Char) :
    ValidatesKeyText str ↔
      ∀ front, str = front ++ [' ', '\t'] → IsKeyText front → front.getLast? = some '\t' := by
  unfold ValidatesKeyText
  rw [validateKeyByIndex_eq, Except.ok.injEq]
  constructor
  · rintro h front rfl hfront
    have haccepted := h.mpr (isKeyText_append_blank_tab hfront)
    have hblank : (front ++ [' ', '\t'])[front.length]? = some ' ' := by
      rw [List.getElem?_append_right (Nat.le_refl _), Nat.sub_self]
      rfl
    obtain hchar | ⟨-, ⟨hpos, hbefore⟩ | ⟨hbehind, -⟩⟩ :=
      (validateKey_iff _).mp haccepted _ _ hblank
    · exact absurd hchar (by decide)
    · rw [List.getElem?_append_left (by omega)] at hbefore
      rw [List.getLast?_eq_getElem?]
      exact hbefore
    · rw [List.length_append] at hbehind
      exact absurd hbehind (by simp)
  · intro h
    refine ⟨.of_validateKey, fun htext => ?_⟩
    by_contra hrejected
    obtain ⟨front, rfl, hlast⟩ := exists_blank_tab htext (Bool.eq_false_iff.mpr hrejected)
    exact hlast (h front rfl (isKeyText_append_blank htext))

/-- A blank and a tab. -/
theorem validatesKeyText_counterexample : ¬ValidatesKeyText [' ', '\t'] := by
  intro h
  have htext : IsKeyText [' ', '\t'] := @isKeyText_append_blank_tab [] nofun
  have haccepted := h.mpr htext
  rw [validateKeyByIndex_eq] at haccepted
  revert haccepted
  decide

end TraceContext

end ApmAgent
