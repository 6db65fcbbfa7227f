import Mathlib.Data.List.Basic

/-! # Replacing a character

  `String.replace` with a pattern of a single character puts the replacement in
  the place of every occurrence and leaves the other characters alone:
  `toList_replace_singleton`. The steps of the search determine the result:
  each of them skips a match, or a stretch that has none.
-/

namespace Replace

open String String.Slice String.Slice.Pattern String.Slice.Pattern.Model

/-- What stands in the place of `x` when `c` is replaced. -/
def substitute (c : Char) (replacement : List Char) (x : Char) : List Char :=
  if x = c then replacement else [x]

variable {c : Char} {s : Slice}

/-- Where there is no match between two positions, there is no `c`. -/
theorem not_mem_of_not_matchesAt {start stop : s.Pos}
    (h : ∀ p, start ≤ p → p < stop → ¬ MatchesAt (String.singleton c) p) {before t after : String}
    (hstart : start.Splits before (t ++ after)) (hstop : stop.Splits (before ++ t) after) :
    c ∉ t.toList := by
  -- From position to position, up to the last one.
  induction start using WellFounded.induction Slice.Pos.wellFounded_gt generalizing before t with
  | h start ih =>
    by_cases hempty : t = ""
    · simp [hempty]
    · have hlt : start < stop :=
        (hstart.lt_iff_exists_eq_append hstop).mpr ⟨t, hempty, rfl, rfl⟩
      have hne := Slice.Pos.ne_endPos_of_lt hlt
      obtain ⟨d, u, rfl⟩ : ∃ d u, t = String.singleton d ++ u := by
        cases hchars : t.toList with
        | nil => exact absurd (String.toList_eq_nil_iff.mp hchars) hempty
        | cons d us => exact ⟨d, String.ofList us, String.toList_inj.mp (by simp [hchars])⟩
      rw [String.append_assoc] at hstart
      have hd : c ≠ d := by
        rintro rfl
        exact h start (Std.le_refl _) hlt
          (ForwardStringSearcher.matchesAt_iff_splits.mpr ⟨before, u ++ after, hstart⟩)
      have hrest := ih (start.next hne) (by simp) (fun p hp => h p (Std.le_trans (by simp) hp))
        hstart.next (by rwa [String.append_assoc])
      simp [hd, hrest]

/-- A text without `c` stays as it is. -/
theorem flatMap_substitute_of_not_mem {r cs : List Char} (h : c ∉ cs) :
    cs.flatMap (substitute c r) = cs := by
  have hsame : ∀ x ∈ cs, substitute c r x = [x] := by
    intro x hx
    refine if_neg ?_
    rintro rfl
    exact h hx
  rw [List.flatMap_congr hsame, List.flatMap_singleton']

/-- The steps of a search from a position on, and what is left of the text there. -/
theorem toList_foldl_steps {r : String} {f : String → SearchStep s → String}
    (hmatched : ∀ sofar p q, f sofar (.matched p q) = sofar ++ r)
    (hrejected : ∀ sofar p q, f sofar (.rejected p q) = sofar ++ (s.slice! p q).copy)
    {start : s.Pos} {steps : List (SearchStep s)}
    (h : IsValidSearchFrom (String.singleton c) start steps) {before after : String}
    (hsplits : start.Splits before after) (sofar : String) :
    (steps.foldl f sofar).toList =
      sofar.toList ++ after.toList.flatMap (substitute c r.toList) := by
  induction h generalizing before after sofar with
  | endPos =>
    have hafter : after = "" := hsplits.eq_endPos_iff.mp rfl
    simp [hafter]
  | matched hmatch hrest ih =>
    obtain ⟨u, v, hu, hv⟩ := ForwardStringSearcher.isLongestMatchAt_iff_splits.mp hmatch
    obtain ⟨rfl, rfl⟩ := hsplits.eq hu
    rw [List.foldl_cons, ih hv, hmatched]
    simp [substitute]
  | mismatched hlt hno hrest ih =>
    rename_i stop
    obtain ⟨t, -, ht, rfl⟩ := (hsplits.lt_iff_exists_eq_append stop.splits).mp hlt
    have hstop := stop.splits
    rw [ht] at hstop
    obtain ⟨hle, hcopy⟩ := Slice.copy_slice_eq_iff_splits.mpr ⟨before, _, hsplits, hstop⟩
    rw [Slice.slice_eq_slice!] at hcopy
    have hsame := flatMap_substitute_of_not_mem (r := r.toList)
      (not_mem_of_not_matchesAt hno hsplits hstop)
    rw [List.foldl_cons, ih hstop, hrejected, String.toList_append, hcopy, String.toList_append,
      List.flatMap_append, hsame, List.append_assoc]

theorem toList_replace_singleton (c : Char) (r s : String) :
    (s.replace (String.singleton c) r).toList = s.toList.flatMap (substitute c r.toList) := by
  have hlawful := ForwardStringSearcher.lawfulToForwardSearcherModel
    (show String.singleton c ≠ "" by simp)
  have hsteps := hlawful.isValidSearchFrom_toList s.toSlice
  have hcopy : ∀ sofar : String, sofar ++ ToSlice.toSlice r = sofar ++ r := by
    intro sofar
    exact congrArg (sofar ++ ·) String.copy_toSlice
  unfold String.replace Slice.replace
  rw [← Std.Iter.foldl_toList, toList_foldl_steps (fun sofar _ _ => hcopy sofar)
    (fun _ _ _ => rfl) hsteps (Slice.splits_startPos _)]
  simp

end Replace
