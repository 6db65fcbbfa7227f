import ApmAgent.Framework.FirstIndex
import ApmAgent.Framework.Glob
import ApmAgent.Framework.MachineInt
import ApmAgent.Helpers.Numbers
import ApmAgent.Helpers.WildcardMatcher

/-! # Two-part search with machine integers

  `IndexOfIgnoreCase` as it runs: positions are `int`s whose sums wrap around,
  and a character is read by `ElementAt`, which throws outside the string. What
  a character is does not matter, only that two of them can be compared and
  that one can be put in lower case.

  * `indexOfIgnoreCase_isFirstIndex`: no read is outside a part, and the result
    is the first place of the needle in the two parts put together.
  * `toInt_indexOfIgnoreCase`: the matchers are modelled with the same search.
-/

namespace ApmAgent.TwoPartSearch

/-! ### Strings -/

/-- A string. The runtime has no longer ones, so the sum of two lengths is still an `int`. -/
structure Text (α : Type) where
  chars : List α
  length_le : chars.length ≤ 0x3FFFFFDF

namespace Text

variable {α : Type}

/-- `string.Length`. -/
def length (s : Text α) : Int32 := Int32.ofNat s.chars.length

/-- `s.ElementAt(index)`. -/
def elementAt (s : Text α) (index : Int32) : Except RuntimeException α :=
  if index < 0 then .error .argumentOutOfRange
  else
    match s.chars[index.toInt.toNat]? with
    | some c => .ok c
    | none => .error .argumentOutOfRange

/-- `s.IndexOf(needle, StringComparison.Ordinal)`, from position `i` on. -/
def indexOfOrdinal [DecidableEq α] (needle : List α) : List α → Int32 → Int32
  | [], i => if needle = [] then i else -1
  | c :: cs, i =>
    if needle.isPrefixOf (c :: cs) then i else indexOfOrdinal needle cs (i + 1)

theorem toInt_length (s : Text α) : s.length.toInt = s.chars.length :=
  Int32.toInt_ofNat_of_lt (by have := s.length_le; omega)

theorem lt_length_iff (s : Text α) {i : Int32} {k : Nat} (hi : i.toInt = k) :
    i < s.length ↔ k < s.chars.length := by
  rw [Int32.lt_iff_toInt_lt, hi, s.toInt_length, Int.ofNat_lt]

theorem elementAt_eq_ok (s : Text α) {index : Int32} {k : Nat} (hindex : index.toInt = k)
    (hk : k < s.chars.length) : s.elementAt index = .ok s.chars[k] := by
  have hnonneg : ¬ index < 0 := by
    rw [Int32.lt_iff_toInt_lt, hindex, Int32.toInt_zero]
    omega
  rw [elementAt, if_neg hnonneg, hindex, Int.toNat_natCast, List.getElem?_eq_getElem hk]

end Text

/-! ### The length of the two parts -/

/-- The sum of two lengths does not wrap around. -/
theorem toInt_totalLength {α : Type} (s t : Text α) :
    (s.length + t.length).toInt = (s.chars ++ t.chars).length := by
  have hs := s.length_le
  have ht := t.length_le
  have hs' := s.toInt_length
  have ht' := t.toInt_length
  rw [MachineInt.toInt_add (by omega) (by omega), hs', ht', List.length_append, Int.natCast_add]

theorem lt_totalLength_iff {α : Type} {s t : Text α} {i : Int32} {k : Nat} (hi : i.toInt = k) :
    i < s.length + t.length ↔ k < (s.chars ++ t.chars).length := by
  rw [Int32.lt_iff_toInt_lt, hi, toInt_totalLength, Int.ofNat_lt]

section

variable {α : Type} [DecidableEq α] (toLowerInvariant : α → α)

/-! ### The search -/

/-- `WildcardMatcher.CharAt`. -/
def charAt (i : Int32) (firstPart secondPart : Text α) (firstPartLength : Int32) :
    Except RuntimeException α :=
  if i < firstPartLength then firstPart.elementAt i
  else secondPart.elementAt (i - firstPartLength)

/-- The character the comparison looks at. -/
def foldCase (ignoreCase : Bool) (c : α) : α :=
  if ignoreCase then toLowerInvariant c else c

variable (haystack1 haystack2 needle : Text α) (ignoreCase : Bool)

/-- The inner `while` loop of `IndexOfIgnoreCase`, with the value of `j` it ends with. -/
def matchFrom (j ii : Int32) : Except RuntimeException Int32 :=
  if h : ii < haystack1.length + haystack2.length ∧ j < needle.length then do
    let c ← charAt ii haystack1 haystack2 haystack1.length
    let c₂ ← needle.elementAt j
    if foldCase toLowerInvariant ignoreCase c ≠ foldCase toLowerInvariant ignoreCase c₂ then
      .ok j
    else matchFrom (j + 1) (ii + 1)
  else .ok j
termination_by (needle.length.toInt - j.toInt).toNat
decreasing_by
  have hj := MachineInt.toInt_add_one_of_lt h.2
  have hlt := Int32.lt_iff_toInt_lt.mp h.2
  omega

/-- The outer `for` loop of `IndexOfIgnoreCase`. -/
def searchFrom (stop i : Int32) : Except RuntimeException Int32 :=
  if h : i < stop then
    -- Early out, if possible. The sum may wrap around, and then there is none.
    if i + needle.length > haystack1.length + haystack2.length then .ok (-1)
    else do
      let j ← matchFrom toLowerInvariant haystack1 haystack2 needle ignoreCase 0 i
      if j = needle.length then .ok i else searchFrom stop (i + 1)
  else .ok (-1)
termination_by (stop.toInt - i.toInt).toNat
decreasing_by
  have hi := MachineInt.toInt_add_one_of_lt h
  have hlt := Int32.lt_iff_toInt_lt.mp h
  omega

/-- `WildcardMatcher.IndexOfIgnoreCase`. -/
def indexOfIgnoreCase (start stop : Int32) : Except RuntimeException Int32 :=
  if start < 0 then .ok (-1)
  else if needle.length = 0 ∨ haystack1.length + haystack2.length = 0 then
    -- Fallback to legacy behavior.
    .ok (Text.indexOfOrdinal needle.chars haystack1.chars 0)
  else searchFrom toLowerInvariant haystack1 haystack2 needle ignoreCase stop start

/-- The characters count as the same. -/
def SameChar (a b : α) : Prop :=
  if ignoreCase then toLowerInvariant a = toLowerInvariant b else a = b

/-- The whole needle stands at a position of the two parts put together. -/
def OccursAt : Nat → Prop :=
  Glob.At (SameChar toLowerInvariant ignoreCase) (haystack1.chars ++ haystack2.chars)
    needle.chars

omit [DecidableEq α] in
theorem sameChar_iff {a b : α} :
    SameChar toLowerInvariant ignoreCase a b ↔
      foldCase toLowerInvariant ignoreCase a = foldCase toLowerInvariant ignoreCase b := by
  unfold SameChar foldCase
  cases ignoreCase with
  | true => rfl
  | false => rfl

variable {haystack1 haystack2 needle : Text α}

/-! ### Every read is inside a part -/

omit [DecidableEq α] in
theorem charAt_eq_ok {i : Int32} {k : Nat} (hi : i.toInt = k)
    (hk : k < (haystack1.chars ++ haystack2.chars).length) :
    charAt i haystack1 haystack2 haystack1.length =
      .ok (haystack1.chars ++ haystack2.chars)[k] := by
  have hfirst := haystack1.lt_length_iff hi
  unfold charAt
  by_cases h : k < haystack1.chars.length
  · rw [if_pos (hfirst.mpr h), haystack1.elementAt_eq_ok hi h, List.getElem_append_left h]
  · -- Behind the first part the position is counted from where that part ends.
    have hrest : (i - haystack1.length).toInt = (k - haystack1.chars.length : Nat) := by
      have := i.toInt_lt
      have hlength := haystack1.toInt_length
      rw [MachineInt.toInt_sub (by omega) (by omega), hi, hlength]
      omega
    have hk₂ : k - haystack1.chars.length < haystack2.chars.length := by
      rw [List.length_append] at hk
      omega
    rw [if_neg (mt hfirst.mp h), haystack2.elementAt_eq_ok hrest hk₂,
      List.getElem_append_right (Nat.le_of_not_lt h)]

/-! ### What the loops find -/

/-- The inner loop reads inside the parts, and walks to the end of the needle exactly where the
    rest of the needle stands. -/
theorem matchFrom_spec {j ii : Int32} {m k : Nat} (hj : j.toInt = m) (hii : ii.toInt = k)
    (hm : m ≤ needle.chars.length) :
    ∃ j', matchFrom toLowerInvariant haystack1 haystack2 needle ignoreCase j ii = .ok j' ∧
      (j' = needle.length ↔
        Glob.At (SameChar toLowerInvariant ignoreCase) (haystack1.chars ++ haystack2.chars)
          (needle.chars.drop m) k) := by
  fun_induction matchFrom toLowerInvariant haystack1 haystack2 needle ignoreCase j ii
    generalizing m k with
  | case1 j ii h ih =>
    obtain ⟨hin, hleft⟩ := h
    have hk := (lt_totalLength_iff hii).mp hin
    have hlt := (needle.lt_length_iff hj).mp hleft
    rw [charAt_eq_ok hii hk, needle.elementAt_eq_ok hj hlt, List.drop_eq_getElem_cons hlt]
    simp only [Glob.At, List.getElem?_eq_getElem hk, Option.some.injEq, exists_eq_left', bind,
      Except.bind]
    by_cases hsame : foldCase toLowerInvariant ignoreCase (haystack1.chars ++ haystack2.chars)[k] =
        foldCase toLowerInvariant ignoreCase needle.chars[m]
    · have hj' : (j + 1).toInt = (m + 1 : Nat) := by
        rw [MachineInt.toInt_add_one_of_lt hleft, hj, Int.natCast_succ]
      have hii' : (ii + 1).toInt = (k + 1 : Nat) := by
        rw [MachineInt.toInt_add_one_of_lt hin, hii, Int.natCast_succ]
      rw [if_neg (not_not.mpr hsame)]
      obtain ⟨j', hj'', hiff⟩ := ih hj' hii' hlt
      have hsame' := (sameChar_iff toLowerInvariant ignoreCase).mpr hsame.symm
      exact ⟨j', hj'', hiff.trans (and_iff_right hsame').symm⟩
    · -- The characters differ, so the needle is not walked to its end.
      rw [if_pos hsame]
      refine ⟨j, rfl, iff_of_false (Int32.ne_of_lt hleft) fun hat => ?_⟩
      exact hsame ((sameChar_iff toLowerInvariant ignoreCase).mp hat.1).symm
  | case2 j ii h =>
    refine ⟨j, rfl, ?_⟩
    rcases Nat.eq_or_lt_of_le hm with rfl | hlt
    · -- The needle is at its end.
      have hend : j = needle.length := by
        rw [← Int32.toInt_inj, hj, needle.toInt_length]
      rw [List.drop_length]
      exact iff_of_true hend trivial
    · -- The text is at its end, and there are characters of the needle left.
      have hleft := (needle.lt_length_iff hj).mpr hlt
      have hk : (haystack1.chars ++ haystack2.chars).length ≤ k := by
        rw [← Nat.not_lt, ← lt_totalLength_iff hii]
        exact fun hin => h ⟨hin, hleft⟩
      have hrest : needle.chars.drop m ≠ [] := by
        rw [Ne, List.drop_eq_nil_iff]
        exact Nat.not_le.mpr hlt
      exact iff_of_false (Int32.ne_of_lt hleft) (Glob.not_at_of_length_le hrest hk)

omit [DecidableEq α] in
/-- The early out is taken only where the needle is longer than what is left of the text. -/
theorem not_occursAt_of_earlyOut (hneedle : needle.chars ≠ []) {i : Int32} {k : Nat}
    (hi : i.toInt = k) (hout : i + needle.length > haystack1.length + haystack2.length)
    {k' : Nat} (hk' : k ≤ k') :
    ¬ OccursAt toLowerInvariant haystack1 haystack2 needle ignoreCase k' := by
  intro hat
  have hfits := hat.length_le hneedle
  have hlength := needle.toInt_length
  have hsum := @MachineInt.toInt_add_le i needle.length (by omega) (by omega)
  rw [gt_iff_lt, Int32.lt_iff_toInt_lt, toInt_totalLength] at hout
  omega

/-- The outer loop finds the first place of the needle in the range it goes through. -/
theorem searchFrom_spec (hneedle : needle.chars ≠ []) (stop : Int32) {i : Int32} {k : Nat}
    (hi : i.toInt = k) :
    ∃ r, searchFrom toLowerInvariant haystack1 haystack2 needle ignoreCase stop i = .ok r ∧
      IsFirstIndex (OccursAt toLowerInvariant haystack1 haystack2 needle ignoreCase)
        k stop.toInt r.toInt := by
  fun_induction searchFrom toLowerInvariant haystack1 haystack2 needle ignoreCase stop i
    generalizing k with
  | case1 i h hout =>
    refine ⟨-1, rfl, .of_none fun k' hk' _ => ?_⟩
    exact not_occursAt_of_earlyOut _ _ hneedle hi hout (Int.ofNat_le.mp hk')
  | case2 i h hout ih =>
    obtain ⟨j, hj, hfound⟩ := matchFrom_spec toLowerInvariant ignoreCase Int32.toInt_zero hi
      (Nat.zero_le _)
    rw [List.drop_zero] at hfound
    rw [hj]
    simp only [bind, Except.bind]
    by_cases hend : j = needle.length
    · rw [if_pos hend]
      refine ⟨i, rfl, ?_⟩
      rw [hi]
      refine .of_here ?_ (hfound.mp hend)
      rwa [← hi, ← Int32.lt_iff_toInt_lt]
    · have hi' : (i + 1).toInt = (k + 1 : Nat) := by
        rw [MachineInt.toInt_add_one_of_lt h, hi, Int.natCast_succ]
      rw [if_neg hend]
      obtain ⟨r, hr, hfirst⟩ := ih hi'
      exact ⟨r, hr, hfirst.of_succ (mt hfound.mpr hend)⟩
  | case3 i h =>
    refine ⟨-1, rfl, .of_none fun k' hk' hlt => ?_⟩
    rw [Int32.lt_iff_toInt_lt, hi] at h
    omega

/-- In two empty parts there is no needle. -/
theorem isFirstIndex_of_empty (hneedle : needle.chars ≠ [])
    (hempty : haystack1.length + haystack2.length = 0) (start stop : Int) :
    IsFirstIndex (OccursAt toLowerInvariant haystack1 haystack2 needle ignoreCase) start stop
      (Text.indexOfOrdinal needle.chars haystack1.chars 0).toInt := by
  have hnil : haystack1.chars ++ haystack2.chars = [] := by
    rw [← List.length_eq_zero_iff, ← Int.natCast_eq_zero, ← toInt_totalLength, hempty,
      Int32.toInt_zero]
  rw [(List.append_eq_nil_iff.mp hnil).1, Text.indexOfOrdinal, if_neg hneedle]
  refine .of_none fun k _ _ hat => ?_
  rw [OccursAt, hnil] at hat
  exact Glob.not_at_of_length_le hneedle (Nat.zero_le k) hat

/-- No read is outside a part, and the result is the least position of the range at which the
    whole needle stands in the two parts put together, or -1 where there is none. -/
theorem indexOfIgnoreCase_isFirstIndex (haystack1 haystack2 needle : Text α)
    (ignoreCase : Bool) (start stop : Int32) (hneedle : needle.chars ≠ [])
    (hstart : 0 ≤ start) :
    ∃ r, indexOfIgnoreCase toLowerInvariant haystack1 haystack2 needle ignoreCase start stop =
        .ok r ∧
      IsFirstIndex (OccursAt toLowerInvariant haystack1 haystack2 needle ignoreCase)
        start.toInt stop.toInt r.toInt := by
  unfold indexOfIgnoreCase
  rw [if_neg (Int32.not_lt.mpr hstart)]
  rw [Int32.le_iff_toInt_le, Int32.toInt_zero] at hstart
  by_cases hfallback : needle.length = 0 ∨ haystack1.length + haystack2.length = 0
  · rw [if_pos hfallback]
    rcases hfallback with hempty | hempty
    · rw [← Int32.toInt_inj, needle.toInt_length, Int32.toInt_zero, Int.natCast_eq_zero,
        List.length_eq_zero_iff] at hempty
      exact absurd hempty hneedle
    · exact ⟨_, rfl, isFirstIndex_of_empty toLowerInvariant ignoreCase hneedle hempty _ _⟩
  · rw [if_neg hfallback]
    obtain ⟨k, hk⟩ := Int.eq_ofNat_of_zero_le hstart
    rw [hk]
    exact searchFrom_spec toLowerInvariant ignoreCase hneedle stop hk

end

section

/-- `char.ToLowerInvariant` on ASCII. -/
def asciiToLower (c : UInt16) : UInt16 :=
  if 0x41 ≤ c ∧ c ≤ 0x5A then c + 0x20 else c

def foo : Text UInt16 := ⟨[0x66, 0x6F, 0x6F], by decide⟩

def bar : Text UInt16 := ⟨[0x62, 0x61, 0x72], by decide⟩

def obA : Text UInt16 := ⟨[0x6F, 0x62, 0x41], by decide⟩

theorem indexOfIgnoreCase_foo_bar_obA :
    ∃ r, indexOfIgnoreCase asciiToLower foo bar obA true 0 6 = .ok r ∧
      IsFirstIndex (OccursAt asciiToLower foo bar obA true)
        (0 : Int32).toInt (6 : Int32).toInt r.toInt :=
  indexOfIgnoreCase_isFirstIndex asciiToLower foo bar obA true 0 6 (List.cons_ne_nil _ _)
    (by decide)

-- The needle begins in the first part and ends in the second one.
example : indexOfIgnoreCase asciiToLower foo bar obA true 0 6 = .ok 2 := by decide +kernel

end

end ApmAgent.TwoPartSearch

/-! ### The search of the matchers -/

namespace ApmAgent

open TwoPartSearch (SameChar Text)

section
variable [InvariantCulture]

omit [InvariantCulture] in
theorem getElem?_charAt {haystack1 haystack2 : List Char} {i : Nat}
    (h : i < haystack1.length + haystack2.length) :
    (haystack1 ++ haystack2)[i]? = some (charAt i haystack1 haystack2 h) := by
  unfold charAt
  by_cases h₁ : i < haystack1.length
  · rw [dif_pos h₁, List.getElem?_append_left h₁, List.getElem?_eq_getElem h₁]
    rfl
  · have h₂ : i - haystack1.length < haystack2.length := by omega
    rw [dif_neg h₁, List.getElem?_append_right (Nat.le_of_not_lt h₁),
      List.getElem?_eq_getElem h₂]
    rfl

theorem sameChar_iff_foldCase {ignoreCase : Bool} {a b : Char} :
    SameChar toLowerInvariant ignoreCase a b ↔
      foldCase ignoreCase a = foldCase ignoreCase b :=
  TwoPartSearch.sameChar_iff toLowerInvariant ignoreCase

/-- The inner loop walks to the end of the needle exactly where the needle stands. -/
theorem matchedLength_eq_length_iff (haystack1 haystack2 : List Char) (ignoreCase : Bool)
    (needle : List Char) (i : Nat) :
    matchedLength haystack1 haystack2 ignoreCase needle i = needle.length ↔
      Glob.At (SameChar toLowerInvariant ignoreCase) (haystack1 ++ haystack2) needle i := by
  induction needle generalizing i with
  | nil => exact iff_of_true rfl trivial
  | cons c₂ needle ih =>
    unfold matchedLength Glob.At
    by_cases h : i < haystack1.length + haystack2.length
    · rw [dif_pos h, getElem?_charAt h]
      by_cases hsame : foldCase ignoreCase (charAt i haystack1 haystack2 h) =
          foldCase ignoreCase c₂
      · rw [if_neg (not_not.mpr hsame), List.length_cons, Nat.add_right_cancel_iff, ih]
        constructor
        · intro hrest
          exact ⟨_, rfl, sameChar_iff_foldCase.mpr hsame.symm, hrest⟩
        · rintro ⟨_, _, _, hrest⟩
          exact hrest
      · rw [if_pos hsame]
        refine iff_of_false (by simp) ?_
        rintro ⟨c, hc, hsame', -⟩
        cases hc
        exact hsame (sameChar_iff_foldCase.mp hsame').symm
    · rw [dif_neg h]
      have hi : (haystack1 ++ haystack2).length ≤ i := by
        rw [List.length_append]
        omega
      exact iff_of_false (by simp) (Glob.not_at_of_length_le (List.cons_ne_nil c₂ needle) hi)

/-- The outer loop finds the first place of the needle in the range it goes through. -/
theorem searchFrom_first (haystack1 haystack2 : List Char) (ignoreCase : Bool)
    {needle : List Char} (hneedle : needle ≠ []) (n i : Nat) :
    IsFirstIndex
      (Glob.At (SameChar toLowerInvariant ignoreCase) (haystack1 ++ haystack2) needle)
      i (i + n : Nat) (searchFrom haystack1 haystack2 needle ignoreCase n i) := by
  induction n generalizing i with
  | zero => exact .of_none fun k hik hlt => by omega
  | succ n ih =>
    unfold searchFrom
    by_cases hout : i + needle.length > haystack1.length + haystack2.length
    · rw [if_pos hout]
      refine .of_none fun k hik _ hat => ?_
      have hfits := hat.length_le hneedle
      rw [List.length_append] at hfits
      omega
    · have hfound := matchedLength_eq_length_iff haystack1 haystack2 ignoreCase needle i
      rw [if_neg hout]
      by_cases hend : matchedLength haystack1 haystack2 ignoreCase needle i = needle.length
      · rw [if_pos hend]
        exact .of_here (by omega) (hfound.mp hend)
      · rw [if_neg hend]
        have hrest := ih (i + 1)
        rw [Nat.add_right_comm] at hrest
        exact hrest.of_succ (mt hfound.mpr hend)

/-- A range that ends before it starts is searched as the empty one that starts there. -/
theorem searchFrom_range (haystack1 haystack2 : List Char) (ignoreCase : Bool)
    {needle : List Char} (hneedle : needle ≠ []) (start : Nat) (stop : Int) :
    IsFirstIndex
      (Glob.At (SameChar toLowerInvariant ignoreCase) (haystack1 ++ haystack2) needle)
      start stop
      (searchFrom haystack1 haystack2 needle ignoreCase (stop - start).toNat start) := by
  rcases Int.le_total stop start with hle | hle
  · rw [Int.toNat_eq_zero.mpr (by omega)]
    exact .of_none fun k hk hlt => by omega
  · have hstop : ((start + (stop - start).toNat : Nat) : Int) = stop := by omega
    have hfirst := searchFrom_first haystack1 haystack2 ignoreCase hneedle
      (stop - start).toNat start
    rwa [hstop] at hfirst

/-- The search finds the first place of the needle in the two parts put together. -/
theorem indexOfIgnoreCase_first (haystack1 haystack2 : List Char) (ignoreCase : Bool)
    {needle : List Char} (hneedle : needle ≠ []) (start : Nat) (stop : Int) :
    IsFirstIndex
      (Glob.At (SameChar toLowerInvariant ignoreCase) (haystack1 ++ haystack2) needle)
      start stop (indexOfIgnoreCase haystack1 haystack2 needle ignoreCase start stop) := by
  unfold indexOfIgnoreCase
  rw [if_neg (by omega)]
  by_cases hempty : haystack1.length + haystack2.length = 0
  · have hnil : haystack1 ++ haystack2 = [] := by
      rw [← List.length_eq_zero_iff, List.length_append, hempty]
    rw [if_pos (.inr hempty), hnil, (List.append_eq_nil_iff.mp hnil).1, indexOfOrdinal,
      if_neg hneedle]
    exact .of_none fun k _ _ => Glob.not_at_of_length_le hneedle (Nat.zero_le k)
  · rw [if_neg (not_or.mpr ⟨hneedle, hempty⟩), Int.toNat_natCast]
    exact searchFrom_range haystack1 haystack2 ignoreCase hneedle start stop

omit [InvariantCulture] in
/-- An empty needle is where the search starts. -/
theorem indexOfOrdinal_of_nil (cs : List Char) (i : Nat) : indexOfOrdinal [] cs i = i := by
  cases cs with
  | nil => rfl
  | cons c cs => rfl

omit [InvariantCulture] in
theorem toInt_indexOfOrdinal (needle cs : List Char) {i : Int32} {k : Nat} (hi : i.toInt = k)
    (hfits : k + cs.length < 2 ^ 31) :
    (Text.indexOfOrdinal needle cs i).toInt = indexOfOrdinal needle cs k := by
  induction cs generalizing i k with
  | nil =>
    unfold Text.indexOfOrdinal indexOfOrdinal
    split
    · exact hi
    · rfl
  | cons c cs ih =>
    rw [List.length_cons] at hfits
    have hi' := MachineInt.toInt_add_one hi (by omega)
    unfold Text.indexOfOrdinal indexOfOrdinal
    split
    · exact hi
    · exact ih hi' (by omega)

/-- The search that runs computes what the matchers are modelled with. -/
theorem toInt_indexOfIgnoreCase (haystack1 haystack2 needle : Text Char) (ignoreCase : Bool)
    (start stop : Int32) :
    ∃ r, TwoPartSearch.indexOfIgnoreCase toLowerInvariant haystack1 haystack2 needle ignoreCase
        start stop = .ok r ∧
      r.toInt = indexOfIgnoreCase haystack1.chars haystack2.chars needle.chars ignoreCase
        start.toInt stop.toInt := by
  have hneg : start < 0 ↔ start.toInt < 0 := by
    rw [Int32.lt_iff_toInt_lt, Int32.toInt_zero]
  have hfallback : needle.length = 0 ∨ haystack1.length + haystack2.length = 0 ↔
      needle.chars = [] ∨ haystack1.chars.length + haystack2.chars.length = 0 := by
    rw [← Int32.toInt_inj, ← Int32.toInt_inj, TwoPartSearch.toInt_totalLength,
      needle.toInt_length, Int32.toInt_zero, Int.natCast_eq_zero, Int.natCast_eq_zero,
      List.length_eq_zero_iff, List.length_append]
  unfold TwoPartSearch.indexOfIgnoreCase indexOfIgnoreCase
  by_cases hstart : start < 0
  · rw [if_pos hstart, if_pos (hneg.mp hstart)]
    exact ⟨-1, rfl, rfl⟩
  · rw [if_neg hstart, if_neg (mt hneg.mpr hstart)]
    by_cases hempty : needle.length = 0 ∨ haystack1.length + haystack2.length = 0
    · rw [if_pos hempty, if_pos (hfallback.mp hempty)]
      have := haystack1.length_le
      exact ⟨_, rfl, toInt_indexOfOrdinal _ _ Int32.toInt_zero (by omega)⟩
    · rw [if_neg hempty, if_neg (mt hfallback.mpr hempty)]
      have hneedle : needle.chars ≠ [] := fun hnil => hempty (hfallback.mpr (.inl hnil))
      rw [hneg, Int.not_lt] at hstart
      obtain ⟨k, hk⟩ := Int.eq_ofNat_of_zero_le hstart
      obtain ⟨r, hr, hfirst⟩ :=
        TwoPartSearch.searchFrom_spec toLowerInvariant ignoreCase hneedle stop hk
      refine ⟨r, hr, ?_⟩
      rw [hk, Int.toNat_natCast]
      exact hfirst.unique (searchFrom_range _ _ ignoreCase hneedle k stop.toInt)

end

end ApmAgent
