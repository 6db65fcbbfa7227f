import ApmAgent.Helpers.TwoPartSearch

/-! # Matching a text in two parts

  `Matches(firstPart, secondPart)` says whether a pattern matches the two parts
  put together, without putting them together. The second part may be null.

  * `matchesPartitioned_eq`: it agrees with `Matches(firstPart + secondPart)`.
-/

namespace ApmAgent

section
variable [InvariantCulture]

/-- `SimpleWildcardMatcher.IndexOf(firstPart, secondPart, offset)`. -/
def SimpleWildcardMatcher.indexOfPartitioned (m : SimpleWildcardMatcher) (firstPart : List Char)
    (secondPart : Option (List Char)) (offset : Int) : Int :=
  match secondPart with
  | none => m.indexOf firstPart [] offset
  | some secondPart => m.indexOf firstPart secondPart offset

/-- The loop of `CompoundWildcardMatcher.Matches(firstPart, secondPart)`. -/
def matchesPartitionedInOrder (firstPart : List Char) (secondPart : Option (List Char)) :
    List SimpleWildcardMatcher → Int → Bool
  | [], _ => true
  | m :: ms, offset =>
    let found := m.indexOfPartitioned firstPart secondPart offset
    if found = -1 then false
    else matchesPartitionedInOrder firstPart secondPart ms (found + m.matcher.length)

/-- `WildcardMatcher.Matches(firstPart, secondPart)`. -/
def WildcardMatcher.matchesPartitioned (w : WildcardMatcher) (firstPart : String)
    (secondPart : Option String) : Bool :=
  match w with
  | .verbatim matcher ignoreCase =>
    -- Null is nothing to append.
    let s := firstPart ++ secondPart.getD ""
    if ignoreCase then equalsOrdinalIgnoreCase matcher s.toList else matcher = s.toList
  | .simple m => m.indexOfPartitioned firstPart.toList (secondPart.map String.toList) 0 ≠ -1
  | .compound _ ms =>
    matchesPartitionedInOrder firstPart.toList (secondPart.map String.toList) ms 0

/-! ### The search reads the two parts as one text -/

/-- The first place of the needle is the same, whether the text is given in one part or in
    two. -/
theorem indexOfIgnoreCase_append (haystack1 haystack2 needle : List Char) (ignoreCase : Bool)
    (start stop : Int) :
    indexOfIgnoreCase haystack1 haystack2 needle ignoreCase start stop =
      indexOfIgnoreCase (haystack1 ++ haystack2) [] needle ignoreCase start stop := by
  by_cases hstart : start < 0
  · rw [indexOfIgnoreCase, indexOfIgnoreCase, if_pos hstart, if_pos hstart]
  · obtain ⟨k, rfl⟩ := Int.eq_ofNat_of_zero_le (Int.not_lt.mp hstart)
    by_cases hneedle : needle = []
    · -- The first part alone is searched, and there the empty needle is at the beginning.
      rw [indexOfIgnoreCase, indexOfIgnoreCase, if_neg hstart, if_neg hstart,
        if_pos (.inl hneedle), if_pos (.inl hneedle), hneedle]
      exact (indexOfOrdinal_of_nil haystack1 0).trans (indexOfOrdinal_of_nil _ 0).symm
    · have hparts := indexOfIgnoreCase_first haystack1 haystack2 ignoreCase hneedle k stop
      have hwhole := indexOfIgnoreCase_first (haystack1 ++ haystack2) [] ignoreCase hneedle k stop
      rw [List.append_nil] at hwhole
      exact hparts.unique hwhole

theorem SimpleWildcardMatcher.indexOf_append (m : SimpleWildcardMatcher)
    (firstPart secondPart : List Char) (offset : Int) :
    m.indexOf firstPart secondPart offset = m.indexOf (firstPart ++ secondPart) [] offset := by
  unfold SimpleWildcardMatcher.indexOf
  simp only [indexOfIgnoreCase_append firstPart secondPart, List.length_append, List.length_nil,
    Nat.add_zero]

theorem SimpleWildcardMatcher.indexOfPartitioned_eq (m : SimpleWildcardMatcher)
    (firstPart : List Char) (secondPart : Option (List Char)) (offset : Int) :
    m.indexOfPartitioned firstPart secondPart offset =
      m.indexOf (firstPart ++ secondPart.getD []) [] offset := by
  cases secondPart with
  | none =>
    show m.indexOf firstPart [] offset = m.indexOf (firstPart ++ []) [] offset
    rw [List.append_nil]
  | some secondPart => exact m.indexOf_append firstPart secondPart offset

theorem matchesPartitionedInOrder_eq (firstPart : List Char) (secondPart : Option (List Char))
    (ms : List SimpleWildcardMatcher) (offset : Int) :
    matchesPartitionedInOrder firstPart secondPart ms offset =
      matchesInOrder (firstPart ++ secondPart.getD []) [] ms offset := by
  induction ms generalizing offset with
  | nil => rfl
  | cons m ms ih =>
    unfold matchesPartitionedInOrder matchesInOrder
    simp only [m.indexOfPartitioned_eq, ih]

/-! ### Matchers -/

/-- A pattern matches two parts, of which the second one may be null, as it matches the text
    they are parts of. -/
theorem matchesPartitioned_eq (wildcardString firstPart : String) (secondPart : Option String) :
    (WildcardMatcher.valueOf wildcardString).matchesPartitioned firstPart secondPart =
      (WildcardMatcher.valueOf wildcardString).matches
        (firstPart ++ secondPart.getD "").toList := by
  have htext : (firstPart ++ secondPart.getD "").toList =
      firstPart.toList ++ (secondPart.map String.toList).getD [] := by
    cases secondPart with
    | none => rw [String.toList_append]; rfl
    | some secondPart => exact String.toList_append
  generalize WildcardMatcher.valueOf wildcardString = w
  cases w with
  | verbatim matcher ignoreCase => rfl
  | simple m =>
    simp only [WildcardMatcher.matchesPartitioned, WildcardMatcher.matches, htext,
      m.indexOfPartitioned_eq]
  | compound matcher ms =>
    simp only [WildcardMatcher.matchesPartitioned, WildcardMatcher.matches, htext,
      matchesPartitionedInOrder_eq]

end

section
attribute [local instance] InvariantCulture.ascii

-- A match that begins in the first part and ends in the second one.
example :
    (WildcardMatcher.valueOf "*foo*foo*").matchesPartitioned "f" (some "ooFoo") = true := by
  decide

end

end ApmAgent
