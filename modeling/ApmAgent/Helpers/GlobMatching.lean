import ApmAgent.Framework.Glob
import ApmAgent.Framework.Split
import ApmAgent.Helpers.TwoPartSearch

/-! # Wildcard matching and glob patterns

  A `WildcardMatcher` searches for the segments of a pattern one after the
  other, but forgets where it is in two places: in front of the last segment,
  which it looks for at the end of the text, and at an empty segment between
  two wildcards, where it starts over. So it matches `pieces` of the pattern
  one by one (`matches_iff_pieces`), and agrees with the glob language where it
  does not go back in the text (`matches_iff_inLanguage_of_neverGoesBack`).
-/

namespace ApmAgent

open Glob

/-! ### The language of a wildcard string -/

/-- How a character of the pattern is compared with one of the text. -/
def sameChar (ignoreCase : Bool) (a b : Char) : Prop :=
  if ignoreCase then a.toLower = b.toLower else a = b

def IsAscii (cs : List Char) : Prop := ∀ c ∈ cs, c.val < 128

theorem isAscii_iff {cs : List Char} : IsAscii cs ↔ cs.all fun c => c.val < 128 := by
  simp only [IsAscii, List.all_eq_true, decide_eq_true_eq]

/-- Whether case is ignored, and the pattern without the case prefix. -/
def stripCasePrefix (wildcardString : List Char) : Bool × List Char :=
  if caseSensitivePrefix.isPrefixOf wildcardString then
    (false, wildcardString.drop caseSensitivePrefix.length)
  else if caseInsensitivePrefix.isPrefixOf wildcardString then
    (true, wildcardString.drop caseInsensitivePrefix.length)
  else (true, wildcardString)

/-- `s` is in the language of a wildcard string. -/
def InLanguage (wildcardString s : String) : Prop :=
  let (ignoreCase, pattern) := stripCasePrefix wildcardString.toList
  Language '*' (sameChar ignoreCase) pattern s.toList

/-- The patterns a pattern falls into, by their segments: it is cut in front of its last
    segment, and where a segment between two wildcards is empty. -/
def pieces : List (List Char) → List (List (List Char))
  | first :: second :: rest =>
    let runs := (second :: rest).dropLast.splitOn []
    (first :: (runs.headD [] ++ [[]])) ::
      (runs.tail.map fun run => [] :: (run ++ [[]])) ++
      [[[], (second :: rest).getLast (List.cons_ne_nil second rest)]]
  | segments => [segments]

section

variable (same : Char → Char → Prop) (s : List Char)

/-- No place of a segment lies in front of where the segments before it end. Each of `ls` has its
    first place from `start` on, behind an empty one its first place in the text; `last` stands at
    the end. The segments before them end at `stop`. -/
def FindsAhead (last : List Char) : List (List Char) → Nat → Nat → Prop
  | [], _, stop => ∀ i, At same s last i → i + last.length = s.length → stop ≤ i
  | l :: ls, start, stop =>
    if l = [] then FindsAhead last ls 0 stop
    else ∀ i, Leftmost same s l start i →
      stop ≤ i ∧ FindsAhead last ls (i + l.length) (i + l.length)

end

/-- Going through the text from segment to segment never leads back. -/
def NeverGoesBack (wildcardString s : String) : Prop :=
  let (ignoreCase, pattern) := stripCasePrefix wildcardString.toList
  match pattern.splitOn '*' with
  | first :: second :: rest =>
    At (sameChar ignoreCase) s.toList first 0 →
      FindsAhead (sameChar ignoreCase) s.toList
        ((second :: rest).getLast (List.cons_ne_nil second rest)) (second :: rest).dropLast
        first.length first.length
  | _ => True

/-- No two wildcards stand side by side. -/
def WildcardsApart (wildcardString : String) : Prop :=
  [] ∉ (((stripCasePrefix wildcardString.toList).2.splitOn '*').tail).dropLast

/-! ### Comparing characters -/

/-- ASCII characters that agree in upper case agree in lower case. -/
theorem toUpper_eq_iff_toLower_eq {a b : Char} (ha : a.val < 128) (hb : b.val < 128) :
    a.toUpper = b.toUpper ↔ a.toLower = b.toLower := by
  have hcases : ∀ n < 128, (Char.ofNat n).toUpper.toLower = (Char.ofNat n).toLower ∧
      (Char.ofNat n).toLower.toUpper = (Char.ofNat n).toUpper := by decide
  have hchar (c : Char) (hc : c.val < 128) :
      c.toUpper.toLower = c.toLower ∧ c.toLower.toUpper = c.toUpper := by
    have := hcases c.toNat hc
    rwa [Char.ofNat_toNat] at this
  constructor
  · intro h
    rw [← (hchar a ha).1, ← (hchar b hb).1, h]
  · intro h
    rw [← (hchar a ha).2, ← (hchar b hb).2, h]

section

variable [InvariantCulture]

theorem foldCase_eq_iff (ignoreCase : Bool) {a b : Char} (ha : a.val < 128)
    (hb : b.val < 128) :
    foldCase ignoreCase b = foldCase ignoreCase a ↔ sameChar ignoreCase a b := by
  unfold foldCase sameChar
  cases ignoreCase with
  | true =>
    simp only [if_true, InvariantCulture.toLowerInvariant_ascii _ ha,
      InvariantCulture.toLowerInvariant_ascii _ hb]
    exact eq_comm
  | false => simp only [Bool.false_eq_true, if_false, eq_comm]

/-! ### The search for one segment -/

variable {s : List Char} (ignoreCase : Bool)

/-- On ASCII the search compares characters as the language does. -/
theorem indexOfIgnoreCase_spec (hs : IsAscii s) {needle : List Char} (hn : IsAscii needle)
    (hne : needle ≠ []) (start : Nat) (stop : Int) :
    IsFirstIndex (At (sameChar ignoreCase) s needle) start stop
      (indexOfIgnoreCase s [] needle ignoreCase start stop) := by
  have hsame : At (TwoPartSearch.SameChar toLowerInvariant ignoreCase) s needle =
      At (sameChar ignoreCase) s needle := by
    funext k
    refine propext (at_congr (fun a ha b hb => ?_) k)
    exact sameChar_iff_foldCase.trans
      (eq_comm.trans (foldCase_eq_iff ignoreCase (hn a ha) (hs b hb)))
  have hfirst := indexOfIgnoreCase_first s [] ignoreCase hne start stop
  rwa [List.append_nil, hsame] at hfirst

/-- Between two wildcards a segment is found at its first place from the offset on. -/
theorem indexOf_between (hs : IsAscii s) {needle : List Char} (hn : IsAscii needle)
    (hne : needle ≠ []) (o : Nat) :
    (SimpleWildcardMatcher.indexOf ⟨needle, true, true, ignoreCase⟩ s [] o = -1 ∧
      ∀ j, o ≤ j → ¬ At (sameChar ignoreCase) s needle j) ∨
    ∃ k, SimpleWildcardMatcher.indexOf ⟨needle, true, true, ignoreCase⟩ s [] o = (k : Nat) ∧
      Leftmost (sameChar ignoreCase) s needle o k := by
  have hindex : SimpleWildcardMatcher.indexOf ⟨needle, true, true, ignoreCase⟩ s [] o =
      indexOfIgnoreCase s [] needle ignoreCase o s.length := by
    simp [SimpleWildcardMatcher.indexOf]
  have hlength {j : Nat} (hj : At (sameChar ignoreCase) s needle j) : j < s.length := by
    have := hj.length_le hne
    have := List.length_pos_iff.mpr hne
    omega
  rw [hindex]
  rcases indexOfIgnoreCase_spec ignoreCase hs hn hne o s.length with
    ⟨k, hk, ⟨hle, -, hat⟩, hleast⟩ | ⟨hnone, hnowhere⟩
  · refine .inr ⟨k, hk, Int.ofNat_le.mp hle, hat, fun j hoj hj => ?_⟩
    exact hleast ⟨Int.ofNat_le.mpr hoj, Int.ofNat_lt.mpr (hlength hj), hj⟩
  · refine .inl ⟨hnone, fun j hoj hj => ?_⟩
    exact hnowhere j (Int.ofNat_le.mpr hoj) (Int.ofNat_lt.mpr (hlength hj)) hj

/-- The empty segment between two wildcards is found at the beginning, wherever the search
    is. -/
theorem indexOf_between_nil (s : List Char) (o : Nat) :
    SimpleWildcardMatcher.indexOf ⟨[], true, true, ignoreCase⟩ s [] o = 0 := by
  exact indexOfOrdinal_of_nil s 0

/-- The first segment is looked for at the beginning only. -/
theorem indexOf_first (hs : IsAscii s) {needle : List Char} (hn : IsAscii needle)
    (hne : needle ≠ []) (o : Int) :
    (SimpleWildcardMatcher.indexOf ⟨needle, false, true, ignoreCase⟩ s [] o = -1 ∧
      ¬ At (sameChar ignoreCase) s needle 0) ∨
    (SimpleWildcardMatcher.indexOf ⟨needle, false, true, ignoreCase⟩ s [] o = 0 ∧
      At (sameChar ignoreCase) s needle 0) := by
  have hindex : SimpleWildcardMatcher.indexOf ⟨needle, false, true, ignoreCase⟩ s [] o =
      indexOfIgnoreCase s [] needle ignoreCase 0 1 := by
    simp [SimpleWildcardMatcher.indexOf]
  rw [hindex]
  rcases indexOfIgnoreCase_spec ignoreCase hs hn hne 0 1 with
    ⟨k, hk, ⟨-, hlt, hat⟩, -⟩ | ⟨hnone, hnowhere⟩
  · have hzero : k = 0 := by omega
    subst hzero
    exact .inr ⟨hk, hat⟩
  · exact .inl ⟨hnone, hnowhere 0 (by decide) (by decide)⟩

/-- The last segment is looked for at the end of the text, wherever the search is. -/
theorem indexOf_last (hs : IsAscii s) {needle : List Char} (hn : IsAscii needle)
    (hne : needle ≠ []) (o : Int) :
    SimpleWildcardMatcher.indexOf ⟨needle, true, false, ignoreCase⟩ s [] o ≠ -1 ↔
      ∃ i, At (sameChar ignoreCase) s needle i ∧ i + needle.length = s.length := by
  have hindex : SimpleWildcardMatcher.indexOf ⟨needle, true, false, ignoreCase⟩ s [] o =
      indexOfIgnoreCase s [] needle ignoreCase (s.length - needle.length) s.length := by
    simp [SimpleWildcardMatcher.indexOf]
  rw [hindex]
  have hpos := List.length_pos_iff.mpr hne
  by_cases hlong : (s.length : Int) - needle.length < 0
  · -- The segment is longer than the text.
    rw [indexOfIgnoreCase, if_pos hlong]
    constructor
    · intro h
      exact absurd rfl h
    · rintro ⟨i, -, hend⟩
      omega
  · obtain ⟨o', ho'⟩ := Int.eq_ofNat_of_zero_le (Int.not_lt.mp hlong)
    rw [ho']
    rcases indexOfIgnoreCase_spec ignoreCase hs hn hne o' s.length with
      ⟨k, hk, ⟨hle, -, hat⟩, -⟩ | ⟨hnone, hnowhere⟩
    · rw [hk]
      have := hat.length_le hne
      constructor
      · intro _
        exact ⟨k, hat, by omega⟩
      · intro _
        omega
    · rw [hnone]
      constructor
      · intro h
        exact absurd rfl h
      · rintro ⟨i, hat, hend⟩
        exact absurd hat (hnowhere i (by omega) (by omega))

end

/-! ### Runs of segments -/

section

variable (same : Char → Char → Prop) (s : List Char)

/-- The segments between the first and the last one find place, where the search starts over at
    each empty one. -/
def RunsFit : List (List Char) → Nat → Prop
  | [], o => o ≤ s.length
  | l :: ls, o =>
    if l = [] then o ≤ s.length ∧ RunsFit ls 0
    else ∃ i, o ≤ i ∧ At same s l i ∧ RunsFit ls (i + l.length)

variable {same s}

/-- In terms of the runs between the empty segments. -/
theorem runsFit_iff {ls : List (List Char)} {o : Nat} {run : List (List Char)}
    {runs : List (List (List Char))} (h : ls.splitOn [] = run :: runs) :
    RunsFit same s ls o ↔
      Fits same s run o s.length ∧ ∀ run ∈ runs, Fits same s run 0 s.length := by
  induction ls generalizing o run runs with
  | nil =>
    rw [List.splitOn_nil] at h
    cases h
    simp [RunsFit, Fits]
  | cons l ls ih =>
    obtain ⟨run', runs', hsplit⟩ := List.exists_cons_of_ne_nil (List.splitOn_ne_nil [] ls)
    rw [List.splitOn_cons_eq_if_modifyHead, hsplit] at h
    unfold RunsFit
    by_cases hnil : l = []
    · rw [if_pos (by simp [hnil])] at h
      cases h
      rw [if_pos hnil, ih hsplit]
      simp [Fits]
    · rw [if_neg (by simpa using hnil)] at h
      cases h
      rw [if_neg hnil]
      simp only [ih hsplit]
      constructor
      · rintro ⟨i, hi, hl, hrun, hruns⟩
        exact ⟨⟨i, hi, hl, hrun⟩, hruns⟩
      · rintro ⟨⟨i, hi, hl, hrun⟩, hruns⟩
        exact ⟨i, hi, hl, hrun, hruns⟩

/-- The leftmost place of a segment is as good as any. -/
theorem runsFit_cons_iff {l : List Char} {o k : Nat} (hnil : l ≠ [])
    (h : Leftmost same s l o k) (ls : List (List Char)) :
    RunsFit same s (l :: ls) o ↔ RunsFit same s ls (k + l.length) := by
  obtain ⟨run, runs, hsplit⟩ := List.exists_cons_of_ne_nil (List.splitOn_ne_nil [] ls)
  have hcons : (l :: ls).splitOn [] = (l :: run) :: runs := by
    rw [List.splitOn_cons_eq_if_modifyHead, if_neg (by simpa using hnil), hsplit,
      List.modifyHead_cons]
  rw [runsFit_iff hcons, runsFit_iff hsplit, h.fits_cons_iff]

/-! ### The pieces of a pattern -/

/-- The pieces of a pattern with a wildcard, placed in the text. -/
theorem forall_pieces_iff (first last : List Char)
    (ls : List (List Char)) :
    (∀ piece ∈ pieces (first :: (ls ++ [last])), SegmentsAt same s piece 0) ↔
      At same s first 0 ∧ RunsFit same s ls first.length ∧
        ∃ i, At same s last i ∧ i + last.length = s.length := by
  obtain ⟨run, runs, hsplit⟩ := List.exists_cons_of_ne_nil (List.splitOn_ne_nil [] ls)
  have hpieces : pieces (first :: (ls ++ [last])) =
      (first :: (run ++ [[]])) :: (runs.map fun run => [] :: (run ++ [[]])) ++ [[[], last]] := by
    rcases hrest : ls ++ [last] with _ | ⟨second, rest⟩
    · simp at hrest
    · simp only [pieces, ← hrest, List.dropLast_concat, List.getLast_concat, hsplit]
      rfl
  have hrun (l : List Char) (run : List (List Char)) :
      SegmentsAt same s (l :: (run ++ [[]])) 0 ↔
        At same s l 0 ∧ Fits same s run l.length s.length := by
    rw [segmentsAt_append_singleton]
    simp [At]
  have hlast : SegmentsAt same s [[], last] 0 ↔
      ∃ i, At same s last i ∧ i + last.length = s.length := by
    simp [SegmentsAt, At]
  rw [hpieces, runsFit_iff hsplit]
  simp only [List.cons_append, List.mem_cons, List.mem_append, List.mem_map, List.not_mem_nil,
    or_false, forall_eq_or_imp, hrun]
  constructor
  · rintro ⟨⟨hfirst, hfits⟩, hrest⟩
    refine ⟨hfirst, ⟨hfits, fun r hr => ?_⟩, hlast.mp (hrest _ (.inr rfl))⟩
    exact ((hrun [] r).mp (hrest _ (.inl ⟨r, hr, rfl⟩))).2
  · rintro ⟨hfirst, ⟨hfits, hruns⟩, hend⟩
    refine ⟨⟨hfirst, hfits⟩, ?_⟩
    rintro piece (⟨r, hr, rfl⟩ | rfl)
    · exact (hrun [] r).mpr ⟨trivial, hruns r hr⟩
    · exact hlast.mpr hend

/-- A text that the whole pattern matches is matched by each of its pieces. -/
theorem segmentsAt_pieces {segments : List (List Char)}
    (h : SegmentsAt same s segments 0) : ∀ piece ∈ pieces segments, SegmentsAt same s piece 0 := by
  rcases segments with _ | ⟨first, _ | ⟨second, rest⟩⟩
  · cases h
  · intro piece hpiece
    cases List.mem_singleton.mp hpiece
    exact h
  · obtain ⟨ls, last, hrest⟩ : ∃ ls last, second :: rest = ls ++ [last] :=
      ⟨_, _, (List.dropLast_concat_getLast (List.cons_ne_nil second rest)).symm⟩
    rw [hrest] at h ⊢
    obtain ⟨hfirst, i, hfits, hlast, hend⟩ := segmentsAt_append_singleton.mp h
    obtain ⟨run, runs, hsplit, hrun, hruns⟩ := hfits.runs
    have hi : i ≤ s.length := by omega
    rw [forall_pieces_iff, runsFit_iff hsplit]
    rw [Nat.zero_add] at hrun
    refine ⟨hfirst, ⟨hrun.mono (Nat.le_refl _) hi, fun r hr => ?_⟩, i, hlast, hend⟩
    exact (hruns r hr).mono (Nat.le_refl _) hi

/-! ### Going back -/

variable {first last : List Char} {ls : List (List Char)}

/-- There is a first place where there is any. -/
theorem exists_leftmost {l : List Char} {o j : Nat} (hj : o ≤ j) (hat : At same s l j) :
    ∃ k, Leftmost same s l o k := by
  classical
  have hex : ∃ k, o ≤ k ∧ At same s l k := ⟨j, hj, hat⟩
  have hfirst := Nat.find_spec hex
  exact ⟨Nat.find hex, hfirst.1, hfirst.2, fun i hi hl => Nat.find_min' hex ⟨hi, hl⟩⟩

/-- A search that does not go back has found places one behind the other. -/
theorem FindsAhead.fits {start stop i : Nat} (h : FindsAhead same s last ls start stop)
    (hruns : RunsFit same s ls start) (hlast : At same s last i)
    (hend : i + last.length = s.length) : Fits same s ls stop i := by
  induction ls generalizing start stop with
  | nil => exact h i hlast hend
  | cons l ls ih =>
    by_cases hnil : l = []
    · -- The empty segment takes no room, wherever the search starts over.
      rw [FindsAhead, if_pos hnil] at h
      rw [RunsFit, if_pos hnil] at hruns
      refine ⟨stop, Nat.le_refl _, ?_, ?_⟩
      · rw [hnil]
        trivial
      · rw [hnil]
        exact ih h hruns.2
    · obtain ⟨j, hj, hat, -⟩ : ∃ j, start ≤ j ∧ At same s l j ∧ RunsFit same s ls (j + l.length) := by
        rwa [RunsFit, if_neg hnil] at hruns
      obtain ⟨k, hk⟩ := exists_leftmost hj hat
      rw [FindsAhead, if_neg hnil] at h
      obtain ⟨hstop, hahead⟩ := h k hk
      rw [runsFit_cons_iff hnil hk] at hruns
      exact ⟨k, hstop, hk.at_, ih hahead hruns⟩

/-- Without an empty segment only the last one can lie behind the search, and it does not where the
    segments fit in front of it. -/
theorem findsAhead_of_fits {stop : Nat} (hnil : [] ∉ ls) (hstop : stop ≤ s.length)
    (h : ∀ i, RunsFit same s ls stop → At same s last i → i + last.length = s.length →
      Fits same s ls stop i) : FindsAhead same s last ls stop stop := by
  induction ls generalizing stop with
  | nil =>
    intro i hlast hend
    exact h i hstop hlast hend
  | cons l ls ih =>
    obtain ⟨hl, hls⟩ : l ≠ [] ∧ [] ∉ ls := by
      rw [List.mem_cons, not_or] at hnil
      exact ⟨Ne.symm hnil.1, hnil.2⟩
    rw [FindsAhead, if_neg hl]
    intro k hk
    refine ⟨hk.le, ih hls (hk.at_.length_le hl) fun i hruns hlast hend => ?_⟩
    rw [← hk.fits_cons_iff]
    exact h i ((runsFit_cons_iff hl hk ls).mpr hruns) hlast hend

/-- Where the search does not go back, what it finds is the whole pattern. -/
theorem segmentsAt_of_findsAhead (hruns : RunsFit same s ls first.length) {i : Nat}
    (hfirst : At same s first 0) (hlast : At same s last i) (hend : i + last.length = s.length)
    (h : FindsAhead same s last ls first.length first.length) :
    SegmentsAt same s (first :: (ls ++ [last])) 0 := by
  rw [segmentsAt_append_singleton, Nat.zero_add]
  exact ⟨hfirst, i, h.fits hruns hlast hend, hlast, hend⟩

/-! ### The segments of a pattern -/

/-- A pattern with a wildcard has more than one segment. -/
theorem splitOn_of_mem {p : List Char} (h : '*' ∈ p) :
    ∃ first second rest, p.splitOn '*' = first :: second :: rest := by
  obtain ⟨before, after, rfl⟩ := List.append_of_mem h
  obtain ⟨first, rest, hbefore⟩ :=
    List.exists_cons_of_ne_nil (List.splitOn_ne_nil '*' before)
  obtain ⟨second, rest', hafter⟩ :=
    List.exists_cons_of_ne_nil (List.splitOn_ne_nil '*' after)
  rw [List.splitOn_append_cons_self, hbefore, hafter]
  cases rest with
  | nil => exact ⟨first, second, rest', rfl⟩
  | cons l rest => exact ⟨first, l, rest ++ second :: rest', rfl⟩

/-- The first segment is empty where the pattern starts with a wildcard. -/
theorem head?_splitOn {p : List Char} (hp : p ≠ []) :
    (p.splitOn '*').head? = some [] ↔ p.head? = some '*' := by
  cases p with
  | nil => exact absurd rfl hp
  | cons a p =>
    obtain ⟨first, rest, hsplit⟩ := List.exists_cons_of_ne_nil (List.splitOn_ne_nil '*' p)
    rw [List.splitOn_cons_eq_if_modifyHead, hsplit]
    by_cases ha : a = '*' <;> simp [ha]

/-- The last segment is empty where the pattern ends with a wildcard. -/
theorem getLast?_splitOn {p : List Char} (hp : p ≠ []) :
    (p.splitOn '*').getLast? = some [] ↔ p.getLast? = some '*' := by
  induction p with
  | nil => exact absurd rfl hp
  | cons a p ih =>
    rw [List.splitOn_cons_eq_if_modifyHead]
    by_cases hnil : p = []
    · subst hnil
      by_cases ha : a = '*' <;> simp [ha]
    · have hrest := ih hnil
      obtain ⟨first, rest, hsplit⟩ := List.exists_cons_of_ne_nil (List.splitOn_ne_nil '*' p)
      obtain ⟨b, q, rfl⟩ := List.exists_cons_of_ne_nil hnil
      rw [hsplit] at hrest ⊢
      rw [List.getLast?_cons_cons, ← hrest]
      by_cases ha : a = '*'
      · rw [if_pos (by simp [ha]), List.getLast?_cons_cons]
      · rw [if_neg (by simpa using ha), List.modifyHead_cons]
        cases rest with
        | nil =>
          -- A pattern with one segment is that segment.
          have hfirst : ['*'].intercalate ((b :: q).splitOn '*') = b :: q :=
            List.intercalate_splitOn '*'
          rw [hsplit] at hfirst
          have hfirst : first = b :: q := by simpa using hfirst
          simp [hfirst]
        | cons second rest => rw [List.getLast?_cons_cons, List.getLast?_cons_cons]
end

section

variable [InvariantCulture] {s : List Char} (ignoreCase : Bool)

/-! ### The loop over the segments -/

omit [InvariantCulture] in
/-- The matchers of the segments after the first one. -/
theorem simpleMatchers_append_singleton (startsWith endsWith : Bool) (ls : List (List Char))
    (last : List Char) :
    simpleMatchers ignoreCase startsWith endsWith false (ls ++ [last]) =
      ls.map (fun l => ⟨l, true, true, ignoreCase⟩) ++
        [⟨last, true, endsWith, ignoreCase⟩] := by
  induction ls with
  | nil => rfl
  | cons l ls ih =>
    rcases hrest : ls ++ [last] with _ | ⟨l', ls'⟩
    · simp at hrest
    · rw [hrest] at ih
      rw [List.cons_append, hrest]
      simp only [simpleMatchers, ih]
      rfl

/-- The loop from the second segment on. -/
theorem matchesInOrder_iff (hs : IsAscii s) (startsWith : Bool) {ls : List (List Char)}
    {last : List Char} (hls : ∀ l ∈ ls, IsAscii l) (hlast : IsAscii last) {o : Nat}
    (ho : o ≤ s.length) :
    matchesInOrder s []
        (simpleMatchers ignoreCase startsWith (last = []) false (ls ++ [last])) o ↔
      RunsFit (sameChar ignoreCase) s ls o ∧
        ∃ i, At (sameChar ignoreCase) s last i ∧ i + last.length = s.length := by
  rw [simpleMatchers_append_singleton]
  induction ls generalizing o with
  | nil =>
    simp only [List.map_nil, List.nil_append, matchesInOrder, RunsFit, ho, true_and]
    by_cases hnil : last = []
    · subst hnil
      simp [indexOf_between_nil, At]
    · rw [← indexOf_last ignoreCase hs hlast hnil o]
      simp [hnil]
  | cons l ls ih =>
    have hrest {o' : Nat} (ho' : o' ≤ s.length) :=
      ih (fun l' hl' => hls l' (List.mem_cons_of_mem _ hl')) ho'
    simp only [List.map_cons, List.cons_append, matchesInOrder]
    by_cases hnil : l = []
    · -- The search starts over.
      subst hnil
      unfold RunsFit
      rw [indexOf_between_nil, if_neg (by omega), if_pos rfl]
      have hoffset : (0 : Int) + ([] : List Char).length = (0 : Nat) := rfl
      rw [hoffset, hrest (Nat.zero_le _)]
      simp [ho]
    · rcases indexOf_between ignoreCase hs (hls l List.mem_cons_self) hnil o with
        ⟨hnone, hnowhere⟩ | ⟨k, hk, hleftmost⟩
      · unfold RunsFit
        rw [hnone, if_pos rfl, if_neg hnil]
        constructor
        · intro h
          cases h
        · rintro ⟨⟨i, hi, hl, -⟩, -⟩
          exact absurd hl (hnowhere i hi)
      · have hle := hleftmost.at_.length_le hnil
        rw [hk, if_neg (by omega), ← Int.natCast_add, hrest hle, runsFit_cons_iff hnil hleftmost]

/-- A pattern without wildcards is compared as a whole. -/
theorem verbatim_matches_iff (hs : IsAscii s) {pattern : List Char} (hp : IsAscii pattern)
    (hstar : '*' ∉ pattern) :
    (WildcardMatcher.verbatim pattern ignoreCase).matches s ↔
      Language '*' (sameChar ignoreCase) pattern s := by
  have hmatches (l t : List Char) : (WildcardMatcher.verbatim l ignoreCase).matches t ↔
      if ignoreCase then l.map toUpperInvariant = t.map toUpperInvariant else l = t := by
    unfold WildcardMatcher.matches equalsOrdinalIgnoreCase
    cases ignoreCase <;> simp
  induction pattern generalizing s with
  | nil =>
    rw [hmatches]
    cases s with
    | nil => simp [Language.nil]
    | cons b t =>
      constructor
      · intro h
        cases ignoreCase <;> simp at h
      · intro h
        cases h
  | cons a pattern ih =>
    have ha : a ≠ '*' := fun h => hstar (by simp [h])
    rw [language_cons_symbol ha]
    cases s with
    | nil =>
      rw [hmatches]
      cases ignoreCase <;> simp
    | cons b t =>
      have hrest := ih (s := t) (fun c hc => hs c (List.mem_cons_of_mem _ hc))
        (fun c hc => hp c (List.mem_cons_of_mem _ hc)) (fun h => hstar (by simp [h]))
      have hsame : sameChar ignoreCase a b ↔
          if ignoreCase then toUpperInvariant a = toUpperInvariant b else a = b := by
        have ha := hp a List.mem_cons_self
        have hb := hs b List.mem_cons_self
        unfold sameChar
        rw [InvariantCulture.toUpperInvariant_ascii a ha,
          InvariantCulture.toUpperInvariant_ascii b hb, toUpper_eq_iff_toLower_eq ha hb]
      rw [hmatches] at hrest ⊢
      simp only [List.getElem?_cons_zero, Option.some.injEq, List.drop_succ_cons, List.drop_zero,
        exists_eq_left', ← hrest, hsame]
      cases ignoreCase <;> simp

/-- A matcher matches exactly the texts that each piece of its pattern matches. -/
theorem ofPattern_matches_iff (hs : IsAscii s) {pattern : List Char} (hp : IsAscii pattern) :
    (WildcardMatcher.ofPattern pattern ignoreCase).matches s ↔
      ∀ piece ∈ pieces (pattern.splitOn '*'), SegmentsAt (sameChar ignoreCase) s piece 0 := by
  by_cases hstar : '*' ∈ pattern
  · have hne : pattern ≠ [] := List.ne_nil_of_mem hstar
    obtain ⟨first, second, rest, hsplit⟩ := splitOn_of_mem hstar
    obtain ⟨ls, last, hrest⟩ : ∃ ls last, second :: rest = ls ++ [last] :=
      ⟨_, _, (List.dropLast_concat_getLast (List.cons_ne_nil second rest)).symm⟩
    have hascii (l : List Char) (hl : l ∈ first :: second :: rest) : IsAscii l :=
      fun c hc => hp c ((List.sublist_of_mem_splitOn (hsplit ▸ hl)).subset hc)
    -- The flags of the outer matchers say whether their segments are empty.
    have hstart : decide (pattern.head? = some '*') = decide (first = []) := by
      rw [decide_eq_decide, ← head?_splitOn hne, hsplit]
      simp
    have hend : decide (pattern.getLast? = some '*') = decide (last = []) := by
      rw [decide_eq_decide, ← getLast?_splitOn hne, hsplit, hrest]
      simp [List.getLast?_cons]
    have hof : WildcardMatcher.ofPattern pattern ignoreCase = .compound pattern
        (⟨first, first = [], true, ignoreCase⟩ ::
          simpleMatchers ignoreCase (first = []) (last = []) false (ls ++ [last])) := by
      rw [← hrest]
      simp only [WildcardMatcher.ofPattern, hsplit, hstart, hend, simpleMatchers]
      rfl
    have hls : ∀ l ∈ ls, IsAscii l := fun l hl => hascii l (by simp [hrest, hl])
    have hlast : IsAscii last := hascii last (by simp [hrest])
    have hloop {o : Nat} (ho : o ≤ s.length) :=
      matchesInOrder_iff ignoreCase hs (first = []) hls hlast ho
    rw [hof, hsplit, hrest, forall_pieces_iff]
    simp only [WildcardMatcher.matches, matchesInOrder]
    by_cases hfirst : first = []
    · subst hfirst
      have hoffset : (0 : Int) + ([] : List Char).length = (0 : Nat) := rfl
      have hindex : SimpleWildcardMatcher.indexOf
          ⟨[], decide (([] : List Char) = []), true, ignoreCase⟩ s [] 0 = 0 :=
        indexOf_between_nil ignoreCase s 0
      rw [hindex, if_neg (by omega), hoffset, hloop (Nat.zero_le _)]
      simp [At]
    · simp only [hfirst, decide_false]
      rcases indexOf_first ignoreCase hs (hascii first List.mem_cons_self) hfirst 0
        with ⟨hnone, hnot⟩ | ⟨hfound, hat⟩
      · simp [hnone, hnot]
      · have hle := hat.length_le hfirst
        rw [hfound, if_neg (by omega), Int.zero_add, ← hloop (by omega)]
        simp [hat, hfirst]
  · have hsplit := List.splitOn_eq_singleton hstar
    have hstart : pattern.head? ≠ some '*' := fun h => hstar (List.mem_of_head? h)
    have hend : pattern.getLast? ≠ some '*' := fun h => hstar (List.mem_of_getLast? h)
    have hof : WildcardMatcher.ofPattern pattern ignoreCase = .verbatim pattern ignoreCase := by
      simp [WildcardMatcher.ofPattern, hsplit, hstart, hend]
    rw [hof, verbatim_matches_iff ignoreCase hs hp hstar, language_iff_segmentsAt_zero, hsplit]
    simp [pieces]

omit [InvariantCulture] in
/-- `ValueOf` takes the case prefix off. -/
theorem valueOf_eq (wildcardString : String) :
    WildcardMatcher.valueOf wildcardString =
      .ofPattern (stripCasePrefix wildcardString.toList).2
        (stripCasePrefix wildcardString.toList).1 := by
  unfold WildcardMatcher.valueOf stripCasePrefix
  simp only
  split
  · rfl
  · split <;> rfl

omit [InvariantCulture] in
theorem isAscii_stripCasePrefix {cs : List Char} (h : IsAscii cs) :
    IsAscii (stripCasePrefix cs).2 := by
  intro c hc
  unfold stripCasePrefix at hc
  split at hc
  · exact h c (List.mem_of_mem_drop hc)
  · split at hc
    · exact h c (List.mem_of_mem_drop hc)
    · exact h c hc

/-- `ValueOf(wildcardString).Matches(s)`: each piece of the pattern has to match. -/
theorem matches_iff_pieces {wildcardString s : String} (hp : IsAscii wildcardString.toList)
    (hs : IsAscii s.toList) :
    (WildcardMatcher.valueOf wildcardString).matches s.toList ↔
      ∀ piece ∈ pieces ((stripCasePrefix wildcardString.toList).2.splitOn '*'),
        SegmentsAt (sameChar (stripCasePrefix wildcardString.toList).1) s.toList piece 0 := by
  rw [valueOf_eq, ofPattern_matches_iff _ hs (isAscii_stripCasePrefix hp)]

omit [InvariantCulture] in
theorem inLanguage_iff (wildcardString s : String) :
    InLanguage wildcardString s ↔
      SegmentsAt (sameChar (stripCasePrefix wildcardString.toList).1) s.toList
        ((stripCasePrefix wildcardString.toList).2.splitOn '*') 0 :=
  language_iff_segmentsAt_zero _

/-- No text of the language is missed. -/
theorem matches_of_inLanguage {wildcardString s : String} (hp : IsAscii wildcardString.toList)
    (hs : IsAscii s.toList) (h : InLanguage wildcardString s) :
    (WildcardMatcher.valueOf wildcardString).matches s.toList := by
  rw [matches_iff_pieces hp hs]
  exact segmentsAt_pieces ((inLanguage_iff wildcardString s).mp h)

omit [InvariantCulture] in
/-- What the condition says of a pattern with its segments named. -/
theorem neverGoesBack_iff {wildcardString s : String} {ignoreCase : Bool}
    {pattern first last : List Char} {ls : List (List Char)}
    (hstrip : stripCasePrefix wildcardString.toList = (ignoreCase, pattern))
    (hsplit : pattern.splitOn '*' = first :: (ls ++ [last])) :
    NeverGoesBack wildcardString s ↔
      (At (sameChar ignoreCase) s.toList first 0 →
        FindsAhead (sameChar ignoreCase) s.toList last ls first.length first.length) := by
  unfold NeverGoesBack
  rw [hstrip]
  simp only [hsplit]
  rcases hrest : ls ++ [last] with _ | ⟨second, rest⟩
  · simp at hrest
  · simp only [← hrest, List.dropLast_concat, List.getLast_concat]

section

variable {ignoreCase : Bool} {wildcardString s : String} {pattern first last : List Char}
  {ls : List (List Char)}

/-- Where the search stays ahead, the pieces stand one after the other. -/
theorem agrees_of_findsAhead (hp : IsAscii wildcardString.toList) (hs : IsAscii s.toList)
    (hstrip : stripCasePrefix wildcardString.toList = (ignoreCase, pattern))
    (hsplit : pattern.splitOn '*' = first :: (ls ++ [last]))
    (hahead : At (sameChar ignoreCase) s.toList first 0 →
      FindsAhead (sameChar ignoreCase) s.toList last ls first.length first.length) :
    (WildcardMatcher.valueOf wildcardString).matches s.toList ↔
      InLanguage wildcardString s := by
  have hmatches := matches_iff_pieces hp hs
  have hlanguage := inLanguage_iff wildcardString s
  rw [hstrip, hsplit] at hmatches hlanguage
  rw [forall_pieces_iff] at hmatches
  refine ⟨fun hmatch => ?_, matches_of_inLanguage hp hs⟩
  obtain ⟨hfirst, hruns, i, hlast, hend⟩ := hmatches.mp hmatch
  exact hlanguage.mpr (segmentsAt_of_findsAhead hruns hfirst hlast hend (hahead hfirst))

/-- Without an empty segment in between, the search stays ahead where the answer is right. -/
theorem findsAhead_of_agrees (hp : IsAscii wildcardString.toList) (hs : IsAscii s.toList)
    (hstrip : stripCasePrefix wildcardString.toList = (ignoreCase, pattern))
    (hsplit : pattern.splitOn '*' = first :: (ls ++ [last])) (hnil : [] ∉ ls)
    (hagrees : (WildcardMatcher.valueOf wildcardString).matches s.toList ↔
      InLanguage wildcardString s)
    (hfirst : At (sameChar ignoreCase) s.toList first 0) :
    FindsAhead (sameChar ignoreCase) s.toList last ls first.length first.length := by
  have hmatches := matches_iff_pieces hp hs
  have hlanguage := inLanguage_iff wildcardString s
  rw [hstrip, hsplit] at hmatches hlanguage
  rw [forall_pieces_iff] at hmatches
  have hlength : first.length ≤ s.toList.length := by
    by_cases hempty : first = []
    · simp [hempty]
    · simpa using hfirst.length_le hempty
  refine findsAhead_of_fits hnil hlength fun i hruns hlast hend => ?_
  have hwhole := hlanguage.mp (hagrees.mp (hmatches.mpr ⟨hfirst, hruns, i, hlast, hend⟩))
  obtain ⟨-, j, hfits, -, hj⟩ := segmentsAt_append_singleton.mp hwhole
  -- The last segment stands at the end in one place only.
  obtain rfl : j = i := by omega
  rwa [Nat.zero_add] at hfits

end

/-- **Wildcard matching is glob matching** where the search does not go back in the text; and
    where no two wildcards stand side by side, only there. -/
theorem matches_iff_inLanguage_of_neverGoesBack {wildcardString s : String}
    (hp : IsAscii wildcardString.toList) (hs : IsAscii s.toList) :
    (NeverGoesBack wildcardString s →
      ((WildcardMatcher.valueOf wildcardString).matches s.toList ↔
        InLanguage wildcardString s)) ∧
    (WildcardsApart wildcardString →
      (((WildcardMatcher.valueOf wildcardString).matches s.toList ↔
          InLanguage wildcardString s) ↔ NeverGoesBack wildcardString s)) := by
  rcases hstrip : stripCasePrefix wildcardString.toList with ⟨ignoreCase, pattern⟩
  rcases hsplit : pattern.splitOn '*' with _ | ⟨first, _ | ⟨second, rest⟩⟩
  · exact absurd hsplit (List.splitOn_ne_nil _ _)
  · -- Without a wildcard the pattern is its own piece.
    have hagrees : (WildcardMatcher.valueOf wildcardString).matches s.toList ↔
        InLanguage wildcardString s := by
      rw [matches_iff_pieces hp hs, inLanguage_iff, hstrip, hsplit]
      simp [pieces]
    have hnever : NeverGoesBack wildcardString s := by
      unfold NeverGoesBack
      rw [hstrip]
      simp only [hsplit]
    exact ⟨fun _ => hagrees, fun _ => iff_of_true hagrees hnever⟩
  · obtain ⟨ls, last, hrest⟩ : ∃ ls last, second :: rest = ls ++ [last] :=
      ⟨_, _, (List.dropLast_concat_getLast (List.cons_ne_nil second rest)).symm⟩
    rw [hrest] at hsplit
    rw [neverGoesBack_iff hstrip hsplit]
    have hagrees := agrees_of_findsAhead hp hs hstrip hsplit
    refine ⟨hagrees, fun hapart => ⟨fun hiff => ?_, hagrees⟩⟩
    have hnil : [] ∉ ls := by
      rw [WildcardsApart, hstrip, hsplit] at hapart
      simpa using hapart
    exact findsAhead_of_agrees hp hs hstrip hsplit hnil hiff

end

section

attribute [local instance] InvariantCulture.ascii

/-- A pattern with a wildcard in the middle, and a text in which nothing overlaps. -/
theorem matches_iff_inLanguage_of_neverGoesBack_urls :
    ((WildcardMatcher.valueOf "(?-i)/foo/*/baz*").matches "/foo/bar/bazar".toList ↔
        InLanguage "(?-i)/foo/*/baz*" "/foo/bar/bazar") ∧
      (((WildcardMatcher.valueOf "(?-i)/foo/*/baz*").matches "/foo/bar/bazar".toList ↔
          InLanguage "(?-i)/foo/*/baz*" "/foo/bar/bazar") ↔
        NeverGoesBack "(?-i)/foo/*/baz*" "/foo/bar/bazar") := by
  have hp : IsAscii "(?-i)/foo/*/baz*".toList := by
    rw [isAscii_iff]
    decide
  have hs : IsAscii "/foo/bar/bazar".toList := by
    rw [isAscii_iff]
    decide
  have hapart : WildcardsApart "(?-i)/foo/*/baz*" := by
    unfold WildcardsApart
    decide
  have hnever : NeverGoesBack "(?-i)/foo/*/baz*" "/foo/bar/bazar" := by
    have hstrip : stripCasePrefix "(?-i)/foo/*/baz*".toList = (false, "/foo/*/baz*".toList) := by
      decide
    have hsplit : "/foo/*/baz*".toList.splitOn '*' =
        "/foo/".toList :: (["/baz".toList] ++ [[]]) := by decide
    rw [neverGoesBack_iff hstrip hsplit]
    rintro - i ⟨hstart, hat, -⟩
    refine ⟨hstart, fun _ _ hend => ?_⟩
    -- `/baz` ends in the text, and the empty segment stands at its end.
    have hfits := hat.length_le (by decide)
    simp only [List.length_nil, Nat.add_zero] at hend
    omega
  have hagrees := matches_iff_inLanguage_of_neverGoesBack hp hs
  exact ⟨hagrees.1 hnever, hagrees.2 hapart⟩

/-- The slash of the text is taken twice: `/foo/` at its beginning and `/baz` at its end. -/
theorem matches_iff_inLanguage_counterexample :
    ¬ ∀ wildcardString s : String, IsAscii wildcardString.toList → IsAscii s.toList →
      ((WildcardMatcher.valueOf wildcardString).matches s.toList ↔
        InLanguage wildcardString s) := by
  intro h
  have hp : IsAscii "/foo/*/baz".toList := by
    rw [isAscii_iff]
    decide
  have hs : IsAscii "/foo/baz".toList := by
    rw [isAscii_iff]
    decide
  have hmatches : (WildcardMatcher.valueOf "/foo/*/baz").matches "/foo/baz".toList := by decide
  have hlanguage := (inLanguage_iff _ _).mp ((h _ _ hp hs).mp hmatches)
  have hsplit : (stripCasePrefix "/foo/*/baz".toList).2.splitOn '*' =
      ["/foo/".toList, "/baz".toList] := by decide
  rw [hsplit] at hlanguage
  -- Nine characters do not find place in eight.
  obtain ⟨-, i, hi, -, hend⟩ := hlanguage
  simp at hi hend
  omega

end

end ApmAgent
