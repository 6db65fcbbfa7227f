import Mathlib.Data.List.Basic

/-! # Glob patterns

  In a glob pattern one symbol, the wildcard, stands for any list of symbols,
  and every other one for the symbols it is `same` as. `Language` gives the
  texts of a pattern.

  Matching works with the segments between the wildcards. `SegmentsAt` places
  them in a text, and `language_iff_segmentsAt` says that this is the language
  of the pattern. A search for segments one after the other may take the
  leftmost place each time: `Leftmost.fits_cons_iff`.
-/

universe u

namespace Glob

variable {α : Type u}

/-! ### The language of a pattern -/

/-- The texts a pattern stands for. -/
inductive Language (star : α) (same : α → α → Prop) : List α → List α → Prop where
  | nil : Language star same [] []
  | symbol {a b : α} {p s : List α} (ha : a ≠ star) (hab : same a b)
      (hrest : Language star same p s) : Language star same (a :: p) (b :: s)
  | wildcard {p s : List α} (gap : List α) (hrest : Language star same p s) :
      Language star same (star :: p) (gap ++ s)

/-! ### Places in a text -/

section

variable (same : α → α → Prop) (s : List α)

/-- The segment stands in the text at a position. -/
def At : List α → Nat → Prop
  | [], _ => True
  | a :: l, i => ∃ b, s[i]? = some b ∧ same a b ∧ At l (i + 1)

/-- The segments stand one after the other, the first one at a given position, and the last one
    ends the text. -/
def SegmentsAt : List (List α) → Nat → Prop
  | [], _ => False
  | [l], o => At same s l o ∧ o + l.length = s.length
  | l :: l' :: ls, o => At same s l o ∧ ∃ i, o + l.length ≤ i ∧ SegmentsAt (l' :: ls) i

/-- The segments find place, one after the other, between two positions. -/
def Fits : List (List α) → Nat → Nat → Prop
  | [], o, n => o ≤ n
  | l :: ls, o, n => ∃ i, o ≤ i ∧ At same s l i ∧ Fits ls (i + l.length) n

/-- The first place of a segment from a position on. -/
structure Leftmost (l : List α) (o i : Nat) : Prop where
  le : o ≤ i
  at_ : At same s l i
  least : ∀ j, o ≤ j → At same s l j → i ≤ j

end

variable {same : α → α → Prop} {s : List α}

theorem At.length_le {l : List α} {i : Nat} (h : At same s l i) (hl : l ≠ []) :
    i + l.length ≤ s.length := by
  induction l generalizing i with
  | nil => exact absurd rfl hl
  | cons a l ih =>
    obtain ⟨b, hb, -, hrest⟩ := h
    have hi := (List.getElem?_eq_some_iff.mp hb).1
    by_cases hl' : l = []
    · subst hl'
      exact hi
    · have hle := ih hrest hl'
      rw [List.length_cons]
      omega

/-- Behind the end of the text nothing but the empty segment stands. -/
theorem not_at_of_length_le {l : List α} (hl : l ≠ []) {i : Nat} (hi : s.length ≤ i) :
    ¬ At same s l i := by
  intro hat
  have hle := hat.length_le hl
  have hpos := List.length_pos_iff.mpr hl
  omega

/-- Only how the symbols of the segment compare with those of the text matters. -/
theorem at_congr {same' : α → α → Prop} {l : List α}
    (h : ∀ a ∈ l, ∀ b ∈ s, (same a b ↔ same' a b)) (i : Nat) :
    At same s l i ↔ At same' s l i := by
  induction l generalizing i with
  | nil => exact Iff.rfl
  | cons a l ih =>
    have hrest := ih (fun c hc => h c (List.mem_cons_of_mem a hc)) (i + 1)
    have hhead {b : α} (hb : s[i]? = some b) : same a b ↔ same' a b :=
      h a List.mem_cons_self b (List.mem_of_getElem? hb)
    constructor
    · rintro ⟨b, hb, hab, hl⟩
      exact ⟨b, hb, (hhead hb).mp hab, hrest.mp hl⟩
    · rintro ⟨b, hb, hab, hl⟩
      exact ⟨b, hb, (hhead hb).mpr hab, hrest.mpr hl⟩

theorem SegmentsAt.le {ls : List (List α)} {o : Nat} (h : SegmentsAt same s ls o) :
    o ≤ s.length := by
  induction ls generalizing o with
  | nil => cases h
  | cons l ls ih =>
    cases ls with
    | nil =>
      obtain ⟨-, hend⟩ := h
      omega
    | cons l' ls =>
      obtain ⟨-, i, hi, hrest⟩ := h
      have := ih hrest
      omega

/-! ### A pattern and its segments -/

/-- One symbol more at the front of the first segment. -/
theorem segmentsAt_cons_cons {a : α} {l : List α} {ls : List (List α)} {o : Nat} :
    SegmentsAt same s ((a :: l) :: ls) o ↔
      ∃ b, s[o]? = some b ∧ same a b ∧ SegmentsAt same s (l :: ls) (o + 1) := by
  have hlength : o + (a :: l).length = o + 1 + l.length := by
    rw [List.length_cons]
    omega
  cases ls with
  | nil =>
    simp only [SegmentsAt, At, hlength]
    constructor
    · rintro ⟨⟨b, hb, hab, hl⟩, hend⟩
      exact ⟨b, hb, hab, hl, hend⟩
    · rintro ⟨b, hb, hab, hl, hend⟩
      exact ⟨⟨b, hb, hab, hl⟩, hend⟩
  | cons l' ls =>
    simp only [SegmentsAt, At, hlength]
    constructor
    · rintro ⟨⟨b, hb, hab, hl⟩, hrest⟩
      exact ⟨b, hb, hab, hl, hrest⟩
    · rintro ⟨b, hb, hab, hl, hrest⟩
      exact ⟨⟨b, hb, hab, hl⟩, hrest⟩

/-- An empty first segment: the others may stand anywhere behind. -/
theorem segmentsAt_nil_cons {ls : List (List α)} (hls : ls ≠ []) {o : Nat} :
    SegmentsAt same s ([] :: ls) o ↔ ∃ i, o ≤ i ∧ SegmentsAt same s ls i := by
  cases ls with
  | nil => exact absurd rfl hls
  | cons l ls => simp [SegmentsAt, At]

theorem language_cons_star {star : α} {p t : List α} :
    Language star same (star :: p) t ↔ ∃ i, Language star same p (t.drop i) := by
  constructor
  · intro h
    cases h with
    | symbol ha hab hrest => exact absurd rfl ha
    | wildcard gap hrest => exact ⟨gap.length, by rwa [List.drop_left]⟩
  · rintro ⟨i, h⟩
    have hgap : Language star same (star :: p) (t.take i ++ t.drop i) := .wildcard (t.take i) h
    rwa [List.take_append_drop] at hgap

theorem language_cons_symbol {star a : α} (ha : a ≠ star) {p t : List α} :
    Language star same (a :: p) t ↔
      ∃ b, t[0]? = some b ∧ same a b ∧ Language star same p (t.drop 1) := by
  constructor
  · intro h
    cases h with
    | symbol ha hab hrest => exact ⟨_, rfl, hab, hrest⟩
    | wildcard gap hrest => exact absurd rfl ha
  · rintro ⟨b, hb, hab, hrest⟩
    cases t with
    | nil => cases hb
    | cons c t =>
      cases hb
      exact .symbol ha hab hrest

/-- The language of a pattern in terms of its segments. -/
theorem language_iff_segmentsAt [DecidableEq α] {star : α} (p : List α) {o : Nat}
    (ho : o ≤ s.length) :
    Language star same p (s.drop o) ↔ SegmentsAt same s (p.splitOn star) o := by
  -- The first symbol is the wildcard, which ends the first segment, or belongs to that segment.
  induction p generalizing o with
  | nil =>
    simp only [List.splitOn_nil, SegmentsAt, At, List.length_nil, true_and, Nat.add_zero]
    constructor
    · intro h
      generalize hdrop : s.drop o = t at h
      cases h
      have := List.drop_eq_nil_iff.mp hdrop
      omega
    · intro h
      rw [h, List.drop_length]
      exact .nil
  | cons a p ih =>
    rw [List.splitOn_cons_eq_if_modifyHead]
    by_cases ha : a = star
    · subst ha
      rw [language_cons_star, if_pos (beq_self_eq_true a),
        segmentsAt_nil_cons (List.splitOn_ne_nil a p)]
      constructor
      · rintro ⟨i, hi⟩
        rw [List.drop_drop] at hi
        by_cases hle : o + i ≤ s.length
        · exact ⟨o + i, by omega, (ih hle).mp hi⟩
        · -- A gap past the end is as good as one up to the end.
          rw [List.drop_eq_nil_of_le (by omega), ← List.drop_length (l := s)] at hi
          exact ⟨s.length, ho, (ih (Nat.le_refl _)).mp hi⟩
      · rintro ⟨i, hi, hrest⟩
        refine ⟨i - o, ?_⟩
        rw [List.drop_drop, show o + (i - o) = i by omega]
        exact (ih hrest.le).mpr hrest
    · rw [language_cons_symbol ha, if_neg (by simpa using ha)]
      obtain ⟨l, ls, hsplit⟩ := List.exists_cons_of_ne_nil (List.splitOn_ne_nil star p)
      rw [hsplit, List.modifyHead_cons, segmentsAt_cons_cons]
      refine exists_congr fun b => ?_
      rw [List.getElem?_drop, Nat.add_zero, List.drop_drop]
      refine and_congr_right fun hb => and_congr_right fun _ => ?_
      have ho' := (List.getElem?_eq_some_iff.mp hb).1
      rw [ih ho', hsplit]

theorem language_iff_segmentsAt_zero [DecidableEq α] {star : α} (p : List α) :
    Language star same p s ↔ SegmentsAt same s (p.splitOn star) 0 := by
  have hsegments : Language star same p (s.drop 0) ↔ SegmentsAt same s (p.splitOn star) 0 :=
    language_iff_segmentsAt p (Nat.zero_le s.length)
  rwa [List.drop_zero] at hsegments

/-! ### Segments one after the other -/

/-- The first and the last segment are anchored, those between them find place. -/
theorem segmentsAt_append_singleton {l last : List α} {ls : List (List α)} {o : Nat} :
    SegmentsAt same s (l :: (ls ++ [last])) o ↔
      At same s l o ∧ ∃ i, Fits same s ls (o + l.length) i ∧ At same s last i ∧
        i + last.length = s.length := by
  induction ls generalizing l o with
  | nil => rfl
  | cons m ls ih =>
    refine and_congr_right fun _ => ?_
    constructor
    · rintro ⟨j, hj, hrest⟩
      obtain ⟨hm, i, hfits, hlast⟩ := ih.mp hrest
      exact ⟨i, ⟨j, hj, hm, hfits⟩, hlast⟩
    · rintro ⟨i, ⟨j, hj, hm, hfits⟩, hlast⟩
      exact ⟨j, hj, ih.mpr ⟨hm, i, hfits, hlast⟩⟩

theorem Fits.mono {ls : List (List α)} {o o' n n' : Nat} (h : Fits same s ls o n) (ho : o' ≤ o)
    (hn : n ≤ n') : Fits same s ls o' n' := by
  induction ls generalizing o o' with
  | nil => exact Nat.le_trans ho (Nat.le_trans h hn)
  | cons l ls ih =>
    obtain ⟨i, hi, hl, hrest⟩ := h
    exact ⟨i, Nat.le_trans ho hi, hl, ih hrest (Nat.le_refl _)⟩

/-- If the segments fit at all, they fit behind the leftmost place of the first one. -/
theorem Leftmost.fits_cons_iff {l : List α} {o i : Nat} (h : Leftmost same s l o i)
    (ls : List (List α)) (n : Nat) :
    Fits same s (l :: ls) o n ↔ Fits same s ls (i + l.length) n := by
  constructor
  · rintro ⟨j, hj, hl, hrest⟩
    have := h.least j hj hl
    exact hrest.mono (by omega) (Nat.le_refl _)
  · intro hrest
    exact ⟨i, h.le, h.at_, hrest⟩

theorem Fits.le {ls : List (List α)} {o n : Nat} (h : Fits same s ls o n) : o ≤ n := by
  induction ls generalizing o with
  | nil => exact h
  | cons l ls ih =>
    obtain ⟨i, hi, -, hrest⟩ := h
    have := ih hrest
    omega

/-- Segments that fit one after the other also fit when the empty ones cut them into runs and
    only the first run has to respect the position. -/
theorem Fits.runs [DecidableEq α] {ls : List (List α)} {o n : Nat} (h : Fits same s ls o n) :
    ∃ run runs, ls.splitOn [] = run :: runs ∧ Fits same s run o n ∧
      ∀ run ∈ runs, Fits same s run 0 n := by
  induction ls generalizing o with
  | nil => exact ⟨[], [], List.splitOn_nil [], h, by simp⟩
  | cons l ls ih =>
    have hle := h.le
    obtain ⟨i, hi, hl, hrest⟩ := h
    obtain ⟨run, runs, hsplit, hrun, hruns⟩ := ih hrest
    rw [List.splitOn_cons_eq_if_modifyHead, hsplit]
    by_cases hnil : l = []
    · rw [if_pos (by simp [hnil])]
      refine ⟨[], run :: runs, rfl, hle, ?_⟩
      simp only [List.mem_cons, forall_eq_or_imp]
      exact ⟨hrun.mono (Nat.zero_le _) (Nat.le_refl _), hruns⟩
    · rw [if_neg (by simpa using hnil)]
      exact ⟨l :: run, runs, rfl, ⟨i, hi, hl, hrun⟩, hruns⟩

end Glob
