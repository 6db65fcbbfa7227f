import Mathlib.Data.List.Basic
import Mathlib.Data.List.Infix

/-! # Backtracking

  A backtracking matcher of regular expressions tries the ways to match a pattern
  one after the other and takes the first one: a lazy repetition starts with as
  few characters as there may be, a greedy one with as many. The pattern has to
  match a prefix of the text.

  * `run_isSome_iff`: a match is found exactly if there is one;
  * `run_lazy`: in front of a separator, a lazy repetition takes the characters
    before the first one;
  * `accepts_suffix`: whatever is tried for a repetition in front of a separator,
    the pattern behind it has to match behind the first one.
-/

namespace Backtracking

/-! ### Patterns -/

inductive Piece where
  | char (c : Char)
  /-- At least `min` characters that satisfy `p`. -/
  | many (p : Char → Bool) (min : Nat) (isLazy isCaptured : Bool)

/-- The characters of a text, one by one. -/
def literal (s : List Char) : List Piece := s.map .char

variable {β : Type} (p : Char → Bool) (k : List Char → Option β)

/-- The shortest front that is followed by what `k` accepts. -/
def shortest : List Char → Option (List Char × β)
  | [] => (k []).map fun b => ([], b)
  | c :: rest =>
    match k (c :: rest) with
    | some b => some ([], b)
    | none => if p c then (shortest rest).map fun r => (c :: r.1, r.2) else none

/-- The longest front that is followed by what `k` accepts. -/
def longest : List Char → Option (List Char × β)
  | [] => (k []).map fun b => ([], b)
  | c :: rest =>
    match if p c then longest rest else none with
    | some r => some (c :: r.1, r.2)
    | none => (k (c :: rest)).map fun b => ([], b)

/-- `min` characters, and what follows them. -/
def atLeast (more : List Char → Option (List Char × β)) : Nat → List Char →
    Option (List Char × β)
  | 0, s => more s
  | _ + 1, [] => none
  | min + 1, c :: rest =>
    if p c then (atLeast more min rest).map fun r => (c :: r.1, r.2) else none

/-- The texts of the captured repetitions, where there is a match. -/
def run : List Piece → List Char → Option (List (List Char))
  | [], _ => some []
  | .char _ :: _, [] => none
  | .char c :: pieces, d :: rest => if d = c then run pieces rest else none
  | .many p min isLazy isCaptured :: pieces, s =>
    let more := if isLazy then shortest p (run pieces) else longest p (run pieces)
    (atLeast p more min s).map fun r => if isCaptured then r.1 :: r.2 else r.2

/-- The pattern matches a prefix of the text. -/
def Accepts : List Piece → List Char → Prop
  | [], _ => True
  | .char c :: pieces, s => ∃ rest, s = c :: rest ∧ Accepts pieces rest
  | .many p min _ _ :: pieces, s =>
    ∃ front rest, s = front ++ rest ∧ (∀ c ∈ front, p c) ∧ min ≤ front.length ∧
      Accepts pieces rest

/-! ### A match is found -/

variable {p k}

/-- There is a front of characters that is followed by what `k` accepts. -/
def Splits (p : Char → Bool) (k : List Char → Option β) (min : Nat) (s : List Char) : Prop :=
  ∃ front rest, s = front ++ rest ∧ (∀ c ∈ front, p c) ∧ min ≤ front.length ∧ (k rest).isSome

theorem splits_zero_nil : Splits p k 0 [] ↔ (k []).isSome := by
  simp [Splits]

theorem splits_zero_cons {c : Char} {rest : List Char} :
    Splits p k 0 (c :: rest) ↔ (k (c :: rest)).isSome ∨ (p c ∧ Splits p k 0 rest) := by
  constructor
  · rintro ⟨front, after, hs, hp, -, hk⟩
    cases front with
    | nil =>
      rw [hs]
      exact .inl hk
    | cons d front =>
      cases hs
      exact .inr ⟨hp c (by simp), front, after, rfl, fun d hd => hp d (by simp [hd]),
        Nat.zero_le _, hk⟩
  · rintro (hk | ⟨hc, front, after, rfl, hp, -, hk⟩)
    · exact ⟨[], c :: rest, rfl, by simp, Nat.zero_le _, hk⟩
    · exact ⟨c :: front, after, rfl, by simpa [hc] using hp, Nat.zero_le _, hk⟩

theorem splits_succ_cons {min : Nat} {c : Char} {rest : List Char} :
    Splits p k (min + 1) (c :: rest) ↔ p c ∧ Splits p k min rest := by
  constructor
  · rintro ⟨front, after, hs, hp, hmin, hk⟩
    cases front with
    | nil => cases hmin
    | cons d front =>
      cases hs
      exact ⟨hp c (by simp), front, after, rfl, fun d hd => hp d (by simp [hd]),
        Nat.le_of_succ_le_succ hmin, hk⟩
  · rintro ⟨hc, front, after, rfl, hp, hmin, hk⟩
    exact ⟨c :: front, after, rfl, by simpa [hc] using hp, Nat.succ_le_succ hmin, hk⟩

theorem shortest_isSome_iff (s : List Char) : (shortest p k s).isSome ↔ Splits p k 0 s := by
  induction s with
  | nil => simp [shortest, splits_zero_nil]
  | cons c rest ih =>
    rw [splits_zero_cons, ← ih, shortest]
    cases hk : k (c :: rest) with
    | some b => simp
    | none => by_cases hp : p c <;> simp [hp]

theorem longest_isSome_iff (s : List Char) : (longest p k s).isSome ↔ Splits p k 0 s := by
  induction s with
  | nil => simp [longest, splits_zero_nil]
  | cons c rest ih =>
    rw [splits_zero_cons, ← ih, longest]
    by_cases hp : p c
    · cases longest p k rest <;> simp [hp]
    · simp [hp]

theorem atLeast_isSome_iff {more : List Char → Option (List Char × β)}
    (hmore : ∀ s, (more s).isSome ↔ Splits p k 0 s) (min : Nat) (s : List Char) :
    (atLeast p more min s).isSome ↔ Splits p k min s := by
  induction min generalizing s with
  | zero => exact hmore s
  | succ min ih =>
    cases s with
    | nil => simp [atLeast, Splits]
    | cons c rest =>
      rw [splits_succ_cons, ← ih, atLeast]
      by_cases hp : p c <;> simp [hp]

theorem run_isSome_iff (pieces : List Piece) (s : List Char) :
    (run pieces s).isSome ↔ Accepts pieces s := by
  induction pieces generalizing s with
  | nil => simp [run, Accepts]
  | cons piece pieces ih =>
    cases piece with
    | char c =>
      cases s with
      | nil => simp [run, Accepts]
      | cons d rest =>
        by_cases hd : d = c <;> simp [run, Accepts, hd, ih]
    | many p min isLazy isCaptured =>
      have hsplits : Splits p (run pieces) min s ↔
          Accepts (.many p min isLazy isCaptured :: pieces) s := by
        simp [Splits, Accepts, ih]
      rw [run, Option.isSome_map, ← hsplits]
      refine atLeast_isSome_iff (fun s => ?_) min s
      cases isLazy with
      | true => exact shortest_isSome_iff s
      | false => exact longest_isSome_iff s

/-! ### Fields in front of a separator -/

theorem atLeast_lazy {sep : Char} {field rest : List Char} {b : β}
    (hk : ∀ s, s.head? ≠ some sep → k s = none) (hp : ∀ c ∈ field, p c)
    (hsep : sep ∉ field) (hb : k (sep :: rest) = some b) {min : Nat}
    (hmin : min ≤ field.length) :
    atLeast p (shortest p k) min (field ++ sep :: rest) = some (field, b) := by
  induction field generalizing min with
  | nil =>
    obtain rfl : min = 0 := Nat.le_zero.mp hmin
    simp [atLeast, shortest, hb]
  | cons c field ih =>
    have hc : p c = true := hp c (by simp)
    have hp' : ∀ d ∈ field, p d := fun d hd => hp d (by simp [hd])
    have hne : c ≠ sep := fun heq => hsep (by simp [heq])
    have hsep' : sep ∉ field := fun hmem => hsep (by simp [hmem])
    cases min with
    | succ min => simp [atLeast, hc, ih hp' hsep' (Nat.le_of_succ_le_succ hmin)]
    | zero =>
      have hnone : k (c :: (field ++ sep :: rest)) = none := hk _ (by simpa using hne)
      have ih' := ih hp' hsep' (Nat.zero_le field.length)
      rw [atLeast] at ih'
      simp [atLeast, shortest, hnone, hc, ih']

/-- A lazy repetition stops at the first separator the rest of the pattern goes on from. -/
theorem run_lazy {sep : Char} {pieces : List Piece} {field rest : List Char}
    {captures : List (List Char)} {min : Nat} (isCaptured : Bool) (hp : ∀ c ∈ field, p c)
    (hsep : sep ∉ field) (hmin : min ≤ field.length) (h : run pieces rest = some captures) :
    run (.many p min true isCaptured :: .char sep :: pieces) (field ++ sep :: rest) =
      some (if isCaptured then field :: captures else captures) := by
  have hk : ∀ s : List Char, s.head? ≠ some sep → run (.char sep :: pieces) s = none := by
    intro s hs
    cases s with
    | nil => rfl
    | cons d s => simp [run, show d ≠ sep by simpa using hs]
  rw [run, if_pos rfl, atLeast_lazy hk hp hsep (by simpa [run] using h) hmin, Option.map_some]

/-- A repetition does not stop before the first separator. -/
theorem accepts_suffix {sep : Char} {min : Nat} {isLazy isCaptured : Bool} {pieces : List Piece}
    {field tail s : List Char} (hsep : sep ∉ field) (hs : s <:+ field ++ sep :: tail)
    (h : Accepts (.many p min isLazy isCaptured :: .char sep :: pieces) s) :
    ∃ rest, rest <:+ tail ∧ Accepts pieces rest := by
  obtain ⟨front, _, rfl, -, -, rest, rfl, hrest⟩ := h
  refine ⟨rest, ?_, hrest⟩
  obtain ⟨before, heq⟩ := hs
  rw [← List.append_assoc] at heq
  rcases List.append_eq_append_iff.mp heq with ⟨between, hfield, hrest⟩ | ⟨between, -, htail⟩
  · cases between with
    | nil =>
      have hsame : rest = tail := by simpa using hrest
      rw [hsame]
    | cons c between =>
      cases hrest
      exact absurd (by simp [hfield]) hsep
  · cases between with
    | nil =>
      have hsame : tail = rest := by simpa using htail
      rw [hsame]
    | cons c between =>
      cases htail
      exact ⟨between ++ [sep], by simp⟩

/-! ### Texts -/

theorem accepts_literal {word s : List Char} {pieces : List Piece} :
    Accepts (literal word ++ pieces) s ↔ ∃ rest, s = word ++ rest ∧ Accepts pieces rest := by
  induction word generalizing s with
  | nil => simp [literal]
  | cons c word ih =>
    have hcons : literal (c :: word) ++ pieces = .char c :: (literal word ++ pieces) := rfl
    rw [hcons]
    constructor
    · rintro ⟨s, rfl, hs⟩
      obtain ⟨rest, rfl, hrest⟩ := ih.mp hs
      exact ⟨rest, rfl, hrest⟩
    · rintro ⟨rest, rfl, hrest⟩
      exact ⟨word ++ rest, rfl, ih.mpr ⟨rest, rfl, hrest⟩⟩

def Piece.isCaptured : Piece → Bool
  | .char _ => false
  | .many _ _ _ isCaptured => isCaptured

theorem exists_of_shortest {s : List Char} {r : List Char × β} (h : shortest p k s = some r) :
    ∃ rest, k rest = some r.2 := by
  induction s generalizing r with
  | nil =>
    obtain ⟨b, hb, rfl⟩ := Option.map_eq_some_iff.mp h
    exact ⟨[], hb⟩
  | cons c rest ih =>
    rw [shortest] at h
    split at h
    · next b hb =>
      cases h
      exact ⟨_, hb⟩
    · split at h
      · obtain ⟨r', hr', rfl⟩ := Option.map_eq_some_iff.mp h
        exact ih (r := r') hr'
      · cases h

theorem exists_of_longest {s : List Char} {r : List Char × β} (h : longest p k s = some r) :
    ∃ rest, k rest = some r.2 := by
  induction s generalizing r with
  | nil =>
    obtain ⟨b, hb, rfl⟩ := Option.map_eq_some_iff.mp h
    exact ⟨[], hb⟩
  | cons c rest ih =>
    rw [longest] at h
    split at h
    · next r' hr' =>
      cases h
      split at hr'
      · exact ih (r := r') hr'
      · cases hr'
    · obtain ⟨b, hb, rfl⟩ := Option.map_eq_some_iff.mp h
      exact ⟨_, hb⟩

theorem exists_of_atLeast {more : List Char → Option (List Char × β)}
    (hmore : ∀ s r, more s = some r → ∃ rest, k rest = some r.2) {min : Nat} {s : List Char}
    {r : List Char × β} (h : atLeast p more min s = some r) : ∃ rest, k rest = some r.2 := by
  induction min generalizing s r with
  | zero => exact hmore s r h
  | succ min ih =>
    cases s with
    | nil => cases h
    | cons c rest =>
      rw [atLeast] at h
      split at h
      · obtain ⟨r', hr', rfl⟩ := Option.map_eq_some_iff.mp h
        exact ih (r := r') hr'
      · cases h

/-- Without captures there is nothing to tell two matches apart. -/
theorem run_eq_nil {pieces : List Piece} (hpieces : ∀ piece ∈ pieces, piece.isCaptured = false)
    {s : List Char} {captures : List (List Char)} (h : run pieces s = some captures) :
    captures = [] := by
  induction pieces generalizing s captures with
  | nil => cases h; rfl
  | cons piece pieces ih =>
    have ih' (s : List Char) (captures : List (List Char)) (h : run pieces s = some captures) :
        captures = [] :=
      ih (fun piece hpiece => hpieces piece (by simp [hpiece])) h
    cases piece with
    | char c =>
      cases s with
      | nil => cases h
      | cons d rest =>
        simp only [run] at h
        split at h
        · exact ih' rest captures h
        · cases h
    | many p min isLazy isCaptured =>
      obtain rfl : isCaptured = false := hpieces (.many p min isLazy isCaptured) (by simp)
      obtain ⟨r, hr, rfl⟩ := Option.map_eq_some_iff.mp h
      obtain ⟨rest, hrest⟩ := exists_of_atLeast (k := run pieces) (fun s r hr => by
        cases isLazy with
        | true => exact exists_of_shortest hr
        | false => exact exists_of_longest hr) hr
      exact ih' rest r.2 hrest

end Backtracking
