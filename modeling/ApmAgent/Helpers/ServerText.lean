import ApmAgent.Framework.Split
import ApmAgent.Helpers.DbConnectionStringParser
import Mathlib.Data.List.DropRight

/-! # Server values

  What the text helpers of the connection string parser do, and the parts a
  server value is cut into before its address and its port are read.
-/

namespace ApmAgent

/-! ### Trimming -/

section

variable {p : Char → Bool}

theorem trimBy_eq_rdropWhile (p : Char → Bool) (cs : List Char) :
    trimBy p cs = (cs.dropWhile p).rdropWhile p := rfl

/-- A text whose first and last characters stay is not changed. -/
theorem trimBy_of_ends {cs : List Char} (hhead : ∀ c ∈ cs.head?, p c = false)
    (hlast : ∀ c ∈ cs.getLast?, p c = false) : trimBy p cs = cs := by
  have hdrop : cs.dropWhile p = cs := by
    cases cs with
    | nil => rfl
    | cons c cs => exact List.dropWhile_cons_of_neg (by simp [hhead c rfl])
  rw [trimBy_eq_rdropWhile, hdrop, List.rdropWhile_eq_self_iff]
  intro hne
  simp [hlast (cs.getLast hne) (List.getLast?_eq_some_getLast hne)]

/-- What is trimmed around a text makes no difference. -/
theorem trimBy_pad {l r : List Char} (hl : ∀ c ∈ l, p c) (cs : List Char) (hr : ∀ c ∈ r, p c) :
    trimBy p (l ++ cs ++ r) = trimBy p cs := by
  unfold trimBy
  rw [List.append_assoc, List.dropWhile_append_of_pos hl]
  by_cases hcs : (cs.dropWhile p).isEmpty = true
  · rw [List.dropWhile_append, if_pos hcs, List.dropWhile_eq_nil_iff.mpr hr,
      List.isEmpty_iff.mp hcs]
  · have hr' : ∀ c ∈ r.reverse, p c := by simpa using hr
    rw [List.dropWhile_append, if_neg hcs, List.reverse_append, List.dropWhile_append_of_pos hr']

theorem head?_trimBy {cs : List Char} {c : Char} (h : c ∈ (trimBy p cs).head?) : p c = false := by
  rw [trimBy_eq_rdropWhile] at h
  obtain ⟨rest, hrest⟩ := (List.rdropWhile_prefix p (l := cs.dropWhile p))
  have hne : cs.dropWhile p ≠ [] := by
    intro hnil
    simp [hnil] at h
  have hhead : (cs.dropWhile p).head? = some c := by
    rw [← hrest, List.head?_append, h, Option.some_or]
  rw [List.head?_eq_some_head hne, Option.some.injEq] at hhead
  have := List.head_dropWhile_not p hne
  rw [hhead] at this
  simpa using this

theorem getLast?_trimBy {cs : List Char} {c : Char} (h : c ∈ (trimBy p cs).getLast?) :
    p c = false := by
  rw [trimBy_eq_rdropWhile] at h
  have hne : (cs.dropWhile p).rdropWhile p ≠ [] := by
    intro hnil
    simp [hnil] at h
  rw [List.getLast?_eq_some_getLast hne, Option.mem_some_iff] at h
  subst h
  simpa using List.rdropWhile_last_not p _ hne

theorem trimBy_trimBy (cs : List Char) : trimBy p (trimBy p cs) = trimBy p cs :=
  trimBy_of_ends (fun _ h => head?_trimBy h) (fun _ h => getLast?_trimBy h)

/-- What follows a text that stays is trimmed at its end only. -/
theorem trimBy_append {cs : List Char} (hne : cs ≠ []) (hhead : ∀ c ∈ cs.head?, p c = false)
    (hlast : ∀ c ∈ cs.getLast?, p c = false) (rest : List Char) :
    trimBy p (cs ++ rest) = cs ++ rest.rdropWhile p := by
  have hdrop : (cs ++ rest).dropWhile p = cs ++ rest := by
    obtain ⟨c, cs', rfl⟩ := List.exists_cons_of_ne_nil hne
    exact List.dropWhile_cons_of_neg (by simp [hhead c rfl])
  have hreverse : cs.reverse.dropWhile p = cs.reverse := by
    have := (List.rdropWhile_eq_self_iff (p := p) (l := cs)).mpr fun hl => by
      simp [hlast (cs.getLast hl) (List.getLast?_eq_some_getLast hl)]
    rw [List.rdropWhile, List.reverse_eq_iff] at this
    exact this
  unfold trimBy List.rdropWhile
  rw [hdrop, List.reverse_append, List.dropWhile_append]
  by_cases hrest : (rest.reverse.dropWhile p).isEmpty = true
  · rw [if_pos hrest, hreverse, List.isEmpty_iff.mp hrest]
    simp
  · rw [if_neg hrest]
    simp

/-- A text is what is left of it with what has been trimmed around. -/
theorem exists_trimBy (p : Char → Bool) (cs : List Char) :
    ∃ l r, cs = l ++ trimBy p cs ++ r ∧ (∀ c ∈ l, p c) ∧ ∀ c ∈ r, p c := by
  refine ⟨cs.takeWhile p, ((cs.dropWhile p).reverse.takeWhile p).reverse, ?_, ?_, ?_⟩
  · unfold trimBy
    rw [List.append_assoc, ← List.reverse_append, List.takeWhile_append_dropWhile,
      List.reverse_reverse, List.takeWhile_append_dropWhile]
  · exact fun c hc => List.mem_takeWhile_imp hc
  · intro c hc
    exact List.mem_takeWhile_imp (List.mem_reverse.mp hc)

theorem trimBy_eq_nil_iff {cs : List Char} : trimBy p cs = [] ↔ ∀ c ∈ cs, p c := by
  rw [trimBy_eq_rdropWhile, List.rdropWhile_eq_nil_iff]
  constructor
  · intro h
    rw [← List.dropWhile_eq_nil_iff]
    cases hdrop : cs.dropWhile p with
    | nil => rfl
    | cons c rest =>
      have hne : cs.dropWhile p ≠ [] := by simp [hdrop]
      have hnot := List.head_dropWhile_not p hne
      rw [h _ (List.head_mem hne)] at hnot
      simp at hnot
  · intro h
    rw [List.dropWhile_eq_nil_iff.mpr h]
    simp

end

namespace DbConnectionStringParser

/-! ### Splitting -/

/-- A text that has the separator is cut at the first one. -/
theorem splitAtFirst_eq_some_iff {c : Char} {cs before after : List Char} :
    splitAtFirst c cs = some (before, after) ↔ cs = before ++ c :: after ∧ c ∉ before := by
  unfold splitAtFirst
  constructor
  · intro h
    cases hdrop : cs.dropWhile (· ≠ c) with
    | nil =>
      rw [hdrop] at h
      cases h
    | cons d rest =>
      rw [hdrop, Option.some.injEq, Prod.mk.injEq] at h
      obtain ⟨rfl, rfl⟩ := h
      have hd : d = c := by
        have hnot := List.head?_dropWhile_not (fun x => decide (x ≠ c)) cs
        rw [hdrop] at hnot
        simpa using hnot
      subst hd
      constructor
      · rw [← hdrop, List.takeWhile_append_dropWhile]
      · intro hmem
        simpa using List.mem_takeWhile_imp hmem
  · rintro ⟨rfl, hnot⟩
    have hall : ∀ d ∈ before, decide (d ≠ c) = true := by
      intro d hd
      simpa using fun heq : d = c => hnot (heq ▸ hd)
    rw [List.dropWhile_append_of_pos hall, List.takeWhile_append_of_pos hall]
    simp

theorem splitAtFirst_append {c : Char} {before : List Char} (hnot : c ∉ before)
    (after : List Char) : splitAtFirst c (before ++ c :: after) = some (before, after) :=
  splitAtFirst_eq_some_iff.mpr ⟨rfl, hnot⟩

theorem splitAtFirst_eq_none_iff {c : Char} {cs : List Char} :
    splitAtFirst c cs = none ↔ c ∉ cs := by
  constructor
  · intro h hmem
    obtain ⟨before, after, rfl, hnot⟩ := List.eq_append_cons_of_mem hmem
    rw [splitAtFirst_append hnot] at h
    cases h
  · intro hnot
    cases h : splitAtFirst c cs with
    | none => rfl
    | some parts =>
      have hcs := (splitAtFirst_eq_some_iff.mp h).1
      exact absurd (by simp [hcs]) hnot

/-- A text that has the separator is cut at the last one. -/
theorem splitAtLast_append {c : Char} {after : List Char} (hnot : c ∉ after)
    (before : List Char) : splitAtLast c (before ++ c :: after) = some (before, after) := by
  unfold splitAtLast
  have hall : ∀ d ∈ after.reverse, decide (d ≠ c) = true := by
    intro d hd
    simpa using fun heq : d = c => hnot (heq ▸ List.mem_reverse.mp hd)
  have hsuffix : (before ++ c :: after).reverse.takeWhile (· ≠ c) = after.reverse := by
    rw [List.reverse_append, List.reverse_cons, List.append_assoc,
      List.takeWhile_append_of_pos hall]
    simp
  have hlength : (before ++ c :: after).length = before.length + after.length + 1 := by
    simp [Nat.add_assoc]
  have htake : before.length + after.length + 1 - after.length - 1 = before.length := by omega
  simp only [hsuffix, hlength, List.length_reverse, List.reverse_reverse]
  rw [if_neg (by omega), htake, List.take_left]

theorem splitAtLast_eq_none_iff {c : Char} {cs : List Char} :
    splitAtLast c cs = none ↔ c ∉ cs := by
  constructor
  · intro h hmem
    obtain ⟨l, r, hcs, hnot⟩ := List.eq_append_cons_of_mem (List.mem_reverse.mpr hmem)
    have hcs' : cs = r.reverse ++ c :: l.reverse := by
      rw [← List.reverse_reverse cs, hcs]
      simp
    rw [hcs', splitAtLast_append (by simpa using hnot)] at h
    cases h
  · intro hnot
    unfold splitAtLast
    have hall : ∀ d ∈ cs.reverse, decide (d ≠ c) = true := by
      intro d hd
      simpa using fun heq : d = c => hnot (heq ▸ List.mem_reverse.mp hd)
    rw [List.takeWhile_eq_self_iff.mpr hall]
    simp

theorem splitAtLast_eq_some {c : Char} {cs before after : List Char}
    (h : splitAtLast c cs = some (before, after)) : cs = before ++ c :: after ∧ c ∉ after := by
  by_cases hmem : c ∈ cs
  · obtain ⟨l, r, hcs, hnot⟩ := List.eq_append_cons_of_mem (List.mem_reverse.mpr hmem)
    have hcs' : cs = r.reverse ++ c :: l.reverse := by
      rw [← List.reverse_reverse cs, hcs]
      simp
    have hnot' : c ∉ l.reverse := by simpa using hnot
    rw [hcs', splitAtLast_append hnot'] at h
    cases h
    exact ⟨hcs', hnot'⟩
  · rw [splitAtLast_eq_none_iff.mpr hmem] at h
    cases h

/-! ### Characters -/

theorem isNumberWhite_isWhiteSpace {c : Char} (h : isNumberWhite c = true) :
    isWhiteSpace c = true := by
  unfold isNumberWhite at h
  unfold isWhiteSpace
  simp only [Bool.or_eq_true, Bool.and_eq_true, decide_eq_true_eq] at h ⊢
  omega

theorem isDigit_iff {c : Char} : c.isDigit = true ↔ 48 ≤ c.toNat ∧ c.toNat ≤ 57 := by
  unfold Char.isDigit
  simp only [Bool.and_eq_true, decide_eq_true_eq, ge_iff_le, UInt32.le_iff_toNat_le]
  exact Iff.rfl

theorem isLatinLetter_iff {c : Char} :
    isLatinLetter c = true ↔
      (97 ≤ c.toNat ∧ c.toNat ≤ 122) ∨ (65 ≤ c.toNat ∧ c.toNat ≤ 90) := by
  unfold isLatinLetter
  simp only [Bool.or_eq_true, Bool.and_eq_true, decide_eq_true_eq, Char.le_def,
    UInt32.le_iff_toNat_le]
  exact Iff.rfl

/-- A character that becomes another one in upper case becomes a letter. -/
theorem toUpper_cases (c : Char) : c.toUpper = c ∨ isLatinLetter c.toUpper = true := by
  unfold Char.toUpper
  split
  · next h =>
    have hlow : 97 ≤ c.val.toNat := h.1
    have hhigh : c.val.toNat ≤ 122 := h.2
    have hval : c.val.toNat = c.toNat := rfl
    right
    simp only [isLatinLetter, Bool.or_eq_true, Bool.and_eq_true, decide_eq_true_eq,
      Char.le_def, UInt32.le_iff_toNat_le]
    right
    constructor
    · simp
      omega
    · simp
      omega
  · exact .inl rfl

theorem toUpper_of_not_letter {c : Char} (hletter : isLatinLetter c = false) :
    c.toUpper = c := by
  unfold Char.toUpper
  split
  · next h =>
    have hlower : isLatinLetter c = true := by
      simp only [isLatinLetter, Bool.or_eq_true, Bool.and_eq_true, decide_eq_true_eq]
      exact .inl h
    rw [hletter] at hlower
    cases hlower
  · rfl

/-- On ASCII texts the invariant culture does not matter. -/
theorem startsWithIgnoreCase_ascii [InvariantCulture] {start value : List Char}
    (hstart : ∀ c ∈ start, c.val < 128) (hvalue : ∀ c ∈ value.take start.length, c.val < 128) :
    startsWithIgnoreCase start value =
      decide ((value.take start.length).map Char.toUpper = start.map Char.toUpper) := by
  have hmap {cs : List Char} (hcs : ∀ c ∈ cs, c.val < 128) :
      cs.map toUpperInvariant = cs.map Char.toUpper :=
    List.map_congr_left fun c hc => InvariantCulture.toUpperInvariant_ascii c (hcs c hc)
  unfold startsWithIgnoreCase equalsOrdinalIgnoreCase
  rw [hmap hstart, hmap hvalue]

/-- A character of an ASCII prefix that is not a letter stands in the text itself. -/
theorem mem_of_startsWithIgnoreCase [InvariantCulture] {start value : List Char} {c : Char}
    (hstart : ∀ c ∈ start, c.val < 128) (hvalue : ∀ c ∈ value.take start.length, c.val < 128)
    (h : startsWithIgnoreCase start value = true) (hc : c ∈ start)
    (hletter : isLatinLetter c = false) : c ∈ value.take start.length := by
  rw [startsWithIgnoreCase_ascii hstart hvalue, decide_eq_true_eq] at h
  have hmem : c.toUpper ∈ start.map Char.toUpper := List.mem_map_of_mem hc
  rw [← h, toUpper_of_not_letter hletter] at hmem
  obtain ⟨d, hd, heq⟩ := List.mem_map.mp hmem
  obtain hsame | hupper := toUpper_cases d
  · rw [hsame] at heq
    exact heq ▸ hd
  · rw [heq, hletter] at hupper
    cases hupper

theorem toUpper_eq_iff_of_not_letter {c s : Char} (hletter : isLatinLetter s = false) :
    c.toUpper = s.toUpper ↔ c = s := by
  rw [toUpper_of_not_letter hletter]
  constructor
  · intro h
    obtain hsame | hupper := toUpper_cases c
    · exact hsame.symm.trans h
    · rw [h, hletter] at hupper
      cases hupper
  · rintro rfl
    exact toUpper_of_not_letter hletter

/-- Texts that begin differently. -/
theorem startsWithIgnoreCase_cons_ne [InvariantCulture] {s c : Char} (hs : s.val < 128)
    (hc : c.val < 128) (hne : c.toUpper ≠ s.toUpper) (start cs : List Char) :
    startsWithIgnoreCase (s :: start) (c :: cs) = false := by
  rw [Bool.eq_false_iff]
  intro h
  have hheads := congrArg List.head? (of_decide_eq_true h)
  have hupper : toUpperInvariant c = toUpperInvariant s := by simpa using hheads
  rw [InvariantCulture.toUpperInvariant_ascii c hc,
    InvariantCulture.toUpperInvariant_ascii s hs] at hupper
  exact hne hupper

theorem toUpperInvariant_ne [InvariantCulture] {s c : Char} (hs : s.val < 128) (hc : c.val < 128)
    (hletter : isLatinLetter s = false) (hne : c ≠ s) :
    toUpperInvariant c ≠ toUpperInvariant s := by
  rw [InvariantCulture.toUpperInvariant_ascii c hc, InvariantCulture.toUpperInvariant_ascii s hs]
  exact fun h => hne ((toUpper_eq_iff_of_not_letter hletter).mp h)

/-- A prefix with a character that no character of the text is equal to, ignoring the case. -/
theorem startsWithIgnoreCase_of_toUpper [InvariantCulture] {start value : List Char} {c : Char}
    (hc : c ∈ start) (hnot : ∀ d ∈ value, toUpperInvariant d ≠ toUpperInvariant c) :
    startsWithIgnoreCase start value = false := by
  rw [Bool.eq_false_iff]
  intro h
  have hmap := of_decide_eq_true h
  have hmem : toUpperInvariant c ∈ start.map toUpperInvariant := List.mem_map_of_mem hc
  rw [← hmap] at hmem
  obtain ⟨d, hd, heq⟩ := List.mem_map.mp hmem
  exact hnot d (List.mem_of_mem_take hd) heq

/-- A text does not begin with a prefix if a character of the prefix is missing in front of one
    that the prefix does not have. -/
theorem startsWithIgnoreCase_cut [InvariantCulture] {start front : List Char} {c x : Char}
    (hc : c ∈ start) (hmissing : ∀ d ∈ front, toUpperInvariant d ≠ toUpperInvariant c)
    (hother : ∀ d ∈ start, toUpperInvariant d ≠ toUpperInvariant x) (rest : List Char) :
    startsWithIgnoreCase start (front ++ x :: rest) = false := by
  by_cases hlength : start.length ≤ front.length
  · have htake : (front ++ x :: rest).take start.length = front.take start.length :=
      List.take_append_of_le_length hlength
    unfold startsWithIgnoreCase
    rw [htake]
    exact startsWithIgnoreCase_of_toUpper hc hmissing
  · have hmem : x ∈ (front ++ x :: rest).take start.length := by
      have hle : (front ++ [x]).length ≤ start.length := by
        rw [List.length_append, List.length_singleton]
        omega
      rw [List.append_cons, List.take_append, List.take_of_length_le hle]
      simp
    rw [Bool.eq_false_iff]
    intro h
    have hupper := List.mem_map_of_mem (f := toUpperInvariant) hmem
    unfold startsWithIgnoreCase equalsOrdinalIgnoreCase at h
    rw [of_decide_eq_true h] at hupper
    obtain ⟨d, hd, heq⟩ := List.mem_map.mp hupper
    exact hother d hd heq

/-! ### Port numbers -/

/-- The decimal notation of a number, with white space around it, is read as that number. -/
theorem tryParseInt_decimal {l r : List Char} (hl : ∀ c ∈ l, isNumberWhite c = true) {n : Nat}
    (hn : n < 2 ^ 31) (hr : ∀ c ∈ r, isNumberWhite c = true) :
    tryParseInt (String.ofList (l ++ Nat.toDigits 10 n ++ r)) = some (Int32.ofInt n) := by
  have hdigit := isDigit_of_mem_toDigits n
  obtain ⟨d, ds, hds⟩ := List.exists_cons_of_ne_nil (Nat.toDigits_ne_nil (n := n) (b := 10))
  have hd := isDigit_iff.mp (hdigit d (by simp [hds]))
  -- A digit is neither white space nor a sign.
  have hwhite : (l ++ Nat.toDigits 10 n ++ r).dropWhile isNumberWhite =
      Nat.toDigits 10 n ++ r := by
    have hdwhite : ¬isNumberWhite d = true := by
      unfold isNumberWhite
      simp only [Bool.or_eq_true, Bool.and_eq_true, decide_eq_true_eq]
      omega
    rw [List.append_assoc, List.dropWhile_append_of_pos hl, hds, List.cons_append,
      List.dropWhile_cons_of_neg hdwhite]
  have hsign : takeSign (Nat.toDigits 10 n ++ r) = (false, Nat.toDigits 10 n ++ r) := by
    rw [hds, List.cons_append]
    unfold takeSign
    split
    · next heq =>
      cases heq
      exact absurd hd (by decide)
    · next heq =>
      cases heq
      exact absurd hd (by decide)
    · rfl
  have hnodigit : ∀ c ∈ r.head?, c.isDigit = false := by
    intro c hc
    have hcwhite := hr c (List.mem_of_mem_head? hc)
    rw [Bool.eq_false_iff]
    intro hcdigit
    have := isDigit_iff.mp hcdigit
    unfold isNumberWhite at hcwhite
    simp only [Bool.or_eq_true, Bool.and_eq_true, decide_eq_true_eq] at hcwhite
    omega
  have hdigits : (Nat.toDigits 10 n ++ r).takeWhile Char.isDigit = Nat.toDigits 10 n :=
    List.takeWhile_append_of_head hdigit hnodigit
  have hrest : (Nat.toDigits 10 n ++ r).dropWhile Char.isDigit = r :=
    List.dropWhile_append_of_head hdigit hnodigit
  have htrailing : isTrailing r = true := by
    unfold isTrailing
    rw [List.dropWhile_eq_nil_iff.mpr hr]
    rfl
  have hmin : Int32.minValue.toInt = -2 ^ 31 := by decide
  have hmax : Int32.maxValue.toInt = 2 ^ 31 - 1 := by decide
  have hrange : Int32.minValue.toInt ≤ (n : Int) ∧ (n : Int) ≤ Int32.maxValue.toInt := by
    omega
  unfold tryParseInt
  simp only [String.toList_ofList, hwhite, hsign, hdigits, hrest, htrailing,
    digitsValue_toDigits]
  simp [hrange, Nat.toDigits_ne_nil]

theorem tryParseInt_blank {text : List Char} (h : isNullOrWhiteSpaceChars text = true) :
    tryParseInt (String.ofList text) = none := by
  have hblank : ∀ c ∈ text.dropWhile isNumberWhite, isWhiteSpace c = true := fun c hc =>
    List.all_eq_true.mp h c ((List.dropWhile_sublist _).subset hc)
  unfold tryParseInt
  rw [String.toList_ofList]
  generalize text.dropWhile isNumberWhite = rest at hblank
  -- White space is neither a sign nor a digit.
  have hsign : takeSign rest = (false, rest) := by
    unfold takeSign
    split
    · exact absurd (hblank '-' (by simp)) (by decide)
    · exact absurd (hblank '+' (by simp)) (by decide)
    · rfl
  have hdigits : rest.takeWhile Char.isDigit = [] := by
    cases rest with
    | nil => rfl
    | cons c cs =>
      have hc := hblank c (by simp)
      have hdigit : ¬c.isDigit = true := by
        rw [isDigit_iff]
        unfold isWhiteSpace at hc
        simp only [Bool.or_eq_true, Bool.and_eq_true, decide_eq_true_eq] at hc
        omega
      simp [hdigit]
  simp [hsign, hdigits]

/-- A port text is a number that is not negative. -/
theorem parsePortValue_eq (text : List Char) (d : Destination) :
    parsePortValue text d =
      match tryParseInt (String.ofList text) with
      | some port => if port < 0 then .error ⟨⟩ else .ok (d.setPort (some port))
      | none => .error ⟨⟩ := by
  unfold parsePortValue
  by_cases hblank : isNullOrWhiteSpaceChars text = true
  · rw [if_pos hblank, tryParseInt_blank hblank]
  · rw [if_neg hblank]
    cases tryParseInt (String.ofList text) <;> rfl

/-! ### The parts of a server value -/

/-- How `ParseServerWithOptionalPort` takes a value. -/
inductive ServerParts where
  /-- The whole value is the address. -/
  | whole (value : List Char)
  /-- The whole value is the address in brackets. -/
  | bracketed (value : List Char)
  | withPort (address port : List Char)
  deriving DecidableEq, Repr

/-- The parts of a trimmed value. -/
def serverParts (value : List Char) : ServerParts :=
  match splitAtFirst ',' value with
  | some (address, port) => .withPort address port
  | none =>
    match splitAtFirst ':' value, splitAtLast ':' value with
    | some (beforeFirst, afterFirst), some (beforeLast, afterLast) =>
      if beforeFirst = beforeLast then .withPort beforeFirst afterFirst
      else if value.head? ≠ some '[' then .whole value
      else if value.getLast? = some ']' then .bracketed value
      else .withPort beforeLast afterLast
    | _, _ => .whole value

/-- What the parts of a value do to the destination. -/
def ServerParts.apply : ServerParts → Destination → Except FormatException Destination
  | .whole value, destination => .ok (destination.setAddress (String.ofList value))
  | .bracketed value, destination => do
    let address ← parseAddress value
    return destination.setAddress address
  | .withPort address port, destination => parseAddressAndPort address port destination

/-- The address that the parts of a value give. -/
def ServerParts.readAddress : ServerParts → Except FormatException String
  | .whole value => .ok (String.ofList value)
  | .bracketed value => parseAddress value
  | .withPort address _ => parseAddress address

/-- The text of the port, when there is one. -/
def ServerParts.portText : ServerParts → Option (List Char)
  | .whole _ => none
  | .bracketed _ => none
  | .withPort _ port => some port

/-- The address is set first, then the port. -/
theorem ServerParts.apply_eq (parts : ServerParts) (d : Destination) :
    parts.apply d =
      parts.readAddress >>= fun address =>
        (match parts.portText with
          | none => .ok (d.setAddress address)
          | some port => parsePortValue port (d.setAddress address)) := by
  cases parts <;> rfl

/-- A value is cut into its parts, and these are read. -/
theorem parseServerWithOptionalPort_eq (value : List Char) (destination : Destination) :
    parseServerWithOptionalPort value destination =
      if trimChars value = [] then .error ⟨⟩
      else (serverParts (trimChars value)).apply destination := by
  have htrim : trimChars (trimChars value) = trimChars value := trimBy_trimBy value
  unfold parseServerWithOptionalPort serverParts
  extract_lets v
  by_cases hempty : v = []
  · rw [if_pos hempty, if_pos hempty]
  · rw [if_neg hempty, if_neg hempty]
    rcases splitAtFirst ',' v with _ | ⟨address, port⟩
    · rcases splitAtFirst ':' v with _ | ⟨beforeFirst, afterFirst⟩
      · simp only [htrim, v]
        rfl
      · rcases splitAtLast ':' v with _ | ⟨beforeLast, afterLast⟩
        · simp only [htrim, v]
          rfl
        · simp only
          split
          · rfl
          · split
            · rfl
            · split <;> rfl
    · rfl

end DbConnectionStringParser

end ApmAgent
