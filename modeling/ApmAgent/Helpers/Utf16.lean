import Mathlib.Tactic.SplitIfs

/-! # UTF-16

  A .NET string is a sequence of UTF-16 code units. `Length` counts them,
  ordinal comparison goes by them (so a character beyond the basic plane, two
  surrogates, stands before some that have smaller code points), and
  `Substring` may cut between two surrogates. `utf16` gives the units of a
  text; `ofUtf16` is the text that arrives where such units are sent in UTF-8,
  a surrogate without its partner being replaced.

  * `utf16_injective`: the units determine the text;
  * `ofUtf16_utf16`: and it is read back from them;
  * `length_utf16_ofUtf16`: what is replaced keeps the length.
-/

namespace ApmAgent

/-! ### Writing -/

/-- The UTF-16 code units of a character. -/
def codeUnits (c : Char) : List Nat :=
  if c.toNat < 0x10000 then [c.toNat]
  else [0xD800 + (c.toNat - 0x10000) / 0x400, 0xDC00 + (c.toNat - 0x10000) % 0x400]

/-- The UTF-16 code units of a text. -/
def utf16 (cs : List Char) : List Nat := cs.flatMap codeUnits

@[simp] theorem utf16_nil : utf16 [] = [] := rfl

@[simp] theorem utf16_cons (c : Char) (cs : List Char) :
    utf16 (c :: cs) = codeUnits c ++ utf16 cs := rfl

@[simp] theorem utf16_append (cs ds : List Char) : utf16 (cs ++ ds) = utf16 cs ++ utf16 ds :=
  List.flatMap_append

/-- No character is a surrogate. -/
theorem not_surrogate (c : Char) : c.toNat < 0xD800 ∨ 0xDFFF < c.toNat := by
  rcases c.valid with h | ⟨h, -⟩
  · exact .inl h
  · exact .inr h

theorem toNat_lt (c : Char) : c.toNat < 0x110000 := by
  rcases c.valid with h | ⟨-, h⟩
  · exact Nat.lt_trans h (by decide)
  · exact h

/-- The first character of a text can be read off its units. -/
theorem codeUnits_append_inj {c d : Char} {us vs : List Nat}
    (h : codeUnits c ++ us = codeUnits d ++ vs) : c = d ∧ us = vs := by
  have hc := not_surrogate c
  have hd := not_surrogate d
  have hcLast := toNat_lt c
  have hdLast := toNat_lt d
  unfold codeUnits at h
  split at h <;> split at h <;>
    simp only [List.cons_append, List.nil_append, List.cons.injEq] at h
  · exact ⟨Char.toNat_inj.mp h.1, h.2⟩
  · omega
  · omega
  · refine ⟨Char.toNat_inj.mp ?_, h.2.2⟩
    omega

/-- A text has the units of no other one. -/
theorem utf16_injective : Function.Injective utf16 := by
  intro cs ds h
  induction cs generalizing ds with
  | nil =>
    cases ds with
    | nil => rfl
    | cons d ds =>
      exfalso
      simp only [utf16, List.flatMap_nil, List.flatMap_cons, codeUnits] at h
      split at h <;> cases h
  | cons c cs ih =>
    cases ds with
    | nil =>
      exfalso
      simp only [utf16, List.flatMap_nil, List.flatMap_cons, codeUnits] at h
      split at h <;> cases h
    | cons d ds =>
      obtain ⟨rfl, hrest⟩ := codeUnits_append_inj h
      rw [ih hrest]

/-! ### Reading -/

/-- A unit on its own. -/
def unitChar (u : Nat) : Char :=
  if u < 0xD800 ∨ 0xDFFF < u ∧ u < 0x10000 then Char.ofNat u else '\uFFFD'

/-- The text of some units, with U+FFFD for a surrogate without its partner. -/
def ofUtf16 : List Nat → List Char
  | [] => []
  | [u] => [unitChar u]
  | u :: v :: us =>
    if (0xD800 ≤ u ∧ u < 0xDC00) ∧ 0xDC00 ≤ v ∧ v < 0xE000 then
      Char.ofNat (0x10000 + (u - 0xD800) * 0x400 + (v - 0xDC00)) :: ofUtf16 us
    else unitChar u :: ofUtf16 (v :: us)

theorem unitChar_toNat {c : Char} (h : c.toNat < 0x10000) : unitChar c.toNat = c := by
  have hc := not_surrogate c
  rw [unitChar, if_pos (by omega), Char.ofNat_toNat]

/-- The units of a character are read as that character. -/
theorem ofUtf16_codeUnits_append (c : Char) (us : List Nat) :
    ofUtf16 (codeUnits c ++ us) = c :: ofUtf16 us := by
  have hc := not_surrogate c
  have hlast := toNat_lt c
  unfold codeUnits
  split_ifs with hbasic
  · cases us with
    | nil =>
      show [unitChar c.toNat] = [c]
      rw [unitChar_toNat hbasic]
    | cons u us =>
      rw [List.singleton_append, ofUtf16, if_neg (by omega), unitChar_toNat hbasic]
  · have hpair : 0x10000 + (0xD800 + (c.toNat - 0x10000) / 0x400 - 0xD800) * 0x400 +
        (0xDC00 + (c.toNat - 0x10000) % 0x400 - 0xDC00) = c.toNat := by
      omega
    rw [List.cons_append, List.cons_append, List.nil_append, ofUtf16, if_pos (by omega), hpair,
      Char.ofNat_toNat]

theorem ofUtf16_utf16 (cs : List Char) : ofUtf16 (utf16 cs) = cs := by
  induction cs with
  | nil => rfl
  | cons c cs ih => rw [utf16_cons, ofUtf16_codeUnits_append, ih]

theorem toNat_ofNat {n : Nat} (h : n < 0xD800 ∨ 0xDFFF < n ∧ n < 0x110000) :
    (Char.ofNat n).toNat = n := by
  have hvalid : n.isValidChar := h
  rw [Char.ofNat, dif_pos hvalid]
  rfl

/-- A unit on its own stays one unit. -/
theorem length_codeUnits_unitChar (u : Nat) : (codeUnits (unitChar u)).length = 1 := by
  have hbasic : (unitChar u).toNat < 0x10000 := by
    unfold unitChar
    split_ifs with hu
    · rw [toNat_ofNat (by omega)]
      omega
    · decide
  rw [codeUnits, if_pos hbasic]
  rfl

/-- What is replaced is as long as what was there. -/
theorem length_utf16_ofUtf16 (us : List Nat) : (utf16 (ofUtf16 us)).length = us.length := by
  induction us using ofUtf16.induct with
  | case1 => rfl
  | case2 u => rw [ofUtf16, utf16_cons, utf16_nil, List.append_nil, length_codeUnits_unitChar]; rfl
  | case3 u v us hpair ih =>
    have hbeyond : ¬(Char.ofNat (0x10000 + (u - 0xD800) * 0x400 + (v - 0xDC00))).toNat <
        0x10000 := by
      rw [toNat_ofNat (by omega)]
      omega
    rw [ofUtf16, if_pos hpair, utf16_cons, List.length_append, ih, codeUnits, if_neg hbeyond]
    simp only [List.length_cons, List.length_nil]
    omega
  | case4 u v us hpair ih =>
    rw [ofUtf16, if_neg hpair, utf16_cons, List.length_append, ih, length_codeUnits_unitChar]
    simp only [List.length_cons]
    omega

/-! ### Strings -/

/-- The units of a string. -/
def unitsOf (s : String) : List Nat := utf16 s.toList

/-- `string.Length`. -/
def stringLength (s : String) : Nat := (unitsOf s).length

/-- The string of some units as it is sent. -/
def stringOf (units : List Nat) : String := String.ofList (ofUtf16 units)

@[simp] theorem stringOf_unitsOf (s : String) : stringOf (unitsOf s) = s := by
  rw [stringOf, unitsOf, ofUtf16_utf16, String.ofList_toList]

@[simp] theorem stringLength_stringOf (units : List Nat) :
    stringLength (stringOf units) = units.length := by
  rw [stringLength, unitsOf, stringOf, String.toList_ofList, length_utf16_ofUtf16]

@[simp] theorem unitsOf_append (s t : String) : unitsOf (s ++ t) = unitsOf s ++ unitsOf t := by
  rw [unitsOf, String.toList_append, utf16_append]
  rfl

@[simp] theorem stringLength_append (s t : String) :
    stringLength (s ++ t) = stringLength s + stringLength t := by
  rw [stringLength, unitsOf_append, List.length_append]
  rfl

end ApmAgent
