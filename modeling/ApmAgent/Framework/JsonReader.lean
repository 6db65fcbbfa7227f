import ApmAgent.Framework.Json

/-! # Reading JSON texts

  A reader for JSON texts, with white space wherever the grammar has it. How a
  character of a string literal is read is the reader's part of an `Escaping`.

  * `Json.readValue_text`: what was written is read back, up to a delimiter;
  * `Json.read_text`: a text is read back as the value it was written for;
  * `Json.NeverWritten.not_mem_text`: a character that is never written inside a literal,
    and is none of the grammar's, is in no text.
-/

/-! ### String literals -/

namespace Escaping

variable (E : Escaping)

/-- Reads the characters of a literal, and the closing quote. -/
def readBody : Nat → List Char → Option (List Char × List Char)
  | 0, _ => none
  | fuel + 1, cs =>
    match E.unescape cs with
    | some (c, rest) => (readBody fuel rest).map fun r => (c :: r.1, r.2)
    | none =>
      match cs with
      | '"' :: rest => some ([], rest)
      | _ => none

def readLiteral : List Char → Option (String × List Char)
  | '"' :: cs => (E.readBody (cs.length + 1) cs).map fun r => (String.ofList r.1, r.2)
  | _ => none

theorem escape_ne_nil (c : Char) : E.escape c ≠ [] := by
  intro hnil
  have hread := E.unescape_escape c ['"']
  rw [hnil, List.nil_append, E.unescape_quote] at hread
  cases hread

theorem length_le_body (s : List Char) : s.length ≤ (E.body s).length := by
  induction s with
  | nil => exact Nat.zero_le _
  | cons c s ih =>
    have hpos := List.length_pos_iff.mpr (E.escape_ne_nil c)
    simp only [body, List.flatMap_cons, List.length_append, List.length_cons] at ih ⊢
    omega

theorem readBody_body {fuel : Nat} (s : List Char) (rest : List Char) (hfuel : s.length < fuel) :
    E.readBody fuel (E.body s ++ '"' :: rest) = some (s, rest) := by
  induction s generalizing fuel with
  | nil =>
    obtain ⟨fuel, rfl⟩ := Nat.exists_eq_succ_of_ne_zero (Nat.ne_of_gt hfuel)
    simp [readBody, body, unescape_quote]
  | cons c s ih =>
    obtain ⟨fuel, rfl⟩ := Nat.exists_eq_succ_of_ne_zero (Nat.ne_zero_of_lt hfuel)
    have hlength : s.length < fuel := by simpa using hfuel
    have hrest := ih hlength
    simp only [body] at hrest
    simp [readBody, body, unescape_escape, hrest]

theorem readLiteral_literal (s : String) (rest : List Char) :
    E.readLiteral (E.literal s ++ rest) = some (s, rest) := by
  have hle := E.length_le_body s.toList
  have hfuel : s.toList.length < (E.body s.toList ++ '"' :: rest).length + 1 := by
    simp only [List.length_append]
    omega
  have hread := E.readBody_body s.toList rest hfuel
  simp only [literal, readLiteral, List.cons_append, List.append_assoc, List.nil_append, hread,
    Option.map_some, String.ofList_toList]

end Escaping

/-! ### Numbers -/

/-- Reads the longest number. -/
def readNumber (cs : List Char) : Option (NumberToken × List Char) :=
  match cs.takeWhile isNumberChar with
  | [] => none
  | first :: rest =>
    if h : (first.isDigit || first = '-') ∧ rest.all isNumberChar then
      some (⟨first, rest, h.1, List.all_eq_true.mp h.2⟩, cs.dropWhile isNumberChar)
    else none

theorem readNumber_chars (n : NumberToken) {rest : List Char} (h : Delimited rest) :
    readNumber (n.chars ++ rest) = some (n, rest) := by
  have hdrop : (n.chars ++ rest).dropWhile isNumberChar = rest :=
    List.dropWhile_append_of_head n.chars_ok h
  unfold readNumber
  rw [n.takeWhile_append h, hdrop]
  exact dif_pos ⟨n.first_ok, List.all_eq_true.mpr n.rest_ok⟩

namespace Json

/-! ### Values -/

def isWhiteSpace (c : Char) : Bool := c = ' ' || c = '\t' || c = '\n' || c = '\r'

/-- Passes over white space. -/
def skip (cs : List Char) : List Char := cs.dropWhile isWhiteSpace

section

variable (E : Escaping)

mutual

/-- Reads a value that starts with the first character. -/
def readValue : Nat → List Char → Option (Json × List Char)
  | 0, _ => none
  | fuel + 1, cs =>
    match cs with
    | 'n' :: 'u' :: 'l' :: 'l' :: rest => some (null, rest)
    | 't' :: 'r' :: 'u' :: 'e' :: rest => some (bool true, rest)
    | 'f' :: 'a' :: 'l' :: 's' :: 'e' :: rest => some (bool false, rest)
    | '"' :: rest => (E.readLiteral ('"' :: rest)).map fun r => (string r.1, r.2)
    | '[' :: rest =>
      if (skip rest).head? = some ']' then some (array [], (skip rest).tail)
      else
        (readValue fuel (skip rest)).bind fun r =>
          (readItemsTail fuel (skip r.2)).map fun rs => (array (r.1 :: rs.1), rs.2)
    | '{' :: rest =>
      if (skip rest).head? = some '}' then some (object [], (skip rest).tail)
      else
        (readMember fuel (skip rest)).bind fun r =>
          (readMembersTail fuel (skip r.2)).map fun rs => (object (r.1 :: rs.1), rs.2)
    | _ => (readNumber cs).map fun r => (number r.1, r.2)

/-- Reads the items after the first one. -/
def readItemsTail : Nat → List Char → Option (List Json × List Char)
  | 0, _ => none
  | _ + 1, ']' :: rest => some ([], rest)
  | fuel + 1, ',' :: rest =>
    (readValue fuel (skip rest)).bind fun r =>
      (readItemsTail fuel (skip r.2)).map fun rs => (r.1 :: rs.1, rs.2)
  | _ + 1, _ => none

/-- Reads a name and a value. -/
def readMember : Nat → List Char → Option ((String × Json) × List Char)
  | 0, _ => none
  | fuel + 1, cs =>
    (E.readLiteral cs).bind fun k =>
      match skip k.2 with
      | ':' :: rest => (readValue fuel (skip rest)).map fun r => ((k.1, r.1), r.2)
      | _ => none

/-- Reads the members after the first one. -/
def readMembersTail : Nat → List Char → Option (List (String × Json) × List Char)
  | 0, _ => none
  | _ + 1, '}' :: rest => some ([], rest)
  | fuel + 1, ',' :: rest =>
    (readMember fuel (skip rest)).bind fun r =>
      (readMembersTail fuel (skip r.2)).map fun rs => (r.1 :: rs.1, rs.2)
  | _ + 1, _ => none

end

/-- Reads a text that is one value. -/
def read (cs : List Char) : Option Json :=
  (readValue E (cs.length + 1) (skip cs)).bind fun r => if skip r.2 = [] then some r.1 else none

end

/-! ### What was written is read back -/

/-- Nothing is skipped before a character that is not white space. -/
theorem skip_of_head {c : Char} {cs : List Char} (h : isWhiteSpace c = false) :
    skip (c :: cs) = c :: cs :=
  List.dropWhile_cons_of_neg (by simp [h])

theorem isWhiteSpace_of_kindOf {c : Char} (h : kindOf c ≠ 6) : isWhiteSpace c = false := by
  by_contra hspace
  simp only [isWhiteSpace, Bool.or_eq_true, decide_eq_true_eq, Bool.not_eq_false] at hspace
  obtain ((rfl | rfl) | rfl) | rfl := hspace <;> exact h (by decide)

theorem skip_text (E : Escaping) (j : Json) (rest : List Char) :
    skip (text E j ++ rest) = text E j ++ rest := by
  obtain ⟨c, cs, htext, hkind⟩ := text_head E j
  rw [htext, List.cons_append]
  refine skip_of_head (isWhiteSpace_of_kindOf ?_)
  rw [hkind]
  cases j <;> simp [kind]

theorem skip_literal (E : Escaping) (k : String) (rest : List Char) :
    skip (E.literal k ++ rest) = E.literal k ++ rest :=
  skip_of_head (by decide)

theorem skip_itemsTail (E : Escaping) (js : List Json) (rest : List Char) :
    skip (itemsTail E js ++ rest) = itemsTail E js ++ rest := by
  cases js <;> rw [itemsTail] <;> exact skip_of_head (by decide)

theorem skip_membersTail (E : Escaping) (ms : List (String × Json)) (rest : List Char) :
    skip (membersTail E ms ++ rest) = membersTail E ms ++ rest := by
  rcases ms with _ | ⟨⟨k, j⟩, ms⟩ <;> rw [membersTail] <;> exact skip_of_head (by decide)

theorem kind_ne (j : Json) : kind j ≠ 6 := by
  cases j <;> simp [kind]

/-- No value starts with a character that is of no sort. -/
theorem head?_text_ne {E : Escaping} (j : Json) (rest : List Char) {c : Char}
    (h : kindOf c = 6) : (text E j ++ rest).head? ≠ some c := by
  obtain ⟨c', cs, htext, hkind⟩ := text_head E j
  rw [htext, List.cons_append, List.head?_cons]
  rintro hc
  cases hc
  exact kind_ne j (hkind.symm.trans h)

theorem readValue_number {E : Escaping} {fuel : Nat} (n : NumberToken) {rest : List Char}
    (h : Delimited rest) :
    readValue E (fuel + 1) (n.chars ++ rest) = some (number n, rest) := by
  have hfirst {c : Char} {cs : List Char} (hcs : n.chars ++ rest = c :: cs) :
      kindOf c = 2 := by
    rw [NumberToken.chars, List.cons_append, List.cons.injEq] at hcs
    exact hcs.1 ▸ kindOf_of_number n.first_ok
  unfold readValue
  split
  · next hcs => exact absurd (hfirst hcs) (by decide)
  · next hcs => exact absurd (hfirst hcs) (by decide)
  · next hcs => exact absurd (hfirst hcs) (by decide)
  · next hcs => exact absurd (hfirst hcs) (by decide)
  · next hcs => exact absurd (hfirst hcs) (by decide)
  · next hcs => exact absurd (hfirst hcs) (by decide)
  · rw [readNumber_chars n h, Option.map_some]

/-- A member is read back if its value is. -/
theorem readMember_of_readValue {E : Escaping} {fuel : Nat} {j : Json} {rest : List Char}
    (h : readValue E fuel (text E j ++ rest) = some (j, rest)) (k : String) :
    readMember E (fuel + 1) (E.literal k ++ ':' :: (text E j ++ rest)) = some ((k, j), rest) := by
  simp only [readMember, E.readLiteral_literal, Option.bind_some]
  rw [skip_of_head (by decide)]
  simp only [skip_text]
  rw [h, Option.map_some]

mutual

/-- By recursion on the value: the fuel is more than the characters that are left of it. -/
theorem readValue_text {E : Escaping} (j : Json) {fuel : Nat} {rest : List Char}
    (hfuel : (text E j).length < fuel) (hr : Delimited rest) :
    readValue E fuel (text E j ++ rest) = some (j, rest) := by
  obtain ⟨fuel, rfl⟩ := Nat.exists_eq_succ_of_ne_zero (Nat.ne_zero_of_lt hfuel)
  match j with
  | null => simp only [text, List.cons_append, List.nil_append, readValue]
  | bool true => simp only [text, List.cons_append, List.nil_append, readValue]
  | bool false => simp only [text, List.cons_append, List.nil_append, readValue]
  | number n =>
    rw [text]
    exact readValue_number n hr
  | string s =>
    have hread := E.readLiteral_literal s rest
    simp only [Escaping.literal, List.cons_append] at hread
    simp only [text, Escaping.literal, List.cons_append, readValue, hread, Option.map_some]
  | array [] =>
    simp only [text, List.cons_append, List.nil_append, readValue]
    rw [skip_of_head (by decide)]
    rfl
  | array (j :: js) =>
    simp only [text, List.length_cons, List.length_append] at hfuel
    simp only [text, List.cons_append, List.append_assoc, readValue]
    rw [skip_text, if_neg (head?_text_ne j _ (by decide)),
      readValue_text j (by omega) (delimited_itemsTail E js rest), Option.bind_some,
      skip_itemsTail, readItemsTail_text js (by omega), Option.map_some]
  | object [] =>
    simp only [text, List.cons_append, List.nil_append, readValue]
    rw [skip_of_head (by decide)]
    rfl
  | object ((k, j) :: ms) =>
    simp only [text, List.length_cons, List.length_append] at hfuel
    obtain ⟨fuel, rfl⟩ := Nat.exists_eq_add_of_lt (Nat.zero_lt_of_lt (Nat.lt_of_succ_lt_succ hfuel))
    have hlength : (text E j).length < 0 + fuel := by omega
    have hvalue := readValue_text j hlength (delimited_membersTail E ms rest)
    simp only [text, List.cons_append, List.append_assoc, readValue]
    rw [skip_literal, if_neg (by simp [Escaping.literal]), readMember_of_readValue hvalue,
      Option.bind_some, skip_membersTail, readMembersTail_text ms (by omega), Option.map_some]

theorem readItemsTail_text {E : Escaping} (js : List Json) {fuel : Nat} {rest : List Char}
    (hfuel : (itemsTail E js).length < fuel) :
    readItemsTail E fuel (itemsTail E js ++ rest) = some (js, rest) := by
  obtain ⟨fuel, rfl⟩ := Nat.exists_eq_succ_of_ne_zero (Nat.ne_zero_of_lt hfuel)
  match js with
  | [] => simp only [itemsTail, List.cons_append, List.nil_append, readItemsTail]
  | j :: js =>
    simp only [itemsTail, List.length_cons, List.length_append] at hfuel
    simp only [itemsTail, List.cons_append, List.append_assoc, readItemsTail]
    rw [skip_text, readValue_text j (by omega) (delimited_itemsTail E js rest), Option.bind_some,
      skip_itemsTail, readItemsTail_text js (by omega), Option.map_some]

theorem readMembersTail_text {E : Escaping} (ms : List (String × Json)) {fuel : Nat}
    {rest : List Char} (hfuel : (membersTail E ms).length < fuel) :
    readMembersTail E fuel (membersTail E ms ++ rest) = some (ms, rest) := by
  obtain ⟨fuel, rfl⟩ := Nat.exists_eq_succ_of_ne_zero (Nat.ne_zero_of_lt hfuel)
  match ms with
  | [] => simp only [membersTail, List.cons_append, List.nil_append, readMembersTail]
  | (k, j) :: ms =>
    simp only [membersTail, List.length_cons, List.length_append] at hfuel
    obtain ⟨fuel, rfl⟩ := Nat.exists_eq_add_of_lt (Nat.zero_lt_of_lt (Nat.lt_of_succ_lt_succ hfuel))
    have hlength : (text E j).length < 0 + fuel := by omega
    have hvalue := readValue_text j hlength (delimited_membersTail E ms rest)
    simp only [membersTail, List.cons_append, List.append_assoc, readMembersTail]
    rw [skip_literal, readMember_of_readValue hvalue, Option.bind_some, skip_membersTail,
      readMembersTail_text ms (by omega), Option.map_some]

end

/-- A text is read back as the value it was written for. -/
theorem read_text (E : Escaping) (j : Json) : read E (text E j) = some j := by
  have hskip := skip_text E j []
  have hread := readValue_text (E := E) j (Nat.lt_succ_self _) delimited_nil
  rw [List.append_nil] at hskip hread
  rw [read, hskip, hread]
  rfl

/-- An object with one member may have a space before its value. -/
theorem read_spaced_member (E : Escaping) (k : String) (j : Json) :
    read E ('{' :: (E.literal k ++ ':' :: ' ' :: (text E j ++ ['}']))) = some (object [(k, j)]) := by
  obtain ⟨fuel, hfuel⟩ : ∃ fuel, (E.literal k ++ ':' :: ' ' :: (text E j ++ ['}'])).length =
      fuel ∧ (text E j).length < fuel := by
    refine ⟨(E.literal k).length + (text E j).length + 3, ?_, by omega⟩
    simp only [List.length_append, List.length_cons, List.length_nil]
    omega
  have hspace (cs : List Char) : skip (' ' :: cs) = skip cs := rfl
  have hbrace : Delimited ['}'] := delimited_cons (by decide)
  have hvalue := readValue_text j hfuel.2 hbrace
  have hmember : readMember E (fuel + 1) (E.literal k ++ ':' :: ' ' :: (text E j ++ ['}'])) =
      some ((k, j), ['}']) := by
    simp only [readMember, E.readLiteral_literal, Option.bind_some]
    rw [skip_of_head (by decide)]
    simp only [hspace, skip_text]
    rw [hvalue, Option.map_some]
  rw [read, skip_of_head (by decide), List.length_cons, hfuel.1]
  simp only [readValue]
  rw [skip_literal, if_neg (by simp [Escaping.literal]), hmember]
  rfl

/-! ### Characters that are in no text -/

/-- The characters of the grammar, apart from those of a number. -/
def grammarChars : List Char :=
  ['n', 'u', 'l', 't', 'r', 'e', 'f', 'a', 's', '"', '[', ']', '{', '}', ',', ':']

/-- The character is none of the grammar's, and is always escaped. -/
structure NeverWritten (E : Escaping) (c : Char) : Prop where
  escape : ∀ d, c ∉ E.escape d
  number : isNumberChar c = false
  grammar : c ∉ grammarChars

theorem NeverWritten.ne {E : Escaping} {c d : Char} (h : NeverWritten E c)
    (hd : d ∈ grammarChars) : c ≠ d := by
  rintro rfl
  exact h.grammar hd

theorem NeverWritten.not_mem_literal {E : Escaping} {c : Char} (h : NeverWritten E c)
    (s : String) : c ∉ E.literal s := by
  have hquote : c ≠ '"' := h.ne (by decide)
  simp only [Escaping.literal, Escaping.body, List.mem_cons, List.mem_append, List.mem_flatMap,
    List.not_mem_nil, hquote, or_false, false_or, not_exists, not_and]
  exact fun d _ => h.escape d

theorem NeverWritten.not_mem_chars {E : Escaping} {c : Char} (h : NeverWritten E c)
    (n : NumberToken) : c ∉ n.chars := by
  intro hmem
  have hnumber := n.chars_ok c hmem
  rw [h.number] at hnumber
  cases hnumber

mutual

theorem NeverWritten.not_mem_text {E : Escaping} {c : Char} (h : NeverWritten E c) (j : Json) :
    c ∉ text E j := by
  have hne (d : Char) (hd : d ∈ grammarChars) : c ≠ d := h.ne hd
  match j with
  | null =>
    simp only [text, List.mem_cons, List.not_mem_nil, or_false, not_or]
    exact ⟨hne _ (by decide), hne _ (by decide), hne _ (by decide), hne _ (by decide)⟩
  | bool true =>
    simp only [text, List.mem_cons, List.not_mem_nil, or_false, not_or]
    exact ⟨hne _ (by decide), hne _ (by decide), hne _ (by decide), hne _ (by decide)⟩
  | bool false =>
    simp only [text, List.mem_cons, List.not_mem_nil, or_false, not_or]
    exact ⟨hne _ (by decide), hne _ (by decide), hne _ (by decide), hne _ (by decide),
      hne _ (by decide)⟩
  | Json.number n =>
    rw [text]
    exact h.not_mem_chars n
  | string s =>
    rw [text]
    exact h.not_mem_literal s
  | array [] =>
    simp only [text, List.mem_cons, List.not_mem_nil, or_false, not_or]
    exact ⟨hne _ (by decide), hne _ (by decide)⟩
  | array (j :: js) =>
    simp only [text, List.mem_cons, List.mem_append, not_or]
    exact ⟨hne _ (by decide), h.not_mem_text j, h.not_mem_itemsTail js⟩
  | object [] =>
    simp only [text, List.mem_cons, List.not_mem_nil, or_false, not_or]
    exact ⟨hne _ (by decide), hne _ (by decide)⟩
  | object ((k, j) :: ms) =>
    simp only [text, List.mem_cons, List.mem_append, not_or]
    exact ⟨hne _ (by decide), h.not_mem_literal k, hne _ (by decide), h.not_mem_text j,
      h.not_mem_membersTail ms⟩

theorem NeverWritten.not_mem_itemsTail {E : Escaping} {c : Char} (h : NeverWritten E c)
    (js : List Json) : c ∉ itemsTail E js := by
  match js with
  | [] =>
    simp only [itemsTail, List.mem_singleton]
    exact h.ne (by decide)
  | j :: js =>
    simp only [itemsTail, List.mem_cons, List.mem_append, not_or]
    exact ⟨h.ne (by decide), h.not_mem_text j, h.not_mem_itemsTail js⟩

theorem NeverWritten.not_mem_membersTail {E : Escaping} {c : Char} (h : NeverWritten E c)
    (ms : List (String × Json)) : c ∉ membersTail E ms := by
  match ms with
  | [] =>
    simp only [membersTail, List.mem_singleton]
    exact h.ne (by decide)
  | (k, j) :: ms =>
    simp only [membersTail, List.mem_cons, List.mem_append, not_or]
    exact ⟨h.ne (by decide), h.not_mem_literal k, h.ne (by decide), h.not_mem_text j,
      h.not_mem_membersTail ms⟩

end

end Json
