import ApmAgent.Framework.Split
import Mathlib.Data.List.Nodup
import Mathlib.Data.List.TakeWhile

/-! # JSON texts

  JSON values and the compact text a writer gives them: no white space, the
  members of an object in the order they were written. How a character is
  written inside a string literal is the writer's own choice (`Escaping`); all
  that is asked for is that a reader gets the character back.

  The main result is `Json.text_injective`: different values have different
  texts.
-/

/-! ### String literals -/

/-- How a writer puts the characters of a string between two quotes. -/
structure Escaping where
  /-- What is written for a character. -/
  escape : Char → List Char
  /-- Reads one character of a literal back. -/
  unescape : List Char → Option (Char × List Char)
  unescape_escape : ∀ c rest, unescape (escape c ++ rest) = some (c, rest)
  /-- A bare quote ends the literal. -/
  unescape_quote : ∀ rest, unescape ('"' :: rest) = none

namespace Escaping

variable (E : Escaping)

/-- The characters between the quotes. -/
def body (s : List Char) : List Char := s.flatMap E.escape

/-- A string between its quotes. -/
def literal (s : String) : List Char := '"' :: (E.body s.toList ++ ['"'])

/-- A body is read back up to the closing quote and no further. -/
theorem body_read {s s' rest rest' : List Char}
    (h : E.body s ++ '"' :: rest = E.body s' ++ '"' :: rest') : s = s' ∧ rest = rest' := by
  -- Reading one character back from both sides: the same character, or the closing quote.
  induction s generalizing s' with
  | nil =>
    cases s' with
    | nil => exact ⟨rfl, List.tail_eq_of_cons_eq h⟩
    | cons c' s' =>
      have hread := congrArg E.unescape h
      simp [body, unescape_escape, unescape_quote] at hread
  | cons c s ih =>
    cases s' with
    | nil =>
      have hread := congrArg E.unescape h
      simp [body, unescape_escape, unescape_quote] at hread
    | cons c' s' =>
      have hread := congrArg E.unescape h
      simp only [body, List.flatMap_cons, List.append_assoc, unescape_escape,
        Option.some.injEq, Prod.mk.injEq] at hread
      obtain ⟨rfl, hrest⟩ := hread
      obtain ⟨rfl, hr⟩ := ih hrest
      exact ⟨rfl, hr⟩

theorem literal_read {s s' : String} {rest rest' : List Char}
    (h : E.literal s ++ rest = E.literal s' ++ rest') : s = s' ∧ rest = rest' := by
  simp only [literal, List.cons_append, List.append_assoc, List.nil_append,
    List.cons.injEq, true_and] at h
  obtain ⟨hs, hrest⟩ := E.body_read h
  exact ⟨String.toList_inj.mp hs, hrest⟩

/-- A backslash goes before a quote and before a backslash, and nothing else is escaped. -/
def minimal : Escaping where
  escape c := if c = '"' ∨ c = '\\' then ['\\', c] else [c]
  unescape
    | '"' :: _ => none
    | '\\' :: c :: rest => some (c, rest)
    | c :: rest => some (c, rest)
    | [] => none
  unescape_escape c rest := by
    by_cases hquote : c = '"'
    · simp [hquote]
    · by_cases hslash : c = '\\'
      · simp [hslash]
      · simp [hquote, hslash]
  unescape_quote _ := rfl

end Escaping

/-! ### Numbers -/

/-- The characters a number is written with. -/
def isNumberChar (c : Char) : Bool :=
  c.isDigit || c = '-' || c = '+' || c = '.' || c = 'e' || c = 'E'

/-- The text of a number. -/
structure NumberToken where
  /-- The first character is a digit or a minus sign. -/
  first : Char
  rest : List Char
  first_ok : first.isDigit || first = '-'
  rest_ok : ∀ c ∈ rest, isNumberChar c
  deriving DecidableEq

namespace NumberToken

def chars (n : NumberToken) : List Char := n.first :: n.rest

theorem chars_ok (n : NumberToken) : ∀ c ∈ n.chars, isNumberChar c := by
  have hfirst := n.first_ok
  simp only [chars, List.forall_mem_cons]
  refine ⟨?_, n.rest_ok⟩
  simp only [Bool.or_eq_true] at hfirst
  rcases hfirst with h | h <;> simp [isNumberChar, h]

theorem chars_injective {n n' : NumberToken} (h : n.chars = n'.chars) : n = n' := by
  obtain ⟨first, rest, _, _⟩ := n
  obtain ⟨first', rest', _, _⟩ := n'
  cases h
  rfl

/-- The decimal digits of a natural number. -/
def ofNat (n : Nat) : NumberToken where
  first := ((Nat.toDigits 10 n).head?).getD '0'
  rest := (Nat.toDigits 10 n).tail
  first_ok := by
    cases hn : Nat.toDigits 10 n with
    | nil => decide
    | cons c cs =>
      have hc : c ∈ Nat.toDigits 10 n := by simp [hn]
      simp [Nat.isDigit_of_mem_toDigits (by decide) (by decide) hc]
  rest_ok := by
    intro c hc
    simp [isNumberChar,
      Nat.isDigit_of_mem_toDigits (by decide) (by decide) (List.mem_of_mem_tail hc)]

theorem chars_ofNat (n : Nat) : (ofNat n).chars = Nat.toDigits 10 n := by
  cases hn : Nat.toDigits 10 n with
  | nil => exact absurd hn (Nat.toDigits_ne_nil)
  | cons c cs => simp [chars, ofNat, hn]

/-- The decimal digits of an integer after its sign. -/
def ofInt : Int → NumberToken
  | .ofNat n => ofNat n
  | .negSucc n =>
    { first := '-'
      rest := (ofNat (n + 1)).chars
      first_ok := by decide
      rest_ok := (ofNat (n + 1)).chars_ok }

end NumberToken

/-- What follows a value in a text does not go on with a number. -/
def Delimited (rest : List Char) : Prop := ∀ c ∈ rest.head?, isNumberChar c = false

theorem delimited_nil : Delimited [] := by simp [Delimited]

theorem delimited_cons {c : Char} {rest : List Char} (h : isNumberChar c = false) :
    Delimited (c :: rest) := by
  simpa [Delimited] using h

theorem NumberToken.takeWhile_append (n : NumberToken) {rest : List Char}
    (h : Delimited rest) : (n.chars ++ rest).takeWhile isNumberChar = n.chars :=
  List.takeWhile_append_of_head n.chars_ok h

theorem NumberToken.read {n n' : NumberToken} {rest rest' : List Char} (hr : Delimited rest)
    (hr' : Delimited rest') (h : n.chars ++ rest = n'.chars ++ rest') :
    n = n' ∧ rest = rest' := by
  -- Both numbers are the longest prefix of number characters.
  have hchars : n.chars = n'.chars := by
    rw [← n.takeWhile_append hr, ← n'.takeWhile_append hr', h]
  rw [hchars] at h
  exact ⟨chars_injective hchars, List.append_cancel_left h⟩

/-! ### Values -/

inductive Json where
  | null
  | bool (b : Bool)
  | number (n : NumberToken)
  | string (s : String)
  | array (items : List Json)
  | object (members : List (String × Json))

namespace Json

section
variable (E : Escaping)

mutual

/-- The compact text of a value. -/
def text : Json → List Char
  | null => ['n', 'u', 'l', 'l']
  | bool true => ['t', 'r', 'u', 'e']
  | bool false => ['f', 'a', 'l', 's', 'e']
  | number n => n.chars
  | string s => E.literal s
  | array [] => ['[', ']']
  | array (j :: js) => '[' :: (text j ++ itemsTail js)
  | object [] => ['{', '}']
  | object ((k, j) :: ms) => '{' :: (E.literal k ++ ':' :: (text j ++ membersTail ms))

/-- The items after the first one, up to the closing bracket. -/
def itemsTail : List Json → List Char
  | [] => [']']
  | j :: js => ',' :: (text j ++ itemsTail js)

/-- The members after the first one, up to the closing brace. -/
def membersTail : List (String × Json) → List Char
  | [] => ['}']
  | (k, j) :: ms => ',' :: (E.literal k ++ ':' :: (text j ++ membersTail ms))

end

end

/-! ### A text is read in one way -/

/-- What sort of value it is. -/
def kind : Json → Nat
  | null => 0
  | bool _ => 1
  | number _ => 2
  | string _ => 3
  | array _ => 4
  | object _ => 5

/-- What sort of value a text that starts with `c` is of. -/
def kindOf (c : Char) : Nat :=
  if c = 'n' then 0
  else if c = 't' ∨ c = 'f' then 1
  else if c = '"' then 3
  else if c = '[' then 4
  else if c = '{' then 5
  else if c.isDigit ∨ c = '-' then 2
  else 6

theorem kindOf_of_number {c : Char} (h : c.isDigit || c = '-') : kindOf c = 2 := by
  have hne : ∀ d : Char, (d.isDigit || d = '-') = false → c ≠ d := by
    rintro d hd rfl
    simp [hd] at h
  have hor : c.isDigit ∨ c = '-' := by simpa using h
  simp [kindOf, hor, hne 'n' (by decide), hne 't' (by decide), hne 'f' (by decide),
    hne '"' (by decide), hne '[' (by decide), hne '{' (by decide)]

/-- The first character of a text tells the sort of its value. -/
theorem text_head (E : Escaping) (j : Json) :
    ∃ c cs, text E j = c :: cs ∧ kindOf c = kind j := by
  match j with
  | null => exact ⟨_, _, by rw [text], by decide⟩
  | bool true => exact ⟨_, _, by rw [text], by simp [kind, kindOf]⟩
  | bool false => exact ⟨_, _, by rw [text], by simp [kind, kindOf]⟩
  | number n => exact ⟨_, _, by rw [text, NumberToken.chars], kindOf_of_number n.first_ok⟩
  | string s => exact ⟨_, _, by rw [text, Escaping.literal], by simp [kind, kindOf]⟩
  | array [] => exact ⟨_, _, by rw [text], by simp [kind, kindOf]⟩
  | array (j :: js) => exact ⟨_, _, by rw [text], by simp [kind, kindOf]⟩
  | object [] => exact ⟨_, _, by rw [text], by simp [kind, kindOf]⟩
  | object ((k, j) :: ms) => exact ⟨_, _, by rw [text], by simp [kind, kindOf]⟩

theorem kind_eq_of_text {E : Escaping} {j j' : Json} {rest rest' : List Char}
    (h : text E j ++ rest = text E j' ++ rest') : kind j = kind j' := by
  obtain ⟨c, cs, htext, hkind⟩ := text_head E j
  obtain ⟨c', cs', htext', hkind'⟩ := text_head E j'
  rw [htext, htext'] at h
  have hc : c = c' := (List.cons.inj h).1
  rw [← hkind, ← hkind', hc]

/-- No value starts like the end of an array. -/
theorem text_ne_bracket {E : Escaping} {j : Json} {rest rest' : List Char}
    (h : text E j ++ rest = ']' :: rest') : False := by
  obtain ⟨c, cs, htext, hkind⟩ := text_head E j
  rw [htext] at h
  obtain ⟨rfl, -⟩ := List.cons.inj h
  cases j <;> simp [kindOf, kind] at hkind

theorem literal_ne_brace {E : Escaping} {k : String} {rest rest' : List Char}
    (h : E.literal k ++ rest = '}' :: rest') : False := by
  simp [Escaping.literal] at h

theorem delimited_itemsTail (E : Escaping) (js : List Json) (rest : List Char) :
    Delimited (itemsTail E js ++ rest) := by
  cases js <;> rw [itemsTail] <;> exact delimited_cons (by decide)

theorem delimited_membersTail (E : Escaping) (ms : List (String × Json)) (rest : List Char) :
    Delimited (membersTail E ms ++ rest) := by
  rcases ms with _ | ⟨⟨k, j⟩, ms⟩ <;> rw [membersTail] <;> exact delimited_cons (by decide)

mutual

/-- Two values whose texts agree up to a delimiter are the same value, and what follows is the
    same. By recursion on the first value, once its sort is known to be that of the second. -/
theorem text_read {E : Escaping} (j j' : Json) {rest rest' : List Char} (hr : Delimited rest)
    (hr' : Delimited rest') (h : text E j ++ rest = text E j' ++ rest') :
    j = j' ∧ rest = rest' := by
  have hkind := kind_eq_of_text h
  match j, j' with
  | null, null => simpa [text] using h
  | bool true, bool true => simpa [text] using h
  | bool true, bool false => simp [text] at h
  | bool false, bool true => simp [text] at h
  | bool false, bool false => simpa [text] using h
  | number n, number n' =>
    simp only [text] at h
    obtain ⟨rfl, hrest⟩ := NumberToken.read hr hr' h
    exact ⟨rfl, hrest⟩
  | string s, string s' =>
    simp only [text] at h
    obtain ⟨rfl, hrest⟩ := E.literal_read h
    exact ⟨rfl, hrest⟩
  | array [], array [] => simpa [text] using h
  | array [], array (j' :: js') =>
    simp only [text, List.cons_append, List.cons.injEq, true_and, List.append_assoc] at h
    exact (text_ne_bracket h.symm).elim
  | array (j :: js), array [] =>
    simp only [text, List.cons_append, List.cons.injEq, true_and, List.append_assoc] at h
    exact (text_ne_bracket h).elim
  | array (j :: js), array (j' :: js') =>
    simp only [text, List.cons_append, List.cons.injEq, true_and, List.append_assoc] at h
    obtain ⟨rfl, htail⟩ :=
      text_read j j' (delimited_itemsTail E js rest) (delimited_itemsTail E js' rest') h
    obtain ⟨rfl, hrest⟩ := itemsTail_read js js' htail
    exact ⟨rfl, hrest⟩
  | object [], object [] => simpa [text] using h
  | object [], object ((k', j') :: ms') =>
    simp only [text, List.cons_append, List.cons.injEq, true_and, List.append_assoc] at h
    exact (literal_ne_brace h.symm).elim
  | object ((k, j) :: ms), object [] =>
    simp only [text, List.cons_append, List.cons.injEq, true_and, List.append_assoc] at h
    exact (literal_ne_brace h).elim
  | object ((k, j) :: ms), object ((k', j') :: ms') =>
    simp only [text, List.cons_append, List.cons.injEq, true_and, List.append_assoc] at h
    obtain ⟨rfl, hvalue⟩ := E.literal_read h
    obtain ⟨rfl, htail⟩ := text_read j j' (delimited_membersTail E ms rest)
      (delimited_membersTail E ms' rest') (List.cons.inj hvalue).2
    obtain ⟨rfl, hrest⟩ := membersTail_read ms ms' htail
    exact ⟨rfl, hrest⟩

theorem itemsTail_read {E : Escaping} (js js' : List Json) {rest rest' : List Char}
    (h : itemsTail E js ++ rest = itemsTail E js' ++ rest') : js = js' ∧ rest = rest' := by
  match js, js' with
  | [], [] => simpa [itemsTail] using h
  | [], j' :: js' => simp [itemsTail] at h
  | j :: js, [] => simp [itemsTail] at h
  | j :: js, j' :: js' =>
    simp only [itemsTail, List.cons_append, List.cons.injEq, true_and, List.append_assoc] at h
    obtain ⟨rfl, htail⟩ :=
      text_read j j' (delimited_itemsTail E js rest) (delimited_itemsTail E js' rest') h
    obtain ⟨rfl, hrest⟩ := itemsTail_read js js' htail
    exact ⟨rfl, hrest⟩

theorem membersTail_read {E : Escaping} (ms ms' : List (String × Json))
    {rest rest' : List Char} (h : membersTail E ms ++ rest = membersTail E ms' ++ rest') :
    ms = ms' ∧ rest = rest' := by
  match ms, ms' with
  | [], [] => simpa [membersTail] using h
  | [], (k', j') :: ms' => simp [membersTail] at h
  | (k, j) :: ms, [] => simp [membersTail] at h
  | (k, j) :: ms, (k', j') :: ms' =>
    simp only [membersTail, List.cons_append, List.cons.injEq, true_and,
      List.append_assoc] at h
    obtain ⟨rfl, hvalue⟩ := E.literal_read h
    obtain ⟨rfl, htail⟩ := text_read j j' (delimited_membersTail E ms rest)
      (delimited_membersTail E ms' rest') (List.cons.inj hvalue).2
    obtain ⟨rfl, hrest⟩ := membersTail_read ms ms' htail
    exact ⟨rfl, hrest⟩

end

/-- Different values have different texts. -/
theorem text_injective (E : Escaping) : Function.Injective (text E) := by
  intro j j' h
  refine (text_read j j' (E := E) delimited_nil delimited_nil ?_).1
  rw [h]

/-! ### Objects without their null members -/

/-- The members of an object that are there. -/
def present (members : List (String × Option Json)) : List (String × Json) :=
  members.filterMap fun m => m.2.map fun j => (m.1, j)

/-- An object whose null members are left out. -/
def ofPresent (members : List (String × Option Json)) : Json := object (present members)

/-- Objects that differ at one member at most are equal exactly when that member is. -/
theorem ofPresent_eq_iff (pre post : List (String × Option Json)) {k : String}
    {j j' : Option Json} :
    ofPresent (pre ++ (k, j) :: post) = ofPresent (pre ++ (k, j') :: post) ↔ j = j' := by
  constructor
  · intro h
    have hmembers : present (pre ++ (k, j) :: post) = present (pre ++ (k, j') :: post) :=
      Json.object.inj h
    simp only [present, List.filterMap_append, List.filterMap_cons] at hmembers
    have hrest := List.append_cancel_left hmembers
    -- A member that is there on one side only makes that side longer.
    cases j with
    | none =>
      cases j' with
      | none => rfl
      | some j' =>
        have hlen := congrArg List.length hrest
        simp at hlen
    | some j =>
      cases j' with
      | none =>
        have hlen := congrArg List.length hrest
        simp at hlen
      | some j' => simpa using hrest
  · rintro rfl
    rfl

/-! ### Objects whose members have different names -/

/-- The members of every object in the value have pairwise different names. -/
inductive UniqueNames : Json → Prop where
  | null : UniqueNames null
  | bool (b : Bool) : UniqueNames (bool b)
  | number (n : NumberToken) : UniqueNames (number n)
  | string (s : String) : UniqueNames (string s)
  | array {items : List Json} (hitems : ∀ j ∈ items, UniqueNames j) : UniqueNames (array items)
  | object {members : List (String × Json)} (hnames : (members.map Prod.fst).Nodup)
      (hmembers : ∀ m ∈ members, UniqueNames m.2) : UniqueNames (object members)

theorem uniqueNames_object {members : List (String × Json)} :
    UniqueNames (object members) ↔
      (members.map Prod.fst).Nodup ∧ ∀ m ∈ members, UniqueNames m.2 := by
  constructor
  · rintro ⟨⟩
    exact ⟨‹_›, ‹_›⟩
  · rintro ⟨hnames, hmembers⟩
    exact .object hnames hmembers

/-- An object that has a member for each of some different keys, under the name that is made of the
    key: its names are different exactly if the key can be told from the name. -/
theorem uniqueNames_object_of_keys {κ : Type*} {members : List (String × Json)} (keys : List κ)
    (name : κ → String) (hkeys : keys.Nodup) (hnames : members.map Prod.fst = keys.map name)
    (hmembers : ∀ m ∈ members, UniqueNames m.2) :
    UniqueNames (object members) ↔ ∀ k ∈ keys, ∀ k' ∈ keys, name k = name k' → k = k' := by
  rw [uniqueNames_object, hnames, List.nodup_map_iff_inj_on hkeys]
  exact ⟨fun h => h.1, fun h => ⟨h, hmembers⟩⟩

/-! ### Tokens -/

/-- What a token reader finds in a text, one after the other. -/
inductive Token where
  | startObject
  | endObject
  | startArray
  | endArray
  | propertyName (name : String)
  | string (s : String)
  | number (n : NumberToken)
  | bool (b : Bool)
  | null
  deriving DecidableEq

mutual

/-- The tokens of a value. -/
def tokens : Json → List Token
  | null => [.null]
  | bool b => [.bool b]
  | number n => [.number n]
  | string s => [.string s]
  | array items => .startArray :: itemsTokens items
  | object members => .startObject :: membersTokens members

/-- The tokens of the items of an array, up to its end. -/
def itemsTokens : List Json → List Token
  | [] => [.endArray]
  | j :: js => tokens j ++ itemsTokens js

/-- The tokens of the members of an object, up to its end. -/
def membersTokens : List (String × Json) → List Token
  | [] => [.endObject]
  | (k, j) :: ms => .propertyName k :: (tokens j ++ membersTokens ms)

end

end Json
