import ApmAgent.Framework.Split
import Mathlib.Data.List.TakeWhile

/-! # Form encoding

  The parameters of a query are joined by `&`, each with its name and its value
  around a `=`. Bytes that mean something else in a URL are escaped by a `%`
  and two hexadecimal digits; a `+` is a space.

  This module has the reading side, `readQuery`, and what an encoding has to
  satisfy to be read back:

  * `decodeBytes_flatMap`: what stands for a byte is read one after the other;
  * `decode_encodeText`: a text is read from the bytes of its UTF-8 encoding;
  * `readQuery_query`: parameters that were encoded and joined are read back;
  * `readUrl_withQuery`: and so are they behind a path.
-/

namespace FormEncoding

/-! ### Escapes -/

/-- An upper case hexadecimal digit. -/
def hexDigit (n : Nat) : Char := Char.ofNat (if n < 10 then 48 + n else 55 + n)

def hexValue? (c : Char) : Option Nat :=
  if '0' ≤ c ∧ c ≤ '9' then some (c.toNat - 48)
  else if 'A' ≤ c ∧ c ≤ 'F' then some (c.toNat - 55)
  else if 'a' ≤ c ∧ c ≤ 'f' then some (c.toNat - 87)
  else none

/-- The escape of a byte. -/
def escape (b : UInt8) : List Char :=
  ['%', hexDigit (b.toNat / 16), hexDigit (b.toNat % 16)]

theorem forall_lt_sixteen {P : Nat → Prop} [DecidablePred P]
    (h : (List.range 16).all fun n => P n) {n : Nat} (hn : n < 16) : P n := by
  simpa using List.all_eq_true.mp h n (List.mem_range.mpr hn)

theorem hexValue?_hexDigit {n : Nat} (hn : n < 16) : hexValue? (hexDigit n) = some n :=
  forall_lt_sixteen (P := fun n => hexValue? (hexDigit n) = some n) (by decide) hn

/-! ### Reading -/

/-- The bytes that characters stand for; only ASCII characters stand for themselves. -/
def decodeBytes : List Char → Option (List UInt8)
  | [] => some []
  | '%' :: high :: low :: rest => do
    let high ← hexValue? high
    let low ← hexValue? low
    return UInt8.ofNat (16 * high + low) :: (← decodeBytes rest)
  | '+' :: rest => (decodeBytes rest).map (32 :: ·)
  | c :: rest =>
    if c = '%' ∨ 128 ≤ c.toNat then none else (decodeBytes rest).map (UInt8.ofNat c.toNat :: ·)

/-- A text, in UTF-8. -/
def decode (chars : List Char) : Option String :=
  (decodeBytes chars).bind fun bytes => String.fromUTF8? ⟨bytes.toArray⟩

/-- A name and a value; a parameter without `=` has no value. -/
def readParameter (chars : List Char) : Option (String × String) := do
  let name ← decode (chars.takeWhile (· != '='))
  let value ← decode ((chars.dropWhile (· != '=')).drop 1)
  return (name, value)

def readQuery (query : List Char) : Option (List (String × String)) :=
  if query = [] then some [] else (query.splitOn '&').mapM readParameter

/-- The part of a URL before the query, and the parameters of the query; a fragment is left out. -/
def readUrl (url : List Char) : Option (List Char × List (String × String)) :=
  let url := url.takeWhile (· != '#')
  (readQuery ((url.dropWhile (· != '?')).drop 1)).map fun parameters =>
    (url.takeWhile (· != '?'), parameters)

/-! ### What is read back -/

theorem decodeBytes_escape (b : UInt8) (rest : List Char) :
    decodeBytes (escape b ++ rest) = (decodeBytes rest).map (b :: ·) := by
  have hb : b.toNat < 256 := b.toNat_lt
  have hvalue : UInt8.ofNat (16 * (b.toNat / 16) + b.toNat % 16) = b := by
    rw [Nat.div_add_mod, UInt8.ofNat_toNat]
  simp only [escape, List.cons_append, List.nil_append, decodeBytes,
    hexValue?_hexDigit (by omega : b.toNat / 16 < 16),
    hexValue?_hexDigit (by omega : b.toNat % 16 < 16), hvalue, Option.bind_eq_bind,
    Option.bind_some]
  cases decodeBytes rest <;> rfl

theorem decodeBytes_plus (rest : List Char) :
    decodeBytes ('+' :: rest) = (decodeBytes rest).map (32 :: ·) := by
  simp [decodeBytes]

/-- An ASCII character that has no meaning of its own. -/
theorem decodeBytes_char {c : Char} (hpercent : c ≠ '%') (hplus : c ≠ '+') (hc : c.toNat < 128)
    (rest : List Char) :
    decodeBytes (c :: rest) = (decodeBytes rest).map (UInt8.ofNat c.toNat :: ·) := by
  rw [decodeBytes]
  · simp [hpercent, Nat.not_le.mpr hc]
  · simp [hpercent]
  · simpa using hplus

/-- Each byte is written by characters that are read as it. -/
structure Encodes (encode : UInt8 → List Char) : Prop where
  decodeBytes : ∀ b rest, decodeBytes (encode b ++ rest) = (decodeBytes rest).map (b :: ·)
  /-- No separator is written. -/
  separators : ∀ b, ∀ c ∈ encode b, c ≠ '&' ∧ c ≠ '=' ∧ c ≠ '#'

/-- The characters of a text, by the bytes of its UTF-8 encoding. -/
def encodeText (encode : UInt8 → List Char) (s : String) : List Char :=
  s.toByteArray.data.toList.flatMap encode

variable {encode : UInt8 → List Char}

theorem decodeBytes_flatMap (h : Encodes encode) (bytes : List UInt8) :
    decodeBytes (bytes.flatMap encode) = some bytes := by
  induction bytes with
  | nil => rfl
  | cons b bytes ih => rw [List.flatMap_cons, h.decodeBytes, ih, Option.map_some]

theorem decode_encodeText (h : Encodes encode) (s : String) :
    decode (encodeText encode s) = some s := by
  rw [decode, encodeText, decodeBytes_flatMap h, Option.bind_some, Array.toArray_toList]
  exact dif_pos s.isValidUTF8

theorem separators_encodeText (h : Encodes encode) {s : String} {c : Char}
    (hc : c ∈ encodeText encode s) : c ≠ '&' ∧ c ≠ '=' ∧ c ≠ '#' := by
  obtain ⟨b, -, hb⟩ := List.mem_flatMap.mp hc
  exact h.separators b c hb

/-- A parameter. -/
def parameter (encode : UInt8 → List Char) (p : String × String) : List Char :=
  encodeText encode p.1 ++ '=' :: encodeText encode p.2

theorem readParameter_parameter (h : Encodes encode) (p : String × String) :
    readParameter (parameter encode p) = some p := by
  have hname : ∀ c ∈ encodeText encode p.1, (c != '=') = true := by
    intro c hc
    simpa using (separators_encodeText h hc).2.1
  have htake : (parameter encode p).takeWhile (· != '=') = encodeText encode p.1 :=
    List.takeWhile_append_of_head hname (by simp)
  have hdrop : (parameter encode p).dropWhile (· != '=') = '=' :: encodeText encode p.2 :=
    List.dropWhile_append_of_head hname (by simp)
  simp [readParameter, htake, hdrop, decode_encodeText h]

theorem not_mem_parameter (h : Encodes encode) (p : String × String) {c : Char}
    (hc : c = '&' ∨ c = '#') : c ∉ parameter encode p := by
  intro hmem
  have hcs : c ∈ encodeText encode p.1 ∨ c = '=' ∨ c ∈ encodeText encode p.2 := by
    simpa [parameter] using hmem
  obtain hname | rfl | hvalue := hcs
  · have hsep := separators_encodeText h hname
    grind
  · revert hc
    decide
  · have hsep := separators_encodeText h hvalue
    grind

/-- Parameters, joined. -/
def query (encode : UInt8 → List Char) (parameters : List (String × String)) : List Char :=
  ['&'].intercalate (parameters.map (parameter encode))

theorem mapM_readParameter (h : Encodes encode) (parameters : List (String × String)) :
    (parameters.map (parameter encode)).mapM readParameter = some parameters := by
  induction parameters with
  | nil => rfl
  | cons p parameters ih => simp [readParameter_parameter h, ih]

theorem query_cons_ne_nil (p : String × String) (parameters : List (String × String)) :
    query encode (p :: parameters) ≠ [] := by
  cases parameters <;> simp [query, List.intercalate, parameter]

theorem not_mem_query (h : Encodes encode) (parameters : List (String × String)) :
    '#' ∉ query encode parameters := by
  induction parameters with
  | nil => simp [query]
  | cons p parameters ih =>
    have hp := not_mem_parameter h p (.inr rfl)
    cases parameters with
    | nil => simpa [query] using hp
    | cons q parameters =>
      have hquery : query encode (p :: q :: parameters) =
          parameter encode p ++ '&' :: query encode (q :: parameters) := rfl
      simp [hquery, hp, ih]

theorem readQuery_query (h : Encodes encode) (parameters : List (String × String)) :
    readQuery (query encode parameters) = some parameters := by
  cases parameters with
  | nil => rfl
  | cons p parameters =>
    rw [readQuery, if_neg (query_cons_ne_nil p parameters), query,
      List.splitOn_intercalate '&' _ (by simp)]
    · exact mapM_readParameter h _
    · intro l hl
      obtain ⟨q, -, rfl⟩ := List.mem_map.mp hl
      exact not_mem_parameter h q (.inl rfl)

/-- No parameters need no query. -/
def withQuery (path : List Char) (encoded : List Char) : List Char :=
  if encoded = [] then path else path ++ '?' :: encoded

theorem append_withQuery (front path encoded : List Char) :
    front ++ withQuery path encoded = withQuery (front ++ path) encoded := by
  unfold withQuery
  split <;> simp

theorem readUrl_withQuery (h : Encodes encode) {path : List Char}
    (hpath : ∀ c ∈ path, c ≠ '?' ∧ c ≠ '#') (parameters : List (String × String)) :
    readUrl (withQuery path (query encode parameters)) = some (path, parameters) := by
  have hquestion : ∀ c ∈ path, (c != '?') = true := by
    intro c hc
    simpa using (hpath c hc).1
  have hfragment : (withQuery path (query encode parameters)).takeWhile (· != '#') =
      withQuery path (query encode parameters) := by
    refine List.takeWhile_eq_self_iff.mpr fun c hc => ?_
    have hne : c ≠ '#' := by
      rintro rfl
      have hquery := not_mem_query h parameters
      have hnot : '#' ∉ path := fun hmem => (hpath '#' hmem).2 rfl
      unfold withQuery at hc
      split at hc <;> simp_all
    simpa using hne
  simp only [readUrl, hfragment]
  by_cases hempty : query encode parameters = []
  · have hread := readQuery_query h parameters
    rw [hempty] at hread
    have hdrop : path.dropWhile (· != '?') = [] := List.dropWhile_eq_nil_iff.mpr hquestion
    have htake : path.takeWhile (· != '?') = path := List.takeWhile_eq_self_iff.mpr hquestion
    simp [withQuery, hempty, hdrop, htake, hread]
  · have hhead : ∀ c ∈ ('?' :: query encode parameters).head?, (c != '?') = false := by simp
    have hdrop := List.dropWhile_append_of_head hquestion hhead
    have htake := List.takeWhile_append_of_head hquestion hhead
    simp [withQuery, hempty, hdrop, htake, readQuery_query h parameters]

end FormEncoding
