import ApmAgent.Helpers.Numbers
import ApmAgent.Model.Tracer
import Mathlib.Tactic.IntervalCases

/-! # TraceContext

  The `traceparent` and `tracestate` headers: reading them, writing them, and
  the grammar of `traceparent`.

  Reading is modelled with its exceptions: an access past the end of the text
  throws, and so does `HexStringTwoCharToByte` on a character that is not a hex
  digit. `IsTraceparent` states the grammar apart from the reader;
  `tryExtractTracingData_spec` says that the reader accepts exactly it.
-/

namespace ApmAgent

/-! ### Access by position -/

/-- `s[i]`. -/
def charAtIndex (s : List Char) (i : Nat) : Except RuntimeException Char :=
  match s[i]? with
  | some c => .ok c
  | none => .error (.other "IndexOutOfRangeException")

/-- `s.Substring(startIndex, length)`. -/
def substring (s : List Char) (startIndex length : Nat) :
    Except RuntimeException (List Char) :=
  if startIndex + length ≤ s.length then .ok ((s.drop startIndex).take length)
  else .error .argumentOutOfRange

namespace TraceContext

/-! ### Hex digits -/

/-- The test of `IsHex` on one character. -/
def isHexDigit (c : Char) : Bool :=
  ('0' ≤ c && c ≤ '9') || ('a' ≤ c && c ≤ 'f') || ('A' ≤ c && c ≤ 'F')

/-- `TraceContext.IsHex`. -/
def isHex (chars : List Char) : Bool := chars.all isHexDigit

/-- `HexCharToInt`, the local function of `HexStringTwoCharToByte`. -/
def hexCharToInt (c : Char) : Except RuntimeException Nat :=
  if '0' ≤ c && c ≤ '9' then .ok (c.toNat - '0'.toNat)
  else if 'a' ≤ c && c ≤ 'f' then .ok (c.toNat - 'a'.toNat + 10)
  else if 'A' ≤ c && c ≤ 'F' then .ok (c.toNat - 'A'.toNat + 10)
  else .error .argumentOutOfRange

/-- `TraceContext.HexStringTwoCharToByte`. -/
def hexStringTwoCharToByte (src : List Char) (start : Nat) : Except RuntimeException UInt8 := do
  if src.all isWhiteSpace || src.length ≤ start + 1 then throw (.other "Exception")
  let high ← hexCharToInt (← charAtIndex src start)
  let low ← hexCharToInt (← charAtIndex src (start + 1))
  return UInt8.ofNat ((high <<< 4) ||| low)

/-! ### Reading `traceparent` -/

def flagRecorded : UInt8 := 1

def optionsLength : Nat := 2

def spanIdLength : Nat := 16

def traceIdLength : Nat := 32

def versionAndTraceIdAndSpanIdLength : Nat := 53

def versionAndTraceIdLength : Nat := 36

def versionPrefixIdLength : Nat := 3

/-- `TraceContext.IsTraceIdValid`. -/
def isTraceIdValid (traceId : List Char) : Bool :=
  !traceId.all isWhiteSpace && traceId.length == 32 && isHex traceId &&
    traceId != "00000000000000000000000000000000".toList

/-- `TraceContext.IsTraceParentValid`. -/
def isTraceParentValid (parentId : List Char) : Bool :=
  !parentId.all isWhiteSpace && parentId.length == 16 && isHex parentId &&
    parentId != "0000000000000000".toList

/-- `s.Length < n || s[n - 1] != '-'`. -/
def lacksDash (s : List Char) (n : Nat) : Except RuntimeException Bool := do
  if s.length < n then return true
  return (← charAtIndex s (n - 1)) != '-'

/-! ### Validating `tracestate` -/

/-- The rule for a blank: next to a tab. The second bound is one short of the end. -/
def isBlankNextToTab (str : List Char) (i : Nat) (c : Char) : Bool :=
  c = ' ' && ((0 < i && str[i - 1]? = some '\t') ||
    (i + 2 < str.length && str[i + 1]? = some '\t'))

/-- `ValidateValue`, the local function of `ValidateTracestate`. -/
def validateValue (str : List Char) : Bool :=
  str ≠ [] && str.zipIdx.all fun (c, i) =>
    (0x20 ≤ c.toNat && c.toNat ≤ 0x7E) || (c = '\t' && c ≠ ',' && c ≠ '=') ||
      isBlankNextToTab str i c

/-- `ValidateKey`, the local function of `ValidateTracestate`. -/
def validateKey (str : List Char) : Bool :=
  str.zipIdx.all fun (c, i) =>
    ('0' ≤ c && c ≤ '9') || ('a' ≤ c && c ≤ 'z') || c = '_' || c = '-' || c = '*' ||
      c = '/' || c = '\t' || isBlankNextToTab str i c

/-- The tests of a key of a list member, with or without a vendor part after an `@`. -/
def isMemberKeyValid (key : List Char) : Bool :=
  if key.contains '@' then
    match key.splitOn '@' with
    | [tenant, system] =>
      !(tenant = [] || 241 < tenant.length) && !(system = [] || 14 < system.length) &&
        validateKey tenant && validateKey system
    | _ => false
  else validateKey key

/-- The loop of `ValidateTracestate` over the list members, with the keys seen and the text
    built so far. -/
def validateMembers : List (List Char) → List (List Char) → List Char → Option (List Char)
  | [], _, sb => some sb
  | listMember :: rest, set, sb =>
    match listMember.splitOn '=' with
    | [key, value] =>
      if set.contains key then none
      else if 256 < key.length then none
      else if !isMemberKeyValid key then none
      else if !validateValue value then none
      else
        let sb := if sb.length ≠ 0 then sb ++ [','] else sb
        validateMembers rest (key :: set) (sb ++ listMember)
    -- A member without exactly one `=` is skipped.
    | _ => validateMembers rest set sb

/-- `TraceContext.ValidateTracestate`. -/
def validateTracestate (traceState : String) : Option String :=
  if isNullOrEmpty (some traceState) then none
  else
    let listMembers := traceState.toList.splitOn ','
    if listMembers = [] || 32 < listMembers.length then none
    else
      (validateMembers listMembers [] []).map fun sb =>
        if sb.length ≠ traceState.length then String.ofList sb else traceState

/-! ### The two entry points -/

/-- `TraceContext.TryExtractTracingData`; `none` is the null reference. -/
def tryExtractTracingData (traceParentValue traceStateValue : Option String) :
    Except RuntimeException (Option DistributedTracingData) := do
  if isNullOrWhiteSpace traceParentValue then return none
  let s := (traceParentValue.getD "").toList
  if ← lacksDash s versionPrefixIdLength then return none
  -- `catch` without a type: every exception of the version means null.
  let some version := (hexStringTwoCharToByte s 0).toOption | return none
  if version = 255 then return none
  let bestAttempt := version > 0
  if ← lacksDash s versionAndTraceIdLength then return none
  let some traceId ← catchArgumentOutOfRange (substring s versionPrefixIdLength traceIdLength)
    | return none
  if !isTraceIdValid traceId then return none
  if ← lacksDash s versionAndTraceIdAndSpanIdLength then return none
  let some parentId ← catchArgumentOutOfRange (substring s versionAndTraceIdLength spanIdLength)
    | return none
  if !isTraceParentValid parentId then return none
  if s.length < versionAndTraceIdAndSpanIdLength + optionsLength then return none
  let some traceFlags ←
      catchArgumentOutOfRange (hexStringTwoCharToByte s versionAndTraceIdAndSpanIdLength)
    | return none
  if !bestAttempt && s.length != versionAndTraceIdAndSpanIdLength + optionsLength then
    return none
  if bestAttempt then
    if versionAndTraceIdAndSpanIdLength + optionsLength < s.length then
      if (← charAtIndex s (versionAndTraceIdAndSpanIdLength + optionsLength)) != '-' then
        return none
  return some
    { traceId := String.ofList traceId
      parentId := String.ofList parentId
      flagRecorded := traceFlags &&& flagRecorded == flagRecorded
      traceState := traceStateValue.bind validateTracestate }
where
  /-- `try { … } catch (ArgumentOutOfRangeException) { return null; }`. -/
  catchArgumentOutOfRange {α : Type} (x : Except RuntimeException α) :
      Except RuntimeException (Option α) :=
    match x with
    | .ok a => .ok (some a)
    | .error .argumentOutOfRange => .ok none
    | .error e => .error e

/-- `TraceContext.BuildTraceparent`. -/
def buildTraceparent (distributedTracingData : Option DistributedTracingData) : Option String :=
  distributedTracingData.map fun d =>
    "00-" ++ d.traceId ++ "-" ++ d.parentId ++ "-" ++ if d.flagRecorded then "01" else "00"


/-! ### The grammar of `traceparent` -/

/-- `s[i..j)`. -/
def slice (s : List Char) (i j : Nat) : List Char := (s.drop i).take (j - i)

/-- The hex digits, in either case. -/
def hexDigits : List Char := "0123456789abcdefABCDEF".toList

/-- The value of a hex digit. -/
def hexDigitValue (c : Char) : Nat :=
  if c.isDigit then c.toNat - '0'.toNat else c.toLower.toNat - 'a'.toNat + 10

/-- The number two hex digits write. -/
def hexByteValue : List Char → Nat
  | [high, low] => 16 * hexDigitValue high + hexDigitValue low
  | _ => 0

/-- Hex digits that are not all zero. -/
structure IsHexId (id : List Char) (length : Nat) : Prop where
  length_eq : id.length = length
  hex : ∀ c ∈ id, c ∈ hexDigits
  nonzero : ∃ c ∈ id, c ≠ '0'

/-- What a `traceparent` value is: `version-traceid-parentid-flags`, and for later versions
    whatever follows a further dash. -/
structure IsTraceparent (s : List Char) : Prop where
  length : 55 ≤ s.length
  version_hex : ∀ c ∈ slice s 0 2, c ∈ hexDigits
  version_ne_ff : (slice s 0 2).map Char.toLower ≠ ['f', 'f']
  dash_version : s[2]? = some '-'
  traceId : IsHexId (slice s 3 35) 32
  dash_traceId : s[35]? = some '-'
  parentId : IsHexId (slice s 36 52) 16
  dash_parentId : s[52]? = some '-'
  flags_hex : ∀ c ∈ slice s 53 55, c ∈ hexDigits
  length_version_00 : slice s 0 2 = ['0', '0'] → s.length = 55
  later_version : slice s 0 2 ≠ ['0', '0'] → s.length = 55 ∨ s[55]? = some '-'

/-- The data a `traceparent` value stands for. -/
def dataOf (s : List Char) (traceState : Option String) : DistributedTracingData where
  traceId := String.ofList (slice s 3 35)
  parentId := String.ofList (slice s 36 52)
  flagRecorded := (hexByteValue (slice s 53 55)).testBit 0
  traceState := traceState

/-! ### Facts on hex digits -/

theorem mem_hexDigits {c : Char} (h : isHexDigit c) : c ∈ hexDigits := by
  -- A character is its code, and the three ranges hold 22 codes.
  have hofNat : Char.ofNat c.toNat = c := Char.ofNat_toNat c
  simp only [isHexDigit, Bool.or_eq_true, Bool.and_eq_true, decide_eq_true_eq,
    Char.le_def, UInt32.le_iff_toNat_le] at h
  have hcode : (48 ≤ c.toNat ∧ c.toNat ≤ 57) ∨ (97 ≤ c.toNat ∧ c.toNat ≤ 102) ∨
      (65 ≤ c.toNat ∧ c.toNat ≤ 70) := by
    rcases h with (h | h) | h
    · exact .inl h
    · exact .inr (.inl h)
    · exact .inr (.inr h)
  rw [← hofNat]
  rcases hcode with ⟨hlo, hhi⟩ | ⟨hlo, hhi⟩ | ⟨hlo, hhi⟩ <;>
    interval_cases c.toNat <;> decide

/-- The code tests for the hex digits by three ranges. -/
theorem isHexDigit_iff {c : Char} : isHexDigit c = true ↔ c ∈ hexDigits := by
  constructor
  · exact mem_hexDigits
  · intro hc
    have hall : hexDigits.all isHexDigit = true := by decide
    exact List.all_eq_true.mp hall c hc

theorem isHex_iff {chars : List Char} : isHex chars = true ↔ ∀ c ∈ chars, c ∈ hexDigits := by
  simp only [isHex, List.all_eq_true, isHexDigit_iff]

/-- What holds of the 22 hex digits holds of every character that is one. -/
theorem forall_hexDigit {P : Char → Prop} [DecidablePred P] (h : hexDigits.all fun c => P c)
    {c : Char} (hc : isHexDigit c) : P c := by
  have hall := List.all_eq_true.mp h c (mem_hexDigits hc)
  exact of_decide_eq_true hall

theorem hexDigitValue_lt {c : Char} (hc : isHexDigit c) : hexDigitValue c < 16 :=
  forall_hexDigit (P := fun c => hexDigitValue c < 16) (by decide) hc

theorem isWhiteSpace_of_isHexDigit {c : Char} (hc : isHexDigit c) : isWhiteSpace c = false :=
  forall_hexDigit (P := fun c => isWhiteSpace c = false) (by decide) hc

theorem hexDigitValue_eq_zero_iff {c : Char} (hc : isHexDigit c) :
    hexDigitValue c = 0 ↔ c = '0' :=
  forall_hexDigit (P := fun c => hexDigitValue c = 0 ↔ c = '0') (by decide) hc

theorem hexDigitValue_eq_fifteen_iff {c : Char} (hc : isHexDigit c) :
    hexDigitValue c = 15 ↔ c.toLower = 'f' :=
  forall_hexDigit (P := fun c => hexDigitValue c = 15 ↔ c.toLower = 'f') (by decide) hc

theorem hexCharToInt_of_isHexDigit {c : Char} (hc : isHexDigit c) :
    hexCharToInt c = .ok (hexDigitValue c) :=
  forall_hexDigit (P := fun c => hexCharToInt c = .ok (hexDigitValue c)) (by decide) hc

theorem hexCharToInt_of_not {c : Char} (hc : isHexDigit c = false) :
    hexCharToInt c = .error .argumentOutOfRange := by
  simp only [isHexDigit, Bool.or_eq_false_iff] at hc
  obtain ⟨⟨hdigit, hlower⟩, hupper⟩ := hc
  unfold hexCharToInt
  rw [if_neg (by simp [hdigit]), if_neg (by simp [hlower]), if_neg (by simp [hupper])]

/-- Two hex digits as the byte the shifts build. -/
theorem hexByte_toNat {high low : Nat} (hhigh : high < 16) (hlow : low < 16) :
    (UInt8.ofNat ((high <<< 4) ||| low)).toNat = 16 * high + low := by
  have hor : (high <<< 4) ||| low = 16 * high + low := by
    have := Nat.shiftLeft_add_eq_or_of_lt (show low < 2 ^ 4 by omega) high
    rw [← this, Nat.shiftLeft_eq]
    omega
  rw [hor, UInt8.toNat_ofNat']
  omega

/-- The flag is bit 0. -/
theorem and_flagRecorded (b : UInt8) :
    (b &&& flagRecorded == flagRecorded) = b.toNat.testBit 0 := by
  have hone : flagRecorded.toNat = 1 := rfl
  have hiff : b &&& flagRecorded = flagRecorded ↔ b.toNat % 2 = 1 := by
    rw [← UInt8.toNat_inj, UInt8.toNat_and, hone, Nat.and_one_is_mod]
  rw [Nat.testBit_zero, Bool.eq_iff_iff, beq_iff_eq, decide_eq_true_eq, hiff]

/-! ### What each test of the reader decides -/

theorem charAtIndex_of_some {s : List Char} {i : Nat} {c : Char} (h : s[i]? = some c) :
    charAtIndex s i = .ok c := by
  simp [charAtIndex, h]

theorem lacksDash_eq (s : List Char) (n : Nat) :
    lacksDash s (n + 1) = .ok (decide (s[n]? ≠ some '-')) := by
  unfold lacksDash
  by_cases hlen : s.length < n + 1
  · have hnone : s[n]? = none := List.getElem?_eq_none (by omega)
    simp [hlen, hnone, pure, Except.pure]
  · have hsome : s[n]? = some s[n] := List.getElem?_eq_getElem (by omega)
    rw [if_neg hlen]
    simp only [Nat.add_sub_cancel, charAtIndex_of_some hsome, hsome]
    by_cases hdash : s[n] = '-' <;>
      simp [hdash, bind, Except.bind, pure, Except.pure]

theorem substring_eq {s : List Char} {i j : Nat} (h : i + j ≤ s.length) :
    substring s i j = .ok (slice s i (i + j)) := by
  simp [substring, slice, h]

theorem length_slice {s : List Char} {i j : Nat} (h : j ≤ s.length) :
    (slice s i j).length = j - i := by
  simp only [slice, List.length_take, List.length_drop]
  omega

/-- A slice of two characters. -/
theorem slice_two {s : List Char} {i : Nat} (h : i + 1 < s.length) :
    slice s i (i + 2) = [s[i], s[i + 1]] := by
  have hdrop : s.drop i = s[i] :: s[i + 1] :: s.drop (i + 2) := by
    rw [List.drop_eq_getElem_cons (by omega), List.drop_eq_getElem_cons h]
  rw [slice, hdrop, Nat.add_sub_cancel_left]
  rfl

/-- Reading a byte: an out-of-range exception, or the value of two hex digits. -/
theorem hexStringTwoCharToByte_cases {s : List Char} {i : Nat} (h : i + 1 < s.length)
    (hblank : s.all isWhiteSpace = false) :
    (¬ isHex (slice s i (i + 2)) ∧ hexStringTwoCharToByte s i = .error .argumentOutOfRange) ∨
    ∃ b, isHex (slice s i (i + 2)) ∧ hexStringTwoCharToByte s i = .ok b ∧
      b.toNat = hexByteValue (slice s i (i + 2)) := by
  have hhigh : s[i]? = some s[i] := List.getElem?_eq_getElem (by omega)
  have hlow : s[i + 1]? = some s[i + 1] := List.getElem?_eq_getElem h
  have hguard : (s.all isWhiteSpace || decide (s.length ≤ i + 1)) = false := by
    simp only [hblank, Bool.false_or, decide_eq_false_iff_not]
    omega
  rw [slice_two h]
  unfold hexStringTwoCharToByte
  simp only [hguard, charAtIndex_of_some hhigh, charAtIndex_of_some hlow, Bool.false_eq_true,
    if_false, isHex, List.all_cons, List.all_nil, Bool.and_true, Bool.and_eq_true]
  -- The first digit is converted before the second one.
  cases hh : isHexDigit s[i] with
  | false => simp [hexCharToInt_of_not hh, bind, Except.bind]
  | true =>
    cases hl : isHexDigit s[i + 1] with
    | false =>
      simp [hexCharToInt_of_isHexDigit hh, hexCharToInt_of_not hl, bind, Except.bind]
    | true =>
      have hbyte := hexByte_toNat (hexDigitValue_lt hh) (hexDigitValue_lt hl)
      refine .inr ⟨_, ⟨rfl, rfl⟩, ?_, hbyte⟩
      simp [hexCharToInt_of_isHexDigit hh, hexCharToInt_of_isHexDigit hl, bind, Except.bind, pure,
        Except.pure]

/-- The tests of `IsTraceIdValid` and `IsTraceParentValid`. -/
theorem isHexId_iff {id : List Char} {n : Nat} :
    (!id.all isWhiteSpace && id.length == n && isHex id && id != List.replicate n '0') = true ↔
      IsHexId id n := by
  simp only [Bool.and_eq_true, beq_iff_eq, bne_iff_ne, ne_eq, isHex_iff]
  constructor
  · rintro ⟨⟨⟨_, hlen⟩, hhex⟩, hzero⟩
    refine ⟨hlen, hhex, ?_⟩
    by_contra hall
    push Not at hall
    exact hzero (List.eq_replicate_iff.mpr ⟨hlen, hall⟩)
  · rintro ⟨hlen, hhex, c, hc, hne⟩
    refine ⟨⟨⟨?_, hlen⟩, hhex⟩, ?_⟩
    · -- A hex digit is not white space.
      rw [Bool.not_eq_true', List.all_eq_false]
      exact ⟨c, hc, by simp [isWhiteSpace_of_isHexDigit (isHexDigit_iff.mpr (hhex c hc))]⟩
    · intro hzero
      exact hne (List.eq_replicate_iff.mp hzero |>.2 c hc)

theorem isTraceIdValid_iff {id : List Char} : isTraceIdValid id = true ↔ IsHexId id 32 := by
  have hzeros : "00000000000000000000000000000000".toList = List.replicate 32 '0' := by decide
  rw [isTraceIdValid, hzeros]
  exact isHexId_iff

theorem isTraceParentValid_iff {id : List Char} :
    isTraceParentValid id = true ↔ IsHexId id 16 := by
  have hzeros : "0000000000000000".toList = List.replicate 16 '0' := by decide
  rw [isTraceParentValid, hzeros]
  exact isHexId_iff

/-- A version that is read: 255 is `ff`, and 0 is `00`. -/
theorem hexByteValue_version {v : List Char} (hlen : v.length = 2) (hhex : isHex v) :
    (hexByteValue v = 255 ↔ v.map Char.toLower = ['f', 'f']) ∧
      (hexByteValue v = 0 ↔ v = ['0', '0']) := by
  obtain ⟨high, low, rfl⟩ := List.length_eq_two.mp hlen
  simp only [isHex, List.all_cons, List.all_nil, Bool.and_true, Bool.and_eq_true] at hhex
  have hh := hexDigitValue_lt hhex.1
  have hl := hexDigitValue_lt hhex.2
  simp only [hexByteValue, List.map_cons, List.map_nil, List.cons.injEq, and_true,
    ← hexDigitValue_eq_zero_iff hhex.1, ← hexDigitValue_eq_zero_iff hhex.2,
    ← hexDigitValue_eq_fifteen_iff hhex.1, ← hexDigitValue_eq_fifteen_iff hhex.2]
  constructor <;> omega

/-- What the reader returns on `s`. -/
def Reads (s : List Char) (traceState : Option String)
    (result : Except RuntimeException (Option DistributedTracingData)) : Prop :=
  (IsTraceparent s → result = .ok (some (dataOf s traceState))) ∧
    (¬ IsTraceparent s → result = .ok none)

section
variable {s : List Char} {traceState : Option String}
  {result : Except RuntimeException (Option DistributedTracingData)}

theorem Reads.rejected (h : ¬ IsTraceparent s) : Reads s traceState (.ok none) :=
  ⟨fun h' => absurd h' h, fun _ => rfl⟩

theorem Reads.accepted (h : IsTraceparent s) :
    Reads s traceState (.ok (some (dataOf s traceState))) :=
  ⟨fun _ => rfl, fun h' => absurd h h'⟩

/-- An early return: the grammar has to fail there, and the rest has to be right otherwise. -/
theorem Reads.guard {c : Prop} [Decidable c] (hc : c → ¬ IsTraceparent s)
    (hresult : ¬ c → Reads s traceState result) :
    Reads s traceState (if c then .ok none else result) := by
  by_cases h : c
  · rw [if_pos h]
    exact .rejected (hc h)
  · rw [if_neg h]
    exact hresult h

end

theorem lt_length_of_getElem? {s : List Char} {i : Nat} {c : Char} (h : s[i]? = some c) :
    i < s.length :=
  (List.getElem?_eq_some_iff.mp h).1

/-- A `traceparent` value starts with a hex digit, so it is not blank. -/
theorem IsTraceparent.not_blank {s : List Char} (h : IsTraceparent s) :
    s.all isWhiteSpace = false := by
  have hlen := h.length
  have hfirst : isHexDigit s[0] :=
    isHexDigit_iff.mpr (h.version_hex _ (by rw [slice_two (by omega)]; exact List.mem_cons_self))
  rw [List.all_eq_false]
  exact ⟨s[0], List.getElem_mem _, by simp [isWhiteSpace_of_isHexDigit hfirst]⟩

/-- The last tests are about the length: version 0 ends behind the flags, and a later one may go
    on after a dash. -/
theorem reads_length {s : List Char} {traceState : Option String} {version : UInt8}
    (hlen : 55 ≤ s.length) (hversion : version > 0 ↔ slice s 0 2 ≠ ['0', '0'])
    (haccepted : (slice s 0 2 = ['0', '0'] → s.length = 55) →
      (slice s 0 2 ≠ ['0', '0'] → s.length = 55 ∨ s[55]? = some '-') → IsTraceparent s) :
    Reads s traceState
      (if !decide (version > 0) && s.length != 55 then .ok none
      else if version > 0 then
        if 55 < s.length then
          (charAtIndex s 55).bind fun c =>
            if c != '-' then .ok none else .ok (some (dataOf s traceState))
        else .ok (some (dataOf s traceState))
      else .ok (some (dataOf s traceState))) := by
  refine .guard (fun hlong h => ?_) fun hlong => ?_
  · simp only [Bool.and_eq_true, Bool.not_eq_true', decide_eq_false_iff_not, bne_iff_ne, hversion,
      not_not] at hlong
    exact hlong.2 (h.length_version_00 hlong.1)
  by_cases hlater : version > 0
  · have hne := hversion.mp hlater
    rw [if_pos hlater]
    by_cases hlonger : 55 < s.length
    · have hnext : s[55]? = some s[55] := List.getElem?_eq_getElem hlonger
      rw [if_pos hlonger, charAtIndex_of_some hnext, Except.bind]
      refine .guard (fun hdash h => ?_) fun hdash => ?_
      · -- Longer than 55, so a dash has to follow.
        rcases h.later_version hne with h55 | h55
        · omega
        · rw [hnext, Option.some.injEq] at h55
          simp [h55] at hdash
      · have hdash' : s[55] = '-' := by simpa using hdash
        exact .accepted (haccepted (fun h00 => absurd h00 hne) fun _ => .inr (by rw [hnext, hdash']))
    · rw [if_neg hlonger]
      exact .accepted (haccepted (fun h00 => absurd h00 hne) fun _ => .inl (by omega))
  · have h00 : slice s 0 2 = ['0', '0'] := by
      rwa [hversion, not_not] at hlater
    have h55 : s.length = 55 := by
      by_contra hne
      exact hlong (by simp [hlater, hne])
    rw [if_neg hlater]
    exact .accepted (haccepted (fun _ => h55) fun h => absurd h00 h)

theorem tryExtractTracingData_reads (cs : List Char) (traceStateValue : Option String) :
    Reads cs (traceStateValue.bind validateTracestate)
      (tryExtractTracingData (some (String.ofList cs)) traceStateValue) := by
  unfold tryExtractTracingData
  simp only [lacksDash_eq, versionPrefixIdLength, versionAndTraceIdLength, traceIdLength,
    spanIdLength, optionsLength, versionAndTraceIdAndSpanIdLength, isNullOrWhiteSpace,
    Option.getD_some, String.toList_ofList, bind, Except.bind, pure, Except.pure,
    decide_eq_true_eq]
  refine .guard (fun hblank h => ?_) fun hblank => ?_
  · simp [h.not_blank] at hblank
  rw [Bool.not_eq_true] at hblank
  refine .guard (fun hdash h => hdash h.dash_version) fun hdash => ?_
  rw [not_not] at hdash
  have hlen := lt_length_of_getElem? hdash
  -- The version: two hex digits, or an exception that is caught.
  rcases hexStringTwoCharToByte_cases (s := cs) (i := 0) (by omega) hblank with
    ⟨hnot, herror⟩ | ⟨version, hversion, hok, hvalue⟩
  · rw [herror]
    exact .rejected fun h => hnot (isHex_iff.mpr h.version_hex)
  rw [hok]
  obtain ⟨hff, hzero⟩ :=
    hexByteValue_version (length_slice (show 2 ≤ cs.length by omega)) hversion
  rw [← hvalue] at hff hzero
  refine .guard (fun h255 h => ?_) fun h255 => ?_
  · subst h255
    exact h.version_ne_ff (hff.mp rfl)
  -- The trace id and the parent id.
  refine .guard (fun hdash h => hdash h.dash_traceId) fun hdashTrace => ?_
  rw [not_not] at hdashTrace
  have hlenTrace := lt_length_of_getElem? hdashTrace
  rw [substring_eq (show 3 + 32 ≤ cs.length by omega)]
  refine .guard (fun hid h => ?_) fun hid => ?_
  · simp [isTraceIdValid_iff.mpr h.traceId] at hid
  rw [Bool.not_eq_true, Bool.not_eq_false', isTraceIdValid_iff] at hid
  refine .guard (fun hdash h => hdash h.dash_parentId) fun hdashParent => ?_
  rw [not_not] at hdashParent
  have hlenParent := lt_length_of_getElem? hdashParent
  rw [substring_eq (show 36 + 16 ≤ cs.length by omega)]
  refine .guard (fun hid h => ?_) fun hparent => ?_
  · simp [isTraceParentValid_iff.mpr h.parentId] at hid
  rw [Bool.not_eq_true, Bool.not_eq_false', isTraceParentValid_iff] at hparent
  -- The flags.
  refine .guard (fun hshort h => by have := h.length; omega) fun hshort => ?_
  rcases hexStringTwoCharToByte_cases (s := cs) (i := 53) (by omega) hblank with
    ⟨hnot, herror⟩ | ⟨flags, hflags, hok, hflagsValue⟩
  · rw [herror]
    exact .rejected fun h => hnot (isHex_iff.mpr h.flags_hex)
  rw [hok]
  have hdata : (⟨String.ofList (slice cs 3 (3 + 32)), String.ofList (slice cs 36 (36 + 16)),
      flags &&& flagRecorded == flagRecorded, traceStateValue.bind validateTracestate⟩ :
        DistributedTracingData) = dataOf cs (traceStateValue.bind validateTracestate) := by
    rw [and_flagRecorded, hflagsValue]
    rfl
  have hbest : version > 0 ↔ slice cs 0 2 ≠ ['0', '0'] := by
    rw [gt_iff_lt, UInt8.lt_iff_toNat_lt, ne_eq, ← hzero]
    exact Nat.pos_iff_ne_zero
  simp only [tryExtractTracingData.catchArgumentOutOfRange, hdata, Nat.reduceAdd]
  refine reads_length (by omega) hbest fun h55 hlater => ?_
  exact
    { length := by omega
      version_hex := isHex_iff.mp hversion
      version_ne_ff := fun hff' => h255 (UInt8.toNat_inj.mp (hff.mpr hff'))
      dash_version := hdash
      traceId := hid
      dash_traceId := hdashTrace
      parentId := hparent
      dash_parentId := hdashParent
      flags_hex := isHex_iff.mp hflags
      length_version_00 := h55
      later_version := hlater }

/-- The reader never throws, accepts exactly the grammar, and returns the parts of the text. -/
theorem tryExtractTracingData_spec (s : String) (traceStateValue : Option String) :
    ∃ result, tryExtractTracingData (some s) traceStateValue = .ok result ∧
      (result.isSome ↔ IsTraceparent s.toList) ∧
      ∀ d, result = some d →
        d.traceId = String.ofList (slice s.toList 3 35) ∧
        d.parentId = String.ofList (slice s.toList 36 52) ∧
        d.flagRecorded = (hexByteValue (slice s.toList 53 55)).testBit 0 := by
  obtain ⟨haccept, hreject⟩ := tryExtractTracingData_reads s.toList traceStateValue
  rw [String.ofList_toList] at haccept hreject
  by_cases h : IsTraceparent s.toList
  · refine ⟨_, haccept h, by simp [h], ?_⟩
    intro d hd
    cases hd
    exact ⟨rfl, rfl, rfl⟩
  · exact ⟨_, hreject h, by simp [h], by simp⟩

/-- What an accepted text was read as. -/
theorem tryExtractTracingData_eq_some {s : String} {traceStateValue : Option String}
    {d : DistributedTracingData}
    (h : tryExtractTracingData (some s) traceStateValue = .ok (some d)) :
    IsTraceparent s.toList ∧
      d = dataOf s.toList (traceStateValue.bind validateTracestate) := by
  obtain ⟨haccept, hreject⟩ := tryExtractTracingData_reads s.toList traceStateValue
  rw [String.ofList_toList] at haccept hreject
  by_cases hs : IsTraceparent s.toList
  · rw [haccept hs] at h
    cases h
    exact ⟨hs, rfl⟩
  · rw [hreject hs] at h
    cases h

/-! ### The text and its parts -/

/-- The four parts with the dashes between them. -/
def traceparentText (version traceId parentId flags : List Char) : List Char :=
  version ++ '-' :: (traceId ++ '-' :: (parentId ++ '-' :: flags))

/-- One part and the dash after it. -/
theorem cut_of_drop {s part rest : List Char} {i n : Nat} (hn : part.length = n)
    (h : s.drop i = part ++ '-' :: rest) :
    slice s i (i + n) = part ∧ s[i + n]? = some '-' ∧ s.drop (i + n + 1) = rest := by
  subst hn
  refine ⟨?_, ?_, ?_⟩
  · rw [slice, h, Nat.add_sub_cancel_left, List.take_left]
  · rw [← List.getElem?_drop, h]
    simp
  · rw [Nat.add_assoc, ← List.drop_drop, h, ← List.drop_drop, List.drop_left]
    rfl

/-- The written text has the parts it was written from. -/
theorem parts_traceparentText {version traceId parentId flags s : List Char}
    (hversion : version.length = 2) (htraceId : traceId.length = 32)
    (hparentId : parentId.length = 16) (hflags : flags.length = 2)
    (hs : s = traceparentText version traceId parentId flags) :
    (slice s 0 2 = version ∧ s[2]? = some '-') ∧ (slice s 3 35 = traceId ∧ s[35]? = some '-') ∧
      (slice s 36 52 = parentId ∧ s[52]? = some '-') ∧ slice s 53 55 = flags ∧
      s.length = 55 := by
  obtain ⟨hv, hdash, hrest⟩ := cut_of_drop (i := 0) hversion hs
  obtain ⟨ht, hdash', hrest⟩ := cut_of_drop htraceId hrest
  obtain ⟨hp, hdash'', hrest⟩ := cut_of_drop hparentId hrest
  refine ⟨⟨hv, hdash⟩, ⟨ht, hdash'⟩, ⟨hp, hdash''⟩, ?_, ?_⟩
  · rw [slice, hrest, List.take_of_length_le (by omega)]
  · rw [hs, traceparentText]
    simp only [List.length_append, List.length_cons]
    omega

/-- An accepted text without an extension is written from its parts. -/
theorem eq_traceparentText {s : List Char} (h : IsTraceparent s) (hlen : s.length = 55) :
    s = traceparentText (slice s 0 2) (slice s 3 35) (slice s 36 52) (slice s 53 55) := by
  have hpart {i j : Nat} (hij : i ≤ j) : slice s i j ++ s.drop j = s.drop i := by
    have := List.take_append_drop (j - i) (s.drop i)
    rwa [List.drop_drop, Nat.add_sub_cancel' hij] at this
  have hdash {i : Nat} (hi : s[i]? = some '-') : '-' :: s.drop (i + 1) = s.drop i := by
    obtain ⟨hlt, hget⟩ := List.getElem?_eq_some_iff.mp hi
    rw [List.drop_eq_getElem_cons hlt, hget]
  have hend : slice s 53 55 = s.drop 53 :=
    List.take_of_length_le (by rw [List.length_drop]; omega)
  -- From the back: every part with what follows it.
  rw [traceparentText, hend, hdash h.dash_parentId, hpart (by omega), hdash h.dash_traceId,
    hpart (by omega), hdash h.dash_version, hpart (by omega), List.drop_zero]

/-! ### Writing and reading back -/

/-- The two flags that are written. -/
def flagsText (recorded : Bool) : List Char := if recorded then ['0', '1'] else ['0', '0']

theorem buildTraceparent_eq (d : DistributedTracingData) :
    buildTraceparent (some d) = some (String.ofList
      (traceparentText ['0', '0'] d.traceId.toList d.parentId.toList
        (flagsText d.flagRecorded))) := by
  rw [buildTraceparent, Option.map_some, Option.some.injEq, ← String.toList_inj]
  cases d.flagRecorded <;> simp [traceparentText, flagsText]

/-- What is written from valid ids is in the grammar, and stands for the data. -/
theorem isTraceparent_traceparentText {traceId parentId s : List Char} (recorded : Bool)
    (htraceId : IsHexId traceId 32) (hparentId : IsHexId parentId 16)
    (hs : s = traceparentText ['0', '0'] traceId parentId (flagsText recorded)) :
    IsTraceparent s ∧
      dataOf s none = ⟨String.ofList traceId, String.ofList parentId, recorded, none⟩ := by
  have hflags : (flagsText recorded).length = 2 := by cases recorded <;> rfl
  obtain ⟨⟨hv, hdash⟩, ⟨ht, hdash'⟩, ⟨hp, hdash''⟩, hf, hlen⟩ :=
    parts_traceparentText rfl htraceId.length_eq hparentId.length_eq hflags hs
  constructor
  · exact
      { length := by omega
        version_hex := by rw [hv]; exact isHex_iff.mp rfl
        version_ne_ff := by rw [hv]; decide
        dash_version := hdash
        traceId := by rwa [ht]
        dash_traceId := hdash'
        parentId := by rwa [hp]
        dash_parentId := hdash''
        flags_hex := by rw [hf]; cases recorded <;> exact isHex_iff.mp rfl
        length_version_00 := fun _ => hlen
        later_version := fun _ => .inl hlen }
  · have hbit : (hexByteValue (flagsText recorded)).testBit 0 = recorded := by
      cases recorded <;> decide
    rw [dataOf, ht, hp, hf, hbit]

/-- Reading what was written from valid ids. -/
theorem tryExtractTracingData_buildTraceparent {d : DistributedTracingData}
    (htraceId : IsHexId d.traceId.toList 32) (hparentId : IsHexId d.parentId.toList 16) :
    tryExtractTracingData (buildTraceparent (some d)) none =
      .ok (some { d with traceState := none }) := by
  obtain ⟨hgrammar, hdata⟩ := isTraceparent_traceparentText d.flagRecorded htraceId hparentId rfl
  have hread := (tryExtractTracingData_reads _ none).1 hgrammar
  rw [Option.bind_none, hdata, String.ofList_toList, String.ofList_toList] at hread
  rw [buildTraceparent_eq, hread]

/-- Reading inverts writing, and writing inverts reading on the version that is written. -/
theorem traceparent_roundTrip :
    (∀ d : DistributedTracingData, IsHexId d.traceId.toList 32 → IsHexId d.parentId.toList 16 →
      ∃ d', tryExtractTracingData (buildTraceparent (some d)) none = .ok (some d') ∧
        d'.traceId = d.traceId ∧ d'.parentId = d.parentId ∧
        d'.flagRecorded = d.flagRecorded) ∧
    ∀ (s : String) (d : DistributedTracingData),
      tryExtractTracingData (some s) none = .ok (some d) →
      slice s.toList 0 2 = ['0', '0'] →
      (slice s.toList 53 55 = ['0', '0'] ∨ slice s.toList 53 55 = ['0', '1']) →
      buildTraceparent (some d) = some s := by
  constructor
  · intro d htraceId hparentId
    exact ⟨_, tryExtractTracingData_buildTraceparent htraceId hparentId, rfl, rfl, rfl⟩
  · intro s d hread hversion hflags
    obtain ⟨hgrammar, rfl⟩ := tryExtractTracingData_eq_some hread
    have htext := eq_traceparentText hgrammar (hgrammar.length_version_00 hversion)
    have hwritten : flagsText ((hexByteValue (slice s.toList 53 55)).testBit 0) =
        slice s.toList 53 55 := by
      rcases hflags with h | h <;> rw [h] <;> decide
    rw [hversion] at htext
    rw [buildTraceparent_eq]
    simp only [dataOf, String.toList_ofList, hwritten, ← htext, String.ofList_toList]

theorem traceparent_roundTrip_sampled :
    (∃ d', tryExtractTracingData
        (buildTraceparent (some ⟨"0AF7651916CD43DD8448EB211C80319C", "b7ad6b7169203331", true, none⟩))
        none = .ok (some d') ∧
      d'.traceId = "0AF7651916CD43DD8448EB211C80319C" ∧ d'.parentId = "b7ad6b7169203331" ∧
      d'.flagRecorded = true) ∧
    buildTraceparent (some ⟨"0af7651916cd43dd8448eb211c80319c", "b7ad6b7169203331", true, none⟩) =
      some "00-0af7651916cd43dd8448eb211c80319c-b7ad6b7169203331-01" := by
  constructor
  · exact traceparent_roundTrip.1 ⟨_, _, true, none⟩
      (isTraceIdValid_iff.mp (by decide)) (isTraceParentValid_iff.mp (by decide))
  · exact traceparent_roundTrip.2 "00-0af7651916cd43dd8448eb211c80319c-b7ad6b7169203331-01" _
      (by decide +kernel) (by decide) (.inr (by decide))

end TraceContext

end ApmAgent
