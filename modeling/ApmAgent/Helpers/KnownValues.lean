import ApmAgent.Helpers.ServerText

/-! # Known values of a connection string

  The parser walks through the pairs of a connection string and reads the
  values of known keys as it comes to them. Here the walk stands alone: which
  values it comes to depends on the text and on whether an address has been
  found, not on what the values say.

  - `parseConnectionString_eq`: the parser reads the values of the walk one
    after the other.
  - `knownValues_atMostOne`: at most one of them gives an address.
-/

namespace ApmAgent

namespace DbConnectionStringParser

/-- A value of a known key. -/
inductive KnownValue where
  /-- A server value that names the local machine. -/
  | localhost
  /-- What `ParseServerWithOptionalPort` gets. -/
  | server (value : List Char)
  | port (value : List Char)
  deriving DecidableEq, Repr

namespace KnownValue

/-- The value gives an address. -/
def isAddress : KnownValue → Bool
  | .localhost => true
  | .server _ => true
  | .port _ => false

def apply : KnownValue → Destination → Except FormatException Destination
  | .localhost, destination => .ok (destination.setAddress "localhost")
  | .server value, destination => parseServerWithOptionalPort value destination
  | .port value, destination => parsePortValue value destination

/-- One value after the other. -/
def applyAll (values : List KnownValue) (destination : Destination) :
    Except FormatException Destination :=
  values.foldlM (fun destination value => value.apply destination) destination

@[simp] theorem applyAll_nil (d : Destination) : applyAll [] d = .ok d := rfl

theorem applyAll_cons (v : KnownValue) (values : List KnownValue) (d : Destination) :
    applyAll (v :: values) d = v.apply d >>= applyAll values := List.foldlM_cons

theorem applyAll_append (values values' : List KnownValue) (d : Destination) :
    applyAll (values ++ values') d = applyAll values d >>= applyAll values' :=
  List.foldlM_append

end KnownValue

open KnownValue (applyAll)

/-! ### The walk -/

/-- The values of a part of the text and those of what follows it: behind an address the parser
    does not look for another one. -/
def thenValues (first : Except FormatException (List KnownValue)) (found : Bool)
    (next : Bool → Except FormatException (List KnownValue)) :
    Except FormatException (List KnownValue) := do
  let values ← first
  let others ← next (found || values.any KnownValue.isAddress)
  pure (values ++ others)

section

-- The values of a pair.
variable (valuesOfKeyValue : List Char → Bool → Except FormatException (List KnownValue))

/-- `parseSubKeyValues`. -/
def valuesOfSubKeyValues (value : List Char) (found : Bool) :
    Except FormatException (List KnownValue) :=
  match _h : findMatchingClosingDelimiter value with
  | none => .error ⟨⟩
  | some close =>
    let rest := nextOpeningDelimiter value close
    if rest = [] then valuesOfKeyValue ((value.take close).drop 1) found
    else
      thenValues (valuesOfKeyValue ((value.take close).drop 1) found) found
        (valuesOfSubKeyValues rest)
termination_by value.length
decreasing_by
  refine length_nextOpeningDelimiter_lt ?_ close
  rintro rfl
  cases _h

/-- The pairs of a flat text. -/
def valuesOfPairs : List (List Char) → Bool → Except FormatException (List KnownValue)
  | [], _ => .ok []
  | keyValue :: keyValues, found =>
    thenValues (valuesOfKeyValue keyValue found) found (valuesOfPairs keyValues)

end

section

variable [InvariantCulture]

section

-- The values of a nested text at the current depth.
variable (valuesOfNestedStructure :
  List Char → Bool → Except FormatException (List KnownValue))

/-- `parseServerValue`. -/
def valuesOfServerValue (valueArg : List Char) (found : Bool) :
    Except FormatException (List KnownValue) :=
  if found then .ok []
  else
    let value := trimDiscardable valueArg
    if startsWithIgnoreCase "(LocalDB)".toList value ||
        startsWithIgnoreCase ".\\".toList value then .ok [.localhost]
    else if hasNestedStructure value then valuesOfNestedStructure value found
    else
      match splitAtFirst '\\' value with
      | some (serverName, _) => .ok [.server serverName]
      | none => .ok [.server value]

/-- `parseAddressKeyWithNestedStructureValue`. -/
def valuesOfAddressKey (value : List Char) (found : Bool) :
    Except FormatException (List KnownValue) :=
  if found then .ok []
  else if !hasNestedStructure value then .error ⟨⟩
  else valuesOfNestedStructure value found

/-- `parseKeyValue`. -/
def valuesOfKeyValue (keyValue : List Char) (found : Bool) :
    Except FormatException (List KnownValue) :=
  if isNullOrWhiteSpaceChars keyValue then .ok []
  else
    match splitAtFirst '=' keyValue with
    | none => .ok []
    | some (keyPart, valuePart) =>
      let value := trimChars valuePart
      match propertySetter? (trimChars keyPart) with
      | none =>
        if hasNestedStructure value then valuesOfNestedStructure value found else .ok []
      | some .parseServerValue => valuesOfServerValue valuesOfNestedStructure value found
      | some .parsePortValue => .ok [.port value]
      | some .parseAddressKeyWithNestedStructureValue =>
        valuesOfAddressKey valuesOfNestedStructure value found

end

/-- `parseNestedStructure`. -/
def valuesOfNestedStructure :
    Nat → List Char → Bool → Except FormatException (List KnownValue)
  | 0, _, _ => .ok []
  | remaining + 1, value, found =>
    valuesOfSubKeyValues (valuesOfKeyValue (valuesOfNestedStructure remaining)) value found

/-- The values the parser comes to in a connection string. -/
def knownValues (dbConnectionString : String) : Except FormatException (List KnownValue) :=
  valuesOfPairs (valuesOfKeyValue (valuesOfNestedStructure maxNestingDepth))
    (dbConnectionString.toList.splitOn ';') false

end

/-! ### What the values do to the destination -/

theorem parsePortValue_ok_iff {text : List Char} {d d' : Destination} :
    parsePortValue text d = .ok d' ↔
      ∃ port, tryParseInt (String.ofList text) = some port ∧ 0 ≤ port ∧
        d' = d.setPort (some port) := by
  rw [parsePortValue_eq]
  cases tryParseInt (String.ofList text) with
  | none => simp
  | some port =>
    by_cases hnegative : port < 0
    · have : ¬0 ≤ port := fun h => Int32.not_lt.mpr h hnegative
      simp [hnegative, this]
    · have : 0 ≤ port := Int32.not_lt.mp hnegative
      simp [hnegative, this, eq_comm]

/-- What accepted parts do: the address is set, and the port where there is one. -/
theorem ServerParts.apply_ok_iff {parts : ServerParts} {d d' : Destination} :
    parts.apply d = .ok d' ↔
      ∃ address, parts.readAddress = .ok address ∧
        match parts.portText with
        | none => d' = d.setAddress address
        | some port => parsePortValue port (d.setAddress address) = .ok d' := by
  rw [parts.apply_eq]
  cases parts.readAddress with
  | error e => simp [bind, Except.bind]
  | ok address =>
    cases parts.portText with
    | none => simp [bind, Except.bind, eq_comm]
    | some port => simp [bind, Except.bind]

theorem apply_server_ok_iff {value : List Char} {d d' : Destination} :
    (KnownValue.server value).apply d = .ok d' ↔
      trimChars value ≠ [] ∧ (serverParts (trimChars value)).apply d = .ok d' := by
  show parseServerWithOptionalPort value d = .ok d' ↔ _
  rw [parseServerWithOptionalPort_eq]
  by_cases hne : trimChars value = [] <;> simp [hne]

/-- The address that a value gives. -/
def KnownValue.readAddress : KnownValue → Except FormatException String
  | .localhost => .ok "localhost"
  | .server value => (serverParts (trimChars value)).readAddress
  | .port _ => .error ⟨⟩

theorem address_parsePortValue {text : List Char} {d d' : Destination}
    (h : parsePortValue text d = .ok d') : d'.address = d.address := by
  obtain ⟨port, _, _, rfl⟩ := parsePortValue_ok_iff.mp h
  rfl

theorem address_apply {v : KnownValue} {d d' : Destination} (h : v.apply d = .ok d')
    (hv : v.isAddress = true) :
    ∃ address, v.readAddress = .ok address ∧ d'.address = .set (some address) := by
  cases v with
  | localhost =>
    cases h
    exact ⟨"localhost", rfl, rfl⟩
  | server value =>
    obtain ⟨_, hparts⟩ := apply_server_ok_iff.mp h
    obtain ⟨address, haddress, hport⟩ := ServerParts.apply_ok_iff.mp hparts
    refine ⟨address, haddress, ?_⟩
    cases htext : (serverParts (trimChars value)).portText with
    | none =>
      rw [htext] at hport
      subst hport
      rfl
    | some text =>
      rw [htext] at hport
      exact address_parsePortValue hport
  | port value => cases hv

/-- Values without an address leave the address as it is. -/
theorem address_applyAll_none {values : List KnownValue} {d d' : Destination}
    (hnone : values.countP KnownValue.isAddress = 0)
    (h : applyAll values d = .ok d') : d'.address = d.address := by
  induction values generalizing d with
  | nil =>
    cases h
    rfl
  | cons v values ih =>
    rw [KnownValue.applyAll_cons] at h
    rw [List.countP_eq_zero, List.forall_mem_cons] at hnone
    rcases hv : v.apply d with e | d₁
    · rw [hv] at h
      cases h
    · rw [hv] at h
      rw [ih (List.countP_eq_zero.mpr hnone.2) h]
      cases v with
      | localhost => exact absurd rfl hnone.1
      | server value => exact absurd rfl hnone.1
      | port value => exact address_parsePortValue hv

/-- The only value with an address gives the address. -/
theorem address_applyAll {values : List KnownValue} {d d' : Destination}
    (hone : values.countP KnownValue.isAddress ≤ 1) {v : KnownValue} (hmem : v ∈ values)
    (hv : v.isAddress = true) (h : applyAll values d = .ok d') :
    ∃ address, v.readAddress = .ok address ∧ d'.address = .set (some address) := by
  induction values generalizing d with
  | nil => cases hmem
  | cons u values ih =>
    rw [KnownValue.applyAll_cons] at h
    rw [List.countP_cons] at hone
    rcases hu : u.apply d with e | d₁
    · rw [hu] at h
      cases h
    · rw [hu] at h
      obtain rfl | hmem := List.mem_cons.mp hmem
      · rw [if_pos hv] at hone
        obtain ⟨address, hread, hset⟩ := address_apply hu hv
        refine ⟨address, hread, ?_⟩
        rw [← hset]
        exact address_applyAll_none (by omega) h
      · exact ih (by omega) hmem h

/-! ### Reading the values of a walk -/

/-- A parser that reads the values of a walk one after the other. -/
def Reads (parse : List Char → Destination → Except FormatException Destination)
    (values : List Char → Bool → Except FormatException (List KnownValue)) : Prop :=
  ∀ value d, parse value d = values value d.addressHasValue >>= (applyAll · d)

theorem addressHasValue_parsePortValue {text : List Char} {d d' : Destination}
    (h : parsePortValue text d = .ok d') : d'.addressHasValue = d.addressHasValue := by
  rw [parsePortValue_eq] at h
  split at h
  · split at h
    · cases h
    · cases h
      rfl
  · cases h

theorem addressHasValue_serverParts {parts : ServerParts} {d d' : Destination}
    (h : parts.apply d = .ok d') : d'.addressHasValue = true := by
  rw [parts.apply_eq] at h
  rcases haddress : parts.readAddress with e | address
  · rw [haddress] at h
    cases h
  · rw [haddress] at h
    simp only [bind, Except.bind] at h
    split at h
    · cases h
      rfl
    · rw [addressHasValue_parsePortValue h]
      rfl

theorem KnownValue.addressHasValue_apply {v : KnownValue} {d d' : Destination}
    (h : v.apply d = .ok d') : d'.addressHasValue = (d.addressHasValue || v.isAddress) := by
  cases v with
  | localhost =>
    cases h
    simp [isAddress, Destination.addressHasValue, Destination.setAddress]
  | server value =>
    have hparse : parseServerWithOptionalPort value d = .ok d' := h
    rw [parseServerWithOptionalPort_eq] at hparse
    split at hparse
    · cases hparse
    · simp [addressHasValue_serverParts hparse, isAddress]
  | port value => simp [addressHasValue_parsePortValue h, isAddress]

theorem addressHasValue_applyAll {values : List KnownValue} {d d' : Destination}
    (h : applyAll values d = .ok d') :
    d'.addressHasValue = (d.addressHasValue || values.any KnownValue.isAddress) := by
  induction values generalizing d with
  | nil =>
    cases h
    simp
  | cons v values ih =>
    rw [KnownValue.applyAll_cons] at h
    rcases hv : v.apply d with e | d₁
    · rw [hv] at h
      cases h
    · rw [hv] at h
      rw [ih h, KnownValue.addressHasValue_apply hv, List.any_cons, Bool.or_assoc]

/-- Reading a part of the text and then what follows it is reading the values of both. -/
theorem applyAll_thenValues (first : Except FormatException (List KnownValue))
    (next : Bool → Except FormatException (List KnownValue)) (d : Destination) :
    (thenValues first d.addressHasValue next >>= (applyAll · d)) =
      (first >>= (applyAll · d)) >>= fun d' =>
        next d'.addressHasValue >>= (applyAll · d') := by
  unfold thenValues
  rcases first with e | values
  · rfl
  · simp only [bind, Except.bind]
    rcases hread : applyAll values d with e | d'
    · -- The values of the first part are not accepted, whatever follows.
      rcases next (d.addressHasValue || values.any KnownValue.isAddress) with e' | others
      · rfl
      · simp only [pure, Except.pure, KnownValue.applyAll_append, hread]
        rfl
    · rw [← addressHasValue_applyAll hread]
      rcases hnext : next d'.addressHasValue with e' | others
      · simp only [hnext]
      · simp only [pure, Except.pure, KnownValue.applyAll_append, hread, hnext]
        rfl

theorem valuesOfSubKeyValues_eq
    (values : List Char → Bool → Except FormatException (List KnownValue)) (value : List Char)
    (found : Bool) :
    valuesOfSubKeyValues values value found =
      match findMatchingClosingDelimiter value with
      | none => .error ⟨⟩
      | some close =>
        if nextOpeningDelimiter value close = [] then values ((value.take close).drop 1) found
        else
          thenValues (values ((value.take close).drop 1) found) found
            (valuesOfSubKeyValues values (nextOpeningDelimiter value close)) := by
  rw [valuesOfSubKeyValues]
  split
  · next hnone => rw [hnone]
  · next close hclose => rw [hclose]

theorem reads_valuesOfSubKeyValues
    {parse : List Char → Destination → Except FormatException Destination}
    {values : List Char → Bool → Except FormatException (List KnownValue)}
    (h : Reads parse values) : Reads (parseSubKeyValues parse) (valuesOfSubKeyValues values) := by
  intro value d
  -- One pair after the other, over the rest of the text.
  induction value, d using parseSubKeyValues.induct with
  | case1 value d hnone =>
    rw [parseSubKeyValues_eq, valuesOfSubKeyValues_eq, hnone]
    rfl
  | case2 value d close hclose ih =>
    rw [parseSubKeyValues_eq, valuesOfSubKeyValues_eq, hclose]
    by_cases hrest : nextOpeningDelimiter value close = []
    · simp only [if_pos hrest]
      rw [h]
      rcases values ((value.take close).drop 1) d.addressHasValue with e | vs
      · rfl
      · show (applyAll vs d >>= fun d => Except.ok d) = applyAll vs d
        cases applyAll vs d <;> rfl
    · simp only [if_neg hrest]
      rw [h, applyAll_thenValues]
      exact bind_congr fun d' => ih d' hrest

variable [InvariantCulture]

omit [InvariantCulture] in
theorem applyAll_singleton (v : KnownValue) (d : Destination) :
    v.apply d = (.ok [v] : Except FormatException (List KnownValue)) >>= (applyAll · d) := by
  show _ = applyAll [v] d
  rw [KnownValue.applyAll_cons]
  cases v.apply d <;> rfl

theorem reads_valuesOfServerValue
    {parse : List Char → Destination → Except FormatException Destination}
    {values : List Char → Bool → Except FormatException (List KnownValue)}
    (h : Reads parse values) : Reads (parseServerValue parse) (valuesOfServerValue values) := by
  intro valueArg d
  unfold parseServerValue valuesOfServerValue
  by_cases hfound : d.addressHasValue = true
  · rw [if_pos hfound, if_pos hfound]
    rfl
  · rw [if_neg hfound, if_neg hfound]
    extract_lets value
    by_cases hlocal : (startsWithIgnoreCase "(LocalDB)".toList value ||
        startsWithIgnoreCase ".\\".toList value) = true
    · rw [if_pos hlocal, if_pos hlocal]
      rfl
    · rw [if_neg hlocal, if_neg hlocal]
      by_cases hnested : hasNestedStructure value = true
      · rw [if_pos hnested, if_pos hnested]
        exact h value d
      · rw [if_neg hnested, if_neg hnested]
        rcases splitAtFirst '\\' value with _ | ⟨serverName, rest⟩
        · exact applyAll_singleton (.server value) d
        · exact applyAll_singleton (.server serverName) d

omit [InvariantCulture] in
theorem reads_valuesOfAddressKey
    {parse : List Char → Destination → Except FormatException Destination}
    {values : List Char → Bool → Except FormatException (List KnownValue)}
    (h : Reads parse values) :
    Reads (parseAddressKeyWithNestedStructureValue parse) (valuesOfAddressKey values) := by
  intro value d
  unfold parseAddressKeyWithNestedStructureValue valuesOfAddressKey
  by_cases hfound : d.addressHasValue = true
  · rw [if_pos hfound, if_pos hfound]
    rfl
  · rw [if_neg hfound, if_neg hfound]
    cases hnested : hasNestedStructure value with
    | false => rfl
    | true => exact h value d

theorem reads_valuesOfKeyValue
    {parse : List Char → Destination → Except FormatException Destination}
    {values : List Char → Bool → Except FormatException (List KnownValue)}
    (h : Reads parse values) : Reads (parseKeyValue parse) (valuesOfKeyValue values) := by
  intro keyValue d
  unfold parseKeyValue valuesOfKeyValue
  by_cases hblank : isNullOrWhiteSpaceChars keyValue = true
  · rw [if_pos hblank, if_pos hblank]
    rfl
  · rw [if_neg hblank, if_neg hblank]
    rcases splitAtFirst '=' keyValue with _ | ⟨keyPart, valuePart⟩
    · rfl
    · -- The setter of the key decides what becomes of the value.
      rcases hsetter : propertySetter? (trimChars keyPart) with _ | setter
      · simp only [hsetter]
        cases hasNestedStructure (trimChars valuePart) with
        | false => rfl
        | true => exact h (trimChars valuePart) d
      · cases setter with
        | parseServerValue =>
          simp only [hsetter]
          exact reads_valuesOfServerValue h (trimChars valuePart) d
        | parsePortValue =>
          simp only [hsetter]
          exact applyAll_singleton (.port (trimChars valuePart)) d
        | parseAddressKeyWithNestedStructureValue =>
          simp only [hsetter]
          exact reads_valuesOfAddressKey h (trimChars valuePart) d

theorem reads_valuesOfNestedStructure (remaining : Nat) :
    Reads (parseNestedStructure remaining) (valuesOfNestedStructure remaining) := by
  induction remaining with
  | zero =>
    intro value d
    rfl
  | succ remaining ih => exact reads_valuesOfSubKeyValues (reads_valuesOfKeyValue ih)

omit [InvariantCulture] in
theorem reads_valuesOfPairs
    {parse : List Char → Destination → Except FormatException Destination}
    {values : List Char → Bool → Except FormatException (List KnownValue)}
    (h : Reads parse values) (keyValues : List (List Char)) (d : Destination) :
    keyValues.foldlM (fun d keyValue => parse keyValue d) d =
      valuesOfPairs values keyValues d.addressHasValue >>= (applyAll · d) := by
  induction keyValues generalizing d with
  | nil => rfl
  | cons keyValue keyValues ih =>
    rw [List.foldlM_cons, h, valuesOfPairs, applyAll_thenValues]
    exact bind_congr fun d' => ih d'

/-- The parser reads the values of the walk one after the other. -/
theorem parseConnectionString_eq (dbConnectionString : String) :
    parseConnectionString dbConnectionString =
      match knownValues dbConnectionString >>= (applyAll · .new) with
      | .error _ => none
      | .ok d => if d.addressHasValue then some d else none := by
  have hreads := reads_valuesOfPairs
    (reads_valuesOfKeyValue (reads_valuesOfNestedStructure maxNestingDepth))
    (dbConnectionString.toList.splitOn ';') .new
  unfold parseConnectionString parseFlatKeyValuePairs knownValues
  rw [hreads]
  rfl

/-- What the parser returns, by the values of the walk. -/
theorem parseConnectionString_eq_some_iff {dbConnectionString : String} {d : Destination} :
    parseConnectionString dbConnectionString = some d ↔
      ∃ values, knownValues dbConnectionString = .ok values ∧ applyAll values .new = .ok d ∧
        values.any KnownValue.isAddress = true := by
  rw [parseConnectionString_eq]
  rcases knownValues dbConnectionString with e | values
  · simp [bind, Except.bind]
  · simp only [bind, Except.bind, Except.ok.injEq, exists_eq_left']
    rcases hread : applyAll values .new with e | d'
    · simp
    · have haddress : d'.addressHasValue = values.any KnownValue.isAddress :=
        addressHasValue_applyAll hread
      rw [← haddress]
      by_cases hset : d'.addressHasValue = true
      · simp [hset]
      · simp [hset]

/-! ### One address -/

/-- The values of a walk and an address found before it are one address at most. -/
def AtMostOne (values : List Char → Bool → Except FormatException (List KnownValue)) : Prop :=
  ∀ value found vs, values value found = .ok vs →
    found.toNat + vs.countP KnownValue.isAddress ≤ 1

omit [InvariantCulture] in
theorem atMostOne_thenValues {first : Except FormatException (List KnownValue)} {found : Bool}
    {next : Bool → Except FormatException (List KnownValue)} {vs : List KnownValue}
    (hfirst : ∀ vs, first = .ok vs → found.toNat + vs.countP KnownValue.isAddress ≤ 1)
    (hnext : ∀ found vs, next found = .ok vs →
      found.toNat + vs.countP KnownValue.isAddress ≤ 1)
    (h : thenValues first found next = .ok vs) :
    found.toNat + vs.countP KnownValue.isAddress ≤ 1 := by
  unfold thenValues at h
  rcases first with e | values
  · cases h
  · simp only [bind, Except.bind] at h
    rcases hothers : next (found || values.any KnownValue.isAddress) with e | others
    · rw [hothers] at h
      cases h
    · rw [hothers] at h
      cases h
      have hvalues := hfirst values rfl
      have hothers := hnext _ _ hothers
      rw [List.countP_append]
      -- An address among the first values is one that has been found.
      cases hany : values.any KnownValue.isAddress with
      | true =>
        rw [hany, Bool.or_true] at hothers
        simp only [Bool.toNat_true] at hothers
        omega
      | false =>
        have hnone : values.countP KnownValue.isAddress = 0 := by
          rw [List.countP_eq_zero]
          simpa using hany
        rw [hany, Bool.or_false] at hothers
        omega

omit [InvariantCulture] in
theorem atMostOne_subKeyValues
    {values : List Char → Bool → Except FormatException (List KnownValue)}
    (h : AtMostOne values) : AtMostOne (valuesOfSubKeyValues values) := by
  intro value found vs hvs
  induction value using (measure List.length).wf.induction generalizing found vs with
  | h value ih =>
    rw [valuesOfSubKeyValues_eq] at hvs
    cases hclose : findMatchingClosingDelimiter value with
    | none =>
      rw [hclose] at hvs
      cases hvs
    | some close =>
      simp only [hclose] at hvs
      by_cases hrest : nextOpeningDelimiter value close = []
      · rw [if_pos hrest] at hvs
        exact h _ _ _ hvs
      · rw [if_neg hrest] at hvs
        have hne : value ≠ [] := by
          rintro rfl
          cases hclose
        exact atMostOne_thenValues (fun vs => h _ _ vs)
          (fun found vs => ih _ (length_nextOpeningDelimiter_lt hne close) found vs) hvs

theorem atMostOne_serverValue
    {values : List Char → Bool → Except FormatException (List KnownValue)}
    (h : AtMostOne values) : AtMostOne (valuesOfServerValue values) := by
  intro value found vs hvs
  unfold valuesOfServerValue at hvs
  cases found with
  | true =>
    cases hvs
    simp
  | false =>
    simp only [Bool.false_eq_true, if_false] at hvs
    split at hvs
    · cases hvs
      simp [KnownValue.isAddress]
    · split at hvs
      · exact h _ _ _ hvs
      · split at hvs
        · cases hvs
          simp [KnownValue.isAddress]
        · cases hvs
          simp [KnownValue.isAddress]

theorem atMostOne_keyValue
    {values : List Char → Bool → Except FormatException (List KnownValue)}
    (h : AtMostOne values) : AtMostOne (valuesOfKeyValue values) := by
  have hnil (found : Bool) :
      found.toNat + ([] : List KnownValue).countP KnownValue.isAddress ≤ 1 :=
    Bool.toNat_le found
  intro keyValue found vs hvs
  unfold valuesOfKeyValue at hvs
  split at hvs
  · cases hvs
    exact hnil found
  · split at hvs
    · cases hvs
      exact hnil found
    · simp only at hvs
      split at hvs
      · split at hvs
        · exact h _ _ _ hvs
        · cases hvs
          exact hnil found
      · exact atMostOne_serverValue h _ _ _ hvs
      · cases hvs
        exact hnil found
      · unfold valuesOfAddressKey at hvs
        split at hvs
        · cases hvs
          exact hnil found
        · split at hvs
          · cases hvs
          · exact h _ _ _ hvs

theorem atMostOne_nestedStructure (remaining : Nat) :
    AtMostOne (valuesOfNestedStructure remaining) := by
  induction remaining with
  | zero =>
    intro value found vs hvs
    cases hvs
    exact Bool.toNat_le found
  | succ remaining ih => exact atMostOne_subKeyValues (atMostOne_keyValue ih)

omit [InvariantCulture] in
theorem atMostOne_pairs
    {values : List Char → Bool → Except FormatException (List KnownValue)}
    (h : AtMostOne values) {keyValues : List (List Char)} {found : Bool}
    {vs : List KnownValue} (hvs : valuesOfPairs values keyValues found = .ok vs) :
    found.toNat + vs.countP KnownValue.isAddress ≤ 1 := by
  induction keyValues generalizing found vs with
  | nil =>
    cases hvs
    exact Bool.toNat_le found
  | cons keyValue keyValues ih =>
    exact atMostOne_thenValues (fun vs => h _ _ vs) (fun _ _ => ih) hvs

/-- The walk comes to one value at most that gives an address. -/
theorem knownValues_atMostOne {dbConnectionString : String} {vs : List KnownValue}
    (h : knownValues dbConnectionString = .ok vs) : vs.countP KnownValue.isAddress ≤ 1 := by
  have := atMostOne_pairs (atMostOne_keyValue (atMostOne_nestedStructure maxNestingDepth)) h
  simpa using this

end DbConnectionStringParser

end ApmAgent
