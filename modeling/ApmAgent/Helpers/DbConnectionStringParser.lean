import ApmAgent.Api.Destination
import ApmAgent.Helpers.Numbers

/-! # DbConnectionStringParser

  The address and port of a database, read from a connection string. A
  connection string is a list of `key=value` pairs; a value may be a list of
  pairs in parentheses, nested up to `maxNestingDepth` deep.

  The exceptions the parser throws are all caught by `ParseConnectionString`,
  so they are not told apart.
-/

namespace ApmAgent

namespace DbConnectionStringParser

/-- Any exception on the way. -/
structure FormatException where
  deriving DecidableEq, Repr

def maxNestingDepth : Nat := 100

/-! ### Text helpers -/

/-- `value.StartsWith(start, StringComparison.OrdinalIgnoreCase)`. -/
def startsWithIgnoreCase [InvariantCulture] (start value : List Char) : Bool :=
  equalsOrdinalIgnoreCase (value.take start.length) start

/-- `TextUtils.IsHex`. -/
def isHex (c : Char) : Bool :=
  ('0' ≤ c && c ≤ '9') || ('a' ≤ c && c ≤ 'f') || ('A' ≤ c && c ≤ 'F')

/-- `TextUtils.IsLatinLetter`. -/
def isLatinLetter (c : Char) : Bool := ('a' ≤ c && c ≤ 'z') || ('A' ≤ c && c ≤ 'Z')

def trimChars (cs : List Char) : List Char := trimBy isWhiteSpace cs

def isNullOrWhiteSpaceChars (cs : List Char) : Bool := cs.all isWhiteSpace

/-- The parts before and after the last `c`, when there is one. -/
def splitAtLast (c : Char) (cs : List Char) : Option (List Char × List Char) :=
  let suffix := cs.reverse.takeWhile (· ≠ c)
  if suffix.length = cs.length then none
  else some (cs.take (cs.length - suffix.length - 1), suffix.reverse)

/-- The parts before and after the first `c`, when there is one. -/
def splitAtFirst (c : Char) (cs : List Char) : Option (List Char × List Char) :=
  match cs.dropWhile (· ≠ c) with
  | [] => none
  | _ :: rest => some (cs.takeWhile (· ≠ c), rest)

/-! ### Values of known keys -/

/-- `TrimDiscardableSuffix`: a suffix `/xyz` of letters that is not a hexadecimal number. -/
def trimDiscardableSuffix (value : List Char) : List Char :=
  match splitAtLast '/' value with
  | none => value
  | some (before, suffix) =>
    if suffix.any (!isLatinLetter ·) then value
    -- A part of an IPv6 address is not discarded.
    else if suffix ≠ [] && suffix.all isHex then value
    else before

/-- `TrimDiscardable`. -/
def trimDiscardable [InvariantCulture] (value : List Char) : List Char :=
  let currentResult :=
    if startsWithIgnoreCase "tcp:".toList value then value.drop "tcp:".length else value
  trimDiscardableSuffix currentResult

/-- `ParseAddress`: without the brackets of an IPv6 address. -/
def parseAddress (valueArg : List Char) : Except FormatException String :=
  let value := trimChars valueArg
  if value = [] then .error ⟨⟩
  else
    let startIndex := if value.head? = some '[' then 1 else 0
    let endIndex := if value.getLast? = some ']' then value.length - 1 else value.length
    .ok (String.ofList (trimChars ((value.take endIndex).drop startIndex)))

/-- `ParsePortValue`. -/
def parsePortValue (valueToParse : List Char) (destination : Destination) :
    Except FormatException Destination :=
  if isNullOrWhiteSpaceChars valueToParse then .error ⟨⟩
  else
    match tryParseInt (String.ofList valueToParse) with
    | none => .error ⟨⟩
    | some port => if port < 0 then .error ⟨⟩ else .ok (destination.setPort (some port))

/-- `ParseAddress` of one part and `ParsePortValue` of another. -/
def parseAddressAndPort (address port : List Char) (destination : Destination) :
    Except FormatException Destination := do
  let address ← parseAddress address
  parsePortValue port (destination.setAddress address)

/-- `ParseServerWithOptionalPort`. -/
def parseServerWithOptionalPort (valueArg : List Char) (destination : Destination) :
    Except FormatException Destination :=
  let value := trimChars valueArg
  if value = [] then .error ⟨⟩
  else
    match splitAtFirst ',' value with
    | some (address, port) => parseAddressAndPort address port destination
    | none =>
      match splitAtFirst ':' value, splitAtLast ':' value with
      | some (beforeFirst, afterFirst), some (beforeLast, afterLast) =>
        if beforeFirst = beforeLast then parseAddressAndPort beforeFirst afterFirst destination
        else if value.head? ≠ some '[' then
          .ok (destination.setAddress (String.ofList value))
        else if value.getLast? = some ']' then do
          let address ← parseAddress value
          return destination.setAddress address
        else parseAddressAndPort beforeLast afterLast destination
      | _, _ => .ok (destination.setAddress (String.ofList (trimChars value)))

/-! ### Nested values -/

/-- `HasNestedStructure`. -/
def hasNestedStructure (value : List Char) : Bool :=
  2 ≤ value.length && value.head? = some '(' && value.getLast? = some ')'

/-- The loop of `FindMatchingClosingDelimiter` over the characters from index `i` on. -/
def findClosingDelimiter : Nat → Nat → List Char → Option Nat
  | _, _, [] => none
  | nestingDepth, i, c :: cs =>
    if c = '(' then findClosingDelimiter (nestingDepth + 1) (i + 1) cs
    else if c = ')' then
      if nestingDepth - 1 = 0 then some i
      else findClosingDelimiter (nestingDepth - 1) (i + 1) cs
    else findClosingDelimiter nestingDepth (i + 1) cs

/-- `FindMatchingClosingDelimiter` for an opening delimiter that is the first character. -/
def findMatchingClosingDelimiter (value : List Char) : Option Nat :=
  findClosingDelimiter 1 1 (value.drop 1)

/-- The text from the next opening delimiter on, behind index `close`. -/
def nextOpeningDelimiter (value : List Char) (close : Nat) : List Char :=
  (value.drop (close + 1)).dropWhile (· ≠ '(')

theorem length_nextOpeningDelimiter_lt {value : List Char} (hne : value ≠ []) (close : Nat) :
    (nextOpeningDelimiter value close).length < value.length := by
  have hdrop := (List.dropWhile_sublist (· ≠ '(') (l := value.drop (close + 1))).length_le
  have := List.length_pos_iff.mpr hne
  rw [List.length_drop] at hdrop
  unfold nextOpeningDelimiter
  omega

/-- The loop of `ParseNestedStructure`, over the text from an opening delimiter on. -/
def parseSubKeyValues
    (parseKeyValue : List Char → Destination → Except FormatException Destination)
    (value : List Char) (destination : Destination) : Except FormatException Destination :=
  match _h : findMatchingClosingDelimiter value with
  | none => .error ⟨⟩
  | some close => do
    let destination ← parseKeyValue ((value.take close).drop 1) destination
    let rest := nextOpeningDelimiter value close
    -- Also at the end of the text there is no other opening delimiter.
    if rest = [] then pure destination else parseSubKeyValues parseKeyValue rest destination
termination_by value.length
decreasing_by
  refine length_nextOpeningDelimiter_lt ?_ close
  rintro rfl
  cases _h

/-- One turn of the loop of `ParseNestedStructure`. -/
theorem parseSubKeyValues_eq
    (parse : List Char → Destination → Except FormatException Destination) (value : List Char)
    (d : Destination) :
    parseSubKeyValues parse value d =
      match findMatchingClosingDelimiter value with
      | none => .error ⟨⟩
      | some close =>
        parse ((value.take close).drop 1) d >>= fun d =>
          if nextOpeningDelimiter value close = [] then .ok d
          else parseSubKeyValues parse (nextOpeningDelimiter value close) d := by
  rw [parseSubKeyValues]
  split
  · next hnone => rw [hnone]
  · next close hclose =>
    rw [hclose]
    rfl

/-! ### Key-value pairs -/

/-- What `_keyToPropertySetter` has for a key. -/
inductive PropertySetter where
  | parseServerValue
  | parsePortValue
  | parseAddressKeyWithNestedStructureValue
  deriving DecidableEq, Repr

/-- `_keyToPropertySetter`, whose keys are compared by `StringComparer.OrdinalIgnoreCase`. -/
def keyToPropertySetter : List (String × PropertySetter) :=
  [("Server", .parseServerValue), ("Data Source", .parseServerValue),
    ("Host", .parseServerValue), ("Hostname", .parseServerValue),
    ("Network Address", .parseServerValue), ("dbq", .parseServerValue),
    ("Port", .parsePortValue), ("Address", .parseAddressKeyWithNestedStructureValue)]

section

variable [InvariantCulture]

def propertySetter? (key : List Char) : Option PropertySetter :=
  (keyToPropertySetter.find? fun entry => equalsOrdinalIgnoreCase entry.1.toList key).map (·.2)

section

-- `ParseNestedStructure` at the current nesting depth.
variable (parseNestedStructure :
  List Char → Destination → Except FormatException Destination)

/-- `ParseServerValue`: of several addresses only the first one is used. -/
def parseServerValue (valueArg : List Char) (destination : Destination) :
    Except FormatException Destination :=
  if destination.addressHasValue then .ok destination
  else
    let value := trimDiscardable valueArg
    if startsWithIgnoreCase "(LocalDB)".toList value ||
        startsWithIgnoreCase ".\\".toList value then
      .ok (destination.setAddress "localhost")
    else if hasNestedStructure value then parseNestedStructure value destination
    else
      match splitAtFirst '\\' value with
      | some (serverName, _) => parseServerWithOptionalPort serverName destination
      | none => parseServerWithOptionalPort value destination

/-- `ParseAddressKeyWithNestedStructureValue`. -/
def parseAddressKeyWithNestedStructureValue (value : List Char) (destination : Destination) :
    Except FormatException Destination :=
  if destination.addressHasValue then .ok destination
  else if !hasNestedStructure value then .error ⟨⟩
  else parseNestedStructure value destination

/-- `ParseKeyValue`. -/
def parseKeyValue (keyValue : List Char) (destination : Destination) :
    Except FormatException Destination :=
  if isNullOrWhiteSpaceChars keyValue then .ok destination
  else
    match splitAtFirst '=' keyValue with
    | none => .ok destination
    | some (keyPart, valuePart) =>
      let value := trimChars valuePart
      match propertySetter? (trimChars keyPart) with
      | none =>
        -- Known keys may be inside the value of an unknown one.
        if hasNestedStructure value then parseNestedStructure value destination
        else .ok destination
      | some .parseServerValue => parseServerValue parseNestedStructure value destination
      | some .parsePortValue => parsePortValue value destination
      | some .parseAddressKeyWithNestedStructureValue =>
        parseAddressKeyWithNestedStructureValue parseNestedStructure value destination

end

/-- `ParseNestedStructure` where the nesting may go `remaining` levels deeper. -/
def parseNestedStructure :
    Nat → List Char → Destination → Except FormatException Destination
  | 0, _, destination => .ok destination
  | remaining + 1, value, destination =>
    parseSubKeyValues (parseKeyValue (parseNestedStructure remaining)) value destination

/-- `ParseFlatKeyValuePairs`. -/
def parseFlatKeyValuePairs (flatKeyValuePairs : String) (destination : Destination) :
    Except FormatException Destination :=
  (flatKeyValuePairs.toList.splitOn ';').foldlM
    (fun destination keyValue =>
      parseKeyValue (parseNestedStructure maxNestingDepth) keyValue destination) destination

/-- `ParseConnectionString`: null for an invalid string, and for one without an address. -/
def parseConnectionString (dbConnectionString : String) : Option Destination :=
  match parseFlatKeyValuePairs dbConnectionString .new with
  | .error _ => none
  | .ok destination => if destination.addressHasValue then some destination else none

/-! ### What the parser writes -/

/-- A property of destinations that setting the address or the port keeps. -/
structure KeptBySetters (P : Destination → Prop) : Prop where
  setAddress : ∀ d address, P d → P (d.setAddress address)
  setPort : ∀ d port, P d → P (d.setPort port)

/-- A parser that gets from destinations with the property to such destinations only. -/
def Keeps (P : Destination → Prop)
    (parse : List Char → Destination → Except FormatException Destination) : Prop :=
  ∀ value d d', P d → parse value d = .ok d' → P d'

variable {P : Destination → Prop}

omit [InvariantCulture] in
theorem keeps_parsePortValue (hP : KeptBySetters P) : Keeps P parsePortValue := by
  intro value d d' hd h
  unfold parsePortValue at h
  split at h
  · cases h
  · split at h
    · cases h
    · split at h
      · cases h
      · cases h
        exact hP.setPort d _ hd

omit [InvariantCulture] in
theorem parseAddressAndPort_keeps (hP : KeptBySetters P) {address port : List Char}
    {d d' : Destination} (hd : P d) (h : parseAddressAndPort address port d = .ok d') :
    P d' := by
  unfold parseAddressAndPort at h
  rcases haddress : parseAddress address with e | a
  · rw [haddress] at h
    cases h
  · rw [haddress] at h
    exact keeps_parsePortValue hP port _ d' (hP.setAddress d a hd) h

omit [InvariantCulture] in
theorem keeps_parseServerWithOptionalPort (hP : KeptBySetters P) :
    Keeps P parseServerWithOptionalPort := by
  intro value d d' hd h
  unfold parseServerWithOptionalPort at h
  simp only at h
  split at h
  · cases h
  · split at h
    · exact parseAddressAndPort_keeps hP hd h
    · split at h
      · split at h
        · exact parseAddressAndPort_keeps hP hd h
        · split at h
          · cases h
            exact hP.setAddress d _ hd
          · split at h
            · rcases haddress : parseAddress (trimChars value) with e | a
              · rw [haddress] at h
                cases h
              · rw [haddress] at h
                cases h
                exact hP.setAddress d a hd
            · exact parseAddressAndPort_keeps hP hd h
      · cases h
        exact hP.setAddress d _ hd

omit [InvariantCulture] in
theorem keeps_parseSubKeyValues
    {parse : List Char → Destination → Except FormatException Destination}
    (hparse : Keeps P parse) : Keeps P (parseSubKeyValues parse) := by
  intro value d d' hd h
  -- One pair after the other, over the rest of the text.
  induction value, d using parseSubKeyValues.induct with
  | case1 value d hnone =>
    rw [parseSubKeyValues] at h
    split at h
    · cases h
    · next close hclose =>
      rw [hnone] at hclose
      cases hclose
  | case2 value d close hclose ih =>
    rw [parseSubKeyValues] at h
    split at h
    · cases h
    · next close' hclose' =>
      rw [hclose] at hclose'
      cases hclose'
      rcases hpair : parse ((value.take close).drop 1) d with e | d₁
      · rw [hpair] at h
        cases h
      · rw [hpair] at h
        have hd₁ := hparse _ d d₁ hd hpair
        simp only [bind, Except.bind] at h
        split at h
        · cases h
          exact hd₁
        · next hrest => exact ih d₁ hrest hd₁ h

theorem keeps_parseKeyValue (hP : KeptBySetters P)
    {parse : List Char → Destination → Except FormatException Destination}
    (hparse : Keeps P parse) : Keeps P (parseKeyValue parse) := by
  intro keyValue d d' hd h
  unfold parseKeyValue at h
  split at h
  · cases h
    exact hd
  · split at h
    · cases h
      exact hd
    · simp only at h
      split at h
      · split at h
        · exact hparse _ d d' hd h
        · cases h
          exact hd
      · unfold parseServerValue at h
        split at h
        · cases h
          exact hd
        · simp only at h
          split at h
          · cases h
            exact hP.setAddress d _ hd
          · split at h
            · exact hparse _ d d' hd h
            · split at h
              · exact keeps_parseServerWithOptionalPort hP _ d d' hd h
              · exact keeps_parseServerWithOptionalPort hP _ d d' hd h
      · exact keeps_parsePortValue hP _ d d' hd h
      · unfold parseAddressKeyWithNestedStructureValue at h
        split at h
        · cases h
          exact hd
        · split at h
          · cases h
          · exact hparse _ d d' hd h

theorem keeps_parseNestedStructure (hP : KeptBySetters P) (remaining : Nat) :
    Keeps P (parseNestedStructure remaining) := by
  induction remaining with
  | zero =>
    intro value d d' hd h
    cases h
    exact hd
  | succ remaining ih => exact keeps_parseSubKeyValues (keeps_parseKeyValue hP ih)

/-- What setting the address or the port keeps, and a new destination has, every destination
    the parser returns has. -/
theorem parseConnectionString_keeps (hP : KeptBySetters P) (hnew : P .new)
    {dbConnectionString : String} {d : Destination}
    (h : parseConnectionString dbConnectionString = some d) : P d := by
  unfold parseConnectionString at h
  split at h
  · cases h
  · next d' hflat =>
    split at h
    · cases h
      have hparse := keeps_parseKeyValue hP (keeps_parseNestedStructure hP maxNestingDepth)
      unfold parseFlatKeyValuePairs at hflat
      revert hflat
      generalize Destination.new = d₀ at hnew
      generalize dbConnectionString.toList.splitOn ';' = keyValues
      intro hflat
      induction keyValues generalizing d₀ with
      | nil =>
        cases hflat
        exact hnew
      | cons keyValue keyValues ih =>
        rw [List.foldlM_cons] at hflat
        rcases hfirst : parseKeyValue (parseNestedStructure maxNestingDepth) keyValue d₀ with
          e | d₁
        · rw [hfirst] at hflat
          cases hflat
        · rw [hfirst] at hflat
          exact ih d₁ (hparse keyValue d₀ d₁ hnew hfirst) hflat
    · cases h

/-- The parser leaves `Service` unset. -/
theorem parseConnectionString_service {dbConnectionString : String} {d : Destination}
    (h : parseConnectionString dbConnectionString = some d) : d.service = .unset :=
  parseConnectionString_keeps (P := fun d => d.service = .unset)
    ⟨fun _ _ h => h, fun _ _ h => h⟩ rfl h

end

end DbConnectionStringParser

end ApmAgent
