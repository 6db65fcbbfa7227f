import ApmAgent.Framework.Fuelled
import ApmAgent.Framework.Loop
import ApmAgent.Framework.Split
import ApmAgent.Helpers.DbConnectionStringParser

/-! # ParserWithState

  The connection string parser by its indices: what `DbConnectionStringParser`
  says about the texts in parentheses is computed here as the class does it,
  with `IndexOf` and `Substring`, which throw when an index is out of range,
  with loops that need not end, and with the depth of the nesting counted in a
  field.

  * `simulates_nested`: with enough fuel the methods end, throw nothing but
    `FormatException`, and do what `parseNestedStructure` says;
  * `runConnectionString_returns`: the parser ends, lets no exception out, nests
    at most `maxNestingDepth` deep, and returns what `parseConnectionString` says.
-/

namespace ApmAgent

namespace DbConnectionStringParser

/-- What the methods of the parser throw. -/
inductive ParserException where
  | formatException
  /-- By `IndexOf`, `IndexOfAny`, `Substring`, and by the indexer. -/
  | argumentOutOfRange
  | assertionFailed
  deriving DecidableEq, Repr

/-! ### Strings by index -/

/-- `str[index]`. -/
def charAt (str : List Char) (index : Int) : Except ParserException Char :=
  if index < 0 then .error .argumentOutOfRange
  else
    match str[index.toNat]? with
    | none => .error .argumentOutOfRange
    | some c => .ok c

/-- `str.IndexOfAny(anyOf, startIndex)`, `-1` when there is none. -/
def indexOfAny (str anyOf : List Char) (startIndex : Int) : Except ParserException Int :=
  if startIndex < 0 ∨ str.length < startIndex then .error .argumentOutOfRange
  else
    match (str.drop startIndex.toNat).findIdx? (anyOf.contains ·) with
    | none => .ok (-1)
    | some i => .ok (startIndex + i)

/-- `str.Substring(startIndex, length)`. -/
def substring (str : List Char) (startIndex length : Int) :
    Except ParserException (List Char) :=
  if startIndex < 0 ∨ length < 0 ∨ str.length < startIndex + length then
    .error .argumentOutOfRange
  else .ok ((str.drop startIndex.toNat).take length.toNat)

/-! ### The parser -/

/-- The fields of `ParserWithState`. -/
structure ParserState where
  destination : Destination
  currentNestingDepth : Nat
  /-- How many activations of `ParseNestedStructure` have at most been in progress at a time.
      No method reads it. -/
  deepest : Nat

abbrev Method (α : Type) := Fuelled ParserException ParserState α

/-- `Assertion.IfEnabled?.That(condition, …)`; assertions are enabled. -/
def assertThat (condition : Bool) : Method Unit :=
  if condition then pure () else throw .assertionFailed

/-- A turn of the loop of `FindMatchingClosingDelimiter`, from `nestingDepth` and
    `currentDelimiterIndex`. It ends with `matchingClosingDelimiterIndex`. -/
def findMatchingClosingDelimiterTurn (str : List Char) :
    Int × Int → (Int × Int) ⊕ Except ParserException Int
  | (nestingDepth, currentDelimiterIndex) =>
    if currentDelimiterIndex = str.length - 1 then .inr (.ok (-1))
    else
      match indexOfAny str ['(', ')'] (currentDelimiterIndex + 1) with
      | .error e => .inr (.error e)
      | .ok currentDelimiterIndex =>
        if currentDelimiterIndex = -1 then .inr (.ok (-1))
        else
          match charAt str currentDelimiterIndex with
          | .error e => .inr (.error e)
          | .ok c =>
            if c = '(' then .inl (nestingDepth + 1, currentDelimiterIndex)
            else if nestingDepth - 1 ≠ 0 then .inl (nestingDepth - 1, currentDelimiterIndex)
            else .inr (.ok currentDelimiterIndex)

/-- `FindMatchingClosingDelimiter`. -/
def findMatchingClosingDelimiterIndex (fuel : Nat) (str : List Char)
    (openingDelimiterIndex : Int) : Method Int := do
  let c ← Fuelled.ofExcept (charAt str openingDelimiterIndex)
  assertThat (c = '(')
  match Loop.runFor (findMatchingClosingDelimiterTurn str) fuel (1, openingDelimiterIndex) with
  | none => Fuelled.outOfFuel
  | some result =>
    let matchingClosingDelimiterIndex ← Fuelled.ofExcept result
    if matchingClosingDelimiterIndex = -1 then throw .formatException
    else pure matchingClosingDelimiterIndex

/-- A method without nested structures. Where it throws, nobody looks at the destination
    any more. -/
def leaf (parse : Destination → Except FormatException Destination) : Method Unit := do
  let s ← get
  match parse s.destination with
  | .error _ => throw .formatException
  | .ok destination => set { s with destination := destination }

section

variable [InvariantCulture]

section

-- `ParseNestedStructure`, called inside of some activations of it.
variable (nested : List Char → Method Unit)

/-- The method `_keyToPropertySetter` has for the key of `value`. -/
def valueParser (value : List Char) : PropertySetter → Method Unit
  | .parseServerValue => do
    if (← get).destination.addressHasValue then return
    let trimmed := trimDiscardable value
    if startsWithIgnoreCase "(LocalDB)".toList trimmed ||
        startsWithIgnoreCase ".\\".toList trimmed then
      modify fun s => { s with destination := s.destination.setAddress "localhost" }
    else if hasNestedStructure trimmed then nested trimmed
    else
      match splitAtFirst '\\' trimmed with
      | some (serverName, _) => leaf (parseServerWithOptionalPort serverName)
      | none => leaf (parseServerWithOptionalPort trimmed)
  | .parsePortValue => leaf (parsePortValue value)
  | .parseAddressKeyWithNestedStructureValue => do
    if (← get).destination.addressHasValue then return
    if !hasNestedStructure value then throw .formatException
    nested value

/-- `ParseKeyValue`. -/
def runKeyValue (keyValue : List Char) : Method Unit :=
  if isNullOrWhiteSpaceChars keyValue then pure ()
  else
    match splitAtFirst '=' keyValue with
    | none => pure ()
    | some (keyPart, valuePart) =>
      let value := trimChars valuePart
      match propertySetter? (trimChars keyPart) with
      | none => if hasNestedStructure value then nested value else pure ()
      | some setter =>
        -- A `FormatException` is thrown again, any other exception is wrapped into one.
        tryCatch (valueParser nested value setter) fun _ => throw .formatException

end

mutual

/-- `ParseNestedStructure` inside of `activations` activations of it. -/
def runNestedStructure : (fuel activations : Nat) → List Char → Method Unit
  | 0, _, _ => Fuelled.outOfFuel
  | fuel + 1, activations, value => do
    assertThat (hasNestedStructure value)
    let s ← get
    if maxNestingDepth < s.currentNestingDepth + 1 then return
    set { s with
      currentNestingDepth := s.currentNestingDepth + 1
      deepest := max s.deepest (activations + 1) }
    runSubKeyValues fuel (activations + 1) value 0
    modify fun s => { s with currentNestingDepth := s.currentNestingDepth - 1 }

/-- The loop of `ParseNestedStructure` from an opening delimiter on. -/
def runSubKeyValues : (fuel activations : Nat) → List Char → Int → Method Unit
  | 0, _, _, _ => Fuelled.outOfFuel
  | fuel + 1, activations, value, openIndex => do
    let closeIndex ← findMatchingClosingDelimiterIndex fuel value openIndex
    let subKeyValue ← Fuelled.ofExcept
      (substring value (openIndex + 1) (closeIndex - (openIndex + 1)))
    runKeyValue (runNestedStructure fuel activations) subKeyValue
    if closeIndex = value.length - 1 then return
    let openIndex ← Fuelled.ofExcept (indexOfAny value ['('] (closeIndex + 1))
    if openIndex = -1 then return
    runSubKeyValues fuel activations value openIndex

end

/-- `ParseFlatKeyValuePairs`. -/
def runFlatKeyValuePairs (fuel : Nat) : List (List Char) → Method Unit
  | [] => pure ()
  | keyValue :: keyValues => do
    runKeyValue (runNestedStructure fuel 0) keyValue
    runFlatKeyValuePairs fuel keyValues

/-- What a call has come to: what it returns or throws, and how deep it was nested. -/
structure CallResult where
  destination : Except ParserException (Option Destination)
  deepest : Nat

/-- `ParseConnectionString`. -/
def runConnectionString (fuel : Nat) (dbConnectionString : String) : Option CallResult :=
  let start : ParserState := ⟨.new, 0, 0⟩
  let parse := runFlatKeyValuePairs fuel (dbConnectionString.toList.splitOn ';')
  (parse.run.run start).map fun
    -- `catch (Exception ex)`
    | (.error _, s) => ⟨.ok none, s.deepest⟩
    | (.ok _, s) =>
      if s.destination.addressHasValue then ⟨.ok (some s.destination), s.deepest⟩
      else ⟨.ok none, s.deepest⟩

end

/-! ### Searching by index -/

/-- The characters between two delimiters do not matter. -/
theorem findClosingDelimiter_eq_findIdx? (nestingDepth i : Nat) (cs : List Char) :
    findClosingDelimiter nestingDepth i cs =
      (cs.findIdx? (['(', ')'].contains ·)).bind fun k =>
        findClosingDelimiter nestingDepth (i + k) (cs.drop k) := by
  induction cs generalizing i with
  | nil => rfl
  | cons c cs ih =>
    by_cases hdelimiter : c = '(' ∨ c = ')'
    · have hfound : (c :: cs).findIdx? (['(', ')'].contains ·) = some 0 := by
        rw [List.findIdx?_cons, if_pos]
        simpa using hdelimiter
      rw [hfound]
      rfl
    · rw [not_or] at hdelimiter
      have hskip : (c :: cs).findIdx? (['(', ')'].contains ·) =
          (cs.findIdx? (['(', ')'].contains ·)).map (· + 1) := by
        rw [List.findIdx?_cons, if_neg]
        simpa using hdelimiter
      rw [hskip, findClosingDelimiter, if_neg hdelimiter.1, if_neg hdelimiter.2, ih]
      cases cs.findIdx? (['(', ')'].contains ·) with
      | none => rfl
      | some k =>
        show findClosingDelimiter nestingDepth (i + 1 + k) (cs.drop k) =
          findClosingDelimiter nestingDepth (i + (k + 1)) (cs.drop k)
        rw [show i + 1 + k = i + (k + 1) by omega]

/-- The search starts to count at any index. -/
theorem findClosingDelimiter_add (nestingDepth i k : Nat) (cs : List Char) :
    findClosingDelimiter nestingDepth (i + k) cs =
      (findClosingDelimiter nestingDepth i cs).map (· + k) := by
  induction cs generalizing nestingDepth i with
  | nil => rfl
  | cons c cs ih =>
    have hnext : i + k + 1 = i + 1 + k := by omega
    rw [findClosingDelimiter, findClosingDelimiter, hnext]
    split
    · exact ih _ _
    · split
      · split
        · rfl
        · exact ih _ _
      · exact ih _ _

/-- What is found is an index of the text. -/
theorem findClosingDelimiter_bounds {nestingDepth i j : Nat} {cs : List Char}
    (h : findClosingDelimiter nestingDepth i cs = some j) : i ≤ j ∧ j < i + cs.length := by
  induction cs generalizing nestingDepth i with
  | nil => cases h
  | cons c cs ih =>
    rw [findClosingDelimiter] at h
    rw [List.length_cons]
    split at h
    · have := ih h
      omega
    · split at h
      · split at h
        · cases h
          omega
        · have := ih h
          omega
      · have := ih h
        omega

/-- What the index search finds from an index of the text on. -/
theorem indexOfAny_eq {str anyOf : List Char} {i : Nat} (hi : i ≤ str.length) :
    indexOfAny str anyOf i =
      .ok (((str.drop i).findIdx? (anyOf.contains ·)).elim (-1) fun k => (i + k : Nat)) := by
  have hrange : ¬((i : Int) < 0 ∨ (str.length : Int) < i) := by omega
  rw [indexOfAny, if_neg hrange, Int.toNat_natCast]
  cases (str.drop i).findIdx? (anyOf.contains ·) with
  | none => rfl
  | some k => rfl

theorem charAt_eq {str : List Char} {i : Nat} {c : Char} (h : str[i]? = some c) :
    charAt str i = .ok c := by
  have hrange : ¬(i : Int) < 0 := by omega
  rw [charAt, if_neg hrange, Int.toNat_natCast, h]

/-- The loop ends within as many turns as there are characters left, and finds what
    `findClosingDelimiter` finds. -/
theorem runFor_findMatchingClosingDelimiterTurn {str : List Char} {fuel nestingDepth i : Nat}
    (hdepth : 0 < nestingDepth) (hi : i < str.length) (hfuel : str.length ≤ fuel + i) :
    Loop.runFor (findMatchingClosingDelimiterTurn str) fuel (nestingDepth, i) =
      some (.ok ((findClosingDelimiter nestingDepth (i + 1) (str.drop (i + 1))).elim (-1)
        fun j => (j : Nat))) := by
  induction fuel generalizing nestingDepth i with
  | zero => omega
  | succ fuel ih =>
    rw [findClosingDelimiter_eq_findIdx?]
    unfold Loop.runFor findMatchingClosingDelimiterTurn
    simp only
    by_cases hlast : i = str.length - 1
    · have hnil : str.drop (i + 1) = [] := List.drop_eq_nil_of_le (by omega)
      rw [if_pos (by omega), hnil]
      rfl
    · have hnext : ((i : Int) + 1) = (i + 1 : Nat) := by omega
      rw [if_neg (by omega), hnext, indexOfAny_eq (by omega)]
      cases hfound : (str.drop (i + 1)).findIdx? (['(', ')'].contains ·) with
      | none => rfl
      | some k =>
        -- The delimiter at index `i + 1 + k` opens or closes a text.
        obtain ⟨hk, hdelimiter, -⟩ := List.findIdx?_eq_some_iff_getElem.mp hfound
        have hk' : i + 1 + k < str.length := by
          rw [List.length_drop] at hk
          omega
        rw [List.getElem_drop] at hdelimiter
        have hdrop : (str.drop (i + 1)).drop k = str[i + 1 + k] :: str.drop (i + 1 + k + 1) := by
          rw [List.drop_drop, List.drop_eq_getElem_cons hk']
        have hne : ¬((i + 1 + k : Nat) : Int) = -1 := by omega
        simp only [Option.elim_some, Option.bind_some, if_neg hne,
          charAt_eq (List.getElem?_eq_getElem hk')]
        rw [hdrop, findClosingDelimiter]
        by_cases hopen : str[i + 1 + k] = '('
        · rw [if_pos hopen, if_pos hopen]
          exact @ih (nestingDepth + 1) _ (by omega) hk' (by omega)
        · have hclose : str[i + 1 + k] = ')' := by
            simpa [hopen] using hdelimiter
          rw [if_neg hopen, if_neg hopen, if_pos hclose]
          by_cases hone : nestingDepth - 1 = 0
          · rw [if_pos hone, if_neg (by omega)]
            rfl
          · rw [if_neg hone, if_pos (by omega),
              show (nestingDepth : Int) - 1 = (nestingDepth - 1 : Nat) by omega]
            exact ih (by omega) hk' (by omega)

/-! ### The methods and what they compute -/

/-- What a method leaves at nesting depth `depth`: a destination where the parser has one, a
    `FormatException` where it has an exception. -/
def Agrees (depth : Nat) (r : Except ParserException Unit) (s : ParserState) :
    Except FormatException Destination → Prop
  | .ok destination =>
    r = .ok () ∧ s.destination = destination ∧ s.currentNestingDepth = depth
  | .error _ => r = .error .formatException

/-- From every state at the nesting depth the method ends, agrees with `parse`, and nests at
    most `maxNestingDepth` deep. -/
def Simulates (depth : Nat) (m : Method Unit)
    (parse : Destination → Except FormatException Destination) : Prop :=
  ∀ s, s.currentNestingDepth = depth → s.deepest ≤ maxNestingDepth →
    Fuelled.Ends m s fun r s' =>
      s'.deepest ≤ maxNestingDepth ∧ Agrees depth r s' (parse s.destination)

variable {depth : Nat} {m m' : Method Unit}
  {parse parse' : Destination → Except FormatException Destination}

theorem simulates_pure : Simulates depth (pure ()) .ok := by
  intro s hdepth hdeepest
  exact .pure ⟨hdeepest, rfl, rfl, hdepth⟩

theorem simulates_throw : Simulates depth (throw .formatException) fun _ => .error ⟨⟩ := by
  intro s _ hdeepest
  exact .throw ⟨hdeepest, rfl⟩

theorem simulates_leaf : Simulates depth (leaf parse) parse := by
  intro s hdepth hdeepest
  refine .get_bind ?_
  cases parse s.destination with
  | error _ => exact .throw ⟨hdeepest, rfl⟩
  | ok destination => exact ⟨_, _, rfl, hdeepest, rfl, rfl, hdepth⟩

theorem Simulates.bind (h : Simulates depth m parse) (h' : Simulates depth m' parse') :
    Simulates depth (m >>= fun _ => m') fun d => parse d >>= parse' := by
  intro s hdepth hdeepest
  refine (h s hdepth hdeepest).bind ?_ ?_
  · rintro ⟨⟩ s' ⟨hdeepest', hagrees⟩
    cases hparse : parse s.destination with
    | error _ =>
      rw [hparse] at hagrees
      cases hagrees
    | ok d =>
      rw [hparse] at hagrees
      obtain ⟨-, rfl, hdepth'⟩ := hagrees
      have hrest : (parse s.destination >>= parse') = parse' s'.destination := by
        rw [hparse]
        rfl
      simp only [hrest]
      exact h' s' hdepth' hdeepest'
  · rintro e s' ⟨hdeepest', hagrees⟩
    refine ⟨hdeepest', ?_⟩
    cases hparse : parse s.destination with
    | error _ =>
      rw [hparse] at hagrees
      simp only [hparse]
      exact hagrees
    | ok d =>
      rw [hparse] at hagrees
      cases hagrees.1

/-- Any exception is thrown on as a `FormatException`. -/
theorem Simulates.tryCatch (h : Simulates depth m parse) :
    Simulates depth (tryCatch m fun _ => throw .formatException) parse := by
  intro s hdepth hdeepest
  refine (h s hdepth hdeepest).tryCatch (fun _ _ hpost => hpost) ?_
  rintro e s' ⟨hdeepest', hagrees⟩
  refine .throw ⟨hdeepest', ?_⟩
  cases hparse : parse s.destination with
  | error _ => rfl
  | ok d =>
    rw [hparse] at hagrees
    cases hagrees.1

/-- A method that returns at once when there is an address already. -/
theorem Simulates.unless_addressHasValue (h : Simulates depth m parse) :
    Simulates depth (do if (← get).destination.addressHasValue then return else m) fun d =>
      if d.addressHasValue then .ok d else parse d := by
  intro s hdepth hdeepest
  refine .get_bind ?_
  by_cases haddress : s.destination.addressHasValue = true
  · simp only [if_pos haddress]
    exact .pure ⟨hdeepest, rfl, rfl, hdepth⟩
  · simp only [if_neg haddress]
    exact h s hdepth hdeepest

/-! ### Key-value pairs -/

theorem length_trimChars_le (cs : List Char) : (trimChars cs).length ≤ cs.length := by
  unfold trimChars trimBy
  have hfront := (List.dropWhile_sublist isWhiteSpace (l := cs)).length_le
  have hback := (List.dropWhile_sublist isWhiteSpace
    (l := (cs.dropWhile isWhiteSpace).reverse)).length_le
  rw [List.length_reverse] at hback ⊢
  omega

theorem length_splitAtFirst_le {c : Char} {cs before after : List Char}
    (h : splitAtFirst c cs = some (before, after)) : after.length ≤ cs.length := by
  unfold splitAtFirst at h
  split at h
  · cases h
  · next d rest hrest =>
    cases h
    have hsub := (List.dropWhile_sublist (· ≠ c) (l := cs)).length_le
    rw [hrest, List.length_cons] at hsub
    omega

section

variable [InvariantCulture]

theorem length_trimDiscardable_le (value : List Char) :
    (trimDiscardable value).length ≤ value.length := by
  have hsuffix (cs : List Char) : (trimDiscardableSuffix cs).length ≤ cs.length := by
    unfold trimDiscardableSuffix
    split
    · exact Nat.le_refl _
    · next before suffix hsplit =>
      have hbefore : before.length ≤ cs.length := by
        unfold splitAtLast at hsplit
        simp only at hsplit
        split at hsplit
        · cases hsplit
        · cases hsplit
          exact (List.take_sublist _ _).length_le
      split
      · exact Nat.le_refl _
      · split
        · exact Nat.le_refl _
        · exact hbefore
  unfold trimDiscardable
  refine (hsuffix _).trans ?_
  split
  · exact (List.drop_sublist _ _).length_le
  · exact Nat.le_refl _

/-- Where nested structures are parsed as `parse` says, so is the value of a known key. -/
theorem simulates_valueParser {nested : List Char → Method Unit}
    {parse : List Char → Destination → Except FormatException Destination} {bound : Nat}
    (hnested : ∀ value, hasNestedStructure value → value.length ≤ bound →
      Simulates depth (nested value) (parse value))
    {value : List Char} (hvalue : value.length ≤ bound) (setter : PropertySetter) :
    Simulates depth (valueParser nested value setter) fun d =>
      match setter with
      | .parseServerValue => parseServerValue parse value d
      | .parsePortValue => parsePortValue value d
      | .parseAddressKeyWithNestedStructureValue =>
        parseAddressKeyWithNestedStructureValue parse value d := by
  cases setter with
  | parsePortValue => exact simulates_leaf
  | parseAddressKeyWithNestedStructureValue =>
    refine Simulates.unless_addressHasValue ?_
    by_cases hstructure : hasNestedStructure value = true
    · simpa [hstructure] using hnested value hstructure hvalue
    · simpa [hstructure] using simulates_throw
  | parseServerValue =>
    refine Simulates.unless_addressHasValue ?_
    simp only
    split
    · intro s hdepth hdeepest
      exact .modify ⟨hdeepest, rfl, rfl, hdepth⟩
    · split
      · next hstructure =>
        exact hnested _ hstructure ((length_trimDiscardable_le value).trans hvalue)
      · cases splitAtFirst '\\' (trimDiscardable value) with
        | none => exact simulates_leaf
        | some parts => exact simulates_leaf

/-- `ParseKeyValue` on a text, where nested structures of its length are parsed as `parse`
    says. -/
theorem simulates_runKeyValue {nested : List Char → Method Unit}
    {parse : List Char → Destination → Except FormatException Destination} {bound : Nat}
    (hnested : ∀ value, hasNestedStructure value → value.length ≤ bound →
      Simulates depth (nested value) (parse value))
    {keyValue : List Char} (hbound : keyValue.length ≤ bound) :
    Simulates depth (runKeyValue nested keyValue) (parseKeyValue parse keyValue) := by
  unfold runKeyValue parseKeyValue
  by_cases hblank : isNullOrWhiteSpaceChars keyValue = true
  · simpa [hblank] using simulates_pure
  · simp only [if_neg hblank]
    cases hsplit : splitAtFirst '=' keyValue with
    | none => exact simulates_pure
    | some parts =>
      obtain ⟨keyPart, valuePart⟩ := parts
      have hvalue : (trimChars valuePart).length ≤ bound :=
        (length_trimChars_le valuePart).trans ((length_splitAtFirst_le hsplit).trans hbound)
      simp only
      cases hsetter : propertySetter? (trimChars keyPart) with
      | none =>
        simp only
        by_cases hstructure : hasNestedStructure (trimChars valuePart) = true
        · simpa [hstructure] using hnested _ hstructure hvalue
        · simpa [hstructure] using simulates_pure
      | some setter =>
        have hvalueParser := (simulates_valueParser hnested hvalue setter).tryCatch
        cases setter with
        | parseServerValue => exact hvalueParser
        | parsePortValue => exact hvalueParser
        | parseAddressKeyWithNestedStructureValue => exact hvalueParser

end

/-! ### Nested structures -/

/-- From an opening delimiter on, the index of the closing one is found, or its absence. -/
theorem findMatchingClosingDelimiterIndex_eq {fuel openIndex : Nat} {value : List Char}
    (hopen : value[openIndex]? = some '(') (hfuel : value.length ≤ fuel + openIndex) :
    findMatchingClosingDelimiterIndex fuel value openIndex =
      Fuelled.ofExcept
        ((findMatchingClosingDelimiter (value.drop openIndex)).elim (.error .formatException)
          fun close => .ok ((openIndex + close : Nat) : Int)) := by
  have hlt : openIndex < value.length := (List.getElem?_eq_some_iff.mp hopen).1
  have hloop := runFor_findMatchingClosingDelimiterTurn Nat.zero_lt_one hlt hfuel
  rw [Nat.add_comm openIndex 1, findClosingDelimiter_add, Nat.add_comm 1 openIndex,
    ← List.drop_drop] at hloop
  unfold findMatchingClosingDelimiterIndex findMatchingClosingDelimiter
  rw [charAt_eq hopen]
  show (match Loop.runFor (findMatchingClosingDelimiterTurn value) fuel (1, (openIndex : Int)) with
    | none => Fuelled.outOfFuel
    | some result => _) = _
  have hone : ((1 : Int), (openIndex : Int)) = (((1 : Nat) : Int), (openIndex : Int)) := rfl
  rw [hone, hloop]
  cases findClosingDelimiter 1 1 ((value.drop openIndex).drop 1) with
  | none => rfl
  | some close =>
    have hne : ¬((close + openIndex : Nat) : Int) = -1 := by omega
    show (if ((close + openIndex : Nat) : Int) = -1 then throw ParserException.formatException
      else pure ((close + openIndex : Nat) : Int) : Method Int) = pure _
    rw [if_neg hne, Nat.add_comm]

/-- The closing delimiter is behind the opening one, and the text in between is cut out. -/
theorem substring_eq {openIndex close : Nat} {value : List Char}
    (hclose : findMatchingClosingDelimiter (value.drop openIndex) = some close) :
    substring value ((openIndex : Int) + 1)
        (((openIndex + close : Nat) : Int) - ((openIndex : Int) + 1)) =
      .ok (((value.drop openIndex).take close).drop 1) := by
  obtain ⟨hpos, hlt⟩ := findClosingDelimiter_bounds hclose
  rw [List.length_drop, List.length_drop] at hlt
  unfold substring
  rw [if_neg (by omega), List.drop_take, List.drop_drop]
  congr 3
  omega

/-- Behind the closing delimiter the next opening one is found, or its absence. -/
theorem indexOfAny_nextOpeningDelimiter {value : List Char} {openIndex close : Nat}
    (hrange : openIndex + close + 1 ≤ value.length) :
    (nextOpeningDelimiter (value.drop openIndex) close = [] ∧
        indexOfAny value ['('] ((openIndex + close : Nat) + 1) = .ok (-1)) ∨
      ∃ next : Nat, openIndex + close < next ∧ value[next]? = some '(' ∧
        nextOpeningDelimiter (value.drop openIndex) close = value.drop next ∧
        indexOfAny value ['('] ((openIndex + close : Nat) + 1) = .ok next := by
  have hcast : (((openIndex + close : Nat) : Int) + 1) = (openIndex + close + 1 : Nat) := by omega
  rw [hcast, indexOfAny_eq hrange]
  -- The opening delimiters are the characters that are not skipped.
  have hpredicate : (fun c => !(decide (c ≠ '('))) = (['('].contains · : Char → Bool) := by
    funext c
    simp
  unfold nextOpeningDelimiter
  rw [List.drop_drop, ← Nat.add_assoc, List.dropWhile_eq_drop_findIdx_not, hpredicate]
  generalize hi : openIndex + close + 1 = i at hrange ⊢
  cases hfound : (value.drop i).findIdx? (['('].contains ·) with
  | none =>
    rw [List.findIdx?_eq_none_iff_findIdx_eq] at hfound
    exact .inl ⟨by rw [hfound, List.drop_length], rfl⟩
  | some k =>
    obtain ⟨hk, hindex⟩ := List.findIdx?_eq_some_iff_findIdx_eq.mp hfound
    obtain ⟨_, hc, _⟩ := List.findIdx?_eq_some_iff_getElem.mp hfound
    rw [List.length_drop] at hk
    have hat : value[i + k]? = some '(' := by
      rw [List.getElem?_eq_getElem (by omega), Option.some.injEq]
      simpa [List.getElem_drop] using hc
    refine .inr ⟨i + k, ?_, hat, ?_, rfl⟩
    · omega
    · rw [hindex, List.drop_drop]

section

variable [InvariantCulture]

/-- With the fuel, `ParseNestedStructure` parses like `parseNestedStructure`; the nesting depth
    is the number of activations in progress. -/
def NestedStructureSimulated (fuel : Nat) : Prop :=
  ∀ depth value, hasNestedStructure value → depth ≤ maxNestingDepth →
    2 * value.length + 2 ≤ fuel →
    Simulates depth (runNestedStructure fuel depth value)
      (parseNestedStructure (maxNestingDepth - depth) value)

/-- With the fuel, the loop of `ParseNestedStructure` parses like `parseSubKeyValues`, from any
    opening delimiter on. -/
def SubKeyValuesSimulated (fuel : Nat) : Prop :=
  ∀ depth value (openIndex : Nat), value[openIndex]? = some '(' → depth ≤ maxNestingDepth →
    2 * value.length + 1 ≤ fuel + 2 * openIndex →
    Simulates depth (runSubKeyValues fuel depth value openIndex)
      (parseSubKeyValues (parseKeyValue (parseNestedStructure (maxNestingDepth - depth)))
        (value.drop openIndex))

theorem SubKeyValuesSimulated.nestedStructure {fuel : Nat} (h : SubKeyValuesSimulated fuel) :
    NestedStructureSimulated (fuel + 1) := by
  intro depth value hstructure hdepth hfuel s hs hdeepest
  have hopen : value[0]? = some '(' := by
    unfold hasNestedStructure at hstructure
    simp only [Bool.and_eq_true, decide_eq_true_eq] at hstructure
    rw [← List.head?_eq_getElem?, hstructure.1.2]
  unfold runNestedStructure assertThat
  rw [if_pos hstructure, pure_bind]
  refine .get_bind ?_
  by_cases hguard : maxNestingDepth < s.currentNestingDepth + 1
  · -- As deep as it may get: nothing is parsed.
    rw [if_pos hguard, show maxNestingDepth - depth = 0 by omega]
    exact .pure ⟨hdeepest, rfl, rfl, hs⟩
  · obtain ⟨remaining, hremaining⟩ : ∃ remaining, maxNestingDepth - depth = remaining + 1 :=
      ⟨maxNestingDepth - depth - 1, by omega⟩
    have hloop := h (depth + 1) value 0 hopen (by omega) (by omega)
    rw [show maxNestingDepth - (depth + 1) = remaining by omega, List.drop_zero] at hloop
    rw [if_neg hguard, hremaining]
    refine .set_bind ((hloop _ (by rw [hs]) (by simp only; omega)).bind ?_ ?_)
    · rintro ⟨⟩ s' ⟨hdeepest', hagrees⟩
      refine .modify ⟨hdeepest', ?_⟩
      show Agrees depth _ _ (parseSubKeyValues _ value s.destination)
      cases hparse : parseSubKeyValues (parseKeyValue (parseNestedStructure remaining)) value
          s.destination with
      | error _ =>
        rw [hparse] at hagrees
        cases hagrees
      | ok d =>
        rw [hparse] at hagrees
        obtain ⟨-, hd, hdepth'⟩ := hagrees
        refine ⟨rfl, hd, ?_⟩
        show s'.currentNestingDepth - 1 = depth
        omega
    · rintro e s' ⟨hdeepest', hagrees⟩
      refine ⟨hdeepest', ?_⟩
      show Agrees depth _ _ (parseSubKeyValues _ value s.destination)
      cases hparse : parseSubKeyValues (parseKeyValue (parseNestedStructure remaining)) value
          s.destination with
      | error _ =>
        rw [hparse] at hagrees
        exact hagrees
      | ok d =>
        rw [hparse] at hagrees
        cases hagrees.1

theorem SubKeyValuesSimulated.succ {fuel : Nat} (hnested : NestedStructureSimulated fuel)
    (h : SubKeyValuesSimulated fuel) : SubKeyValuesSimulated (fuel + 1) := by
  intro depth value openIndex hopen hdepth hfuel
  have hlt : openIndex < value.length := (List.getElem?_eq_some_iff.mp hopen).1
  have heq := funext (parseSubKeyValues_eq
    (parseKeyValue (parseNestedStructure (maxNestingDepth - depth))) (value.drop openIndex))
  unfold runSubKeyValues
  rw [findMatchingClosingDelimiterIndex_eq hopen (by omega), heq]
  cases hclose : findMatchingClosingDelimiter (value.drop openIndex) with
  | none => exact simulates_throw
  | some close =>
    obtain ⟨hpos, hlt'⟩ := findClosingDelimiter_bounds hclose
    rw [List.length_drop, List.length_drop] at hlt'
    have hsub : (((value.drop openIndex).take close).drop 1).length + openIndex + 2 ≤
        value.length := by
      simp only [List.length_drop, List.length_take]
      omega
    have hpair := simulates_runKeyValue
      (fun v hv hlength => hnested depth v hv hdepth (by omega))
      (Nat.le_refl (((value.drop openIndex).take close).drop 1).length)
    show Simulates depth (Fuelled.ofExcept (substring value (openIndex + 1)
      ((openIndex + close : Nat) - (openIndex + 1))) >>= fun _ => _) _
    rw [substring_eq hclose]
    refine hpair.bind ?_
    obtain ⟨hnone, hindex⟩ | ⟨next, hnext, hat, hrest, hindex⟩ :=
      indexOfAny_nextOpeningDelimiter (show openIndex + close + 1 ≤ value.length by omega)
    · -- The last text in parentheses, be it at the end of the value or not.
      simp only [hindex, if_pos hnone]
      split
      · exact simulates_pure
      · exact simulates_pure
    · have hlt'' : next < value.length := (List.getElem?_eq_some_iff.mp hat).1
      have hne : value.drop next ≠ [] := by
        rw [ne_eq, List.drop_eq_nil_iff]
        omega
      have hmore : ¬((openIndex + close : Nat) : Int) = value.length - 1 := by omega
      have hfound : ¬(next : Int) = -1 := by omega
      simp only [hindex, hrest, if_neg hne, if_neg hmore]
      show Simulates depth (if (next : Int) = -1 then pure () else
        runSubKeyValues fuel depth value next) _
      rw [if_neg hfound]
      exact h depth value next hat hdepth (by omega)

theorem simulates_nested (fuel : Nat) :
    NestedStructureSimulated fuel ∧ SubKeyValuesSimulated fuel := by
  induction fuel with
  | zero =>
    refine ⟨fun _ _ _ _ hfuel => ?_, fun _ value openIndex hopen _ hfuel => ?_⟩
    · omega
    · have := (List.getElem?_eq_some_iff.mp hopen).1
      omega
  | succ fuel ih => exact ⟨ih.2.nestedStructure, ih.2.succ ih.1⟩

/-! ### Whole connection strings -/

theorem simulates_runFlatKeyValuePairs {fuel : Nat} {keyValues : List (List Char)}
    (hfuel : ∀ keyValue ∈ keyValues, 2 * keyValue.length + 2 ≤ fuel) :
    Simulates 0 (runFlatKeyValuePairs fuel keyValues) fun d =>
      keyValues.foldlM (fun d keyValue =>
        parseKeyValue (parseNestedStructure maxNestingDepth) keyValue d) d := by
  induction keyValues with
  | nil => exact simulates_pure
  | cons keyValue keyValues ih =>
    obtain ⟨hfirst, hrest⟩ := List.forall_mem_cons.mp hfuel
    have hkeyValue : Simulates 0 _ _ := simulates_runKeyValue
      (fun v hv hlength => (simulates_nested fuel).1 0 v hv (Nat.zero_le _) (by omega))
      (Nat.le_refl keyValue.length)
    exact hkeyValue.bind (ih hrest)

/-- The parser ends, within a bound on the fuel that depends on the length of the string only. -/
theorem runConnectionString_returns {dbConnectionString : String} {fuel : Nat}
    (hfuel : 2 * dbConnectionString.length + 2 ≤ fuel) :
    ∃ result, runConnectionString fuel dbConnectionString = some result ∧
      result.destination = .ok (parseConnectionString dbConnectionString) ∧
      result.deepest ≤ maxNestingDepth := by
  have hkeyValues : ∀ keyValue ∈ dbConnectionString.toList.splitOn ';',
      2 * keyValue.length + 2 ≤ fuel := by
    intro keyValue hkeyValue
    have hlength := (List.sublist_of_mem_splitOn hkeyValue).length_le
    rw [String.length_toList] at hlength
    omega
  obtain ⟨r, s, hrun, hdeepest, hagrees⟩ :=
    simulates_runFlatKeyValuePairs hkeyValues ⟨.new, 0, 0⟩ rfl (Nat.zero_le _)
  have hflat : parseFlatKeyValuePairs dbConnectionString .new =
      (dbConnectionString.toList.splitOn ';').foldlM (fun d keyValue =>
        parseKeyValue (parseNestedStructure maxNestingDepth) keyValue d) .new := rfl
  unfold runConnectionString parseConnectionString
  simp only [hrun, Option.map_some, Option.some.injEq]
  rw [hflat]
  cases hparse : (dbConnectionString.toList.splitOn ';').foldlM (fun d keyValue =>
      parseKeyValue (parseNestedStructure maxNestingDepth) keyValue d) Destination.new with
  | error _ =>
    simp only [hparse] at hagrees
    cases hagrees
    exact ⟨_, rfl, rfl, hdeepest⟩
  | ok d =>
    simp only [hparse] at hagrees
    obtain ⟨rfl, rfl, -⟩ := hagrees
    refine ⟨_, rfl, ?_, ?_⟩
    · simp only
      split
      · rfl
      · rfl
    · simp only
      split
      · exact hdeepest
      · exact hdeepest

end

end DbConnectionStringParser

end ApmAgent
