import ApmAgent.Helpers.Numbers
import ApmAgent.Model.LabelsDictionary
import ApmAgent.Report.PropertyNames

/-! # Reading labels back

  `LabelsJsonConverter` can read the labels it writes: token by token, strings
  into the dictionary of the old interface, numbers and Booleans into
  `InnerDictionary`. It knows these kinds of values only, while it writes a null
  for a label without a value.

  * `roundTrips_iff`: labels that fit the limits come back with the same keys
    and values, the reader at the end of the object, exactly if none of the
    values is null.
-/

namespace ApmAgent

open Api Json

/-! ### Numbers -/

/-- A text that is read as a `double`; the other ones are integers. -/
def isFloatText (n : NumberToken) : Bool :=
  n.chars.any fun c => c = '.' || c = 'e' || c = 'E'

/-- The finite doubles as Json.NET writes and reads them. -/
class JsonDouble where
  /-- The finite doubles. -/
  Value : Type
  /-- What is written for one. -/
  text : Value → NumberToken
  /-- What a text with a fraction or an exponent is read as. -/
  parse : NumberToken → Option Value
  text_isFloat : ∀ d, isFloatText (text d) = true
  parse_text : ∀ d, parse (text d) = some d

/-- Doubles that are given by their texts. -/
@[reducible] def JsonDouble.byText : JsonDouble where
  Value := { n : NumberToken // isFloatText n = true }
  text := Subtype.val
  parse n := if h : isFloatText n = true then some ⟨n, h⟩ else none
  text_isFloat := Subtype.property
  parse_text d := dif_pos d.property

/-- The value of a text without fraction and exponent. -/
def integerValue (n : NumberToken) : Option Int :=
  if n.rest.all Char.isDigit then
    if n.first = '-' then if n.rest = [] then none else some (-digitsValue n.rest)
    else some (digitsValue n.chars)
  else none

/-- The texts of integers are read as integers. -/
theorem isFloatText_ofInt (z : Int) : isFloatText (.ofInt z) = false := by
  have hdigits : ∀ n, ∀ c ∈ (NumberToken.ofNat n).chars,
      (c = '.' || c = 'e' || c = 'E') = false := by
    intro n c hc
    rw [NumberToken.chars_ofNat] at hc
    have hdigit := isDigit_of_mem_toDigits n c hc
    by_contra hfloat
    simp only [Bool.not_eq_false, Bool.or_eq_true, decide_eq_true_eq] at hfloat
    rcases hfloat with (rfl | rfl) | rfl <;> exact absurd hdigit (by decide)
  rw [isFloatText, List.any_eq_false]
  cases z with
  | ofNat n => exact fun c hc => by simp [hdigits n c hc]
  | negSucc n =>
    show ∀ c ∈ '-' :: (NumberToken.ofNat (n + 1)).chars, _
    exact List.forall_mem_cons.mpr ⟨by decide, fun c hc => by simp [hdigits (n + 1) c hc]⟩

theorem integerValue_ofInt (z : Int) : integerValue (.ofInt z) = some z := by
  have hvalue := digitsValue_toDigits
  have hdigits := isDigit_of_mem_toDigits
  cases z with
  | ofNat n =>
    have hchars := NumberToken.chars_ofNat n
    have hall : ∀ c ∈ (NumberToken.ofNat n).chars, c.isDigit = true := by
      rw [hchars]
      exact hdigits n
    obtain ⟨hfirst, hrest⟩ := List.forall_mem_cons.mp hall
    have hsign : (NumberToken.ofNat n).first ≠ '-' := fun h => by
      rw [h] at hfirst
      exact absurd hfirst (by decide)
    show integerValue (NumberToken.ofNat n) = _
    rw [integerValue, if_pos (List.all_eq_true.mpr hrest), if_neg hsign, hchars, hvalue]
    rfl
  | negSucc n =>
    have hrest : (NumberToken.ofInt (Int.negSucc n)).rest = Nat.toDigits 10 (n + 1) :=
      NumberToken.chars_ofNat (n + 1)
    have hsign : (NumberToken.ofInt (Int.negSucc n)).first = '-' := rfl
    rw [integerValue, hrest, if_pos (List.all_eq_true.mpr (hdigits (n + 1))), if_pos hsign,
      if_neg Nat.toDigits_ne_nil, hvalue]
    rfl

/-! ### Reading -/

/-- Where a `JsonReader` stands and what it has still to read. -/
structure JsonReader where
  /-- The token it stands at, if there is one. -/
  token : Option Token
  rest : List Token
  deriving DecidableEq

/-- A reader at the first token. -/
def JsonReader.ofTokens : List Token → JsonReader
  | [] => ⟨none, []⟩
  | token :: rest => ⟨some token, rest⟩

/-- `JsonReader.TokenType`. -/
def JsonReader.tokenType : Option Token → String
  | none => "None"
  | some .startObject => "StartObject"
  | some .endObject => "EndObject"
  | some .startArray => "StartArray"
  | some .endArray => "EndArray"
  | some (.propertyName _) => "PropertyName"
  | some (.string _) => "String"
  | some (.number n) => if isFloatText n then "Float" else "Integer"
  | some (.bool _) => "Boolean"
  | some .null => "Null"

inductive ReadException where
  | json (message : String)
  /-- Json.NET cannot read a token. -/
  | jsonReader
  | invalidCast
  | runtime (e : RuntimeException)
  deriving DecidableEq

/-- `(string)reader.Value`. -/
def castString : Token → Except ReadException (Option String)
  | .propertyName s | .string s => .ok (some s)
  | .number _ | .bool _ => .error .invalidCast
  | .startObject | .endObject | .startArray | .endArray | .null => .ok none

section

variable {ν : Type}

/-- `dictionary.Add(property, value)`. -/
def addProperty (dictionary : Dict String ν) (property : Option String) (value : ν) :
    Except ReadException (Dict String ν) :=
  match property with
  | none => .error (.runtime .argumentNull)
  | some key =>
    match dictionary.add? key value with
    | none => .error (.runtime .argument)
    | some dictionary => .ok dictionary

theorem addProperty_new {dictionary : Dict String ν} {key : String}
    (h : dictionary.lookup key = none) (value : ν) :
    addProperty dictionary (some key) value = .ok (dictionary.set key value) := by
  simp [addProperty, Dict.add?, h]

end

section

variable [JsonDouble]

/-- `Label` of `(long)reader.Value` or `(double)reader.Value`. -/
def readNumber (n : NumberToken) : Except ReadException Label :=
  if isFloatText n then
    match JsonDouble.parse n with
    | some d => .ok ⟨some (.number (JsonDouble.text d))⟩
    | none => .error .jsonReader
  else
    match integerValue n with
    | some z =>
      -- Json.NET makes a `BigInteger` of a larger number.
      if -2 ^ 63 ≤ z ∧ z < 2 ^ 63 then .ok ⟨some (.number (.ofInt z))⟩ else .error .invalidCast
    | none => .error .jsonReader

/-- The cases of the type of the token that follows a property name. -/
def addLabel (labels : LabelsDictionary) (property : Option String) (token : Option Token) :
    Except ReadException LabelsDictionary :=
  match token with
  | some (.number n) => do
    let label ← readNumber n
    let inner ← addProperty labels.innerDictionary property label
    return { labels with innerDictionary := inner }
  | some (.string s) => do
    let base ← addProperty labels.base property (some s)
    return { labels with base }
  | some (.bool b) => do
    let inner ← addProperty labels.innerDictionary property ⟨some (.bool b)⟩
    return { labels with innerDictionary := inner }
  | token => .error (.json
      ("Expected Integer, Float, String or Boolean but received " ++ JsonReader.tokenType token))

/-- The loop of `ReadJson`. -/
def readLabels (labels : LabelsDictionary) :
    List Token → Except ReadException (LabelsDictionary × JsonReader)
  | [] => .ok (labels, ⟨none, []⟩)
  | .endObject :: rest => .ok (labels, ⟨some .endObject, rest⟩)
  | [name] => do
    let property ← castString name
    let labels ← addLabel labels property none
    return (labels, ⟨none, []⟩)
  | name :: token :: rest => do
    let property ← castString name
    let labels ← addLabel labels property (some token)
    readLabels labels rest

/-- `LabelsJsonConverter.ReadJson`. -/
def readJson (reader : JsonReader) :
    Except ReadException (Option LabelsDictionary × JsonReader) :=
  match reader.token with
  | some .null => .ok (none, reader)
  | some .startObject => do
    let (labels, reader) ← readLabels .empty reader.rest
    return (some labels, reader)
  | token => .error (.json ("expected StartObject but received " ++ JsonReader.tokenType token))

/-! ### Labels that fit -/

/-- A key that is written as it is. -/
def KeyFits (key : String) : Prop :=
  stringLength key ≤ propertyMaxLength ∧ ∀ c ∈ key.toList, c ≠ '.' ∧ c ≠ '*' ∧ c ≠ '"'

/-- A string within the limit, a 64-bit integer, a finite double, a Boolean or null. -/
def Api.Label.Fits (label : Label) : Prop :=
  match label.value with
  | none => True
  | some (.string s) => stringLength s ≤ propertyMaxLength
  | some (.bool _) => True
  | some (.number n) =>
    (∃ z : Int64, n = .ofInt z.toInt) ∨ ∃ d : JsonDouble.Value, n = JsonDouble.text d

/-- Labels within the limits, with keys in which nothing has to be replaced. -/
structure Api.LabelsDictionary.Fits (labels : LabelsDictionary) : Prop where
  key : ∀ k, labels.HasKey k → KeyFits k
  value : ∀ k label, labels.mergedDictionary.lookup k = some label → label.Fits

omit [JsonDouble] in
theorem KeyFits.replaceReserved {key : String} (h : KeyFits key) :
    replaceReserved (truncate key propertyMaxLength) = key := by
  have hkept : ∀ c ∈ key.toList, (if c = '.' ∨ c = '*' ∨ c = '"' then '_' else c) = c := by
    intro c hc
    obtain ⟨hdot, hstar, hquote⟩ := h.2 c hc
    rw [if_neg (by simp [hdot, hstar, hquote])]
  rw [truncate_of_le h.1, ApmAgent.replaceReserved, ← String.toList_inj, String.toList_map]
  exact (List.map_congr_left hkept).trans (List.map_id _)

/-! ### One label -/

theorem readLabels_property (labels : LabelsDictionary) (key : String) (token : Token)
    (rest : List Token) :
    readLabels labels (.propertyName key :: token :: rest) =
      (addLabel labels (some key) (some token)).bind fun labels => readLabels labels rest := rfl

/-- A number that fits is read as it was written. -/
theorem readNumber_written {n : NumberToken} (h : Label.Fits ⟨some (.number n)⟩) :
    readNumber n = .ok ⟨some (.number n)⟩ := by
  rcases h with ⟨z, rfl⟩ | ⟨d, rfl⟩
  · rw [readNumber, if_neg (by rw [isFloatText_ofInt]; decide), integerValue_ofInt]
    exact if_pos ⟨z.le_toInt, z.toInt_lt⟩
  · rw [readNumber, if_pos (JsonDouble.text_isFloat d), JsonDouble.parse_text]

section

omit [JsonDouble]

/-- What is added to `InnerDictionary` is not hidden by a string. -/
theorem lookup_mergedDictionary_setInner {labels : LabelsDictionary} {key : String}
    (hbase : labels.base.lookup key = none) (label : Label) (k : String) :
    ({ labels with
        innerDictionary := labels.innerDictionary.set key label }).mergedDictionary.lookup k =
      if k = key then some label else labels.mergedDictionary.lookup k := by
  simp only [LabelsDictionary.lookup_mergedDictionary, Dict.lookup_set]
  by_cases hk : k = key
  · rw [if_pos hk, if_pos hk, hk, hbase]
    rfl
  · rw [if_neg hk, if_neg hk]

theorem lookup_mergedDictionary_setBase (labels : LabelsDictionary) (key s k : String) :
    ({ labels with base := labels.base.set key (some s) }).mergedDictionary.lookup k =
      if k = key then some ⟨some (.string s)⟩ else labels.mergedDictionary.lookup k := by
  simp only [LabelsDictionary.lookup_mergedDictionary, Dict.lookup_set]
  by_cases hk : k = key
  · rw [if_pos hk, if_pos hk]
    rfl
  · rw [if_neg hk, if_neg hk]

end

/-- A label that is not null is one token, and reading it adds the label, on whichever side. -/
theorem addLabel_written {labels : LabelsDictionary} {key : String} {label : Label}
    (hlabel : label.Fits) (hnull : label.value ≠ none) (hbase : labels.base.lookup key = none)
    (hinner : labels.innerDictionary.lookup key = none) :
    ∃ token labels', (writeLabel label).tokens = [token] ∧
      addLabel labels (some key) (some token) = .ok labels' ∧
      (∀ k, labels'.mergedDictionary.lookup k =
        if k = key then some label else labels.mergedDictionary.lookup k) ∧
      ∀ k, k ≠ key → labels'.base.lookup k = labels.base.lookup k ∧
        labels'.innerDictionary.lookup k = labels.innerDictionary.lookup k := by
  have hadd := lookup_mergedDictionary_setInner hbase label
  have hother : ∀ k, k ≠ key → labels.base.lookup k = labels.base.lookup k ∧
      (labels.innerDictionary.set key label).lookup k = labels.innerDictionary.lookup k := by
    intro k hk
    exact ⟨rfl, by rw [Dict.lookup_set, if_neg hk]⟩
  obtain ⟨value⟩ := label
  cases value with
  | none => exact absurd rfl hnull
  | some value =>
    cases value with
    | string s =>
      have hs : truncate s propertyMaxLength = s := truncate_of_le hlabel
      refine ⟨.string s, { labels with base := labels.base.set key (some s) }, ?_, ?_,
        lookup_mergedDictionary_setBase labels key s,
        fun k hk => ⟨by rw [Dict.lookup_set, if_neg hk], rfl⟩⟩
      · rw [writeLabel, hs, tokens]
      · simp only [addLabel, addProperty_new hbase]
        rfl
    | bool b =>
      refine ⟨.bool b, _, by rw [writeLabel, tokens], ?_, hadd, hother⟩
      simp only [addLabel, addProperty_new hinner]
      rfl
    | number n =>
      refine ⟨.number n, _, by rw [writeLabel, tokens], ?_, hadd, hother⟩
      simp only [addLabel, readNumber_written hlabel, bind, Except.bind, addProperty_new hinner]
      rfl

omit [JsonDouble] in
theorem writeLabel_tokens (label : Label) :
    ∃ token, (writeLabel label).tokens = [token] ∧ (label.value = none → token = .null) := by
  obtain ⟨value⟩ := label
  cases value with
  | none => exact ⟨.null, by rw [writeLabel, tokens], fun _ => rfl⟩
  | some value =>
    cases value with
    | string s => exact ⟨_, by rw [writeLabel, tokens], nofun⟩
    | bool b => exact ⟨_, by rw [writeLabel, tokens], nofun⟩
    | number n => exact ⟨_, by rw [writeLabel, tokens], nofun⟩

/-! ### The loop -/

/-- What the converter writes for some entries. -/
def writtenMembers (es : List (String × Label)) : List (String × Json) :=
  es.map fun e => (replaceReserved (truncate e.1 propertyMaxLength), writeLabel e.2)

omit [JsonDouble] in
theorem membersTokens_writtenMembers {e : String × Label} {es : List (String × Label)}
    {token : Token} (htoken : (writeLabel e.2).tokens = [token]) (rest : List Token) :
    membersTokens (writtenMembers (e :: es)) ++ rest =
      .propertyName (replaceReserved (truncate e.1 propertyMaxLength)) :: token ::
        (membersTokens (writtenMembers es) ++ rest) := by
  show _ :: ((writeLabel e.2).tokens ++ _) ++ rest = _
  rw [htoken]
  rfl

/-- The entries are read one after the other, the keys of those to come being new. -/
theorem readLabels_written (labels : LabelsDictionary) {es : List (String × Label)}
    (hkeys : (Entries.keys es).Nodup) (hfits : ∀ e ∈ es, KeyFits e.1 ∧ e.2.Fits)
    (hnull : ∀ e ∈ es, e.2.value ≠ none)
    (hnew : ∀ e ∈ es, labels.base.lookup e.1 = none ∧ labels.innerDictionary.lookup e.1 = none)
    (rest : List Token) :
    ∃ labels', readLabels labels (membersTokens (writtenMembers es) ++ rest) =
        .ok (labels', ⟨some .endObject, rest⟩) ∧
      ∀ k, labels'.mergedDictionary.lookup k =
        (es.lookup k).or (labels.mergedDictionary.lookup k) := by
  induction es generalizing labels with
  | nil => exact ⟨labels, rfl, fun k => rfl⟩
  | cons e es ih =>
    obtain ⟨hnotmem, hes⟩ := List.nodup_cons.mp hkeys
    obtain ⟨⟨hkey, hlabel⟩, hfits⟩ := List.forall_mem_cons.mp hfits
    obtain ⟨hvalue, hnull⟩ := List.forall_mem_cons.mp hnull
    obtain ⟨⟨hbase, hinner⟩, hnew⟩ := List.forall_mem_cons.mp hnew
    obtain ⟨token, added, htoken, hadd, hmerged, hother⟩ :=
      addLabel_written hlabel hvalue hbase hinner
    have hne : ∀ e' ∈ es, e'.1 ≠ e.1 := fun e' he' heq =>
      hnotmem (heq ▸ List.mem_map_of_mem he')
    obtain ⟨labels', hread, hlookup⟩ := ih added hes hfits hnull fun e' he' => by
      obtain ⟨hbase', hinner'⟩ := hother e'.1 (hne e' he')
      rw [hbase', hinner']
      exact hnew e' he'
    refine ⟨labels', ?_, fun k => ?_⟩
    · rw [membersTokens_writtenMembers htoken, hkey.replaceReserved, readLabels_property, hadd]
      exact hread
    · rw [hlookup, hmerged, Entries.lookup_cons]
      by_cases hk : k = e.1
      · have hnone : es.lookup k = none := by
          rw [List.lookup_eq_none_iff]
          intro e' he'
          rw [bne_iff_ne, hk]
          exact (hne e' he').symm
        rw [if_pos hk, if_pos hk, hnone]
        rfl
      · rw [if_neg hk, if_neg hk]

/-- An entry without a value is not read, whatever comes before it. -/
theorem readLabels_null (labels : LabelsDictionary) {es : List (String × Label)}
    (hnull : ∃ e ∈ es, e.2.value = none) (rest : List Token) :
    ∃ e, readLabels labels (membersTokens (writtenMembers es) ++ rest) = .error e := by
  induction es generalizing labels with
  | nil => exact absurd hnull (by simp)
  | cons e es ih =>
    obtain ⟨token, htoken, hvalue⟩ := writeLabel_tokens e.2
    rw [membersTokens_writtenMembers htoken, readLabels_property]
    cases hadd : addLabel labels _ (some token) with
    | error e => exact ⟨e, rfl⟩
    | ok labels' =>
      obtain ⟨e', hmem, hnone⟩ := hnull
      rcases List.mem_cons.mp hmem with rfl | hmem
      · -- The token that is not read was read.
        rw [hvalue hnone] at hadd
        exact absurd hadd nofun
      · exact ih labels' ⟨e', hmem, hnone⟩

/-! ### Round trip -/

/-- Read from what is written for the labels, whatever follows it, come labels with the same keys
    and values, and the reader stands at the end of their object. -/
def RoundTrips (labels : LabelsDictionary) : Prop :=
  ∀ rest, ∃ read,
    readJson (.ofTokens ((labelsJsonConverter labels).tokens ++ rest)) =
      .ok (some read, ⟨some .endObject, rest⟩) ∧
    ∀ k, read.mergedDictionary.lookup k = labels.mergedDictionary.lookup k

/-- What is read of the tokens is what the loop makes of the members. -/
theorem readJson_written (labels : LabelsDictionary) (rest : List Token) :
    readJson (.ofTokens ((labelsJsonConverter labels).tokens ++ rest)) =
      (readLabels .empty (membersTokens (writtenMembers labels.mergedDictionary.entries) ++
        rest)).map fun r => (some r.1, r.2) := by
  show (readLabels .empty (membersTokens (writtenMembers labels.mergedDictionary.entries) ++
    rest)).bind _ = _
  cases readLabels .empty (membersTokens (writtenMembers labels.mergedDictionary.entries) ++
      rest) with
  | error e => rfl
  | ok r => rfl

omit [JsonDouble] in
/-- No label that is sent is null. -/
theorem entries_ne_null_iff (labels : LabelsDictionary) :
    (∀ e ∈ labels.mergedDictionary.entries, e.2.value ≠ none) ↔
      (∀ k, labels.base.lookup k ≠ some none) ∧
      ∀ k, labels.base.lookup k = none → labels.innerDictionary.lookup k ≠ some ⟨none⟩ := by
  constructor
  · intro h
    have hlookup : ∀ k, labels.mergedDictionary.lookup k ≠ some ⟨none⟩ := fun k hk =>
      h _ (Dict.lookup_eq_some_iff.mp hk) rfl
    refine ⟨fun k hk => hlookup k ?_, fun k hbase hk => hlookup k ?_⟩
    · rw [LabelsDictionary.lookup_mergedDictionary, hk]
      rfl
    · rw [LabelsDictionary.lookup_mergedDictionary, hbase, hk]
      rfl
  · rintro ⟨hbase, hinner⟩ ⟨k, label⟩ he hnone
    have hlookup := Dict.lookup_eq_some_iff.mpr he
    rw [LabelsDictionary.lookup_mergedDictionary] at hlookup
    obtain ⟨value⟩ := label
    cases hnone
    cases hk : labels.base.lookup k with
    | none =>
      rw [hk] at hlookup
      exact hinner k hk hlookup
    | some s =>
      cases s with
      | none => exact hbase k hk
      | some s =>
        rw [hk] at hlookup
        exact nomatch hlookup

/-- Labels that fit come back exactly if none of them is null: neither a string of the old
    interface nor a label that no such string hides. -/
theorem roundTrips_iff {labels : LabelsDictionary} (hfits : labels.Fits) :
    RoundTrips labels ↔
      (∀ k, labels.base.lookup k ≠ some none) ∧
      ∀ k, labels.base.lookup k = none → labels.innerDictionary.lookup k ≠ some ⟨none⟩ := by
  rw [← entries_ne_null_iff]
  constructor
  · intro h e he hnone
    obtain ⟨read, hread, -⟩ := h []
    obtain ⟨ex, hex⟩ := readLabels_null .empty ⟨e, he, hnone⟩ []
    rw [readJson_written, hex] at hread
    exact nomatch hread
  · intro h rest
    have hentries : ∀ e ∈ labels.mergedDictionary.entries, KeyFits e.1 ∧ e.2.Fits := fun e he =>
      ⟨hfits.key _ (LabelsDictionary.mem_keys_mergedDictionary.mp (List.mem_map_of_mem he)),
        hfits.value _ _ (Dict.lookup_eq_some_iff.mpr he)⟩
    obtain ⟨read, hread, hlookup⟩ := readLabels_written .empty
      labels.mergedDictionary.nodup hentries h (fun e _ => ⟨rfl, rfl⟩) rest
    refine ⟨read, by rw [readJson_written, hread]; rfl, fun k => ?_⟩
    rw [hlookup]
    exact Option.or_none

end

/-! ### Labels with and without values -/

section

attribute [local instance] JsonDouble.byText

attribute [local instance] decidableForallMem

/-- A string of the old interface, an integer, a double and a Boolean. -/
def typedLabels : LabelsDictionary where
  base := .singleton "s" (some "text")
  innerDictionary := ⟨[("n", ⟨some (.number (.ofInt 5))⟩),
    ("d", ⟨some (.number ⟨'1', ['.', '5'], by decide, by decide⟩)⟩),
    ("b", ⟨some (.bool true)⟩)], by decide⟩

theorem typedLabels_fits : typedLabels.Fits := by
  have hkeys : ∀ k, typedLabels.HasKey k → k = "s" ∨ k = "n" ∨ k = "d" ∨ k = "b" := by
    rintro k (hk | hk)
    · exact Or.inl (List.mem_singleton.mp hk)
    · exact Or.inr (by simpa [Entries.keys, typedLabels] using hk)
  refine ⟨fun k hk => ?_, fun k label hlabel => ?_⟩
  · rcases hkeys k hk with rfl | rfl | rfl | rfl <;> exact ⟨by decide, by decide⟩
  · have hmem : (k, label) ∈ typedLabels.mergedDictionary.entries :=
      Dict.lookup_eq_some_iff.mp hlabel
    have hentries : typedLabels.mergedDictionary.entries = typedLabels.innerDictionary.entries ++
        [("s", Label.ofString (some "text"))] := by decide
    rw [hentries, List.mem_append, List.mem_singleton] at hmem
    simp only [typedLabels, List.mem_cons, Prod.mk.injEq, List.not_mem_nil, or_false] at hmem
    rcases hmem with (⟨-, rfl⟩ | ⟨-, rfl⟩ | ⟨-, rfl⟩) | ⟨-, rfl⟩
    · exact Or.inl ⟨5, rfl⟩
    · exact Or.inr ⟨⟨_, by decide⟩, rfl⟩
    · trivial
    · show "text".length ≤ propertyMaxLength
      decide

theorem roundTrips_typedLabels : RoundTrips typedLabels := by
  refine (roundTrips_iff typedLabels_fits).mpr ⟨fun k hnull => ?_, fun k _ hnull => ?_⟩
  · have hmem := Dict.lookup_eq_some_iff.mp hnull
    simp [typedLabels, Dict.singleton] at hmem
  · have hmem := Dict.lookup_eq_some_iff.mp hnull
    simp [typedLabels] at hmem

/-- `SetLabel("k", null)`. -/
theorem roundTrips_counterexample :
    LabelsDictionary.Fits ⟨.empty, .singleton "k" ⟨none⟩⟩ ∧
      ¬RoundTrips ⟨.empty, .singleton "k" ⟨none⟩⟩ := by
  refine ⟨⟨fun k hk => ?_, fun k label hlabel => ?_⟩, fun h => ?_⟩
  · rcases hk with hk | hk
    · exact absurd hk List.not_mem_nil
    · rw [List.mem_singleton.mp hk]
      exact ⟨by decide, by decide⟩
  · have hmem := Dict.lookup_eq_some_iff.mp hlabel
    cases List.mem_singleton.mp hmem
    trivial
  · obtain ⟨read, hread, -⟩ := h []
    obtain ⟨e, he⟩ := readLabels_null .empty ⟨("k", ⟨none⟩), List.mem_singleton_self _, rfl⟩ []
    have hentries : (LabelsDictionary.mergedDictionary
        ⟨.empty, .singleton "k" ⟨none⟩⟩).entries = [("k", ⟨none⟩)] := by decide
    rw [readJson_written, hentries, he] at hread
    exact nomatch hread

end

end ApmAgent
