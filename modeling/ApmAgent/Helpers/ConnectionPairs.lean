import ApmAgent.Helpers.ServerText
import ApmAgent.Model.DestinationLookup
import Mathlib.Data.List.Find

/-! # Connection strings around a server value

  A connection string with one server value: a known key in any letter case,
  and pairs the parser has no use for before and after it. What the parser
  makes of such a string is what it makes of the server value.
-/

namespace ApmAgent

namespace DbConnectionStringParser

/-! ### Keys -/

/-- A name in any letter case. -/
structure Casing (name : String) where
  chars : List Char
  casing : chars.map Char.toUpper = name.toList.map Char.toUpper

theorem ascii_of_toUpper {c : Char} (h : c.toUpper.val < 128) : c.val < 128 := by
  unfold Char.toUpper at h
  split at h
  · next hlower =>
    have hhigh : c.val.toNat ≤ 122 := hlower.2
    exact UInt32.lt_iff_toNat_lt.mpr (Nat.lt_of_le_of_lt hhigh (by decide))
  · exact h

/-- The names of the known keys are ASCII, begin and end with a letter and have no separator. -/
theorem keyToPropertySetter_names :
    ∀ entry ∈ keyToPropertySetter,
      (entry.1.toList.map Char.toUpper).all (fun c =>
        c.val < 128 && (isLatinLetter c || c = ' ')) = true ∧
      (entry.1.toList.map Char.toUpper).head?.any isLatinLetter = true ∧
      (entry.1.toList.map Char.toUpper).getLast?.any isLatinLetter = true ∧
      (keyToPropertySetter.find? fun known =>
        known.1.toList.map Char.toUpper = entry.1.toList.map Char.toUpper) = some entry := by
  decide

namespace Casing

variable {name : String}

theorem toUpper_mem (key : Casing name) {c : Char} (hc : c ∈ key.chars) :
    c.toUpper ∈ name.toList.map Char.toUpper := by
  rw [← key.casing]
  exact List.mem_map_of_mem hc

variable {setter : PropertySetter} (hknown : (name, setter) ∈ keyToPropertySetter)

include hknown

theorem ascii (key : Casing name) {c : Char} (hc : c ∈ key.chars) : c.val < 128 := by
  have hall := (keyToPropertySetter_names _ hknown).1
  have := List.all_eq_true.mp hall _ (key.toUpper_mem hc)
  simp only [Bool.and_eq_true, decide_eq_true_eq] at this
  exact ascii_of_toUpper this.1

/-- Letters and spaces are the only characters of a known key. -/
theorem letter_or_space (key : Casing name) {c : Char} (hc : c ∈ key.chars) :
    isLatinLetter c = true ∨ c = ' ' := by
  have hall := (keyToPropertySetter_names _ hknown).1
  have := List.all_eq_true.mp hall _ (key.toUpper_mem hc)
  simp only [Bool.and_eq_true, Bool.or_eq_true, decide_eq_true_eq] at this
  cases hletter : isLatinLetter c with
  | true => exact .inl rfl
  | false =>
    rw [toUpper_of_not_letter hletter, hletter] at this
    simpa using this.2

theorem letter_of_toUpper (key : Casing name) {c : Char} (hc : c ∈ key.chars)
    (hletter : isLatinLetter c.toUpper = true) : isLatinLetter c = true := by
  obtain h | rfl := key.letter_or_space hknown hc
  · exact h
  · exact hletter

/-- White space around a known key is trimmed. -/
theorem trimChars_pad (key : Casing name) {l r : List Char} (hl : ∀ c ∈ l, isWhiteSpace c = true)
    (hr : ∀ c ∈ r, isWhiteSpace c = true) : trimChars (l ++ key.chars ++ r) = key.chars := by
  obtain ⟨_, hhead, hlast, _⟩ := keyToPropertySetter_names _ hknown
  rw [← key.casing, List.head?_map] at hhead
  rw [← key.casing, List.getLast?_map] at hlast
  have hblank {c : Char} (hletter : isLatinLetter c = true) : isWhiteSpace c = false := by
    have := isLatinLetter_iff.mp hletter
    unfold isWhiteSpace
    simp only [Bool.or_eq_false_iff, Bool.and_eq_false_iff, decide_eq_false_iff_not]
    omega
  unfold trimChars
  rw [trimBy_pad hl _ hr]
  refine trimBy_of_ends ?_ ?_
  · intro c hc
    rw [hc] at hhead
    exact hblank (key.letter_of_toUpper hknown (List.mem_of_head? hc) hhead)
  · intro c hc
    rw [hc] at hlast
    exact hblank (key.letter_of_toUpper hknown (List.mem_of_getLast? hc) hlast)

theorem separator_not_mem (key : Casing name) {c : Char} (hletter : isLatinLetter c = false)
    (hspace : c ≠ ' ') : c ∉ key.chars := by
  intro hc
  obtain h | h := key.letter_or_space hknown hc
  · rw [hletter] at h
    cases h
  · exact hspace h

/-- A known key is known in any letter case. -/
theorem propertySetter?_eq [InvariantCulture] (key : Casing name) :
    propertySetter? key.chars = some setter := by
  have hfind := (keyToPropertySetter_names _ hknown).2.2.2
  have hsame : ∀ known ∈ keyToPropertySetter,
      equalsOrdinalIgnoreCase known.1.toList key.chars =
        decide (known.1.toList.map Char.toUpper = name.toList.map Char.toUpper) := by
    intro known hmem
    have hkey : key.chars.map toUpperInvariant = name.toList.map Char.toUpper := by
      rw [← key.casing]
      exact List.map_congr_left fun c hc =>
        InvariantCulture.toUpperInvariant_ascii c (key.ascii hknown hc)
    have hknown' : (known.1, known.2) ∈ keyToPropertySetter := hmem
    have hname : known.1.toList.map toUpperInvariant = known.1.toList.map Char.toUpper :=
      List.map_congr_left fun c hc =>
        InvariantCulture.toUpperInvariant_ascii c
          ((⟨known.1.toList, rfl⟩ : Casing known.1).ascii hknown' hc)
    unfold equalsOrdinalIgnoreCase
    rw [hkey, hname]
  unfold propertySetter?
  rw [List.find?_congr hsame, hfind]
  rfl

end Casing

/-! ### Pairs -/

/-- White space, possibly none. -/
structure Spaces where
  chars : List Char
  white : ∀ c ∈ chars, isNumberWhite c = true

def Spaces.none : Spaces := ⟨[], nofun⟩

theorem Spaces.isWhiteSpace (w : Spaces) : ∀ c ∈ w.chars, isWhiteSpace c = true :=
  fun c hc => isNumberWhite_isWhiteSpace (w.white c hc)

theorem Spaces.ascii (w : Spaces) : ∀ c ∈ w.chars, c.val < 128 := by
  intro c hc
  have := w.white c hc
  simp only [isNumberWhite, Bool.or_eq_true, Bool.and_eq_true, decide_eq_true_eq] at this
  have hnat : c.toNat < 128 := by omega
  exact UInt32.lt_iff_toNat_lt.mpr hnat

theorem Spaces.not_mem (w : Spaces) {c : Char} (hc : isNumberWhite c = false) : c ∉ w.chars := by
  intro hmem
  rw [w.white c hmem] at hc
  cases hc

variable [InvariantCulture]

/-- A pair that the parser has no use for. -/
structure OtherPair where
  key : List Char
  value : List Char
  key_separator : '=' ∉ key
  unknown : propertySetter? (trimChars key) = none
  flat : hasNestedStructure (trimChars value) = false
  pair_separator : ';' ∉ key ∧ ';' ∉ value

def OtherPair.chars (o : OtherPair) : List Char := o.key ++ '=' :: o.value

/-- The pair of a known key and a value. -/
theorem parseKeyValue_known
    (parse : List Char → Destination → Except FormatException Destination) {name : String}
    {setter : PropertySetter} (hknown : (name, setter) ∈ keyToPropertySetter) (key : Casing name)
    (l r : Spaces) (value : List Char) (d : Destination) :
    parseKeyValue parse (l.chars ++ key.chars ++ r.chars ++ '=' :: value) d =
      match setter with
      | .parseServerValue => parseServerValue parse (trimChars value) d
      | .parsePortValue => parsePortValue (trimChars value) d
      | .parseAddressKeyWithNestedStructureValue =>
        parseAddressKeyWithNestedStructureValue parse (trimChars value) d := by
  have hkey : '=' ∉ l.chars ++ key.chars ++ r.chars := by
    have := key.separator_not_mem hknown (c := '=') (by decide) (by decide)
    have := l.not_mem (c := '=') (by decide)
    have := r.not_mem (c := '=') (by decide)
    simp [*]
  have hnonblank : isNullOrWhiteSpaceChars
      (l.chars ++ key.chars ++ r.chars ++ '=' :: value) = false := by
    simp [isNullOrWhiteSpaceChars, isWhiteSpace]
  unfold parseKeyValue
  rw [hnonblank, if_neg Bool.false_ne_true, splitAtFirst_append hkey]
  simp only [key.trimChars_pad hknown l.isWhiteSpace r.isWhiteSpace,
    key.propertySetter?_eq hknown]
  cases setter <;> rfl

theorem parseKeyValue_other
    (parse : List Char → Destination → Except FormatException Destination) (o : OtherPair)
    (d : Destination) : parseKeyValue parse o.chars d = .ok d := by
  unfold parseKeyValue OtherPair.chars
  split
  · rfl
  · rw [splitAtFirst_append o.key_separator]
    simp [o.unknown, o.flat]

/-- What stands around a server value in a connection string. -/
structure ServerPair where
  before : List OtherPair
  name : String
  known : (name, PropertySetter.parseServerValue) ∈ keyToPropertySetter
  key : Casing name
  keyLeft : Spaces
  keyRight : Spaces
  after : List OtherPair

namespace ServerPair

def chars (p : ServerPair) (value : List Char) : List Char :=
  p.keyLeft.chars ++ p.key.chars ++ p.keyRight.chars ++ '=' :: value

/-- The connection string with the value. -/
def connectionString (p : ServerPair) (value : List Char) : String :=
  String.ofList ([';'].intercalate
    (p.before.map OtherPair.chars ++ p.chars value :: p.after.map OtherPair.chars))

end ServerPair

theorem foldlM_other
    (parse : List Char → Destination → Except FormatException Destination)
    (pairs : List OtherPair) (d : Destination) :
    (pairs.map OtherPair.chars).foldlM (fun d keyValue => parseKeyValue parse keyValue d) d =
      .ok d := by
  induction pairs with
  | nil => rfl
  | cons o pairs ih =>
    rw [List.map_cons, List.foldlM_cons, parseKeyValue_other]
    exact ih

/-- Only the server value of such a connection string counts. -/
theorem parseConnectionString_serverPair (p : ServerPair) {value : List Char}
    (hvalue : ';' ∉ value) :
    parseConnectionString (p.connectionString value) =
      match parseServerValue (parseNestedStructure maxNestingDepth) (trimChars value) .new with
      | .error _ => none
      | .ok d => if d.addressHasValue then some d else none := by
  have hpairs : ∀ pairs : List OtherPair, ∀ keyValue ∈ pairs.map OtherPair.chars,
      ';' ∉ keyValue := by
    intro pairs keyValue hmem
    obtain ⟨o, _, rfl⟩ := List.mem_map.mp hmem
    simp [OtherPair.chars, o.pair_separator]
  have hserver : ';' ∉ p.chars value := by
    have := p.key.separator_not_mem p.known (c := ';') (by decide) (by decide)
    have := p.keyLeft.not_mem (c := ';') (by decide)
    have := p.keyRight.not_mem (c := ';') (by decide)
    simp [ServerPair.chars, *]
  have hseparator : ∀ keyValue ∈
      p.before.map OtherPair.chars ++ p.chars value :: p.after.map OtherPair.chars,
      ';' ∉ keyValue := by
    intro keyValue hmem
    rw [List.mem_append, List.mem_cons] at hmem
    obtain hbefore | rfl | hafter := hmem
    · exact hpairs _ _ hbefore
    · exact hserver
    · exact hpairs _ _ hafter
  have hpair : parseKeyValue (parseNestedStructure maxNestingDepth) (p.chars value) .new =
      parseServerValue (parseNestedStructure maxNestingDepth) (trimChars value) .new :=
    parseKeyValue_known _ p.known p.key p.keyLeft p.keyRight value .new
  unfold parseConnectionString parseFlatKeyValuePairs ServerPair.connectionString
  rw [String.toList_ofList, List.splitOn_intercalate ';' hseparator (by simp),
    List.foldlM_append, foldlM_other]
  simp only [bind, Except.bind, List.foldlM_cons, hpair]
  cases parseServerValue (parseNestedStructure maxNestingDepth) (trimChars value) .new with
  | error e => rfl
  | ok d => simp only [foldlM_other]

/-! ### The first call -/

/-- What `ExtractDestination` returns on a parser that has not seen any connection string. -/
def extractDestination (dbConnectionString : String) : Option Destination :=
  let (s, destination) := DestinationLookup.new.extractDestination dbConnectionString
  destination.bind s.destinations.get?

theorem extractDestination_eq (dbConnectionString : String) :
    extractDestination dbConnectionString = parseConnectionString dbConnectionString := by
  unfold extractDestination DestinationLookup.extractDestination DestinationLookup.parse
  cases parseConnectionString dbConnectionString with
  | none => rfl
  | some d => rfl

end DbConnectionStringParser

end ApmAgent
