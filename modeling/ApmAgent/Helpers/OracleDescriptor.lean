import ApmAgent.Helpers.NestedText
import ApmAgent.Helpers.ServerForms

/-! # Descriptors with several addresses

  A server value in the notation of Oracle: groups in parentheses, nested as
  deep as one likes, with the hosts and the ports in groups of their own.

  The parser takes the `ADDRESS` groups that are nested at most
  `maxNestingDepth` deep one after the other (`parseServerValue_descriptor`).
-/

namespace ApmAgent

namespace DbConnectionStringParser

attribute [local instance] decidableForallMem

variable [InvariantCulture]

/-! ### Hosts -/

/-- The characters that stand for something else in a server value. -/
def separators : List Char := ['(', ')', '[', ']', ',', ':', ';', '/', '\\']

/-- A character that is not a separator, nor equal to one when the case is ignored. -/
def IsPlainChar (c : Char) : Prop := c ∉ separators ∧ toUpperInvariant c ∉ separators

instance : DecidablePred IsPlainChar := fun _ => inferInstanceAs (Decidable (_ ∧ _))

/-- The text of a host name: plain characters, and no white space around them. -/
structure HostText where
  chars : List Char
  nonempty : chars ≠ []
  head : ∀ c ∈ chars.head?, isWhiteSpace c = false
  last : ∀ c ∈ chars.getLast?, isWhiteSpace c = false
  plain : ∀ c ∈ chars, IsPlainChar c

/-- What a `HOST` pair has for a value. -/
inductive Host where
  | name (host : HostText)
  | ipv6 (host : IPv6)
  | bracketed (w : FormSpaces) (host : IPv6)

namespace Host

def chars : Host → List Char
  | name host => host.chars
  | ipv6 host => (ServerForm.bare host none).chars .none
  | bracketed w host => (ServerForm.bracketed host none).chars w

/-- The host, without brackets. -/
def address : Host → String
  | name host => String.ofList host.chars
  | ipv6 host => String.ofList host.chars
  | bracketed _ host => String.ofList host.chars

end Host

/-- The parser takes the text for an address. -/
structure IsHostValue (value : List Char) (address : String) : Prop where
  trim : ∀ l r : Spaces, trimChars (l.chars ++ value ++ r.chars) = value
  nonempty : value ≠ []
  tcp : startsWithIgnoreCase "tcp:".toList value = false
  localDb : startsWithIgnoreCase "(LocalDB)".toList value = false
  userInstance : startsWithIgnoreCase ".\\".toList value = false
  not_mem : '(' ∉ value ∧ ')' ∉ value ∧ ';' ∉ value ∧ '/' ∉ value ∧ '\\' ∉ value
  parts : ∀ d, (serverParts value).apply d = .ok (d.setAddress address)

theorem HostText.isHostValue (h : HostText) : IsHostValue h.chars (String.ofList h.chars) := by
  have hnot {c : Char} (hc : c ∈ separators) : c ∉ h.chars :=
    fun hmem => (h.plain c hmem).1 hc
  have hstart {start : List Char} {c : Char} (hc : c ∈ start) (hseparator : c ∈ separators)
      (hupper : toUpperInvariant c = c) : startsWithIgnoreCase start h.chars = false := by
    refine startsWithIgnoreCase_of_toUpper hc fun d hd heq => ?_
    rw [hupper] at heq
    exact (h.plain d hd).2 (heq ▸ hseparator)
  have hupper {c : Char} (hc : c.val < 128) (hsame : c.toUpper = c) : toUpperInvariant c = c := by
    rw [InvariantCulture.toUpperInvariant_ascii c hc, hsame]
  refine ⟨?_, h.nonempty, ?_, ?_, ?_, ⟨?_, ?_, ?_, ?_, ?_⟩, ?_⟩
  · intro l r
    unfold trimChars
    rw [trimBy_pad l.isWhiteSpace _ r.isWhiteSpace]
    exact trimBy_of_ends h.head h.last
  · exact hstart (c := ':') (by decide) (by decide) (hupper (by decide) (by decide))
  · exact hstart (c := '(') (by decide) (by decide) (hupper (by decide) (by decide))
  · exact hstart (c := '\\') (by decide) (by decide) (hupper (by decide) (by decide))
  · exact hnot (by decide)
  · exact hnot (by decide)
  · exact hnot (by decide)
  · exact hnot (by decide)
  · exact hnot (by decide)
  · intro d
    rw [serverParts_whole (hnot (by decide)) (hnot (by decide))]
    rfl

omit [InvariantCulture] in
/-- Parts that set the address of a new destination and nothing else set that of any. -/
theorem ServerParts.apply_of_new {parts : ServerParts} {address : String}
    (h : parts.apply .new = .ok (Destination.new.setAddress address)) (d : Destination) :
    parts.apply d = .ok (d.setAddress address) := by
  rw [ServerParts.apply_eq] at h ⊢
  cases hread : parts.readAddress with
  | error e =>
    rw [hread] at h
    cases h
  | ok read =>
    rw [hread] at h
    simp only [bind, Except.bind] at h ⊢
    cases hport : parts.portText with
    | none =>
      rw [hport] at h
      simp only [Except.ok.injEq, Destination.setAddress, Destination.mk.injEq,
        Optional.set.injEq, Option.some.injEq, and_true] at h
      rw [h]
    | some port =>
      rw [hport] at h
      obtain ⟨n, _, _, hn⟩ := parsePortValue_ok_iff.mp h
      cases hn

/-- An IPv6 address, in brackets or not. -/
theorem ServerForm.isHostValue (w : FormSpaces) {f : ServerForm} (htcp : ¬f.IsTcp)
    (hport : f.port = none) : IsHostValue (f.chars w) (String.ofList f.address) := by
  have hascii : ∀ c ∈ f.chars w, c.val < 128 := fun _ hc => f.ascii w hc
  have hnot (c : Char) (hhost : isHostChar c = false) (hwhite : isNumberWhite c = false)
      (hother : c ≠ ',' ∧ c ≠ '[' ∧ c ≠ ']') : c ∉ f.chars w := f.not_mem w hhost hwhite hother
  have hopen := hnot '(' (by decide) (by decide) (by decide)
  have hinstance := hnot '\\' (by decide) (by decide) (by decide)
  refine ⟨?_, f.nonempty w, ServerForm.startsWith_tcp w htcp, ?_, ?_, ⟨hopen, ?_, ?_, ?_,
    hinstance⟩, ?_⟩
  · intro l r
    exact f.trimChars_pad w l.isWhiteSpace r.isWhiteSpace
  · exact startsWithIgnoreCase_of_not_mem (c := '(') (by decide) hascii (by decide) (by decide)
      hopen
  · exact startsWithIgnoreCase_of_not_mem (c := '\\') (by decide) hascii (by decide)
      (by decide) hinstance
  · exact hnot _ (by decide) (by decide) (by decide)
  · exact hnot _ (by decide) (by decide) (by decide)
  · exact hnot _ (by decide) (by decide) (by decide)
  · refine ServerParts.apply_of_new ?_
    have happly := f.apply_destination w
    unfold ServerForm.destination at happly
    rwa [hport] at happly

theorem Host.isHostValue (h : Host) : IsHostValue h.chars h.address := by
  cases h with
  | name host => exact host.isHostValue
  | ipv6 host => exact ServerForm.isHostValue .none (f := .bare host none) not_false rfl
  | bracketed w host => exact ServerForm.isHostValue w (f := .bracketed host none) not_false rfl

/-- A host is the address, unless one has been found. -/
theorem IsHostValue.parseServerValue {value : List Char} {address : String}
    (h : IsHostValue value address)
    (parse : List Char → Destination → Except FormatException Destination) (d : Destination) :
    parseServerValue parse value d =
      .ok (if d.addressHasValue then d else d.setAddress address) := by
  obtain ⟨hopen, _, _, hslash, hinstance⟩ := h.not_mem
  have hdiscardable : trimDiscardable value = value := by
    unfold trimDiscardable
    rw [h.tcp, if_neg Bool.false_ne_true]
    exact trimDiscardableSuffix_eq hslash
  have hnested : hasNestedStructure value = false := by
    rw [Bool.eq_false_iff]
    intro hnested
    simp only [hasNestedStructure, Bool.and_eq_true, decide_eq_true_eq] at hnested
    exact hopen (List.mem_of_head? hnested.1.2)
  have htrim : trimChars value = value := by
    have := h.trim .none .none
    rwa [show Spaces.none.chars = [] from rfl, List.nil_append, List.append_nil] at this
  unfold DbConnectionStringParser.parseServerValue
  by_cases hfound : d.addressHasValue = true
  · rw [if_pos hfound, if_pos hfound]
  · rw [if_neg hfound, if_neg hfound]
    simp only [hdiscardable, h.localDb, h.userInstance, hnested,
      splitAtFirst_eq_none_iff.mpr hinstance, Bool.or_self, Bool.false_eq_true, if_false]
    rw [parseServerWithOptionalPort_eq, htrim, if_neg h.nonempty, h.parts]

/-! ### `ADDRESS` groups -/

/-- A text without delimiters. -/
structure FlatText where
  chars : List Char
  flat : ∀ c ∈ chars, c ∉ ['(', ')', ';']

/-- A known key and the white space around it. -/
structure KnownKey (name : String) where
  left : Spaces
  casing : Casing name
  right : Spaces

/-- A key that the parser does not know, and the white space around it. -/
structure OtherKey where
  chars : List Char
  plain : ∀ c ∈ chars, c ∉ ['=', '(', ')', ';'] ∧ toUpperInvariant c ≠ ')'
  unknown : propertySetter? (trimChars chars) = none

def KnownKey.chars {name : String} (key : KnownKey name) : List Char :=
  key.left.chars ++ key.casing.chars ++ key.right.chars

/-- A pair of an `ADDRESS` group. -/
inductive AddressPair where
  | host (key : KnownKey "Host") (l : Spaces) (value : Host) (r : Spaces)
  | port (key : KnownKey "Port") (value : FlatText)
  /-- Such as `PROTOCOL`. -/
  | other (key : OtherKey) (value : FlatText)

namespace AddressPair

def chars : AddressPair → List Char
  | host key l value r => key.chars ++ '=' :: (l.chars ++ value.chars ++ r.chars)
  | port key value => key.chars ++ '=' :: value.chars
  | other key value => key.chars ++ '=' :: value.chars

/-- The host of a `HOST` pair. -/
def address : AddressPair → Optional String
  | host _ _ value _ => .set (some value.address)
  | port _ _ => .unset
  | other _ _ => .unset

/-- The number of a `PORT` pair. -/
def portNumber : AddressPair → Optional Int32
  | host _ _ _ _ => .unset
  | port _ value => .set (tryParseInt (String.ofList (trimChars value.chars)))
  | other _ _ => .unset

/-- What the parser makes of the pair. -/
def read : AddressPair → Destination → Except FormatException Destination
  | host _ _ value _, d => .ok (if d.addressHasValue then d else d.setAddress value.address)
  | port _ value, d => parsePortValue (trimChars value.chars) d
  | other _ _, d => .ok d

end AddressPair

omit [InvariantCulture] in
theorem KnownKey.not_mem {name : String} {setter : PropertySetter}
    (hknown : (name, setter) ∈ keyToPropertySetter) (key : KnownKey name) {c : Char}
    (hletter : isLatinLetter c = false) (hwhite : isNumberWhite c = false) :
    c ∉ key.chars := by
  have hspace : c ≠ ' ' := by
    rintro rfl
    cases hwhite
  have := key.left.not_mem hwhite
  have := key.casing.separator_not_mem hknown hletter hspace
  have := key.right.not_mem hwhite
  simp [KnownKey.chars, *]

omit [InvariantCulture] in
theorem mem_trimChars {cs : List Char} {c : Char} (h : c ∈ trimChars cs) : c ∈ cs := by
  obtain ⟨l, r, hcs, _⟩ := exists_trimBy isWhiteSpace cs
  rw [hcs]
  simp [show c ∈ trimBy isWhiteSpace cs from h]

omit [InvariantCulture] in
theorem FlatText.not_nested (t : FlatText) : hasNestedStructure (trimChars t.chars) = false := by
  rw [Bool.eq_false_iff]
  intro hnested
  simp only [hasNestedStructure, Bool.and_eq_true, decide_eq_true_eq] at hnested
  exact t.flat _ (mem_trimChars (List.mem_of_head? hnested.1.2)) (by decide)

/-- The pair of an unknown key is skipped, unless its value is nested. -/
theorem parseKeyValue_unknown
    (parse : List Char → Destination → Except FormatException Destination) (key : OtherKey)
    (value : List Char) (d : Destination) :
    parseKeyValue parse (key.chars ++ '=' :: value) d =
      if hasNestedStructure (trimChars value) then parse (trimChars value) d else .ok d := by
  have hkey : '=' ∉ key.chars := fun hmem => (key.plain _ hmem).1 (by decide)
  have hnonblank : isNullOrWhiteSpaceChars (key.chars ++ '=' :: value) = false := by
    simp [isNullOrWhiteSpaceChars, isWhiteSpace]
  unfold parseKeyValue
  rw [hnonblank, if_neg Bool.false_ne_true, splitAtFirst_append hkey]
  simp only [key.unknown]

theorem AddressPair.parseKeyValue_eq
    (parse : List Char → Destination → Except FormatException Destination) (p : AddressPair)
    (d : Destination) : parseKeyValue parse p.chars d = p.read d := by
  cases p with
  | host key l value r =>
    have hvalue := value.isHostValue
    have hknown : ("Host", PropertySetter.parseServerValue) ∈ keyToPropertySetter := by decide
    rw [AddressPair.chars, KnownKey.chars, parseKeyValue_known parse hknown]
    simp only
    rw [hvalue.trim, hvalue.parseServerValue]
    rfl
  | port key value =>
    have hknown : ("Port", PropertySetter.parsePortValue) ∈ keyToPropertySetter := by decide
    rw [AddressPair.chars, KnownKey.chars, parseKeyValue_known parse hknown]
    rfl
  | other key value =>
    rw [AddressPair.chars, parseKeyValue_unknown, value.not_nested]
    rfl

theorem AddressPair.balanced (p : AddressPair) : Balanced p.chars := by
  have hflat (t : FlatText) : '(' ∉ t.chars ∧ ')' ∉ t.chars :=
    ⟨fun h => t.flat _ h (by decide), fun h => t.flat _ h (by decide)⟩
  cases p with
  | host key l value r =>
    obtain ⟨hopen, hclose, _⟩ := value.isHostValue.not_mem
    have hknown : ("Host", PropertySetter.parseServerValue) ∈ keyToPropertySetter := by decide
    have := key.not_mem hknown (c := '(') (by decide) (by decide)
    have := key.not_mem hknown (c := ')') (by decide) (by decide)
    have := l.not_mem (c := '(') (by decide)
    have := l.not_mem (c := ')') (by decide)
    have := r.not_mem (c := '(') (by decide)
    have := r.not_mem (c := ')') (by decide)
    exact balanced_of_not_mem (by simp [AddressPair.chars, *]) (by simp [AddressPair.chars, *])
  | port key value =>
    have hknown : ("Port", PropertySetter.parsePortValue) ∈ keyToPropertySetter := by decide
    have := key.not_mem hknown (c := '(') (by decide) (by decide)
    have := key.not_mem hknown (c := ')') (by decide) (by decide)
    have := hflat value
    exact balanced_of_not_mem (by simp [AddressPair.chars, *]) (by simp [AddressPair.chars, *])
  | other key value =>
    have hopen : '(' ∉ key.chars := fun h => (key.plain _ h).1 (by decide)
    have hclose : ')' ∉ key.chars := fun h => (key.plain _ h).1 (by decide)
    have := hflat value
    exact balanced_of_not_mem (by simp [AddressPair.chars, *]) (by simp [AddressPair.chars, *])

section

variable {α : Type}

/-- The first of several properties that is set. -/
def firstSet : List (Optional α) → Optional α
  | [] => .unset
  | o :: os => o.orElse (firstSet os)

/-- The last of several properties that is set. -/
def lastSet : List (Optional α) → Optional α
  | [] => .unset
  | o :: os => (lastSet os).orElse o

end

/-- The pairs of an `ADDRESS` group, each with the white space before it. -/
structure AddressGroup where
  pairs : List (Spaces × AddressPair)
  right : Spaces

namespace AddressGroup

def groups (g : AddressGroup) : List Group :=
  g.pairs.map fun (gap, p) => ⟨gap, p.chars, p.balanced⟩

def chars (g : AddressGroup) : List Char := groupsText g.groups ++ g.right.chars

/-- The `HOST` of the group, the first one if it has several. -/
def address (g : AddressGroup) : Optional String := firstSet (g.pairs.map (·.2.address))

/-- The `PORT` of the group, the last one if it has several. -/
def port (g : AddressGroup) : Optional Int32 := lastSet (g.pairs.map (·.2.portNumber))

/-- What the parser makes of the group. -/
def read (g : AddressGroup) (d : Destination) : Except FormatException Destination :=
  if d.addressHasValue then .ok d
  else if g.pairs = [] then .error ⟨⟩
  else g.pairs.foldlM (fun d p => p.2.read d) d

end AddressGroup

/-! ### Descriptors -/

mutual

/-- A pair in parentheses. -/
inductive Node where
  | address (key : KnownKey "Address") (group : AddressGroup)
  /-- Such as `DESCRIPTION` and `ADDRESS_LIST`. -/
  | nested (key : OtherKey) (children : Nodes) (right : Spaces)
  /-- Such as `(SERVER=DEDICATED)`. -/
  | server (name : String) (known : (name, PropertySetter.parseServerValue) ∈ keyToPropertySetter)
    (key : KnownKey name) (value : FlatText)
  | other (key : OtherKey) (value : FlatText)

/-- Pairs in parentheses, each with the white space before it. -/
inductive Nodes where
  | nil
  | cons (gap : Spaces) (node : Node) (rest : Nodes)

end

mutual

def Node.chars : Node → List Char
  | .address key group => key.chars ++ '=' :: group.chars
  | .nested key children right => key.chars ++ '=' :: (children.chars ++ right.chars)
  | .server _ _ key value => key.chars ++ '=' :: value.chars
  | .other key value => key.chars ++ '=' :: value.chars

def Nodes.chars : Nodes → List Char
  | .nil => []
  | .cons gap node rest => gap.chars ++ '(' :: (node.chars ++ ')' :: rest.chars)

end

/-- What the parser can take for a host or a port. -/
inductive Entry where
  | address (group : AddressGroup)
  | server (value : FlatText)

mutual

/-- The entries of a pair whose value may go `remaining` levels deeper. -/
def Node.entries : Node → Nat → List Entry
  | .address _ group, remaining =>
    if remaining = 0 ∧ group.pairs ≠ [] then [] else [.address group]
  | .nested _ _ _, 0 => []
  | .nested _ children _, remaining + 1 => children.entries remaining
  | .server _ _ _ value, _ => [.server value]
  | .other _ _, _ => []

def Nodes.entries : Nodes → Nat → List Entry
  | .nil, _ => []
  | .cons _ node rest, remaining => node.entries remaining ++ rest.entries remaining

end

mutual

/-- The entries of a pair, however deep they are nested. -/
def Node.allEntries : Node → List Entry
  | .address _ group => [.address group]
  | .nested _ children _ => children.allEntries
  | .server _ _ _ value => [.server value]
  | .other _ _ => []

def Nodes.allEntries : Nodes → List Entry
  | .nil => []
  | .cons _ node rest => node.allEntries ++ rest.allEntries

end

namespace Entry

/-- The `HOST` of an `ADDRESS` group. -/
def host : Entry → Optional String
  | address group => group.address
  | server _ => .unset

def hasHost (e : Entry) : Bool := e.host ≠ .unset

def port : Entry → Optional Int32
  | address group => group.port
  | server _ => .unset

/-- What the parser makes of the entry. -/
def read : Entry → Destination → Except FormatException Destination
  | address group, d => group.read d
  | server value, d => parseServerValue (fun _ d => .ok d) (trimChars value.chars) d

end Entry

/-- A server value that is nested. -/
structure Descriptor where
  nodes : Nodes
  nonempty : nodes ≠ .nil
  right : Spaces

namespace Descriptor

def chars (v : Descriptor) : List Char := v.nodes.chars ++ v.right.chars

/-- The entries that are nested at most `maxNestingDepth` deep. -/
def entries (v : Descriptor) : List Entry := v.nodes.entries (maxNestingDepth - 1)

/-- The entries before the first `ADDRESS` group with a `HOST`. -/
def beforeHost (v : Descriptor) : List Entry := v.entries.takeWhile (!·.hasHost)

end Descriptor

/-! ### Delimiters -/

omit [InvariantCulture] in
theorem FlatText.balanced (t : FlatText) : Balanced t.chars :=
  balanced_of_not_mem (fun h => t.flat _ h (by decide)) (fun h => t.flat _ h (by decide))

theorem OtherKey.balanced (key : OtherKey) : Balanced key.chars :=
  balanced_of_not_mem (fun h => (key.plain _ h).1 (by decide))
    (fun h => (key.plain _ h).1 (by decide))

omit [InvariantCulture] in
theorem Spaces.balanced (w : Spaces) : Balanced w.chars :=
  balanced_of_not_mem (w.not_mem (by decide)) (w.not_mem (by decide))

omit [InvariantCulture] in
theorem KnownKey.balanced {name : String} {setter : PropertySetter}
    (hknown : (name, setter) ∈ keyToPropertySetter) (key : KnownKey name) : Balanced key.chars :=
  balanced_of_not_mem (key.not_mem hknown (by decide) (by decide))
    (key.not_mem hknown (by decide) (by decide))

omit [InvariantCulture] in
/-- The separator of a pair is not a delimiter. -/
theorem Balanced.pair {key value : List Char} (hkey : Balanced key) (hvalue : Balanced value) :
    Balanced (key ++ '=' :: value) := by
  have hseparator : Balanced ['='] := balanced_of_not_mem (by decide) (by decide)
  exact hkey.append (hseparator.append hvalue)

mutual

theorem Node.balanced (n : Node) : Balanced n.chars := by
  match n with
  | .address key group =>
    have hknown : ("Address", PropertySetter.parseAddressKeyWithNestedStructureValue) ∈
        keyToPropertySetter := by decide
    exact (key.balanced hknown).pair
      ((balanced_groupsText group.groups).append group.right.balanced)
  | .nested key children right =>
    exact key.balanced.pair (children.balanced.append right.balanced)
  | .server _ known key value => exact (key.balanced known).pair value.balanced
  | .other key value => exact key.balanced.pair value.balanced

theorem Nodes.balanced (ns : Nodes) : Balanced ns.chars := by
  match ns with
  | .nil => exact balanced_of_not_mem List.not_mem_nil List.not_mem_nil
  | .cons gap node rest =>
    have hgroup := (gap.balanced.append node.balanced.parentheses).append rest.balanced
    rwa [List.append_assoc, List.cons_append, List.append_assoc] at hgroup

end

/-- The pairs as groups of a nested value. -/
def Nodes.groups : Nodes → List Group
  | .nil => []
  | .cons gap node rest => ⟨gap, node.chars, node.balanced⟩ :: rest.groups

theorem Nodes.chars_eq (ns : Nodes) : ns.chars = groupsText ns.groups := by
  match ns with
  | .nil => rfl
  | .cons gap node rest =>
    have hrest := rest.chars_eq
    rw [Nodes.chars, Nodes.groups, groupsText_cons, fromFirst, hrest]

/-! ### The walk over a descriptor -/

/-- A nested value, taken at a depth that is not too large. -/
theorem parseNestedStructure_fromFirst (remaining : Nat) (g : Group) (groups : List Group)
    (d : Destination) :
    parseNestedStructure (remaining + 1) (fromFirst g groups) d =
      ((g :: groups).map Group.inner).foldlM
        (fun d keyValue => parseKeyValue (parseNestedStructure remaining) keyValue d) d :=
  parseSubKeyValues_groups _ g groups d

theorem AddressGroup.foldlM_groups
    (parse : List Char → Destination → Except FormatException Destination) (g : AddressGroup)
    (d : Destination) :
    (g.groups.map Group.inner).foldlM (fun d keyValue => parseKeyValue parse keyValue d) d =
      g.pairs.foldlM (fun d p => p.2.read d) d := by
  have hinner : g.groups.map Group.inner = g.pairs.map (·.2.chars) := by
    simp [AddressGroup.groups]
  rw [hinner, List.foldlM_map]
  simp only [AddressPair.parseKeyValue_eq]

/-- The pairs of an `ADDRESS` group that is not nested too deep are taken one after the other. -/
theorem AddressGroup.parse_eq (g : AddressGroup) (remaining : Nat) (d : Destination) :
    parseAddressKeyWithNestedStructureValue (parseNestedStructure remaining)
        (trimChars g.chars) d =
      (if remaining = 0 ∧ g.pairs ≠ [] then [] else [Entry.address g]).foldlM
        (fun d e => e.read d) d := by
  have hread : [Entry.address g].foldlM (fun d e => e.read d) d = g.read d := bind_pure _
  unfold parseAddressKeyWithNestedStructureValue
  cases hpairs : g.pairs with
  | nil =>
    have hblank : hasNestedStructure (trimChars g.chars) = false := by
      have hchars : trimChars g.chars = [] := by
        unfold AddressGroup.chars AddressGroup.groups
        rw [hpairs]
        exact trimBy_eq_nil_iff.mpr g.right.isWhiteSpace
      rw [hchars]
      rfl
    have hvisible : ¬(remaining = 0 ∧ ([] : List (Spaces × AddressPair)) ≠ []) :=
      fun h => h.2 rfl
    rw [if_neg hvisible, hread, hblank, AddressGroup.read, if_pos hpairs]
    rfl
  | cons p pairs =>
    have hgroups : g.groups = ⟨p.1, p.2.chars, p.2.balanced⟩ ::
        (⟨pairs, g.right⟩ : AddressGroup).groups := by
      unfold AddressGroup.groups
      rw [hpairs]
      rfl
    have hne : g.pairs ≠ [] := by
      rw [hpairs]
      exact List.cons_ne_nil _ _
    have htrim : trimChars g.chars = fromFirst ⟨p.1, p.2.chars, p.2.balanced⟩
        (⟨pairs, g.right⟩ : AddressGroup).groups := by
      unfold AddressGroup.chars
      rw [hgroups, trimChars_groups]
    rw [htrim, hasNestedStructure_fromFirst]
    by_cases hfound : d.addressHasValue = true
    · rw [if_pos hfound]
      split
      · rfl
      · rw [hread, AddressGroup.read, if_pos hfound]
    · rw [if_neg hfound]
      cases remaining with
      | zero => rfl
      | succ remaining =>
        have hvisible : ¬(remaining + 1 = 0 ∧ p :: pairs ≠ []) :=
          fun h => Nat.succ_ne_zero _ h.1
        have hnested : ¬(!true) = true := Bool.false_ne_true
        rw [if_neg hnested, if_neg hvisible, hread, AddressGroup.read, if_neg hfound,
          if_neg hne, ← g.foldlM_groups (parseNestedStructure remaining), hgroups]
        exact parseNestedStructure_fromFirst remaining _ _ d

omit [InvariantCulture] in
theorem mem_trimDiscardableSuffix {value : List Char} {c : Char}
    (h : c ∈ trimDiscardableSuffix value) : c ∈ value := by
  unfold trimDiscardableSuffix at h
  rcases hsplit : splitAtLast '/' value with _ | ⟨before, suffix⟩
  · rwa [hsplit] at h
  · rw [hsplit] at h
    simp only at h
    split at h
    · exact h
    · split at h
      · exact h
      · rw [(splitAtLast_eq_some hsplit).1]
        exact List.mem_append_left _ h

/-- A flat server value is read in the same way at every depth. -/
theorem parseServerValue_flat
    (parse parse' : List Char → Destination → Except FormatException Destination)
    {value : List Char} (hopen : '(' ∉ value) (d : Destination) :
    parseServerValue parse value d = parseServerValue parse' value d := by
  have hnested : hasNestedStructure (trimDiscardable value) = false := by
    rw [Bool.eq_false_iff]
    intro hnested
    simp only [hasNestedStructure, Bool.and_eq_true, decide_eq_true_eq] at hnested
    have hmem := mem_trimDiscardableSuffix (List.mem_of_head? hnested.1.2)
    split at hmem
    · exact hopen (List.mem_of_mem_drop hmem)
    · exact hopen hmem
  unfold parseServerValue
  simp only [hnested, Bool.false_eq_true, if_false]

mutual

/-- The parser takes the entries of a pair. -/
theorem Node.parse_eq (n : Node) (remaining : Nat) (d : Destination) :
    parseKeyValue (parseNestedStructure remaining) n.chars d =
      (n.entries remaining).foldlM (fun d e => e.read d) d := by
  match n with
  | .address key group =>
    have hknown : ("Address", PropertySetter.parseAddressKeyWithNestedStructureValue) ∈
        keyToPropertySetter := by decide
    rw [Node.chars, KnownKey.chars, parseKeyValue_known _ hknown, Node.entries]
    exact group.parse_eq remaining d
  | .nested key .nil right =>
    have hblank : trimChars ([] ++ right.chars) = [] := trimBy_eq_nil_iff.mpr right.isWhiteSpace
    rw [Node.chars, Nodes.chars, parseKeyValue_unknown, hblank]
    cases remaining <;> rfl
  | .nested key (.cons gap node rest) right =>
    have htrim : trimChars ((Nodes.cons gap node rest).chars ++ right.chars) =
        fromFirst ⟨gap, node.chars, node.balanced⟩ rest.groups := by
      rw [Nodes.chars_eq, Nodes.groups, trimChars_groups]
    rw [Node.chars, parseKeyValue_unknown, htrim, hasNestedStructure_fromFirst, if_pos rfl]
    cases remaining with
    | zero => rfl
    | succ remaining =>
      rw [parseNestedStructure_fromFirst, Node.entries]
      exact (Nodes.cons gap node rest).parse_eq remaining d
  | .server _ known key value =>
    have hopen : '(' ∉ trimChars value.chars :=
      fun h => value.flat _ (mem_trimChars h) (by decide)
    rw [Node.chars, KnownKey.chars, parseKeyValue_known _ known, Node.entries]
    simp only
    rw [parseServerValue_flat _ (fun _ d => .ok d) hopen]
    exact (bind_pure _).symm
  | .other key value =>
    rw [Node.chars, parseKeyValue_unknown, value.not_nested]
    rfl

theorem Nodes.parse_eq (ns : Nodes) (remaining : Nat) (d : Destination) :
    (ns.groups.map Group.inner).foldlM
        (fun d keyValue => parseKeyValue (parseNestedStructure remaining) keyValue d) d =
      (ns.entries remaining).foldlM (fun d e => e.read d) d := by
  match ns with
  | .nil => rfl
  | .cons gap node rest =>
    rw [Nodes.groups, List.map_cons, List.foldlM_cons, node.parse_eq, Nodes.entries,
      List.foldlM_append]
    exact bind_congr fun d => rest.parse_eq remaining d

end

/-! ### The whole value -/

omit [InvariantCulture] in
/-- A value that ends with neither a letter nor a slash has no suffix to discard. -/
theorem trimDiscardableSuffix_of_last {value : List Char} {c : Char}
    (hlast : value.getLast? = some c) (hletter : isLatinLetter c = false) (hslash : c ≠ '/') :
    trimDiscardableSuffix value = value := by
  unfold trimDiscardableSuffix
  rcases hsplit : splitAtLast '/' value with _ | ⟨before, suffix⟩
  · rfl
  · have hcut := (splitAtLast_eq_some hsplit).1
    have hmem : c ∈ suffix := by
      rw [hcut, List.getLast?_append, List.getLast?_cons, Option.some_or,
        Option.some.injEq] at hlast
      rcases hsuffix : suffix.getLast? with _ | x
      · rw [hsuffix] at hlast
        exact absurd hlast.symm hslash
      · rw [hsuffix] at hlast
        exact List.mem_of_getLast? (hsuffix.trans (congrArg some hlast))
    have hany : suffix.any (!isLatinLetter ·) = true :=
      List.any_eq_true.mpr ⟨c, hmem, by rw [hletter]; rfl⟩
    simp only [hany, if_true]

theorem toUpperInvariant_close : toUpperInvariant ')' = ')' :=
  InvariantCulture.toUpperInvariant_ascii ')' (by decide)

theorem KnownKey.toUpper_ne {name : String} {setter : PropertySetter}
    (hknown : (name, setter) ∈ keyToPropertySetter) (key : KnownKey name) :
    ∀ c ∈ key.chars, toUpperInvariant c ≠ ')' := by
  intro c hc
  have hne : c ≠ ')' :=
    ne_of_mem_of_not_mem hc (key.not_mem hknown (by decide) (by decide))
  have hascii : c.val < 128 := by
    simp only [KnownKey.chars, List.mem_append] at hc
    obtain (hl | hcasing) | hr := hc
    · exact key.left.ascii c hl
    · exact key.casing.ascii hknown hcasing
    · exact key.right.ascii c hr
  have := toUpperInvariant_ne (s := ')') (by decide) hascii (by decide) hne
  rwa [toUpperInvariant_close] at this

/-- A pair begins with a key that has no closing delimiter. -/
theorem Node.exists_key (n : Node) :
    ∃ key value, n.chars = key ++ '=' :: value ∧ ∀ c ∈ key, toUpperInvariant c ≠ ')' := by
  cases n with
  | address key group =>
    have hknown : ("Address", PropertySetter.parseAddressKeyWithNestedStructureValue) ∈
        keyToPropertySetter := by decide
    exact ⟨_, _, by rw [Node.chars], key.toUpper_ne hknown⟩
  | nested key children right =>
    exact ⟨_, _, by rw [Node.chars], fun c hc => (key.plain c hc).2⟩
  | server name known key value => exact ⟨_, _, by rw [Node.chars], key.toUpper_ne known⟩
  | other key value => exact ⟨_, _, by rw [Node.chars], fun c hc => (key.plain c hc).2⟩

omit [InvariantCulture] in
theorem localDb_separator :
    ∀ c ∈ "(LocalDB)".toList, c.val < 128 ∧ c ≠ '=' := by decide

/-- A descriptor is not taken for an instance of `LocalDB`. -/
theorem startsWith_localDb (gap : Spaces) (n : Node) (groups : List Group) :
    startsWithIgnoreCase "(LocalDB)".toList (fromFirst ⟨gap, n.chars, n.balanced⟩ groups) =
      false := by
  obtain ⟨key, value, hchars, hkey⟩ := n.exists_key
  have hfirst : fromFirst ⟨gap, n.chars, n.balanced⟩ groups =
      ('(' :: key) ++ '=' :: (value ++ ')' :: groupsText groups) := by
    simp [fromFirst, hchars]
  rw [hfirst]
  refine startsWithIgnoreCase_cut (c := ')') (by decide) ?_ ?_ _
  · intro c hc
    rw [toUpperInvariant_close]
    obtain rfl | hc := List.mem_cons.mp hc
    · rw [InvariantCulture.toUpperInvariant_ascii _ (by decide)]
      decide
    · exact hkey c hc
  · intro c hc
    obtain ⟨hascii, hne⟩ := localDb_separator c hc
    exact toUpperInvariant_ne (by decide) hascii (by decide) hne

/-- The parser takes the entries of a descriptor one after the other. -/
theorem parseServerValue_descriptor (v : Descriptor) :
    parseServerValue (parseNestedStructure maxNestingDepth) (trimChars v.chars) .new =
      v.entries.foldlM (fun d e => e.read d) .new := by
  obtain ⟨nodes, hne, right⟩ := v
  cases nodes with
  | nil => exact absurd rfl hne
  | cons gap node rest =>
    have htrim : trimChars (⟨.cons gap node rest, hne, right⟩ : Descriptor).chars =
        fromFirst ⟨gap, node.chars, node.balanced⟩ rest.groups := by
      rw [Descriptor.chars, Nodes.chars_eq, Nodes.groups, trimChars_groups]
    have hwalk := (Nodes.cons gap node rest).parse_eq (maxNestingDepth - 1) .new
    rw [Nodes.groups, ← parseNestedStructure_fromFirst] at hwalk
    rw [htrim]
    generalize hvalue : fromFirst ⟨gap, node.chars, node.balanced⟩ rest.groups = value at *
    have hopen : ∃ cs, value = '(' :: cs := ⟨_, hvalue.symm⟩
    have hlast : value.getLast? = some ')' := hvalue ▸ getLast?_fromFirst _ _
    have hlocalDb : startsWithIgnoreCase "(LocalDB)".toList value = false :=
      hvalue ▸ startsWith_localDb gap node rest.groups
    have hnested : hasNestedStructure value = true := hvalue ▸ hasNestedStructure_fromFirst _ _
    obtain ⟨cs, rfl⟩ := hopen
    have htcp : startsWithIgnoreCase "tcp:".toList ('(' :: cs) = false :=
      startsWithIgnoreCase_cons_ne (by decide) (by decide) (by decide) _ _
    have huserInstance : startsWithIgnoreCase ".\\".toList ('(' :: cs) = false :=
      startsWithIgnoreCase_cons_ne (by decide) (by decide) (by decide) _ _
    have hdiscardable : trimDiscardable ('(' :: cs) = '(' :: cs := by
      unfold trimDiscardable
      rw [htcp, if_neg Bool.false_ne_true]
      exact trimDiscardableSuffix_of_last hlast (by decide) (by decide)
    unfold parseServerValue
    simp only [hdiscardable, hlocalDb, huserInstance, hnested, Bool.or_self, if_true]
    exact hwalk

end DbConnectionStringParser

end ApmAgent
