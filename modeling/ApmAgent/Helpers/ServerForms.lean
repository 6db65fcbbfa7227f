import ApmAgent.Helpers.ConnectionPairs

/-! # Notations of a server

  The ways to write the host and the port of a server: a name with or without
  a port, an IPv6 address with or without brackets and a port, and the SQL
  Server notation with an instance.

  - `extractDestination_form`: the host and the port come back from every one
    of the documented notations.
  - `extractDestination_instance_iff`: with an instance they come back exactly
    when there is no port.
-/

namespace ApmAgent

namespace DbConnectionStringParser

attribute [local instance] decidableForallMem

/-! ### Hosts and ports -/

/-- A character of a host name. -/
def isNameChar (c : Char) : Bool := isLatinLetter c || c.isDigit || c = '.' || c = '-'

/-- A host name or an IPv4 address. -/
structure HostName where
  chars : List Char
  nonempty : chars ≠ []
  valid : ∀ c ∈ chars, isNameChar c = true

/-- An IPv6 address without brackets. -/
structure IPv6 where
  chars : List Char
  valid : ∀ c ∈ chars, isHex c || c = ':'
  colons : 2 ≤ chars.count ':'

structure Port where
  number : Nat
  lt : number < 2 ^ 31

namespace Port

/-- The decimal notation. -/
def chars (p : Port) : List Char := Nat.toDigits 10 p.number

def value (p : Port) : Int32 := Int32.ofInt p.number

theorem toInt_value (p : Port) : p.value.toInt = p.number := by
  have hlt := p.lt
  have hnonneg : (0 : Int) ≤ p.number := Int.natCast_nonneg _
  exact Int32.toInt_ofInt_of_le (by omega) (by omega)

theorem value_nonneg (p : Port) : 0 ≤ p.value := by
  rw [Int32.le_iff_toInt_le, p.toInt_value]
  exact Int.natCast_nonneg _

end Port

theorem HostName.not_mem (h : HostName) {c : Char} (hc : isNameChar c = false) : c ∉ h.chars := by
  intro hmem
  rw [h.valid c hmem] at hc
  cases hc

theorem IPv6.not_mem (a : IPv6) {c : Char} (hc : (isHex c || c = ':') = false) :
    c ∉ a.chars := by
  intro hmem
  rw [a.valid c hmem] at hc
  cases hc

theorem IPv6.nonempty (a : IPv6) : a.chars ≠ [] := by
  intro hnil
  have := a.colons
  simp [hnil] at this

theorem Port.isDigit (p : Port) : ∀ c ∈ p.chars, c.isDigit = true :=
  isDigit_of_mem_toDigits p.number

theorem Port.not_mem (p : Port) {c : Char} (hc : c.isDigit = false) : c ∉ p.chars := by
  intro hmem
  rw [p.isDigit c hmem] at hc
  cases hc

theorem Port.nonempty (p : Port) : p.chars ≠ [] := Nat.toDigits_ne_nil

/-! ### The documented notations -/

/-- What stands between the host and the port. -/
inductive Separator where
  | colon
  | comma
  deriving DecidableEq, Repr

def Separator.char : Separator → Char
  | .colon => ':'
  | .comma => ','

/-- White space inside a notation. -/
structure FormSpaces where
  insideOpening : Spaces
  insideClosing : Spaces
  beforeSeparator : Spaces
  afterSeparator : Spaces

def FormSpaces.none : FormSpaces := ⟨.none, .none, .none, .none⟩

/-- A notation of a server. -/
inductive ServerForm where
  /-- `host`, `host:port` and `host,port`. -/
  | name (host : HostName) (port : Option (Separator × Port))
  /-- `[ipv6]`, `[ipv6]:port` and `[ipv6],port`. -/
  | bracketed (host : IPv6) (port : Option (Separator × Port))
  /-- `ipv6` and `ipv6,port`. -/
  | bare (host : IPv6) (port : Option Port)

namespace ServerForm

def portChars (w : FormSpaces) : Option (Separator × Port) → List Char
  | none => []
  | some (separator, port) =>
    w.beforeSeparator.chars ++ separator.char :: (w.afterSeparator.chars ++ port.chars)

def bracketedChars (w : FormSpaces) (host : IPv6) : List Char :=
  '[' :: (w.insideOpening.chars ++ host.chars ++ w.insideClosing.chars ++ [']'])

def chars (w : FormSpaces) : ServerForm → List Char
  | name host port => host.chars ++ portChars w port
  | bracketed host port => bracketedChars w host ++ portChars w port
  | bare host port => host.chars ++ portChars w (port.map fun p => (.comma, p))

/-- The host, without brackets. -/
def address : ServerForm → List Char
  | name host _ => host.chars
  | bracketed host _ => host.chars
  | bare host _ => host.chars

def port : ServerForm → Option Port
  | name _ port => port.map (·.2)
  | bracketed _ port => port.map (·.2)
  | bare _ port => port

/-- The destination that has the address and the port of a notation. -/
def destination (f : ServerForm) : Destination :=
  match f.port with
  | none => Destination.new.setAddress (String.ofList f.address)
  | some p => (Destination.new.setAddress (String.ofList f.address)).setPort (some p.value)

/-- The name is that of the protocol. -/
def IsTcp : ServerForm → Prop
  | name host _ => host.chars.map Char.toUpper = "TCP".toList
  | _ => False

end ServerForm

/-- A prefix `tcp:` and the white space behind it. -/
structure TcpPrefix where
  casing : Casing "tcp:"
  spaces : Spaces

def TcpPrefix.chars (t : TcpPrefix) : List Char := t.casing.chars ++ t.spaces.chars

/-- A server value in one of the notations. -/
structure ServerValue where
  left : Spaces
  tcp : Option TcpPrefix
  spaces : FormSpaces
  form : ServerForm
  right : Spaces

def ServerValue.chars (v : ServerValue) : List Char :=
  v.left.chars ++ ((v.tcp.map TcpPrefix.chars).getD [] ++ v.form.chars v.spaces) ++ v.right.chars

/-! ### Reading the parts -/

/-- A port number with white space before it is read as the port. -/
theorem parsePortValue_decimal (w : Spaces) (p : Port) (d : Destination) :
    parsePortValue (w.chars ++ p.chars) d = .ok (d.setPort (some p.value)) := by
  have hparse : tryParseInt (String.ofList (w.chars ++ p.chars)) = some p.value := by
    have := tryParseInt_decimal (r := []) w.white p.lt (List.forall_mem_nil _)
    rwa [List.append_nil] at this
  have hblank : isNullOrWhiteSpaceChars (w.chars ++ p.chars) = false := by
    obtain ⟨c, cs, hcs⟩ := List.exists_cons_of_ne_nil p.nonempty
    have hdigit := isDigit_iff.mp (p.isDigit c (by simp [hcs]))
    have hc : isWhiteSpace c = false := by
      unfold isWhiteSpace
      simp only [Bool.or_eq_false_iff, Bool.and_eq_false_iff, decide_eq_false_iff_not]
      omega
    simp [isNullOrWhiteSpaceChars, hcs, hc]
  unfold parsePortValue
  rw [hblank, if_neg Bool.false_ne_true, hparse]
  have hnonneg := p.value_nonneg
  simp [Int32.not_lt.mpr hnonneg]

/-- The characters of a host: those of a name, and the colons of an IPv6 address. -/
def isHostChar (c : Char) : Bool := isNameChar c || c = ':'

theorem isHostChar_of_isHex {c : Char} (h : isHex c = true) : isHostChar c = true := by
  simp only [isHex, Bool.or_eq_true, Bool.and_eq_true, decide_eq_true_eq, Char.le_def,
    UInt32.le_iff_toNat_le] at h
  have hval : c.val.toNat = c.toNat := rfl
  have hnumber : isLatinLetter c = true ∨ c.isDigit = true := by
    rw [isLatinLetter_iff, isDigit_iff]
    simp at h
    omega
  obtain hletter | hdigit := hnumber
  · simp [isHostChar, isNameChar, hletter]
  · simp [isHostChar, isNameChar, hdigit]

theorem isWhiteSpace_of_isHostChar {c : Char} (h : isHostChar c = true) :
    isWhiteSpace c = false := by
  simp only [isHostChar, isNameChar, Bool.or_eq_true, decide_eq_true_eq] at h
  obtain (((hletter | hdigit) | rfl) | rfl) | rfl := h
  · have := isLatinLetter_iff.mp hletter
    unfold isWhiteSpace
    simp only [Bool.or_eq_false_iff, Bool.and_eq_false_iff, decide_eq_false_iff_not]
    omega
  · have := isDigit_iff.mp hdigit
    unfold isWhiteSpace
    simp only [Bool.or_eq_false_iff, Bool.and_eq_false_iff, decide_eq_false_iff_not]
    omega
  · decide
  · decide
  · decide

theorem toNat_lt_of_isHostChar {c : Char} (h : isHostChar c = true) : c.toNat < 128 := by
  simp only [isHostChar, isNameChar, Bool.or_eq_true, decide_eq_true_eq] at h
  obtain (((hletter | hdigit) | rfl) | rfl) | rfl := h
  · have := isLatinLetter_iff.mp hletter
    omega
  · have := isDigit_iff.mp hdigit
    omega
  · decide
  · decide
  · decide

/-- The text of a host: not empty, and only characters of hosts. -/
structure IsHostText (cs : List Char) : Prop where
  nonempty : cs ≠ []
  valid : ∀ c ∈ cs, isHostChar c = true

theorem HostName.isHostText (h : HostName) : IsHostText h.chars where
  nonempty := h.nonempty
  valid c hc := by simp [isHostChar, h.valid c hc]

theorem IPv6.isHostText (a : IPv6) : IsHostText a.chars where
  nonempty := a.nonempty
  valid c hc := by
    have := a.valid c hc
    simp only [Bool.or_eq_true, decide_eq_true_eq] at this
    obtain hhex | rfl := this
    · exact isHostChar_of_isHex hhex
    · rfl

namespace IsHostText

variable {cs : List Char}

theorem head?_white (h : IsHostText cs) : ∀ c ∈ cs.head?, isWhiteSpace c = false :=
  fun c hc => isWhiteSpace_of_isHostChar (h.valid c (List.mem_of_head? hc))

theorem getLast?_white (h : IsHostText cs) : ∀ c ∈ cs.getLast?, isWhiteSpace c = false :=
  fun c hc => isWhiteSpace_of_isHostChar (h.valid c (List.mem_of_getLast? hc))

/-- White space around a host is trimmed. -/
theorem trimChars_pad (h : IsHostText cs) (l r : Spaces) :
    trimChars (l.chars ++ cs ++ r.chars) = cs := by
  unfold trimChars
  rw [trimBy_pad l.isWhiteSpace _ r.isWhiteSpace]
  exact trimBy_of_ends h.head?_white h.getLast?_white

theorem not_mem (h : IsHostText cs) {c : Char} (hc : isHostChar c = false) : c ∉ cs := by
  intro hmem
  rw [h.valid c hmem] at hc
  cases hc

/-- A host that is not in brackets is its own address. -/
theorem parseAddress_pad (h : IsHostText cs) (r : Spaces) :
    parseAddress (cs ++ r.chars) = .ok (String.ofList cs) := by
  have htrim : trimChars (cs ++ r.chars) = cs := h.trimChars_pad .none r
  have htrim' : trimChars cs = cs := trimBy_of_ends h.head?_white h.getLast?_white
  have hhead : cs.head? ≠ some '[' :=
    fun hc => h.not_mem (by decide) (List.mem_of_head? hc)
  have hlast : cs.getLast? ≠ some ']' :=
    fun hc => h.not_mem (by decide) (List.mem_of_getLast? hc)
  unfold parseAddress
  simp only [htrim, if_neg h.nonempty, if_neg hhead, if_neg hlast, List.take_length,
    List.drop_zero, htrim']

/-- The brackets around a host are not part of its address. -/
theorem parseAddress_brackets (h : IsHostText cs) (l r after : Spaces) :
    parseAddress ('[' :: (l.chars ++ cs ++ r.chars ++ [']']) ++ after.chars) =
      .ok (String.ofList cs) := by
  generalize hinner : l.chars ++ cs ++ r.chars = inner
  have htrim : trimChars ('[' :: (inner ++ [']']) ++ after.chars) = '[' :: (inner ++ [']']) := by
    have hpad := trimBy_pad (p := isWhiteSpace) (l := []) (List.forall_mem_nil _)
      ('[' :: (inner ++ [']'])) after.isWhiteSpace
    unfold trimChars
    rw [← List.nil_append ('[' :: (inner ++ [']'])), hpad]
    refine trimBy_of_ends ?_ ?_
    · rintro c ⟨rfl⟩
      decide
    · intro c hc
      rw [← List.cons_append, List.getLast?_concat] at hc
      cases hc
      decide
  have hlast : ('[' :: (inner ++ [']'])).getLast? = some ']' := by
    rw [← List.cons_append, List.getLast?_concat]
  have hcut : (('[' :: (inner ++ [']'])).take (('[' :: (inner ++ [']'])).length - 1)).drop 1 =
      inner := by
    simp
  have hhost : trimChars inner = cs := by
    rw [← hinner]
    exact h.trimChars_pad l r
  unfold parseAddress
  simp only [htrim, hlast, List.head?_cons, if_true, hcut, hhost]
  rfl

end IsHostText

/-! ### The parts of a notation -/

/-- With two or more colons and no comma the brackets decide. -/
theorem serverParts_colons {v : List Char} (hcomma : ',' ∉ v) (hcolons : 2 ≤ v.count ':') :
    serverParts v =
      if v.head? ≠ some '[' then .whole v
      else if v.getLast? = some ']' then .bracketed v
      else
        match splitAtLast ':' v with
        | some (beforeLast, afterLast) => .withPort beforeLast afterLast
        | none => .whole v := by
  unfold serverParts
  rw [splitAtFirst_eq_none_iff.mpr hcomma]
  rcases hfirst : splitAtFirst ':' v with _ | ⟨beforeFirst, afterFirst⟩
  · rw [splitAtFirst_eq_none_iff, ← List.count_pos_iff] at hfirst
    omega
  · rcases hlast : splitAtLast ':' v with _ | ⟨beforeLast, afterLast⟩
    · rw [splitAtLast_eq_none_iff, ← List.count_pos_iff] at hlast
      omega
    · obtain ⟨hv, hnot⟩ := splitAtFirst_eq_some_iff.mp hfirst
      obtain ⟨hv', hnot'⟩ := splitAtLast_eq_some hlast
      have hne : beforeFirst ≠ beforeLast := by
        -- Cut at the same place, the value has one colon only.
        rintro rfl
        have hafter : afterFirst = afterLast := by
          have := List.append_cancel_left (hv.symm.trans hv')
          exact (List.cons.inj this).2
        rw [← hafter] at hnot'
        rw [hv, List.count_append, List.count_cons_self, List.count_eq_zero_of_not_mem hnot,
          List.count_eq_zero_of_not_mem hnot'] at hcolons
        omega
      simp only [if_neg hne]

/-- One colon and no comma. -/
theorem serverParts_colon {a b : List Char} (hcomma : ',' ∉ a ++ ':' :: b) (ha : ':' ∉ a)
    (hb : ':' ∉ b) : serverParts (a ++ ':' :: b) = .withPort a b := by
  unfold serverParts
  rw [splitAtFirst_eq_none_iff.mpr hcomma, splitAtFirst_append ha, splitAtLast_append hb]
  simp

theorem serverParts_comma {a : List Char} (ha : ',' ∉ a) (b : List Char) :
    serverParts (a ++ ',' :: b) = .withPort a b := by
  unfold serverParts
  rw [splitAtFirst_append ha]

theorem serverParts_whole {v : List Char} (hcomma : ',' ∉ v) (hcolon : ':' ∉ v) :
    serverParts v = .whole v := by
  unfold serverParts
  rw [splitAtFirst_eq_none_iff.mpr hcomma, splitAtFirst_eq_none_iff.mpr hcolon]

theorem parseAddressAndPort_decimal {a : List Char} {address : String}
    (ha : parseAddress a = .ok address) (w : Spaces) (p : Port) (d : Destination) :
    parseAddressAndPort a (w.chars ++ p.chars) d =
      .ok ((d.setAddress address).setPort (some p.value)) := by
  unfold parseAddressAndPort
  rw [ha]
  exact parsePortValue_decimal w p _

/-- White space would be among the letters in upper case. -/
theorem Spaces.eq_nil_of_tcp (w : Spaces) {name : List Char}
    (hupper : (name ++ w.chars).map Char.toUpper = "TCP".toList) : w.chars = [] := by
  rw [List.eq_nil_iff_forall_not_mem]
  intro c hc
  have hwhite := w.white c hc
  have hletter : isLatinLetter c = false := by
    simp only [isNumberWhite, Bool.or_eq_true, Bool.and_eq_true, decide_eq_true_eq] at hwhite
    rw [← Bool.not_eq_true, isLatinLetter_iff]
    omega
  have hmem : c ∈ "TCP".toList := by
    rw [← hupper, ← toUpper_of_not_letter hletter]
    exact List.mem_map_of_mem (List.mem_append_right _ hc)
  have hnone : ∀ d ∈ "TCP".toList, isNumberWhite d = false := by decide
  rw [hnone c hmem] at hwhite
  cases hwhite

namespace ServerForm

theorem apply_name (w : FormSpaces) (h : HostName) (port : Option (Separator × Port)) :
    (serverParts ((name h port).chars w)).apply .new = .ok (name h port).destination := by
  have hcomma : ',' ∉ h.chars := h.not_mem (by decide)
  have hcolon : ':' ∉ h.chars := h.not_mem (by decide)
  have hbefore (c : Char) (hc : isNumberWhite c = false) : c ∉ w.beforeSeparator.chars :=
    w.beforeSeparator.not_mem hc
  rcases port with _ | ⟨separator, p⟩
  · have hchars : (name h none).chars w = h.chars := List.append_nil _
    rw [hchars, serverParts_whole hcomma hcolon]
    rfl
  · have hchars : (name h (some (separator, p))).chars w =
        (h.chars ++ w.beforeSeparator.chars) ++
          separator.char :: (w.afterSeparator.chars ++ p.chars) :=
      (List.append_assoc _ _ _).symm
    have haddress := h.isHostText.parseAddress_pad w.beforeSeparator
    have hparts : serverParts ((name h (some (separator, p))).chars w) =
        .withPort (h.chars ++ w.beforeSeparator.chars) (w.afterSeparator.chars ++ p.chars) := by
      rw [hchars]
      cases separator with
      | colon =>
        have := hbefore ',' (by decide)
        have := hbefore ':' (by decide)
        have := w.afterSeparator.not_mem (c := ',') (by decide)
        have := w.afterSeparator.not_mem (c := ':') (by decide)
        have := p.not_mem (c := ',') (by decide)
        have := p.not_mem (c := ':') (by decide)
        exact serverParts_colon (by simp [*]) (by simp [*]) (by simp [*])
      | comma =>
        have := hbefore ',' (by decide)
        exact serverParts_comma (by simp [*]) _
    rw [hparts]
    exact parseAddressAndPort_decimal haddress w.afterSeparator p .new

theorem apply_bare (w : FormSpaces) (a : IPv6) (port : Option Port) :
    (serverParts ((bare a port).chars w)).apply .new = .ok (bare a port).destination := by
  have hcomma : ',' ∉ a.chars := a.not_mem (by decide)
  rcases port with _ | p
  · have hchars : (bare a none).chars w = a.chars := List.append_nil _
    have hhead : a.chars.head? ≠ some '[' :=
      fun hc => a.not_mem (by decide) (List.mem_of_head? hc)
    rw [hchars, serverParts_colons hcomma a.colons, if_pos hhead]
    rfl
  · have hchars : (bare a (some p)).chars w =
        (a.chars ++ w.beforeSeparator.chars) ++
          ',' :: (w.afterSeparator.chars ++ p.chars) :=
      (List.append_assoc _ _ _).symm
    have := w.beforeSeparator.not_mem (c := ',') (by decide)
    rw [hchars, serverParts_comma (by simp [*])]
    exact parseAddressAndPort_decimal (a.isHostText.parseAddress_pad w.beforeSeparator)
      w.afterSeparator p .new

theorem bracketedChars_not_mem (w : FormSpaces) (a : IPv6) {c : Char}
    (hwhite : isNumberWhite c = false) (hc : (isHex c || c = ':') = false) (hopen : c ≠ '[')
    (hclose : c ≠ ']') : c ∉ bracketedChars w a := by
  have := w.insideOpening.not_mem hwhite
  have := w.insideClosing.not_mem hwhite
  have := a.not_mem hc
  simp [bracketedChars, *]

theorem two_le_count_bracketedChars (w : FormSpaces) (a : IPv6) :
    2 ≤ (bracketedChars w a).count ':' := by
  have := a.colons
  simp only [bracketedChars, List.count_cons, List.count_append]
  omega

/-- With a port the text does not end with the bracket, whichever the separator. -/
theorem serverParts_bracketed (w : FormSpaces) (a : IPv6) (separator : Separator) (p : Port) :
    serverParts ((bracketed a (some (separator, p))).chars w) =
      .withPort (bracketedChars w a ++ w.beforeSeparator.chars)
        (w.afterSeparator.chars ++ p.chars) := by
  have hchars : (bracketed a (some (separator, p))).chars w =
      (bracketedChars w a ++ w.beforeSeparator.chars) ++
        separator.char :: (w.afterSeparator.chars ++ p.chars) :=
    (List.append_assoc _ _ _).symm
  have hcomma : ',' ∉ bracketedChars w a :=
    bracketedChars_not_mem w a (by decide) (by decide) (by decide) (by decide)
  have := w.beforeSeparator.not_mem (c := ',') (by decide)
  rw [hchars]
  cases separator with
  | comma => exact serverParts_comma (by simp [*]) _
  | colon =>
    have := w.afterSeparator.not_mem (c := ',') (by decide)
    have := p.not_mem (c := ',') (by decide)
    have hafter : ':' ∉ w.afterSeparator.chars ++ p.chars := by
      have := w.afterSeparator.not_mem (c := ':') (by decide)
      have := p.not_mem (c := ':') (by decide)
      simp [*]
    have hcount : 2 ≤ (bracketedChars w a ++ w.beforeSeparator.chars ++
        Separator.colon.char :: (w.afterSeparator.chars ++ p.chars)).count ':' := by
      have := two_le_count_bracketedChars w a
      rw [List.append_assoc, List.count_append]
      omega
    have hhead : (bracketedChars w a ++ w.beforeSeparator.chars ++
        Separator.colon.char :: (w.afterSeparator.chars ++ p.chars)).head? = some '[' := rfl
    -- The last character is a digit of the port.
    have hlast : (bracketedChars w a ++ w.beforeSeparator.chars ++
        Separator.colon.char :: (w.afterSeparator.chars ++ p.chars)).getLast? ≠ some ']' := by
      intro hbracket
      rw [← List.cons_append, ← List.append_assoc, List.getLast?_append,
        List.getLast?_eq_some_getLast p.nonempty, Option.some_or, Option.some.injEq]
        at hbracket
      exact p.not_mem (by decide) (hbracket ▸ List.getLast_mem p.nonempty)
    rw [serverParts_colons (by simp [Separator.char, *]) hcount,
      if_neg (not_not_intro hhead), if_neg hlast]
    show (match splitAtLast ':' (bracketedChars w a ++ w.beforeSeparator.chars ++
        ':' :: (w.afterSeparator.chars ++ p.chars)) with
      | some (beforeLast, afterLast) => ServerParts.withPort beforeLast afterLast
      | none => .whole _) = _
    rw [splitAtLast_append hafter]

theorem apply_bracketed (w : FormSpaces) (a : IPv6) (port : Option (Separator × Port)) :
    (serverParts ((bracketed a port).chars w)).apply .new =
      .ok (bracketed a port).destination := by
  have haddress (after : Spaces) : parseAddress (bracketedChars w a ++ after.chars) =
      .ok (String.ofList a.chars) :=
    a.isHostText.parseAddress_brackets w.insideOpening w.insideClosing after
  rcases port with _ | ⟨separator, p⟩
  · have hchars : (bracketed a none).chars w = bracketedChars w a := List.append_nil _
    have hcomma : ',' ∉ bracketedChars w a :=
      bracketedChars_not_mem w a (by decide) (by decide) (by decide) (by decide)
    have hlast : (bracketedChars w a).getLast? = some ']' := by
      unfold bracketedChars
      rw [← List.cons_append, List.getLast?_concat]
    have haddress' : parseAddress (bracketedChars w a) = .ok (String.ofList a.chars) := by
      rw [← haddress .none]
      exact congrArg parseAddress (List.append_nil _).symm
    rw [hchars, serverParts_colons hcomma (two_le_count_bracketedChars w a),
      if_neg (by simp [bracketedChars]), if_pos hlast]
    show (do let parsed ← parseAddress (bracketedChars w a)
             return Destination.new.setAddress parsed) = _
    rw [haddress']
    rfl
  · rw [serverParts_bracketed]
    exact parseAddressAndPort_decimal (haddress w.beforeSeparator) w.afterSeparator p .new

theorem apply_destination (w : FormSpaces) (f : ServerForm) :
    (serverParts (f.chars w)).apply .new = .ok f.destination := by
  cases f with
  | name h port => exact apply_name w h port
  | bracketed a port => exact apply_bracketed w a port
  | bare a port => exact apply_bare w a port

/-! ### The text of a notation -/

theorem portChars_cases (w : FormSpaces) (port : Option (Separator × Port)) {c : Char}
    (hc : c ∈ portChars w port) :
    isHostChar c = true ∨ isNumberWhite c = true ∨ c = ',' := by
  rcases port with _ | ⟨separator, p⟩
  · cases hc
  · simp only [portChars, List.mem_append, List.mem_cons] at hc
    obtain hbefore | rfl | hafter | hdigit := hc
    · exact .inr (.inl (w.beforeSeparator.white c hbefore))
    · cases separator with
      | colon => exact .inl rfl
      | comma => exact .inr (.inr rfl)
    · exact .inr (.inl (w.afterSeparator.white c hafter))
    · have := p.isDigit c hdigit
      exact .inl (by simp [isHostChar, isNameChar, this])

/-- The characters of a notation. -/
theorem chars_cases (w : FormSpaces) (f : ServerForm) {c : Char} (hc : c ∈ f.chars w) :
    isHostChar c = true ∨ isNumberWhite c = true ∨ c = ',' ∨ c = '[' ∨ c = ']' := by
  have hport {port : Option (Separator × Port)} (hmem : c ∈ portChars w port) :
      isHostChar c = true ∨ isNumberWhite c = true ∨ c = ',' ∨ c = '[' ∨ c = ']' := by
    obtain h | h | h := portChars_cases w port hmem
    · exact .inl h
    · exact .inr (.inl h)
    · exact .inr (.inr (.inl h))
  cases f with
  | name h port =>
    obtain hhost | hmem := List.mem_append.mp hc
    · exact .inl (h.isHostText.valid c hhost)
    · exact hport hmem
  | bare a port =>
    obtain hhost | hmem := List.mem_append.mp hc
    · exact .inl (a.isHostText.valid c hhost)
    · exact hport hmem
  | bracketed a port =>
    obtain hhost | hmem := List.mem_append.mp hc
    · simp only [bracketedChars, List.mem_append, List.mem_cons, List.not_mem_nil,
        or_false] at hhost
      obtain rfl | ((hleft | hmem) | hright) | rfl := hhost
      · exact .inr (.inr (.inr (.inl rfl)))
      · exact .inr (.inl (w.insideOpening.white c hleft))
      · exact .inl (a.isHostText.valid c hmem)
      · exact .inr (.inl (w.insideClosing.white c hright))
      · exact .inr (.inr (.inr (.inr rfl)))
    · exact hport hmem

theorem not_mem (w : FormSpaces) (f : ServerForm) {c : Char} (hhost : isHostChar c = false)
    (hwhite : isNumberWhite c = false) (hother : c ≠ ',' ∧ c ≠ '[' ∧ c ≠ ']') :
    c ∉ f.chars w := by
  intro hmem
  obtain h | h | h | h | h := chars_cases w f hmem
  · rw [hhost] at h
    cases h
  · rw [hwhite] at h
    cases h
  · exact hother.1 h
  · exact hother.2.1 h
  · exact hother.2.2 h

theorem ascii (w : FormSpaces) (f : ServerForm) {c : Char} (hc : c ∈ f.chars w) :
    c.val < 128 := by
  have hnat : c.toNat < 128 := by
    obtain h | h | rfl | rfl | rfl := chars_cases w f hc
    · exact toNat_lt_of_isHostChar h
    · simp only [isNumberWhite, Bool.or_eq_true, Bool.and_eq_true, decide_eq_true_eq] at h
      omega
    · decide
    · decide
    · decide
  exact UInt32.lt_iff_toNat_lt.mpr hnat

/-- A notation is a host, perhaps in brackets, and a port. -/
theorem exists_host (w : FormSpaces) (f : ServerForm) :
    ∃ host port, f.chars w = host ++ portChars w port ∧ host ≠ [] ∧
      (∀ c ∈ host.head?, isWhiteSpace c = false) ∧
      ∀ c ∈ host.getLast?, isWhiteSpace c = false := by
  cases f with
  | name h port =>
    exact ⟨_, _, rfl, h.nonempty, h.isHostText.head?_white, h.isHostText.getLast?_white⟩
  | bare a port =>
    exact ⟨_, _, rfl, a.nonempty, a.isHostText.head?_white, a.isHostText.getLast?_white⟩
  | bracketed a port =>
    refine ⟨bracketedChars w a, port, rfl, by simp [bracketedChars], ?_, ?_⟩
    · rintro c ⟨rfl⟩
      decide
    · intro c hc
      unfold bracketedChars at hc
      rw [← List.cons_append, List.getLast?_concat] at hc
      cases hc
      decide

theorem nonempty (w : FormSpaces) (f : ServerForm) : f.chars w ≠ [] := by
  obtain ⟨host, port, hchars, hne, _⟩ := exists_host w f
  rw [hchars]
  exact List.append_ne_nil_of_left_ne_nil hne _

theorem head?_white (w : FormSpaces) (f : ServerForm) :
    ∀ c ∈ (f.chars w).head?, isWhiteSpace c = false := by
  obtain ⟨host, port, hchars, hne, hhead, _⟩ := exists_host w f
  intro c hc
  rw [hchars, List.head?_append, List.head?_eq_some_head hne, Option.some_or] at hc
  exact hhead c (List.head?_eq_some_head hne ▸ hc)

theorem getLast?_white (w : FormSpaces) (f : ServerForm) :
    ∀ c ∈ (f.chars w).getLast?, isWhiteSpace c = false := by
  obtain ⟨host, port, hchars, hne, _, hlast⟩ := exists_host w f
  intro c hc
  rw [hchars] at hc
  rcases port with _ | ⟨separator, p⟩
  · rw [portChars, List.append_nil] at hc
    exact hlast c hc
  · rw [portChars, ← List.cons_append, ← List.append_assoc, ← List.append_assoc,
      List.getLast?_append, List.getLast?_eq_some_getLast p.nonempty, Option.some_or] at hc
    cases hc
    have hdigit := p.isDigit _ (List.getLast_mem p.nonempty)
    exact isWhiteSpace_of_isHostChar (by simp [isHostChar, isNameChar, hdigit])

/-- White space around a notation is trimmed. -/
theorem trimChars_pad (w : FormSpaces) (f : ServerForm) {l r : List Char}
    (hl : ∀ c ∈ l, isWhiteSpace c = true) (hr : ∀ c ∈ r, isWhiteSpace c = true) :
    trimChars (l ++ f.chars w ++ r) = f.chars w := by
  unfold trimChars
  rw [trimBy_pad hl _ hr]
  exact trimBy_of_ends (head?_white w f) (getLast?_white w f)

theorem toUpper_hex_ne {c : Char} (h : (isHex c || c = ':') = true) : c.toUpper ≠ 'T' := by
  have hcases : ∀ n < 128, (isHex (Char.ofNat n) || Char.ofNat n = ':') = true →
      (Char.ofNat n).toUpper ≠ 'T' := by decide
  have hhost : isHostChar c = true := by
    simp only [Bool.or_eq_true, decide_eq_true_eq] at h
    obtain hhex | rfl := h
    · exact isHostChar_of_isHex hhex
    · rfl
  have := hcases c.toNat (toNat_lt_of_isHostChar hhost)
  rw [Char.ofNat_toNat] at this
  exact this h

/-- A text that begins with `tcp:` in some letter case, cut at its first colon. -/
theorem splitAtFirst_of_tcp {cs : List Char}
    (h : (cs.take 4).map Char.toUpper = "TCP:".toList) :
    ∃ before after, splitAtFirst ':' cs = some (before, after) ∧
      before.map Char.toUpper = "TCP".toList := by
  have hlength := congrArg List.length h
  match cs, hlength with
  | a :: b :: c :: d :: rest, _ =>
    simp only [List.take_succ_cons, List.take_zero, List.map_cons, List.map_nil] at h
    obtain ⟨ha, hb, hc, hd, _⟩ : a.toUpper = 'T' ∧ b.toUpper = 'C' ∧ c.toUpper = 'P' ∧
        d.toUpper = ':' ∧ True := by
      simpa using h
    have hcolon : d = ':' := by
      obtain hsame | hletter := toUpper_cases d
      · exact hsame ▸ hd
      · rw [hd] at hletter
        cases hletter
    have hnot : ':' ∉ [a, b, c] := by
      intro hmem
      simp only [List.mem_cons, List.not_mem_nil, or_false] at hmem
      obtain rfl | rfl | rfl := hmem
      · exact absurd ha (by decide)
      · exact absurd hb (by decide)
      · exact absurd hc (by decide)
    refine ⟨[a, b, c], rest, ?_, by simp [ha, hb, hc]⟩
    rw [hcolon]
    exact splitAtFirst_append hnot rest

/-- Only a name that is `tcp` can be taken for the prefix. -/
theorem startsWith_tcp [InvariantCulture] (w : FormSpaces) {f : ServerForm} (htcp : ¬f.IsTcp) :
    startsWithIgnoreCase "tcp:".toList (f.chars w) = false := by
  rw [Bool.eq_false_iff]
  intro hstart
  rw [startsWithIgnoreCase_ascii (by decide)
    (fun c hc => ascii w f (List.mem_of_mem_take hc)), decide_eq_true_eq] at hstart
  cases f with
  | bracketed a port =>
    have hhead := (List.cons.inj hstart).1
    exact absurd hhead (by decide)
  | bare a port =>
    obtain ⟨c, cs, hcs⟩ := List.exists_cons_of_ne_nil a.nonempty
    have hmem : c ∈ a.chars := by simp [hcs]
    simp only [chars, hcs, List.cons_append] at hstart
    have hhead := (List.cons.inj hstart).1
    exact toUpper_hex_ne (a.valid c hmem) hhead
  | name h port =>
    obtain ⟨before, after, hsplit, hupper⟩ := splitAtFirst_of_tcp hstart
    have hcolon : ':' ∉ h.chars := h.not_mem (by decide)
    have hwhite := w.beforeSeparator.not_mem (c := ':') (by decide)
    rcases port with _ | ⟨separator, p⟩
    · rw [chars, portChars, List.append_nil, splitAtFirst_eq_none_iff.mpr hcolon] at hsplit
      cases hsplit
    · cases separator with
      | comma =>
        have := w.afterSeparator.not_mem (c := ':') (by decide)
        have := p.not_mem (c := ':') (by decide)
        have hnone : ':' ∉ (name h (some (.comma, p))).chars w := by
          simp [chars, portChars, Separator.char, *]
        rw [splitAtFirst_eq_none_iff.mpr hnone] at hsplit
        cases hsplit
      | colon =>
        have hnot : ':' ∉ h.chars ++ w.beforeSeparator.chars := by simp [*]
        rw [chars, portChars, ← List.append_assoc, Separator.char, splitAtFirst_append hnot,
          Option.some.injEq, Prod.mk.injEq] at hsplit
        obtain ⟨rfl, _⟩ := hsplit
        rw [w.beforeSeparator.eq_nil_of_tcp hupper, List.append_nil] at hupper
        exact htcp hupper

end ServerForm

/-! ### The round trip -/

section

variable [InvariantCulture]

theorem startsWithIgnoreCase_of_not_mem {start value : List Char} {c : Char}
    (hstart : ∀ d ∈ start, d.val < 128) (hvalue : ∀ d ∈ value, d.val < 128) (hc : c ∈ start)
    (hletter : isLatinLetter c = false) (hnot : c ∉ value) :
    startsWithIgnoreCase start value = false := by
  rw [Bool.eq_false_iff]
  intro h
  exact hnot (List.mem_of_mem_take (mem_of_startsWithIgnoreCase hstart
    (fun d hd => hvalue d (List.mem_of_mem_take hd)) h hc hletter))

/-- A server value without any of the characters that stand for something else. -/
theorem parseServerValue_plain
    (parse : List Char → Destination → Except FormatException Destination) {value : List Char}
    (hascii : ∀ c ∈ trimDiscardable value, c.val < 128) (hopen : '(' ∉ trimDiscardable value)
    (hinstance : '\\' ∉ trimDiscardable value) :
    parseServerValue parse value .new =
      parseServerWithOptionalPort (trimDiscardable value) .new := by
  have hlocalDb : startsWithIgnoreCase "(LocalDB)".toList (trimDiscardable value) = false :=
    startsWithIgnoreCase_of_not_mem (c := '(') (by decide) hascii (by decide) (by decide) hopen
  have huserInstance : startsWithIgnoreCase ".\\".toList (trimDiscardable value) = false :=
    startsWithIgnoreCase_of_not_mem (c := '\\') (by decide) hascii (by decide) (by decide)
      hinstance
  have hnested : hasNestedStructure (trimDiscardable value) = false := by
    rw [Bool.eq_false_iff]
    intro h
    simp only [hasNestedStructure, Bool.and_eq_true, decide_eq_true_eq] at h
    exact hopen (List.mem_of_head? h.1.2)
  unfold parseServerValue
  simp only [hlocalDb, huserInstance, hnested, splitAtFirst_eq_none_iff.mpr hinstance]
  rfl

omit [InvariantCulture] in
theorem trimDiscardableSuffix_eq {value : List Char} (hslash : '/' ∉ value) :
    trimDiscardableSuffix value = value := by
  unfold trimDiscardableSuffix
  rw [splitAtLast_eq_none_iff.mpr hslash]

/-- The prefix `tcp:` is discarded. -/
theorem trimDiscardable_tcp (t : TcpPrefix) (value : List Char) :
    trimDiscardable (t.chars ++ value) = trimDiscardableSuffix (t.spaces.chars ++ value) := by
  have hlength : t.casing.chars.length = "tcp:".toList.length := by
    have := congrArg List.length t.casing.casing
    rwa [List.length_map, List.length_map] at this
  have htake : (t.chars ++ value).take "tcp:".toList.length = t.casing.chars := by
    rw [TcpPrefix.chars, List.append_assoc, ← hlength, List.take_left]
  have hdrop : (t.chars ++ value).drop "tcp:".length = t.spaces.chars ++ value := by
    have hfour : "tcp:".length = t.casing.chars.length := by
      rw [hlength]
      rfl
    rw [TcpPrefix.chars, List.append_assoc, hfour, List.drop_left]
  have hascii : ∀ c ∈ (t.chars ++ value).take "tcp:".toList.length, c.val < 128 := by
    rw [htake]
    intro c hc
    have hupper : ∀ d ∈ "tcp:".toList.map Char.toUpper, d.val < 128 := by decide
    exact ascii_of_toUpper (hupper _ (t.casing.toUpper_mem hc))
  have hstart : startsWithIgnoreCase "tcp:".toList (t.chars ++ value) = true := by
    rw [startsWithIgnoreCase_ascii (by decide) hascii, htake, decide_eq_true_eq]
    exact t.casing.casing
  unfold trimDiscardable
  rw [if_pos hstart, hdrop]

omit [InvariantCulture] in
theorem TcpPrefix.exists_cons (t : TcpPrefix) :
    ∃ c cs, t.chars = c :: cs ∧ isWhiteSpace c = false := by
  have hcasing : t.casing.chars.map Char.toUpper = "TCP:".toList := t.casing.casing
  cases hchars : t.casing.chars with
  | nil =>
    rw [hchars] at hcasing
    cases hcasing
  | cons c cs =>
    rw [hchars, List.map_cons] at hcasing
    have hupper : c.toUpper = 'T' := (List.cons.inj hcasing).1
    refine ⟨c, cs ++ t.spaces.chars, by simp [TcpPrefix.chars, hchars], ?_⟩
    have hletter : isLatinLetter c = true := by
      cases h : isLatinLetter c with
      | true => rfl
      | false =>
        rw [toUpper_of_not_letter h] at hupper
        rw [hupper] at h
        exact absurd h (by decide)
    exact isWhiteSpace_of_isHostChar (by simp [isHostChar, isNameChar, hletter])

omit [InvariantCulture] in
theorem TcpPrefix.not_mem (t : TcpPrefix) {c : Char} (hletter : isLatinLetter c = false)
    (hcolon : c ≠ ':') (hwhite : isNumberWhite c = false) : c ∉ t.chars := by
  intro hmem
  obtain hcasing | hspace := List.mem_append.mp hmem
  · have hupper := t.casing.toUpper_mem hcasing
    rw [toUpper_of_not_letter hletter] at hupper
    have hcases : ∀ d ∈ "tcp:".toList.map Char.toUpper, isLatinLetter d = true ∨ d = ':' := by
      decide
    obtain h | h := hcases c hupper
    · rw [hletter] at h
      cases h
    · exact hcolon h
  · exact t.spaces.not_mem hwhite hspace

omit [InvariantCulture] in
/-- What is left of a server value when the white space around it is trimmed. -/
theorem trimChars_serverValue (v : ServerValue) :
    trimChars v.chars = (v.tcp.map TcpPrefix.chars).getD [] ++ v.form.chars v.spaces := by
  unfold ServerValue.chars
  rcases v.tcp with _ | t
  · exact v.form.trimChars_pad v.spaces v.left.isWhiteSpace v.right.isWhiteSpace
  · obtain ⟨c, cs, hchars, hblank⟩ := t.exists_cons
    have hform := v.form.nonempty v.spaces
    unfold trimChars
    rw [trimBy_pad v.left.isWhiteSpace _ v.right.isWhiteSpace]
    refine trimBy_of_ends ?_ ?_
    · intro d hd
      simp only [Option.map_some, Option.getD_some, hchars, List.cons_append,
        List.head?_cons, Option.mem_some_iff] at hd
      exact hd ▸ hblank
    · intro d hd
      rw [List.getLast?_append, List.getLast?_eq_some_getLast hform, Option.some_or] at hd
      refine v.form.getLast?_white v.spaces d ?_
      rwa [List.getLast?_eq_some_getLast hform]

/-- The notation behind the prefix, with the white space before it. -/
theorem trimDiscardable_serverValue (v : ServerValue) (htcp : ¬v.form.IsTcp) :
    ∃ w : Spaces, trimDiscardable (trimChars v.chars) = w.chars ++ v.form.chars v.spaces := by
  have hslash : '/' ∉ v.form.chars v.spaces :=
    v.form.not_mem v.spaces (by decide) (by decide) (by decide)
  rw [trimChars_serverValue]
  rcases v.tcp with _ | t
  · refine ⟨.none, ?_⟩
    show trimDiscardable (v.form.chars v.spaces) = v.form.chars v.spaces
    unfold trimDiscardable
    rw [v.form.startsWith_tcp v.spaces htcp, if_neg Bool.false_ne_true]
    exact trimDiscardableSuffix_eq hslash
  · refine ⟨t.spaces, ?_⟩
    show trimDiscardable (t.chars ++ v.form.chars v.spaces) = _
    rw [trimDiscardable_tcp]
    have := t.spaces.not_mem (c := '/') (by decide)
    exact trimDiscardableSuffix_eq (by simp [*])

/-- A server value in one of the notations is read as its host and its port. -/
theorem parseServerValue_form
    (parse : List Char → Destination → Except FormatException Destination) (v : ServerValue)
    (htcp : ¬v.form.IsTcp) :
    parseServerValue parse (trimChars v.chars) .new = .ok v.form.destination := by
  obtain ⟨w, hvalue⟩ := trimDiscardable_serverValue v htcp
  have hascii : ∀ c ∈ trimDiscardable (trimChars v.chars), c.val < 128 := by
    intro c hc
    rw [hvalue] at hc
    obtain hspace | hform := List.mem_append.mp hc
    · exact w.ascii c hspace
    · exact v.form.ascii v.spaces hform
  have hnot (c : Char) (hhost : isHostChar c = false) (hwhite : isNumberWhite c = false)
      (hother : c ≠ ',' ∧ c ≠ '[' ∧ c ≠ ']') : c ∉ trimDiscardable (trimChars v.chars) := by
    have := w.not_mem hwhite
    have := v.form.not_mem v.spaces hhost hwhite hother
    rw [hvalue]
    simp [*]
  rw [parseServerValue_plain parse hascii (hnot _ (by decide) (by decide) (by decide))
    (hnot _ (by decide) (by decide) (by decide)), hvalue, parseServerWithOptionalPort_eq]
  have htrim : trimChars (w.chars ++ v.form.chars v.spaces) = v.form.chars v.spaces := by
    have := v.form.trimChars_pad v.spaces (r := []) w.isWhiteSpace (List.forall_mem_nil _)
    rwa [List.append_nil] at this
  rw [htrim, if_neg (v.form.nonempty v.spaces)]
  exact v.form.apply_destination v.spaces

/-- From every notation of a server, with any key and among any other pairs, the host and the
    port come back, as long as the host is not called `tcp`. -/
theorem extractDestination_form (p : ServerPair) (v : ServerValue) (htcp : ¬v.form.IsTcp) :
    extractDestination (p.connectionString v.chars) = some v.form.destination := by
  have hvalue : ';' ∉ v.chars := by
    have := v.left.not_mem (c := ';') (by decide)
    have := v.right.not_mem (c := ';') (by decide)
    have := v.form.not_mem v.spaces (c := ';') (by decide) (by decide) (by decide)
    have htcp : ';' ∉ (v.tcp.map TcpPrefix.chars).getD [] := by
      rcases v.tcp with _ | t
      · exact List.not_mem_nil
      · exact t.not_mem (by decide) (by decide) (by decide)
    simp [ServerValue.chars, *]
  have haddress : v.form.destination.addressHasValue = true := by
    unfold ServerForm.destination
    cases v.form.port <;> rfl
  rw [extractDestination_eq, parseConnectionString_serverPair p hvalue,
    parseServerValue_form _ v htcp]
  simp only [haddress, if_true]

end

section

attribute [local instance] InvariantCulture.ascii

/-- A connection string that has nothing but a server. -/
def onlyServer : ServerPair where
  before := []
  name := "Server"
  known := by decide
  key := ⟨"Server".toList, rfl⟩
  keyLeft := .none
  keyRight := .none
  after := []

def nameWithPort (chars : List Char) (nonempty : chars ≠ [])
    (valid : ∀ c ∈ chars, isNameChar c = true) (port : Port) : ServerValue where
  left := .none
  tcp := none
  spaces := .none
  form := .name ⟨chars, nonempty, valid⟩ (some (.colon, port))
  right := .none

theorem extractDestination_form_db :
    extractDestination "Server=db:80" = some ⟨.set (some "db"), .set (some 80), .unset⟩ := by
  have h := extractDestination_form onlyServer
    (nameWithPort "db".toList (by decide) (by decide) ⟨80, by decide⟩)
    (by simp [nameWithPort, ServerForm.IsTcp])
  have hstring : onlyServer.connectionString
      (nameWithPort "db".toList (by decide) (by decide) ⟨80, by decide⟩).chars =
        "Server=db:80" := by decide
  rw [hstring] at h
  rw [h]
  decide

/-- The prefix is recognised in any letter case, so not only the name `tcp` is taken for it. -/
theorem extractDestination_form_counterexample :
    ¬∀ (p : ServerPair) (v : ServerValue),
      (∀ host port, v.form = .name host port → host.chars ≠ "tcp".toList) →
        extractDestination (p.connectionString v.chars) = some v.form.destination := by
  intro h
  have hTCP := h onlyServer
    (nameWithPort "TCP".toList (by decide) (by decide) ⟨80, by decide⟩) (by
      rintro host port ⟨rfl⟩
      decide)
  rw [extractDestination_eq] at hTCP
  exact absurd hTCP (by decide +kernel)

end

end DbConnectionStringParser

end ApmAgent
