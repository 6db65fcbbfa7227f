import ApmAgent.Helpers.ConnectionPairs
import ApmAgent.Helpers.KnownValues

/-! # Plain hosts

  When the address of a parsed connection string is a plain host: not empty,
  without white space around it and without brackets. The parser takes one
  bracket off each end of the text of a host, and none off a server value
  without a comma that has no colon or does not begin with a bracket.

  `extractDestination_plain_iff` says for which connection strings that is
  enough.
-/

namespace ApmAgent

namespace DbConnectionStringParser

attribute [local instance] decidableForallMem

/-! ### Brackets -/

/-- The text is a host: not empty, without white space around it and without brackets. -/
structure IsPlainHost (cs : List Char) : Prop where
  nonempty : cs ≠ []
  head : ∀ c ∈ cs.head?, isWhiteSpace c = false ∧ c ≠ '['
  last : ∀ c ∈ cs.getLast?, isWhiteSpace c = false ∧ c ≠ ']'

/-- Nothing, or a bracket and white space behind it. -/
inductive IsOpening : List Char → Prop where
  | nothing : IsOpening []
  | bracket {w : List Char} (hw : ∀ c ∈ w, isWhiteSpace c = true) : IsOpening ('[' :: w)

/-- Nothing, or a bracket and white space before it. -/
inductive IsClosing : List Char → Prop where
  | nothing : IsClosing []
  | bracket {w : List Char} (hw : ∀ c ∈ w, isWhiteSpace c = true) : IsClosing (w ++ [']'])

/-- A plain host with at most one bracket at each end, and white space around it. -/
def PlainInBrackets (host : List Char) : Prop :=
  ∃ l opening inner closing r, host = l ++ (opening ++ inner ++ closing) ++ r ∧
    (∀ c ∈ l, isWhiteSpace c = true) ∧ (∀ c ∈ r, isWhiteSpace c = true) ∧
    IsOpening opening ∧ IsClosing closing ∧ IsPlainHost inner

theorem IsPlainHost.trimChars_eq {cs : List Char} (h : IsPlainHost cs) : trimChars cs = cs :=
  trimBy_of_ends (fun c hc => (h.head c hc).1) (fun c hc => (h.last c hc).1)

/-- The text between the brackets of a trimmed host. -/
def betweenBrackets (value : List Char) : List Char :=
  (value.take (if value.getLast? = some ']' then value.length - 1 else value.length)).drop
    (if value.head? = some '[' then 1 else 0)

theorem parseAddress_eq (host : List Char) :
    parseAddress host =
      if trimChars host = [] then .error ⟨⟩
      else .ok (String.ofList (trimChars (betweenBrackets (trimChars host)))) := rfl

/-- The beginning of a value up to what is between the brackets. -/
def OpensWith (value opening : List Char) : Prop :=
  (opening = [] ∧ value.head? ≠ some '[') ∨ opening = ['[']

/-- The end of a value from what is between the brackets on. -/
def ClosesWith (value closing : List Char) : Prop :=
  (closing = [] ∧ value.getLast? ≠ some ']') ∨ closing = [']']

theorem betweenBrackets_eq {opening inner closing : List Char}
    (hopening : OpensWith (opening ++ inner ++ closing) opening)
    (hclosing : ClosesWith (opening ++ inner ++ closing) closing) :
    betweenBrackets (opening ++ inner ++ closing) = inner := by
  unfold betweenBrackets
  obtain ⟨rfl, hhead⟩ | rfl := hopening
  · obtain ⟨rfl, hlast⟩ | rfl := hclosing
    · rw [if_neg hhead, if_neg hlast]
      simp
    · rw [if_neg hhead, if_pos List.getLast?_concat]
      simp
  · have hhead : (['['] ++ inner ++ closing).head? = some '[' := rfl
    obtain ⟨rfl, hlast⟩ | rfl := hclosing
    · rw [if_pos hhead, if_neg hlast]
      simp
    · rw [if_pos hhead, if_pos List.getLast?_concat]
      simp

/-- A value is what is between its brackets, with the brackets. -/
theorem exists_brackets {value : List Char} (hne : value ≠ []) :
    ∃ opening closing, value = opening ++ betweenBrackets value ++ closing ∧
      OpensWith value opening ∧ ClosesWith value closing := by
  have hparts : ∃ opening inner closing, value = opening ++ inner ++ closing ∧
      OpensWith value opening ∧ ClosesWith value closing := by
    by_cases hlast : value.getLast? = some ']'
    · obtain ⟨front, rfl⟩ := List.getLast?_eq_some_iff.mp hlast
      cases front with
      | nil => exact ⟨[], [], [']'], rfl, .inl ⟨rfl, by decide⟩, .inr rfl⟩
      | cons c front =>
        by_cases hc : c = '['
        · subst hc
          exact ⟨['['], front, [']'], rfl, .inr rfl, .inr rfl⟩
        · exact ⟨[], c :: front, [']'], rfl, .inl ⟨rfl, by simp [hc]⟩, .inr rfl⟩
    · obtain ⟨c, rest, rfl⟩ := List.exists_cons_of_ne_nil hne
      by_cases hc : c = '['
      · subst hc
        exact ⟨['['], rest, [], by simp, .inr rfl, .inl ⟨rfl, hlast⟩⟩
      · exact ⟨[], c :: rest, [], by simp, .inl ⟨rfl, by simp [hc]⟩, .inl ⟨rfl, hlast⟩⟩
  obtain ⟨opening, inner, closing, rfl, hopening, hclosing⟩ := hparts
  refine ⟨opening, closing, ?_, hopening, hclosing⟩
  rw [betweenBrackets_eq hopening hclosing]

/-- White space around a host in brackets is trimmed. -/
theorem trimChars_brackets {l opening inner closing r : List Char}
    (hl : ∀ c ∈ l, isWhiteSpace c = true) (hr : ∀ c ∈ r, isWhiteSpace c = true)
    (hopening : IsOpening opening) (hclosing : IsClosing closing) (hinner : IsPlainHost inner) :
    trimChars (l ++ (opening ++ inner ++ closing) ++ r) = opening ++ inner ++ closing := by
  unfold trimChars
  rw [trimBy_pad hl _ hr]
  refine trimBy_of_ends ?_ ?_
  · intro c hc
    cases hopening with
    | nothing =>
      rw [List.nil_append, List.head?_append, List.head?_eq_some_head hinner.nonempty,
        Option.some_or] at hc
      exact (hinner.head c (List.head?_eq_some_head hinner.nonempty ▸ hc)).1
    | bracket hw =>
      cases hc
      decide
  · intro c hc
    cases hclosing with
    | nothing =>
      rw [List.append_nil, List.getLast?_append, List.getLast?_eq_some_getLast hinner.nonempty,
        Option.some_or] at hc
      exact (hinner.last c (List.getLast?_eq_some_getLast hinner.nonempty ▸ hc)).1
    | bracket hw =>
      rw [← List.append_assoc, List.getLast?_concat] at hc
      cases hc
      decide

theorem IsOpening.exists_opensWith {opening : List Char} (h : IsOpening opening)
    {inner : List Char} (hinner : IsPlainHost inner) (closing : List Char) :
    ∃ o w, opening = o ++ w ∧ (∀ c ∈ w, isWhiteSpace c = true) ∧
      OpensWith (opening ++ inner ++ closing) o := by
  cases h with
  | nothing =>
    refine ⟨[], [], rfl, List.forall_mem_nil _, .inl ⟨rfl, ?_⟩⟩
    rw [List.nil_append, List.head?_append, List.head?_eq_some_head hinner.nonempty,
      Option.some_or]
    intro hbracket
    exact (hinner.head _ (List.head?_eq_some_head hinner.nonempty ▸ hbracket)).2 rfl
  | bracket hw => exact ⟨['['], _, rfl, hw, .inr rfl⟩

theorem IsClosing.exists_closesWith {closing : List Char} (h : IsClosing closing)
    (opening : List Char) {inner : List Char} (hinner : IsPlainHost inner) :
    ∃ w c, closing = w ++ c ∧ (∀ c ∈ w, isWhiteSpace c = true) ∧
      ClosesWith (opening ++ inner ++ closing) c := by
  cases h with
  | nothing =>
    refine ⟨[], [], rfl, List.forall_mem_nil _, .inl ⟨rfl, ?_⟩⟩
    rw [List.append_nil, List.getLast?_append, List.getLast?_eq_some_getLast hinner.nonempty,
      Option.some_or]
    intro hbracket
    exact (hinner.last _ (List.getLast?_eq_some_getLast hinner.nonempty ▸ hbracket)).2 rfl
  | bracket hw => exact ⟨_, [']'], rfl, hw, .inr rfl⟩

/-- A bracket is taken off each end that has one. -/
theorem trimChars_betweenBrackets {opening inner closing : List Char}
    (hopening : IsOpening opening) (hclosing : IsClosing closing) (hinner : IsPlainHost inner) :
    trimChars (betweenBrackets (opening ++ inner ++ closing)) = inner := by
  obtain ⟨o, w, ho, hw, hopens⟩ := hopening.exists_opensWith hinner closing
  obtain ⟨w', c, hc, hw', hcloses⟩ := hclosing.exists_closesWith opening hinner
  have hvalue : opening ++ inner ++ closing = o ++ (w ++ inner ++ w') ++ c := by
    rw [ho, hc]
    simp
  rw [hvalue] at hopens hcloses ⊢
  rw [betweenBrackets_eq hopens hcloses]
  unfold trimChars
  rw [trimBy_pad hw _ hw']
  exact hinner.trimChars_eq

/-- The address that is read from the text of a host is plain exactly when the text is a plain
    host with at most one bracket at each end. -/
theorem plainInBrackets_iff {host : List Char} {address : String}
    (h : parseAddress host = .ok address) :
    PlainInBrackets host ↔ IsPlainHost address.toList := by
  rw [parseAddress_eq] at h
  by_cases hne : trimChars host = []
  · rw [if_pos hne] at h
    cases h
  · rw [if_neg hne] at h
    cases h
    rw [String.toList_ofList]
    constructor
    · rintro ⟨l, opening, inner, closing, r, rfl, hl, hr, hopening, hclosing, hinner⟩
      rw [trimChars_brackets hl hr hopening hclosing hinner,
        trimChars_betweenBrackets hopening hclosing hinner]
      exact hinner
    · intro hplain
      obtain ⟨l, r, hhost, hl, hr⟩ := exists_trimBy isWhiteSpace host
      generalize hv : trimChars host = value at hne hplain
      have hhost' : host = l ++ value ++ r := by rw [← hv]; exact hhost
      have hhead : ∀ c ∈ value.head?, isWhiteSpace c = false := by
        rw [← hv]
        exact fun c hc => head?_trimBy hc
      have hlast : ∀ c ∈ value.getLast?, isWhiteSpace c = false := by
        rw [← hv]
        exact fun c hc => getLast?_trimBy hc
      obtain ⟨o, c, hvalue, hopens, hcloses⟩ := exists_brackets hne
      obtain ⟨w, w', hbetween, hw, hw'⟩ := exists_trimBy isWhiteSpace (betweenBrackets value)
      have hparts : value = o ++ (w ++ trimChars (betweenBrackets value) ++ w') ++ c :=
        hvalue.trans (congrArg (fun b => o ++ b ++ c) hbetween)
      -- White space at an end without a bracket would have been trimmed before.
      have hopening : IsOpening (o ++ w) := by
        obtain ⟨rfl, -⟩ | rfl := hopens
        · cases w with
          | nil => exact .nothing
          | cons x w =>
            have hx := hhead x (by rw [hparts]; simp)
            rw [hw x (by simp)] at hx
            cases hx
        · exact .bracket hw
      have hclosing : IsClosing (w' ++ c) := by
        obtain ⟨rfl, -⟩ | rfl := hcloses
        · obtain rfl | ⟨ys, y, rfl⟩ := List.eq_nil_or_concat' w'
          · exact .nothing
          · have hy := hlast y (by
              rw [hparts, List.append_nil, ← List.append_assoc, ← List.append_assoc,
                List.getLast?_concat]
              rfl)
            rw [hw' y (by simp)] at hy
            cases hy
        · exact .bracket hw'
      refine ⟨l, o ++ w, trimChars (betweenBrackets value), w' ++ c, r, ?_, hl, hr, hopening,
        hclosing, hplain⟩
      calc host = l ++ value ++ r := hhost'
        _ = l ++ (o ++ (w ++ trimChars (betweenBrackets value) ++ w') ++ c) ++ r := by
          rw [← hparts]
        _ = l ++ (o ++ w ++ trimChars (betweenBrackets value) ++ (w' ++ c)) ++ r := by
          simp only [List.append_assoc]

/-! ### Accepted values -/

/-- A number that is not negative. -/
def IsPortText (text : List Char) : Prop :=
  ∃ port, tryParseInt (String.ofList text) = some port ∧ 0 ≤ port

/-- The parser does not throw at these parts. -/
def ServerParts.Accepted : ServerParts → Prop
  | .whole _ => True
  | .bracketed host => trimChars host ≠ []
  | .withPort host port => trimChars host ≠ [] ∧ IsPortText port

/-- The parser does not throw at the value. -/
def KnownValue.Accepted : KnownValue → Prop
  | .localhost => True
  | .server value => trimChars value ≠ [] ∧ (serverParts (trimChars value)).Accepted
  | .port value => IsPortText value

theorem parseAddress_ok_iff {host : List Char} :
    (∃ address, parseAddress host = .ok address) ↔ trimChars host ≠ [] := by
  rw [parseAddress_eq]
  by_cases hne : trimChars host = [] <;> simp [hne]

theorem isPortText_iff {text : List Char} (d : Destination) :
    (∃ d', parsePortValue text d = .ok d') ↔ IsPortText text := by
  constructor
  · rintro ⟨d', h⟩
    obtain ⟨port, hparse, hnonneg, _⟩ := parsePortValue_ok_iff.mp h
    exact ⟨port, hparse, hnonneg⟩
  · rintro ⟨port, hparse, hnonneg⟩
    exact ⟨_, parsePortValue_ok_iff.mpr ⟨port, hparse, hnonneg, rfl⟩⟩

theorem ServerParts.accepted_iff {parts : ServerParts} (d : Destination) :
    (∃ d', parts.apply d = .ok d') ↔ parts.Accepted := by
  cases parts with
  | whole value => exact ⟨fun _ => trivial, fun _ => ⟨_, rfl⟩⟩
  | bracketed host =>
    rw [Accepted, ← parseAddress_ok_iff]
    constructor
    · rintro ⟨d', h⟩
      obtain ⟨address, haddress, _⟩ := apply_ok_iff.mp h
      exact ⟨address, haddress⟩
    · rintro ⟨address, haddress⟩
      exact ⟨_, apply_ok_iff.mpr ⟨address, haddress, rfl⟩⟩
  | withPort host port =>
    rw [Accepted, ← parseAddress_ok_iff]
    constructor
    · rintro ⟨d', h⟩
      obtain ⟨address, haddress, hport⟩ := apply_ok_iff.mp h
      exact ⟨⟨address, haddress⟩, (isPortText_iff _).mp ⟨d', hport⟩⟩
    · rintro ⟨⟨address, haddress⟩, hport⟩
      obtain ⟨d', hd'⟩ := (isPortText_iff (d.setAddress address)).mpr hport
      exact ⟨d', apply_ok_iff.mpr ⟨address, haddress, hd'⟩⟩

theorem KnownValue.accepted_iff {v : KnownValue} (d : Destination) :
    (∃ d', v.apply d = .ok d') ↔ v.Accepted := by
  cases v with
  | localhost => exact ⟨fun _ => trivial, fun _ => ⟨_, rfl⟩⟩
  | server value =>
    simp only [apply_server_ok_iff, exists_and_left, ServerParts.accepted_iff]
    rfl
  | port value => exact isPortText_iff d

/-- The values of a walk are read exactly when each of them is accepted. -/
theorem applyAll_accepted_iff {values : List KnownValue} (d : Destination) :
    (∃ d', KnownValue.applyAll values d = .ok d') ↔ ∀ v ∈ values, v.Accepted := by
  induction values generalizing d with
  | nil => simp
  | cons v values ih =>
    rw [List.forall_mem_cons, ← KnownValue.accepted_iff d, KnownValue.applyAll_cons]
    rcases hv : v.apply d with e | d₁
    · simp [bind, Except.bind]
    · rw [← ih d₁]
      simp [bind, Except.bind]

/-! ### The address and the port of the values -/

/-- The port is set to a number that is not negative, if at all. -/
def PortNonneg (d : Destination) : Prop := ∀ port, d.port.value = some port → 0 ≤ port

theorem portNonneg_parsePortValue {text : List Char} {d d' : Destination}
    (h : parsePortValue text d = .ok d') : PortNonneg d' := by
  obtain ⟨port, _, hnonneg, rfl⟩ := parsePortValue_ok_iff.mp h
  intro port' hport
  cases hport
  exact hnonneg

theorem portNonneg_apply {v : KnownValue} {d d' : Destination} (hd : PortNonneg d)
    (h : v.apply d = .ok d') : PortNonneg d' := by
  cases v with
  | localhost =>
    cases h
    exact hd
  | server value =>
    obtain ⟨_, hparts⟩ := apply_server_ok_iff.mp h
    obtain ⟨address, _, hport⟩ := ServerParts.apply_ok_iff.mp hparts
    cases htext : (serverParts (trimChars value)).portText with
    | none =>
      rw [htext] at hport
      subst hport
      exact hd
    | some text =>
      rw [htext] at hport
      exact portNonneg_parsePortValue hport
  | port value => exact portNonneg_parsePortValue h

theorem portNonneg_applyAll {values : List KnownValue} {d d' : Destination} (hd : PortNonneg d)
    (h : KnownValue.applyAll values d = .ok d') : PortNonneg d' := by
  induction values generalizing d with
  | nil =>
    cases h
    exact hd
  | cons v values ih =>
    rw [KnownValue.applyAll_cons] at h
    rcases hv : v.apply d with e | d₁
    · rw [hv] at h
      cases h
    · rw [hv] at h
      exact ih (portNonneg_apply hd hv) h

/-! ### Plain addresses -/

/-- The address that the parts give is plain: it is taken as it is and has no bracket at an end,
    or it is a plain host in brackets. -/
def ServerParts.Plain : ServerParts → Prop
  | .whole value => value.head? ≠ some '[' ∧ value.getLast? ≠ some ']'
  | .bracketed host => PlainInBrackets host
  | .withPort host _ => PlainInBrackets host

theorem serverParts_whole_eq {value whole : List Char} (h : serverParts value = .whole whole) :
    whole = value := by
  unfold serverParts at h
  split at h
  · cases h
  · split at h
    · split at h
      · cases h
      · split at h
        · cases h
          rfl
        · split at h <;> cases h
    · cases h
      rfl

/-- The address of a trimmed value is plain exactly when its parts are. -/
theorem serverParts_plain_iff {value : List Char} (hne : trimChars value ≠ [])
    {address : String} (h : (serverParts (trimChars value)).readAddress = .ok address) :
    (serverParts (trimChars value)).Plain ↔ IsPlainHost address.toList := by
  cases hparts : serverParts (trimChars value) with
  | bracketed host =>
    rw [hparts] at h
    exact plainInBrackets_iff h
  | withPort host port =>
    rw [hparts] at h
    exact plainInBrackets_iff h
  | whole v =>
    rw [hparts] at h
    cases h
    rw [serverParts_whole_eq hparts, String.toList_ofList]
    constructor
    · rintro ⟨hhead, hlast⟩
      exact
        { nonempty := hne
          head := fun c hc => ⟨head?_trimBy hc, fun hbracket => hhead (hbracket ▸ hc)⟩
          last := fun c hc => ⟨getLast?_trimBy hc, fun hbracket => hlast (hbracket ▸ hc)⟩ }
    · intro hplain
      exact ⟨fun hhead => (hplain.head _ hhead).2 rfl, fun hlast => (hplain.last _ hlast).2 rfl⟩

/-- The destination has a plain host and, if any, a port that is not negative. -/
def IsPlainDestination (d : Destination) : Prop :=
  (∃ address, d.address.value = some address ∧ IsPlainHost address.toList) ∧ PortNonneg d

section

variable [InvariantCulture]

/-- The server value that the parser comes to has plain parts, unless the parser throws at one of
    the values it comes to. -/
def HasPlainServer (dbConnectionString : String) : Prop :=
  ∀ values, knownValues dbConnectionString = .ok values → (∀ v ∈ values, v.Accepted) →
    ∀ value, .server value ∈ values → (serverParts (trimChars value)).Plain

/-- Exactly for these connection strings the destination is plain, if there is one. -/
theorem extractDestination_plain_iff (dbConnectionString : String) :
    (∀ d, extractDestination dbConnectionString = some d → IsPlainDestination d) ↔
      HasPlainServer dbConnectionString := by
  simp only [extractDestination_eq, parseConnectionString_eq_some_iff]
  constructor
  · intro h values hvalues haccepted value hmem
    obtain ⟨d, hread⟩ := (applyAll_accepted_iff .new).mpr haccepted
    have hany : values.any KnownValue.isAddress = true := List.any_eq_true.mpr ⟨_, hmem, rfl⟩
    obtain ⟨⟨address, haddress, hplain⟩, _⟩ := h d ⟨values, hvalues, hread, hany⟩
    obtain ⟨address', hparts, hset⟩ :=
      address_applyAll (knownValues_atMostOne hvalues) hmem rfl hread
    rw [hset, Optional.value_set, Option.some.injEq] at haddress
    subst haddress
    exact (serverParts_plain_iff (haccepted _ hmem).1 hparts).mpr hplain
  · rintro h d ⟨values, hvalues, hread, hany⟩
    have haccepted := (applyAll_accepted_iff .new).mp ⟨d, hread⟩
    have hnew : PortNonneg .new := by
      intro port hport
      cases hport
    refine ⟨?_, portNonneg_applyAll hnew hread⟩
    obtain ⟨v, hmem, hv⟩ := List.any_eq_true.mp hany
    obtain ⟨address, hparts, hset⟩ :=
      address_applyAll (knownValues_atMostOne hvalues) hmem hv hread
    refine ⟨address, by rw [hset, Optional.value_set], ?_⟩
    cases v with
    | localhost =>
      cases hparts
      refine ⟨by decide, ?_, ?_⟩
      · intro c hc
        cases hc
        decide
      · intro c hc
        cases hc
        decide
    | server value =>
      exact (serverParts_plain_iff (haccepted _ hmem).1 hparts).mp
        (h values hvalues haccepted value hmem)
    | port value => cases hv

end

section

attribute [local instance] InvariantCulture.ascii

/-- A host in brackets without a colon or a comma keeps its brackets. -/
theorem extractDestination_plain_counterexample :
    ¬∀ dbConnectionString d, extractDestination dbConnectionString = some d →
      IsPlainDestination d := by
  intro h
  have hfoo : extractDestination "Server=[foo]" = some ⟨.set (some "[foo]"), .unset, .unset⟩ := by
    rw [extractDestination_eq]
    decide +kernel
  obtain ⟨⟨address, haddress, hplain⟩, _⟩ := h _ _ hfoo
  cases haddress
  exact (hplain.head '[' (by decide)).2 rfl

end

end DbConnectionStringParser

end ApmAgent
