import ApmAgent.Helpers.OracleDescriptor

/-! # Hosts and ports of a descriptor

  Of the `ADDRESS` groups of a descriptor the first one with a `HOST` gives the
  address. The port comes from the same group.
-/

namespace ApmAgent

namespace DbConnectionStringParser

attribute [local instance] decidableForallMem

section

variable [InvariantCulture]

/-! ### Hosts and ports of several groups -/

omit [InvariantCulture] in
theorem orElse_unset {α : Type} (o : Optional α) : o.orElse .unset = o := by
  cases o <;> rfl

omit [InvariantCulture] in
theorem orElse_assoc {α : Type} (o p q : Optional α) :
    (o.orElse p).orElse q = o.orElse (p.orElse q) := by
  cases o <;> rfl

omit [InvariantCulture] in
theorem orElse_ne_unset {α : Type} {o : Optional α} (h : o ≠ .unset) (p : Optional α) :
    o.orElse p = o := by
  cases o with
  | unset => exact absurd rfl h
  | set v => rfl

omit [InvariantCulture] in
theorem lastSet_eq_unset {α : Type} {os : List (Optional α)} (h : ∀ o ∈ os, o = .unset) :
    lastSet os = .unset := by
  induction os with
  | nil => rfl
  | cons o os ih =>
    rw [List.forall_mem_cons] at h
    rw [lastSet, ih h.2, h.1]
    rfl

/-- The first host counts, and the last port. -/
theorem AddressPair.read_ok {p : AddressPair} {d d' : Destination} (h : p.read d = .ok d') :
    d'.address = d.address.orElse p.address ∧ d'.port = p.portNumber.orElse d.port := by
  cases p with
  | host key l value r =>
    cases h
    by_cases hfound : d.addressHasValue = true
    · rw [if_pos hfound]
      exact ⟨(orElse_ne_unset (of_decide_eq_true hfound) _).symm, rfl⟩
    · rw [if_neg hfound]
      have hunset : d.address = .unset := by simpa [Destination.addressHasValue] using hfound
      rw [hunset]
      exact ⟨rfl, rfl⟩
  | port key value =>
    obtain ⟨n, hn, _, rfl⟩ := parsePortValue_ok_iff.mp h
    rw [AddressPair.portNumber, hn]
    exact ⟨(orElse_unset _).symm, rfl⟩
  | other key value =>
    cases h
    exact ⟨(orElse_unset _).symm, rfl⟩

theorem foldlM_pairs_ok {pairs : List (Spaces × AddressPair)} {d d' : Destination}
    (h : pairs.foldlM (fun d p => p.2.read d) d = .ok d') :
    d'.address = d.address.orElse (firstSet (pairs.map (·.2.address))) ∧
      d'.port = (lastSet (pairs.map (·.2.portNumber))).orElse d.port := by
  induction pairs generalizing d with
  | nil =>
    cases h
    exact ⟨(orElse_unset _).symm, rfl⟩
  | cons p pairs ih =>
    rw [List.foldlM_cons] at h
    rcases hp : p.2.read d with e | d₁
    · rw [hp] at h
      cases h
    · rw [hp] at h
      obtain ⟨haddress, hport⟩ := AddressPair.read_ok hp
      obtain ⟨haddress', hport'⟩ := ih h
      rw [haddress', hport', haddress, hport, List.map_cons, List.map_cons, firstSet, lastSet,
        orElse_assoc, orElse_assoc]
      exact ⟨rfl, rfl⟩

/-- An `ADDRESS` group, as long as no address has been found. -/
theorem AddressGroup.read_ok {g : AddressGroup} {d d' : Destination} (hd : d.address = .unset)
    (h : g.read d = .ok d') : d'.address = g.address ∧ d'.port = g.port.orElse d.port := by
  have hfound : ¬d.addressHasValue = true := by simp [Destination.addressHasValue, hd]
  unfold AddressGroup.read at h
  rw [if_neg hfound] at h
  split at h
  · cases h
  · have hpairs := foldlM_pairs_ok h
    rwa [hd] at hpairs

/-- Groups without a host. -/
theorem read_before {entries : List Entry} {d d' : Destination} (hd : d.address = .unset)
    (hgroup : ∀ e ∈ entries, ∃ g, e = .address g) (hhost : ∀ e ∈ entries, e.hasHost = false)
    (h : entries.foldlM (fun d e => e.read d) d = .ok d') :
    d'.address = .unset ∧ d'.port = (lastSet (entries.map Entry.port)).orElse d.port := by
  induction entries generalizing d with
  | nil =>
    cases h
    exact ⟨hd, rfl⟩
  | cons e entries ih =>
    rw [List.forall_mem_cons] at hgroup hhost
    obtain ⟨⟨g, rfl⟩, hgroup⟩ := hgroup
    have hunset : g.address = .unset := of_not_not (of_decide_eq_false hhost.1)
    rw [List.foldlM_cons] at h
    rcases hg : g.read d with e | d₁
    · rw [Entry.read, hg] at h
      cases h
    · rw [Entry.read, hg] at h
      obtain ⟨haddress, hport⟩ := AddressGroup.read_ok hd hg
      obtain ⟨haddress', hport'⟩ := ih (haddress.trans hunset) hgroup hhost.2 h
      rw [hport', hport, List.map_cons, lastSet, orElse_assoc]
      exact ⟨haddress', rfl⟩

/-- Behind an address nothing is read. -/
theorem read_found {d : Destination} (hd : d.addressHasValue = true) (entries : List Entry) :
    entries.foldlM (fun d e => e.read d) d = .ok d := by
  induction entries with
  | nil => rfl
  | cons e entries ih =>
    have hread : e.read d = .ok d := by
      cases e with
      | address g =>
        rw [Entry.read, AddressGroup.read, if_pos hd]
      | server value =>
        rw [Entry.read, parseServerValue, if_pos hd]
    rw [List.foldlM_cons, hread]
    exact ih

/-- What the entries of a descriptor come to. -/
theorem foldlM_entries {entries : List Entry} {d : Destination}
    (hserver : ∀ e ∈ entries.takeWhile (!·.hasHost), ∃ g, e = .address g)
    (h : entries.foldlM (fun d e => e.read d) .new = .ok d) (hfound : d.addressHasValue = true) :
    ∃ g, entries.find? Entry.hasHost = some (.address g) ∧ d.address = g.address ∧
      d.port = g.port.orElse
        (lastSet ((entries.takeWhile (!·.hasHost)).map Entry.port)) := by
  have hhost : ∀ e ∈ entries.takeWhile (!·.hasHost), e.hasHost = false := by
    intro e he
    simpa using List.mem_takeWhile_imp he
  have hsplit := List.takeWhile_append_dropWhile (p := (!·.hasHost)) (l := entries)
  rw [← hsplit, List.foldlM_append] at h
  rcases hbefore : (entries.takeWhile (!·.hasHost)).foldlM (fun d e => e.read d) .new
    with e | d₁
  · rw [hbefore] at h
    cases h
  · rw [hbefore] at h
    obtain ⟨haddress, hport⟩ := read_before rfl hserver hhost hbefore
    cases hfrom : entries.dropWhile (!·.hasHost) with
    | nil =>
      rw [hfrom] at h
      cases h
      rw [Destination.addressHasValue, decide_eq_true_eq] at hfound
      exact absurd haddress hfound
    | cons e after =>
      have hfind : entries.find? Entry.hasHost = some e := by
        rw [List.find?_eq_head?_dropWhile_not, hfrom]
        rfl
      have hfirst : e.hasHost = true := List.find?_some hfind
      cases e with
      | server value => cases hfirst
      | address g =>
        rw [hfrom] at h
        replace h : (g.read d₁ >>= (after.foldlM (fun d e => e.read d) ·)) = .ok d := h
        rcases hg : g.read d₁ with e | d₂
        · rw [hg] at h
          cases h
        · obtain ⟨haddress', hport'⟩ := AddressGroup.read_ok haddress hg
          have hset : d₂.addressHasValue = true := by
            have hne : g.address ≠ .unset := of_decide_eq_true hfirst
            rw [Destination.addressHasValue, haddress']
            exact decide_eq_true hne
          rw [hg] at h
          replace h : after.foldlM (fun d e => e.read d) d₂ = .ok d := h
          rw [read_found hset] at h
          cases h
          refine ⟨g, hfind, haddress', ?_⟩
          rw [hport', hport]
          exact congrArg _ (orElse_unset _)

/-! ### Connection strings with a descriptor -/

theorem AddressPair.separator_not_mem (p : AddressPair) : ';' ∉ p.chars := by
  cases p with
  | host key l value r =>
    obtain ⟨_, _, hvalue, _⟩ := value.isHostValue.not_mem
    have hknown : ("Host", PropertySetter.parseServerValue) ∈ keyToPropertySetter := by decide
    have := key.not_mem hknown (c := ';') (by decide) (by decide)
    have := l.not_mem (c := ';') (by decide)
    have := r.not_mem (c := ';') (by decide)
    simp [AddressPair.chars, *]
  | port key value =>
    have hknown : ("Port", PropertySetter.parsePortValue) ∈ keyToPropertySetter := by decide
    have := key.not_mem hknown (c := ';') (by decide) (by decide)
    have hvalue : ';' ∉ value.chars := fun h => value.flat _ h (by decide)
    simp [AddressPair.chars, *]
  | other key value =>
    have hkey : ';' ∉ key.chars := fun h => (key.plain _ h).1 (by decide)
    have hvalue : ';' ∉ value.chars := fun h => value.flat _ h (by decide)
    simp [AddressPair.chars, *]

theorem AddressGroup.separator_not_mem (g : AddressGroup) : ';' ∉ g.chars := by
  intro hmem
  simp only [AddressGroup.chars, AddressGroup.groups, groupsText, List.mem_append,
    List.mem_flatMap, List.mem_map] at hmem
  obtain ⟨_, ⟨⟨gap, p⟩, _, rfl⟩, hgroup⟩ | hright := hmem
  · have := gap.not_mem (c := ';') (by decide)
    have := p.separator_not_mem
    simp [Group.chars, *] at hgroup
  · exact g.right.not_mem (by decide) hright

mutual

theorem Node.separator_not_mem (n : Node) : ';' ∉ n.chars := by
  match n with
  | .address key group =>
    have hknown : ("Address", PropertySetter.parseAddressKeyWithNestedStructureValue) ∈
        keyToPropertySetter := by decide
    have := key.not_mem hknown (c := ';') (by decide) (by decide)
    have := group.separator_not_mem
    simp [Node.chars, *]
  | .nested key children right =>
    have hkey : ';' ∉ key.chars := fun h => (key.plain _ h).1 (by decide)
    have := children.separator_not_mem
    have := right.not_mem (c := ';') (by decide)
    simp [Node.chars, *]
  | .server _ known key value =>
    have := key.not_mem known (c := ';') (by decide) (by decide)
    have hvalue : ';' ∉ value.chars := fun h => value.flat _ h (by decide)
    simp [Node.chars, *]
  | .other key value =>
    have hkey : ';' ∉ key.chars := fun h => (key.plain _ h).1 (by decide)
    have hvalue : ';' ∉ value.chars := fun h => value.flat _ h (by decide)
    simp [Node.chars, *]

theorem Nodes.separator_not_mem (ns : Nodes) : ';' ∉ ns.chars := by
  match ns with
  | .nil => exact List.not_mem_nil
  | .cons gap node rest =>
    have := gap.not_mem (c := ';') (by decide)
    have := node.separator_not_mem
    have := rest.separator_not_mem
    simp [Nodes.chars, *]

end

/-- What a connection string with a descriptor comes to. -/
theorem extractDestination_entries (p : ServerPair) (v : Descriptor) :
    extractDestination (p.connectionString v.chars) =
      match v.entries.foldlM (fun d e => e.read d) .new with
      | .error _ => none
      | .ok d => if d.addressHasValue then some d else none := by
  have hvalue : ';' ∉ v.chars := by
    have := v.nodes.separator_not_mem
    have := v.right.not_mem (c := ';') (by decide)
    simp [Descriptor.chars, *]
  have hparse := parseServerValue_descriptor v
  rw [extractDestination_eq, parseConnectionString_serverPair p hvalue]
  cases hread : v.entries.foldlM (fun d e => e.read d) .new with
  | error e => simp only [hparse, hread]
  | ok d => simp only [hparse, hread]

/-- The first `HOST` of a descriptor comes with the port of its own group, as long as no group
    before it has a port that it lacks, and no server stands before it. -/
theorem extractDestination_descriptor (p : ServerPair) (v : Descriptor) {d : Destination}
    (hserver : ∀ e ∈ v.beforeHost, ∃ g, e = .address g)
    (hport : ∀ g, v.entries.find? Entry.hasHost = some (.address g) → g.port = .unset →
      ∀ e ∈ v.beforeHost, e.port = .unset)
    (h : extractDestination (p.connectionString v.chars) = some d) :
    ∃ g, v.entries.find? Entry.hasHost = some (.address g) ∧ d.address = g.address ∧
      d.port = g.port := by
  rw [extractDestination_entries] at h
  rcases hread : v.entries.foldlM (fun d e => e.read d) .new with e | d'
  · rw [hread] at h
    cases h
  · rw [hread] at h
    simp only [Option.ite_none_right_eq_some, Option.some.injEq] at h
    obtain ⟨hfound, rfl⟩ := h
    obtain ⟨g, hfind, haddress, hmixed⟩ := foldlM_entries hserver hread hfound
    refine ⟨g, hfind, haddress, ?_⟩
    by_cases hunset : g.port = .unset
    · have hbefore : lastSet (v.beforeHost.map Entry.port) = .unset := by
        refine lastSet_eq_unset fun port hmem => ?_
        obtain ⟨e, he, rfl⟩ := List.mem_map.mp hmem
        exact hport g hfind hunset e he
      have hnone : lastSet ((v.entries.takeWhile (!·.hasHost)).map Entry.port) = .unset := hbefore
      rw [hmixed, hnone, orElse_unset]
    · rw [hmixed, orElse_ne_unset hunset]

/-- The pair inside as many pairs of another key. -/
def nest (key : OtherKey) (n : Node) : Nat → Node
  | 0 => n
  | depth + 1 => .nested key (.cons .none (nest key n depth) .nil) .none

theorem nest_entries (key : OtherKey) (n : Node) (depth remaining : Nat) :
    (nest key n depth).entries (remaining + depth) = n.entries remaining := by
  induction depth with
  | zero => rfl
  | succ depth ih =>
    show (nest key n depth).entries (remaining + depth) ++ [] = n.entries remaining
    rw [List.append_nil, ih]

theorem nest_allEntries (key : OtherKey) (n : Node) (depth : Nat) :
    (nest key n depth).allEntries = n.allEntries := by
  induction depth with
  | zero => rfl
  | succ depth ih =>
    show (nest key n depth).allEntries ++ [] = n.allEntries
    rw [List.append_nil, ih]

end

section

attribute [local instance] InvariantCulture.ascii

def otherKey (chars : List Char)
    (plain : ∀ c ∈ chars, c ∉ ['=', '(', ')', ';'] ∧ toUpperInvariant c ≠ ')' := by decide)
    (unknown : propertySetter? (trimChars chars) = none := by decide) : OtherKey :=
  ⟨chars, plain, unknown⟩

def hostPair (c : Char) (plain : IsPlainChar c := by decide)
    (white : isWhiteSpace c = false := by decide) : Spaces × AddressPair :=
  (.none, .host ⟨.none, ⟨"Host".toList, rfl⟩, .none⟩ .none
    (.name ⟨[c], by simp, by simpa using white, by simpa using white, by simpa using plain⟩) .none)

def portPair (chars : List Char) (flat : ∀ c ∈ chars, c ∉ ['(', ')', ';'] := by decide) :
    Spaces × AddressPair :=
  (.none, .port ⟨.none, ⟨"Port".toList, rfl⟩, .none⟩ ⟨chars, flat⟩)

def addressNode (pairs : List (Spaces × AddressPair)) : Node :=
  .address ⟨.none, ⟨"Address".toList, rfl⟩, .none⟩ ⟨pairs, .none⟩

/-- `(Address=(Port=1))(Address=(Port=2)(Host=b))`. -/
def secondHasHost : Descriptor where
  nodes := .cons .none (addressNode [portPair ['1']])
    (.cons .none (addressNode [portPair ['2'], hostPair 'b']) .nil)
  nonempty := nofun
  right := .none

theorem extractDestination_descriptor_second :
    ∃ g, secondHasHost.entries.find? Entry.hasHost = some (.address g) ∧
      Optional.set (some "b") = g.address ∧ Optional.set (some 2) = g.port := by
  have hport : ∀ g, secondHasHost.entries.find? Entry.hasHost = some (.address g) →
      g.port ≠ .unset := by
    rintro g ⟨rfl⟩
    decide
  have hserver : ∀ e ∈ secondHasHost.beforeHost, ∃ g, e = .address g := by
    have hbefore : secondHasHost.beforeHost = [.address ⟨[portPair ['1']], .none⟩] := rfl
    rw [hbefore]
    simp
  refine extractDestination_descriptor onlyServer secondHasHost
    (d := ⟨.set (some "b"), .set (some 2), .unset⟩) hserver
    (fun g hg hunset => absurd hunset (hport g hg)) ?_
  rw [extractDestination_entries]
  rfl

/-- `(D=(D=…(Address=(Host=a))…))(Address=(Host=b))`, where the first address is nested deeper
    than the parser goes. -/
def deepAddress : Descriptor where
  nodes := .cons .none (nest (otherKey ['D']) (addressNode [hostPair 'a']) (maxNestingDepth - 1))
    (.cons .none (addressNode [hostPair 'b']) .nil)
  nonempty := nofun
  right := .none

/-- The first address is not found if it is nested too deep. -/
theorem extractDestination_descriptor_counterexample :
    ¬∀ (p : ServerPair) (v : Descriptor) (d : Destination),
      (∀ e ∈ v.nodes.allEntries, ∃ g, e = .address g) →
        extractDestination (p.connectionString v.chars) = some d →
          ∃ g, v.nodes.allEntries.find? Entry.hasHost = some (.address g) ∧
            d.address = g.address ∧ d.port = g.port := by
  intro h
  have hall : deepAddress.nodes.allEntries =
      [.address ⟨[hostPair 'a'], .none⟩, .address ⟨[hostPair 'b'], .none⟩] := by
    show (nest _ _ _).allEntries ++ _ = _
    rw [nest_allEntries]
    rfl
  have hentries : deepAddress.entries = [.address ⟨[hostPair 'b'], .none⟩] := by
    show (nest _ _ _).entries (0 + (maxNestingDepth - 1)) ++ _ = _
    rw [nest_entries]
    rfl
  have hfirst := h onlyServer deepAddress ⟨.set (some "b"), .unset, .unset⟩ (by
    rw [hall]
    simp) (by
    rw [extractDestination_entries, hentries]
    rfl)
  rw [hall] at hfirst
  obtain ⟨g, ⟨rfl⟩, haddress, _⟩ := hfirst
  exact absurd haddress (by decide)

end

end DbConnectionStringParser

end ApmAgent
