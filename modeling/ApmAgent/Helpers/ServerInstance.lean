import ApmAgent.Helpers.ServerForms

/-! # Servers with an instance

  The SQL Server notation `host\instance`, with or without a port behind the
  instance. The parser cuts the value at the backslash before it looks for a
  port: the port is lost with the instance.
-/

namespace ApmAgent

namespace DbConnectionStringParser

attribute [local instance] decidableForallMem

/-- A server value with an instance. -/
structure InstanceValue where
  left : Spaces
  tcp : Option TcpPrefix
  host : HostName
  beforeInstance : Spaces
  /-- The name of the instance, with any white space around it. -/
  instanceName : List Char
  instance_separators : ',' ∉ instanceName ∧ ':' ∉ instanceName ∧ ';' ∉ instanceName
  spaces : FormSpaces
  port : Option Port
  right : Spaces

namespace InstanceValue

/-- The host up to the instance. -/
def hostChars (v : InstanceValue) : List Char := v.host.chars ++ v.beforeInstance.chars

/-- The port behind the instance, which a comma separates from it. -/
def portChars (v : InstanceValue) : List Char :=
  ServerForm.portChars v.spaces (v.port.map fun p => (.comma, p))

def chars (v : InstanceValue) : List Char :=
  v.left.chars ++ ((v.tcp.map TcpPrefix.chars).getD [] ++ v.hostChars ++
    '\\' :: (v.instanceName ++ v.portChars)) ++ v.right.chars

/-- The same server without the instance, written `host,port`. -/
def form (v : InstanceValue) : ServerForm := .name v.host (v.port.map fun p => (.comma, p))

/-- The value begins with `.\`, which names an instance of the local machine. -/
def IsLocal (v : InstanceValue) : Prop :=
  v.host.chars = ['.'] ∧ v.beforeInstance.chars = [] ∧
    ∀ t, v.tcp = some t → t.spaces.chars = []

/-! ### The text in front of the instance -/

theorem hostChars_cases (v : InstanceValue) {c : Char} (hc : c ∈ v.hostChars) :
    isNameChar c = true ∨ isNumberWhite c = true := by
  obtain hhost | hwhite := List.mem_append.mp hc
  · exact .inl (v.host.valid c hhost)
  · exact .inr (v.beforeInstance.white c hwhite)

theorem not_mem_hostChars (v : InstanceValue) {c : Char} (hname : isNameChar c = false)
    (hwhite : isNumberWhite c = false) : c ∉ v.hostChars := by
  intro hmem
  obtain h | h := v.hostChars_cases hmem
  · rw [hname] at h
    cases h
  · rw [hwhite] at h
    cases h

end InstanceValue

theorem ascii_of_isNumberWhite {c : Char} (h : isNumberWhite c = true) : c.val < 128 := by
  simp only [isNumberWhite, Bool.or_eq_true, Bool.and_eq_true, decide_eq_true_eq] at h
  have hnat : c.toNat < 128 := by omega
  exact UInt32.lt_iff_toNat_lt.mpr hnat

theorem InstanceValue.ascii_hostChars (v : InstanceValue) {c : Char} (hc : c ∈ v.hostChars) :
    c.val < 128 := by
  obtain h | h := v.hostChars_cases hc
  · exact UInt32.lt_iff_toNat_lt.mpr (toNat_lt_of_isHostChar (by simp [isHostChar, h]))
  · exact ascii_of_isNumberWhite h

/-- A suffix that is discarded begins behind the backslash. -/
theorem trimDiscardableSuffix_instance {host : List Char} (hslash : '/' ∉ host)
    (rest : List Char) :
    ∃ rest', trimDiscardableSuffix (host ++ '\\' :: rest) = host ++ '\\' :: rest' := by
  have hnot : '/' ∉ host ++ ['\\'] := by simp [hslash]
  unfold trimDiscardableSuffix
  rcases hsplit : splitAtLast '/' (host ++ '\\' :: rest) with _ | ⟨before, suffix⟩
  · exact ⟨rest, rfl⟩
  · have hcut := (splitAtLast_eq_some hsplit).1
    have hcut : ∃ rest', before = host ++ '\\' :: rest' := by
      rw [List.append_cons, List.append_eq_append_iff] at hcut
      obtain ⟨l, hl, _⟩ | ⟨l, hl, hl'⟩ := hcut
      · exact ⟨l, by rw [hl, List.append_assoc]; rfl⟩
      · cases l with
        | nil => exact ⟨[], by rw [List.append_nil] at hl; exact hl.symm⟩
        | cons c l =>
          -- The slash would stand in the host.
          have hc : c = '/' := (List.cons.inj hl').1.symm
          exact absurd (by rw [hl, hc]; simp) hnot
    obtain ⟨rest', hrest⟩ := hcut
    simp only
    split
    · exact ⟨rest, rfl⟩
    · split
      · exact ⟨rest, rfl⟩
      · exact ⟨rest', hrest⟩

section

variable [InvariantCulture]

omit [InvariantCulture] in
theorem tcp_ascii : ∀ c ∈ "tcp:".toList, c.val < 128 ∧ c ≠ '\\' := by decide

/-- No text with a host before a backslash begins with `tcp:`. -/
theorem startsWith_tcp_instance (v : InstanceValue) (rest : List Char) :
    startsWithIgnoreCase "tcp:".toList (v.hostChars ++ '\\' :: rest) = false :=
  startsWithIgnoreCase_cut (c := ':') (by decide)
    (fun _ hc => toUpperInvariant_ne (by decide) (v.ascii_hostChars hc) (by decide)
      (ne_of_mem_of_not_mem hc (v.not_mem_hostChars (by decide) (by decide))))
    (fun c hc => toUpperInvariant_ne (by decide) (tcp_ascii c hc).1 (by decide) (tcp_ascii c hc).2)
    rest

omit [InvariantCulture] in
theorem trimChars_instance (v : InstanceValue) :
    ∃ rest, trimChars v.chars =
      (v.tcp.map TcpPrefix.chars).getD [] ++ (v.hostChars ++ '\\' :: rest) := by
  generalize hcut : (v.tcp.map TcpPrefix.chars).getD [] = tcp
  have hchars : v.chars = v.left.chars ++
      (tcp ++ v.hostChars ++ ['\\'] ++ (v.instanceName ++ v.portChars ++ v.right.chars)) := by
    unfold InstanceValue.chars
    rw [hcut]
    simp
  have hhead : ∀ c ∈ (tcp ++ v.hostChars ++ ['\\']).head?, isWhiteSpace c = false := by
    intro c hc
    rcases htcp : v.tcp with _ | t
    · rw [htcp] at hcut
      subst hcut
      have hhost := List.head?_eq_some_head v.host.nonempty
      refine v.host.isHostText.head?_white c ?_
      simpa [InstanceValue.hostChars, List.head?_append, hhost] using hc
    · rw [htcp] at hcut
      subst hcut
      obtain ⟨d, ds, hds, hblank⟩ := t.exists_cons
      simp only [Option.map_some, Option.getD_some, hds, List.cons_append, List.head?_cons,
        Option.mem_some_iff] at hc
      exact hc ▸ hblank
  have hlast : ∀ c ∈ (tcp ++ v.hostChars ++ ['\\']).getLast?, isWhiteSpace c = false := by
    intro c hc
    rw [List.getLast?_concat] at hc
    cases hc
    decide
  refine ⟨(v.instanceName ++ v.portChars ++ v.right.chars).rdropWhile isWhiteSpace, ?_⟩
  have hpad := trimBy_pad v.left.isWhiteSpace
    (tcp ++ v.hostChars ++ ['\\'] ++ (v.instanceName ++ v.portChars ++ v.right.chars))
    (r := []) (List.forall_mem_nil _)
  rw [List.append_nil] at hpad
  unfold trimChars
  rw [hchars, hpad, trimBy_append (by simp) hhead hlast]
  simp

/-- What is left of the value once white space, prefix and suffix are off: the host up to the
    backslash, and something behind it. -/
theorem trimDiscardable_instance (v : InstanceValue) :
    ∃ (w : Spaces) (rest : List Char),
      trimDiscardable (trimChars v.chars) = w.chars ++ v.hostChars ++ '\\' :: rest ∧
      (w.chars = [] ↔ ∀ t, v.tcp = some t → t.spaces.chars = []) := by
  obtain ⟨rest, htrim⟩ := trimChars_instance v
  have hslash : '/' ∉ v.hostChars := v.not_mem_hostChars (by decide) (by decide)
  rw [htrim]
  rcases v.tcp with _ | t
  · obtain ⟨rest', hsuffix⟩ := trimDiscardableSuffix_instance hslash rest
    refine ⟨.none, rest', ?_, ⟨fun _ t ht => (by cases ht), fun _ => rfl⟩⟩
    show trimDiscardable (v.hostChars ++ '\\' :: rest) = v.hostChars ++ '\\' :: rest'
    unfold trimDiscardable
    rw [startsWith_tcp_instance, if_neg Bool.false_ne_true]
    exact hsuffix
  · have hslash' : '/' ∉ t.spaces.chars ++ v.hostChars := by
      have := t.spaces.not_mem (c := '/') (by decide)
      simp [*]
    obtain ⟨rest', hsuffix⟩ := trimDiscardableSuffix_instance hslash' rest
    refine ⟨t.spaces, rest', ?_, ?_⟩
    · show trimDiscardable (t.chars ++ (v.hostChars ++ '\\' :: rest)) = _
      rw [trimDiscardable_tcp, ← List.append_assoc]
      exact hsuffix
    · constructor
      · rintro h t' ⟨rfl⟩
        exact h
      · intro h
        exact h t rfl

/-- Such a value names the local machine exactly when nothing but `.` is before the backslash. -/
theorem startsWith_userInstance_iff {host : List Char} (hascii : ∀ c ∈ host, c.val < 128)
    (hnot : '\\' ∉ host) (rest : List Char) :
    startsWithIgnoreCase ".\\".toList (host ++ '\\' :: rest) = true ↔ host = ['.'] := by
  match host with
  | [] =>
    constructor
    · intro h
      have hne : startsWithIgnoreCase ".\\".toList ('\\' :: rest) = false :=
        startsWithIgnoreCase_cons_ne (by decide) (by decide) (by decide) _ _
      exact absurd h (by rw [List.nil_append, hne]; decide)
    · intro h
      cases h
  | [c] =>
    have hboth : ∀ d ∈ ([c] ++ '\\' :: rest).take ".\\".toList.length, d.val < 128 := by
      intro d hd
      have hd' : d = c ∨ d = '\\' := by simpa using hd
      obtain rfl | rfl := hd'
      · exact hascii d (by simp)
      · decide
    rw [startsWithIgnoreCase_ascii (by decide) hboth, decide_eq_true_eq]
    have hupper : c.toUpper = '.' ↔ c = '.' :=
      toUpper_eq_iff_of_not_letter (s := '.') (by decide)
    rw [List.cons.injEq, ← hupper]
    simp
  | c :: d :: cs =>
    constructor
    · intro h
      have htake : (c :: d :: cs ++ '\\' :: rest).take ".\\".toList.length = [c, d] := rfl
      have hboth : ∀ e ∈ (c :: d :: cs ++ '\\' :: rest).take ".\\".toList.length,
          e.val < 128 := by
        rw [htake]
        intro e he
        exact hascii e (List.mem_append_left cs he)
      have hmem := mem_of_startsWithIgnoreCase (c := '\\') (by decide) hboth h (by decide)
        (by decide)
      rw [htake] at hmem
      exact absurd (List.mem_append_left cs hmem) hnot
    · intro h
      cases h

/-- A text does not begin with an opening parenthesis unless its first character is one. -/
theorem startsWith_localDb_cons {c : Char} (hascii : c.val < 128) (hopen : c ≠ '(')
    (cs : List Char) : startsWithIgnoreCase "(LocalDB)".toList (c :: cs) = false :=
  startsWithIgnoreCase_cons_ne (by decide) hascii
    (fun h => hopen ((toUpper_eq_iff_of_not_letter (s := '(') (by decide)).mp h)) _ _

omit [InvariantCulture] in
/-- The value is local when the parser sees a dot and nothing else before the instance. -/
theorem InstanceValue.isLocal_iff (v : InstanceValue) {w : Spaces}
    (hw : w.chars = [] ↔ ∀ t, v.tcp = some t → t.spaces.chars = []) :
    v.IsLocal ↔ w.chars ++ v.hostChars = ['.'] := by
  constructor
  · rintro ⟨hhost, hbefore, htcp⟩
    rw [hw.mpr htcp, InstanceValue.hostChars, hhost, hbefore]
    rfl
  · intro h
    obtain ⟨hwnil, hhost⟩ | ⟨_, hhost⟩ := List.append_eq_singleton_iff.mp h
    · obtain ⟨hnil, _⟩ | ⟨hdot, hbefore⟩ := List.append_eq_singleton_iff.mp hhost
      · exact absurd hnil v.host.nonempty
      · exact ⟨hdot, hbefore, hw.mp hwnil⟩
    · exact absurd hhost (List.append_ne_nil_of_left_ne_nil v.host.nonempty _)

omit [InvariantCulture] in
/-- Without the instance the value is the host. -/
theorem InstanceValue.parse_hostChars (v : InstanceValue) (w : Spaces) :
    parseServerWithOptionalPort (w.chars ++ v.hostChars) .new =
      .ok (Destination.new.setAddress (String.ofList v.host.chars)) := by
  have htrim : trimChars (w.chars ++ v.hostChars) = v.host.chars := by
    unfold InstanceValue.hostChars
    rw [← List.append_assoc]
    exact v.host.isHostText.trimChars_pad w v.beforeInstance
  rw [parseServerWithOptionalPort_eq, htrim, if_neg v.host.nonempty,
    serverParts_whole (v.host.not_mem (by decide)) (v.host.not_mem (by decide))]
  rfl

/-- What a value with an instance gives. -/
theorem parseServerValue_instance
    (parse : List Char → Destination → Except FormatException Destination) (v : InstanceValue) :
    (v.IsLocal → parseServerValue parse (trimChars v.chars) .new =
      .ok (Destination.new.setAddress "localhost")) ∧
    (¬v.IsLocal → parseServerValue parse (trimChars v.chars) .new =
      .ok (Destination.new.setAddress (String.ofList v.host.chars))) := by
  obtain ⟨w, rest, hvalue, hw⟩ := trimDiscardable_instance v
  have hascii : ∀ c ∈ w.chars ++ v.hostChars, c.val < 128 := by
    intro c hc
    obtain hspace | hhost := List.mem_append.mp hc
    · exact ascii_of_isNumberWhite (w.white c hspace)
    · exact v.ascii_hostChars hhost
  have hnot (c : Char) (hname : isNameChar c = false) (hwhite : isNumberWhite c = false) :
      c ∉ w.chars ++ v.hostChars := by
    have := w.not_mem hwhite
    have := v.not_mem_hostChars hname hwhite
    simp [*]
  have huser := startsWith_userInstance_iff hascii (hnot '\\' (by decide) (by decide)) rest
  have hne : v.hostChars ≠ [] := List.append_ne_nil_of_left_ne_nil v.host.nonempty _
  have hlocal := v.isLocal_iff hw
  obtain ⟨c, cs, hcs⟩ := List.exists_cons_of_ne_nil (List.append_ne_nil_of_right_ne_nil w.chars hne)
  have hopen : c ≠ '(' := by
    rintro rfl
    exact hnot '(' (by decide) (by decide) (by simp [hcs])
  have hlocalDb : startsWithIgnoreCase "(LocalDB)".toList
      (w.chars ++ v.hostChars ++ '\\' :: rest) = false := by
    rw [hcs]
    exact startsWith_localDb_cons (hascii c (by simp [hcs])) hopen _
  have hnested : hasNestedStructure (w.chars ++ v.hostChars ++ '\\' :: rest) = false := by
    simp [hasNestedStructure, hcs, hopen]
  constructor
  · intro h
    unfold parseServerValue
    simp only [hvalue, huser.mpr (hlocal.mp h)]
    simp [Destination.addressHasValue, Destination.new]
  · intro h
    have hstart : startsWithIgnoreCase ".\\".toList
        (w.chars ++ v.hostChars ++ '\\' :: rest) = false := by
      rw [Bool.eq_false_iff]
      exact fun hs => h (hlocal.mpr (huser.mp hs))
    unfold parseServerValue
    simp only [hvalue, hlocalDb, hstart, hnested,
      splitAtFirst_append (hnot '\\' (by decide) (by decide)), v.parse_hostChars w]
    rfl

omit [InvariantCulture] in
theorem InstanceValue.semicolon_not_mem (v : InstanceValue) : ';' ∉ v.chars := by
  have := v.left.not_mem (c := ';') (by decide)
  have := v.right.not_mem (c := ';') (by decide)
  have := v.not_mem_hostChars (c := ';') (by decide) (by decide)
  have := v.instance_separators.2.2
  have htcp : ';' ∉ (v.tcp.map TcpPrefix.chars).getD [] := by
    rcases v.tcp with _ | t
    · exact List.not_mem_nil
    · exact t.not_mem (by decide) (by decide) (by decide)
  have hport : ';' ∉ v.portChars := by
    intro hmem
    obtain h | h | h := ServerForm.portChars_cases v.spaces _ hmem
    · exact absurd h (by decide)
    · exact absurd h (by decide)
    · exact absurd h (by decide)
  simp [InstanceValue.chars, *]

omit [InvariantCulture] in
theorem InstanceValue.address_destination (v : InstanceValue) :
    v.form.destination.address = .set (some (String.ofList v.host.chars)) := by
  unfold ServerForm.destination
  cases v.form.port <;> rfl

/-- The host and the port of a server with an instance come back exactly when there is no port
    and the server is not an instance `.\` of the local machine. -/
theorem extractDestination_instance_iff (p : ServerPair) (v : InstanceValue) :
    extractDestination (p.connectionString v.chars) = some v.form.destination ↔
      v.port = none ∧ ¬v.IsLocal := by
  rw [extractDestination_eq, parseConnectionString_serverPair p v.semicolon_not_mem]
  obtain ⟨hlocal, hhost⟩ := parseServerValue_instance (parseNestedStructure maxNestingDepth) v
  by_cases h : v.IsLocal
  · rw [hlocal h]
    show some (Destination.new.setAddress "localhost") = some v.form.destination ↔ _
    constructor
    · -- The address is not the one in front of the backslash.
      intro heq
      have haddress := congrArg Destination.address (Option.some.inj heq)
      rw [v.address_destination, h.1] at haddress
      exact absurd haddress (by decide)
    · intro hnot
      exact absurd h hnot.2
  · rw [hhost h]
    show some (Destination.new.setAddress (String.ofList v.host.chars)) =
      some v.form.destination ↔ _
    constructor
    · -- With a port the destination has one.
      intro heq
      refine ⟨?_, h⟩
      cases hport : v.port with
      | none => rfl
      | some port =>
        have hset := congrArg Destination.port (Option.some.inj heq)
        simp only [InstanceValue.form, ServerForm.destination, ServerForm.port, hport] at hset
        cases hset
    · rintro ⟨hport, -⟩
      simp [InstanceValue.form, ServerForm.destination, ServerForm.port, ServerForm.address,
        hport]

end

section

attribute [local instance] InvariantCulture.ascii

/-- `db\inst,1433`. -/
def instanceWithPort : InstanceValue where
  left := .none
  tcp := none
  host := ⟨"db".toList, by decide, by decide⟩
  beforeInstance := .none
  instanceName := "inst".toList
  instance_separators := by decide
  spaces := .none
  port := some ⟨1433, by decide⟩
  right := .none

theorem extractDestination_instance_counterexample :
    ¬∀ (p : ServerPair) (v : InstanceValue),
      extractDestination (p.connectionString v.chars) = some v.form.destination := by
  intro h
  have hlost := h onlyServer instanceWithPort
  rw [extractDestination_eq] at hlost
  exact absurd hlost (by decide +kernel)

end

end DbConnectionStringParser

end ApmAgent
