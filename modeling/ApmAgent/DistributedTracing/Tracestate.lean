import ApmAgent.DistributedTracing.TraceContext
import ApmAgent.Framework.Split

/-! # Validating `tracestate`

  What `ValidateTracestate` does with a header: it reads the characters of keys
  and values by index, leaves members without exactly one `=` out, and gives
  the whole header up for a member it rejects.

  * `validateTracestateByIndex_eq`: no index is out of range;
  * `wellFormedResult_iff`: the result is a well-formed header that is accepted
    as it is again, unless a member of an accepted header has an empty key,
    which the code does not reject.
-/

namespace ApmAgent

namespace TraceContext

/-! ### Validation by index -/

/-- The rule for a blank: `str[i - 1]` and `str[i + 1]` may throw. -/
def isBlankNextToTabByIndex (str : List Char) (i : Nat) (c : Char) :
    Except RuntimeException Bool := do
  if c ≠ ' ' then return false
  if 0 < i then
    if (← charAtIndex str (i - 1)) = '\t' then return true
  if i + 2 < str.length then
    return (← charAtIndex str (i + 1)) = '\t'
  return false

/-- The loops of `ValidateValue` and `ValidateKey`, which differ in the characters that are
    allowed everywhere. -/
def validateFrom (isAllowed : Char → Bool) (str : List Char) (i : Nat) :
    Except RuntimeException Bool :=
  if i < str.length then do
    let c ← charAtIndex str i
    if isAllowed c then validateFrom isAllowed str (i + 1)
    else if ← isBlankNextToTabByIndex str i c then validateFrom isAllowed str (i + 1)
    else return false
  else return true
termination_by str.length - i

def isValueChar (c : Char) : Bool :=
  (0x20 ≤ c.toNat && c.toNat ≤ 0x7E) || (c = '\t' && c ≠ ',' && c ≠ '=')

def isKeyChar (c : Char) : Bool :=
  ('0' ≤ c && c ≤ '9') || ('a' ≤ c && c ≤ 'z') || c = '_' || c = '-' || c = '*' ||
    c = '/' || c = '\t'

/-- `ValidateValue`. -/
def validateValueByIndex (str : List Char) : Except RuntimeException Bool :=
  if str = [] then return false else validateFrom isValueChar str 0

/-- `ValidateKey`. -/
def validateKeyByIndex (str : List Char) : Except RuntimeException Bool :=
  validateFrom isKeyChar str 0

/-- The tests of a key. -/
def isMemberKeyValidByIndex (key : List Char) : Except RuntimeException Bool :=
  if key.contains '@' then
    match key.splitOn '@' with
    | [tenant, system] =>
      if tenant = [] || 241 < tenant.length then return false
      else if system = [] || 14 < system.length then return false
      else do
        if ← validateKeyByIndex tenant then validateKeyByIndex system else return false
    | _ => return false
  else validateKeyByIndex key

/-- The loop of `ValidateTracestate`. -/
def validateMembersByIndex :
    List (List Char) → List (List Char) → List Char →
      Except RuntimeException (Option (List Char))
  | [], _, sb => return some sb
  | listMember :: rest, set, sb =>
    match listMember.splitOn '=' with
    | [key, value] =>
      if set.contains key then return none
      else if 256 < key.length then return none
      else do
        if !(← isMemberKeyValidByIndex key) then return none
        else if !(← validateValueByIndex value) then return none
        else
          let sb := if sb.length ≠ 0 then sb ++ [','] else sb
          validateMembersByIndex rest (key :: set) (sb ++ listMember)
    | _ => validateMembersByIndex rest set sb

/-- `TraceContext.ValidateTracestate`. -/
def validateTracestateByIndex (traceState : String) :
    Except RuntimeException (Option String) :=
  if isNullOrEmpty (some traceState) then return none
  else
    let listMembers := traceState.toList.splitOn ','
    if listMembers = [] || 32 < listMembers.length then return none
    else do
      match ← validateMembersByIndex listMembers [] [] with
      | none => return none
      | some sb =>
        return if sb.length ≠ traceState.length then some (String.ofList sb) else some traceState

/-! ### No index is out of range -/

theorem isBlankNextToTabByIndex_eq {str : List Char} {i : Nat} (hi : i < str.length) (c : Char) :
    isBlankNextToTabByIndex str i c = .ok (isBlankNextToTab str i c) := by
  have hbefore : charAtIndex str (i - 1) = .ok str[i - 1] :=
    charAtIndex_of_some (List.getElem?_eq_getElem (by omega))
  have hbefore' : str[i - 1]? = some str[i - 1] := List.getElem?_eq_getElem (by omega)
  unfold isBlankNextToTabByIndex isBlankNextToTab
  rw [hbefore, hbefore']
  by_cases hlast : i + 2 < str.length
  · have hafter : charAtIndex str (i + 1) = .ok str[i + 1] :=
      charAtIndex_of_some (List.getElem?_eq_getElem (by omega))
    have hafter' : str[i + 1]? = some str[i + 1] := List.getElem?_eq_getElem (by omega)
    rw [hafter, hafter']
    by_cases hc : c = ' ' <;> by_cases hfirst : 0 < i <;>
      by_cases htab : str[i - 1] = '\t' <;>
      simp [hc, hfirst, hlast, htab, bind, Except.bind, pure, Except.pure]
  · by_cases hc : c = ' ' <;> by_cases hfirst : 0 < i <;>
      by_cases htab : str[i - 1] = '\t' <;>
      simp [hc, hfirst, hlast, htab, bind, Except.bind, pure, Except.pure]

/-- The loop goes through the characters with their indices. -/
theorem validateFrom_eq (isAllowed : Char → Bool) {str rest : List Char} {i : Nat}
    (hrest : str.drop i = rest) :
    validateFrom isAllowed str i =
      .ok ((rest.zipIdx i).all fun (c, j) => isAllowed c || isBlankNextToTab str j c) := by
  induction rest generalizing i with
  | nil =>
    have hlength : str.length ≤ i := List.drop_eq_nil_iff.mp hrest
    rw [validateFrom, if_neg (Nat.not_lt.mpr hlength)]
    rfl
  | cons c rest ih =>
    have hi : i < str.length := by
      rw [← not_le, ← List.drop_eq_nil_iff, hrest]
      exact List.cons_ne_nil c rest
    have hc : str[i]? = some c := by
      rw [← List.head?_drop, hrest]
      rfl
    have hnext : str.drop (i + 1) = rest := by
      rw [← List.tail_drop, hrest]
      rfl
    rw [validateFrom, if_pos hi, charAtIndex_of_some hc, List.zipIdx_cons, List.all_cons]
    show (if isAllowed c = true then validateFrom isAllowed str (i + 1) else _) =
      .ok ((isAllowed c || isBlankNextToTab str i c) && _)
    rw [isBlankNextToTabByIndex_eq hi, ih hnext]
    cases isAllowed c with
    | true => rfl
    | false =>
      cases hblank : isBlankNextToTab str i c with
      | true => rfl
      | false => rfl

theorem validateValueByIndex_eq (str : List Char) :
    validateValueByIndex str = .ok (validateValue str) := by
  unfold validateValueByIndex validateValue
  by_cases hnil : str = []
  · rw [if_pos hnil, hnil]
    rfl
  · rw [if_neg hnil, validateFrom_eq isValueChar (List.drop_zero), decide_eq_true hnil]
    rfl

theorem validateKeyByIndex_eq (str : List Char) :
    validateKeyByIndex str = .ok (validateKey str) := by
  unfold validateKeyByIndex validateKey
  rw [validateFrom_eq isKeyChar (List.drop_zero)]
  rfl

theorem isMemberKeyValidByIndex_eq (key : List Char) :
    isMemberKeyValidByIndex key = .ok (isMemberKeyValid key) := by
  unfold isMemberKeyValidByIndex isMemberKeyValid
  simp only [validateKeyByIndex_eq]
  split
  · -- How many parts there are.
    rcases hsplit : key.splitOn '@' with _ | ⟨tenant, _ | ⟨system, _ | ⟨third, parts⟩⟩⟩
    · rfl
    · rfl
    · simp only
      generalize (decide (tenant = []) || decide (241 < tenant.length)) = tenantRejected
      generalize (decide (system = []) || decide (14 < system.length)) = systemRejected
      generalize validateKey tenant = tenantValid
      generalize validateKey system = systemValid
      cases tenantRejected <;> cases systemRejected <;> cases tenantValid <;>
        cases systemValid <;> rfl
    · rfl
  · rfl

theorem validateMembersByIndex_eq (listMembers set : List (List Char)) (sb : List Char) :
    validateMembersByIndex listMembers set sb = .ok (validateMembers listMembers set sb) := by
  induction listMembers generalizing set sb with
  | nil => rfl
  | cons listMember rest ih =>
    unfold validateMembersByIndex validateMembers
    rcases hsplit : listMember.splitOn '=' with _ | ⟨key, _ | ⟨value, _ | ⟨third, parts⟩⟩⟩
    · exact ih set sb
    · exact ih set sb
    · simp only [isMemberKeyValidByIndex_eq, validateValueByIndex_eq, ih]
      generalize isMemberKeyValid key = keyValid
      generalize validateValue value = valueValid
      split
      · rfl
      · split
        · rfl
        · cases keyValid <;> cases valueValid <;> rfl
    · exact ih set sb

/-- The validation throws nothing, and does what `validateTracestate` says. -/
theorem validateTracestateByIndex_eq (traceState : String) :
    validateTracestateByIndex traceState = .ok (validateTracestate traceState) := by
  unfold validateTracestateByIndex validateTracestate
  simp only [validateMembersByIndex_eq]
  split
  · rfl
  · split
    · rfl
    · cases validateMembers (traceState.toList.splitOn ',') [] [] with
      | none => rfl
      | some sb =>
        show Except.ok (if sb.length ≠ traceState.length then some (String.ofList sb)
          else some traceState) = _
        rw [Option.map_some, apply_ite some]

/-! ### Members -/

/-- The key and the value of a member with exactly one `=`. -/
def keyValue? (listMember : List Char) : Option (List Char × List Char) :=
  match listMember.splitOn '=' with
  | [key, value] => some (key, value)
  | _ => none

theorem keyValue?_eq_some_iff {listMember key value : List Char} :
    keyValue? listMember = some (key, value) ↔
      listMember = key ++ '=' :: value ∧ '=' ∉ key ∧ '=' ∉ value := by
  rw [← List.splitOn_eq_pair_iff]
  unfold keyValue?
  split
  · next k v hsplit =>
    rw [hsplit]
    simp
  · next hsplit =>
    exact ⟨nofun, fun hpair => absurd hpair (hsplit key value)⟩

/-- The text of a member. -/
def memberText (kv : List Char × List Char) : List Char := kv.1 ++ '=' :: kv.2

/-- The key is not too long, and the validators accept key and value. -/
def IsAccepted (kv : List Char × List Char) : Prop :=
  kv.1.length ≤ 256 ∧ isMemberKeyValid kv.1 = true ∧ validateValue kv.2 = true

/-- Put a member behind the text built so far. -/
def appendMember (sb listMember : List Char) : List Char :=
  (if sb.length ≠ 0 then sb ++ [','] else sb) ++ listMember

theorem validateMembers_cons (listMember : List Char) (rest set : List (List Char))
    (sb : List Char) :
    validateMembers (listMember :: rest) set sb =
      match keyValue? listMember with
      | none => validateMembers rest set sb
      | some (key, value) =>
        if set.contains key then none
        else if 256 < key.length then none
        else if !isMemberKeyValid key then none
        else if !validateValue value then none
        else validateMembers rest (key :: set) (appendMember sb listMember) := by
  rw [validateMembers]
  unfold keyValue?
  rcases listMember.splitOn '=' with _ | ⟨key, _ | ⟨value, _ | ⟨third, parts⟩⟩⟩
  · rfl
  · rfl
  · rfl
  · rfl

/-! ### The loop over the members -/

/-- The members with exactly one `=`. -/
def keyValues (listMembers : List (List Char)) : List (List Char × List Char) :=
  listMembers.filterMap keyValue?

theorem keyValues_cons_none {listMember : List Char} (rest : List (List Char))
    (h : keyValue? listMember = none) : keyValues (listMember :: rest) = keyValues rest :=
  List.filterMap_cons_none h

theorem keyValues_cons_some {listMember : List Char} {kv : List Char × List Char}
    (rest : List (List Char)) (h : keyValue? listMember = some kv) :
    keyValues (listMember :: rest) = kv :: keyValues rest :=
  List.filterMap_cons_some h

/-- The members with exactly one `=` are accepted, and have keys that differ from each other and
    from those seen before. -/
def AreAccepted (kvs : List (List Char × List Char)) (set : List (List Char)) : Prop :=
  (∀ kv ∈ kvs, IsAccepted kv ∧ kv.1 ∉ set) ∧ (kvs.map Prod.fst).Nodup

theorem areAccepted_cons {kv : List Char × List Char} {kvs : List (List Char × List Char)}
    {set : List (List Char)} :
    AreAccepted (kv :: kvs) set ↔ kv.1 ∉ set ∧ IsAccepted kv ∧ AreAccepted kvs (kv.1 :: set) := by
  unfold AreAccepted
  rw [List.forall_mem_cons, List.map_cons, List.nodup_cons]
  simp only [List.mem_cons, not_or, List.mem_map]
  constructor
  · rintro ⟨⟨⟨hkv, hset⟩, hkvs⟩, hkey, hnodup⟩
    refine ⟨hset, hkv, fun kv' hkv' => ⟨(hkvs kv' hkv').1, ?_, (hkvs kv' hkv').2⟩, hnodup⟩
    exact fun hsame => hkey ⟨kv', hkv', hsame⟩
  · rintro ⟨hset, hkv, hkvs, hnodup⟩
    refine ⟨⟨⟨hkv, hset⟩, fun kv' hkv' => ⟨(hkvs kv' hkv').1, (hkvs kv' hkv').2.2⟩⟩, ?_, hnodup⟩
    rintro ⟨kv', hkv', hsame⟩
    exact (hkvs kv' hkv').2.1 hsame

/-- The loop gives up at a member that is not accepted, and at a key it has seen; otherwise it
    puts the members with exactly one `=` together. -/
theorem validateMembers_eq_some_iff {listMembers set : List (List Char)} {sb sb' : List Char} :
    validateMembers listMembers set sb = some sb' ↔
      AreAccepted (keyValues listMembers) set ∧
        sb' = ((keyValues listMembers).map memberText).foldl appendMember sb := by
  induction listMembers generalizing set sb with
  | nil =>
    have hnil : AreAccepted (keyValues []) set := ⟨List.forall_mem_nil _, List.nodup_nil⟩
    constructor
    · intro h
      cases h
      exact ⟨hnil, rfl⟩
    · rintro ⟨-, rfl⟩
      rfl
  | cons listMember rest ih =>
    rw [validateMembers_cons]
    cases hmember : keyValue? listMember with
    | none =>
      rw [keyValues_cons_none rest hmember]
      exact ih
    | some kv =>
      obtain ⟨key, value⟩ := kv
      rw [keyValues_cons_some rest hmember]
      have htext : memberText (key, value) = listMember :=
        (keyValue?_eq_some_iff.mp hmember).1.symm
      rw [areAccepted_cons, List.map_cons, List.foldl_cons, htext, and_assoc, and_assoc, ← ih]
      simp only [IsAccepted]
      by_cases hseen : set.contains key = true
      · simp [List.contains_iff_mem.mp hseen]
      · have hnew : key ∉ set := fun hmem => hseen (List.contains_iff_mem.mpr hmem)
        rw [if_neg hseen]
        by_cases hlength : 256 < key.length
        · simp [hlength, Nat.not_le.mpr hlength]
        · rw [if_neg hlength]
          cases isMemberKeyValid key with
          | false => simp
          | true =>
            cases validateValue value with
            | false => simp
            | true => simp [hnew, Nat.not_lt.mp hlength]

/-! ### The whole header -/

/-- The text built is that of the members, with commas in between. -/
theorem foldl_appendMember {kvs : List (List Char × List Char)} :
    (kvs.map memberText).foldl appendMember [] = [','].intercalate (kvs.map memberText) := by
  -- Behind the first member the text built so far is not empty.
  have hrest (kvs : List (List Char × List Char)) (kv : List Char × List Char) (sb : List Char) :
      (kvs.map memberText).foldl appendMember (sb ++ memberText kv) =
        sb ++ [','].intercalate ((kv :: kvs).map memberText) := by
    induction kvs generalizing kv sb with
    | nil => rw [List.map_cons, List.map_nil, List.intercalate_singleton, List.foldl_nil]
    | cons kv' kvs ih =>
      have hne : (sb ++ memberText kv).length ≠ 0 := by
        simp only [memberText, List.length_append, List.length_cons]
        omega
      have happend : appendMember (sb ++ memberText kv) (memberText kv') =
          (sb ++ memberText kv ++ [',']) ++ memberText kv' := by
        rw [appendMember, if_pos hne]
      rw [List.map_cons, List.foldl_cons, happend, ih, List.map_cons, List.map_cons,
        List.map_cons, List.intercalate_cons_cons]
      simp only [List.append_assoc]
  cases kvs with
  | nil => rfl
  | cons kv kvs => exact hrest kvs kv []

/-- The members with exactly one `=` are some of all members. -/
theorem map_memberText_keyValues (listMembers : List (List Char)) :
    ((keyValues listMembers).map memberText).Sublist listMembers := by
  induction listMembers with
  | nil => exact List.Sublist.slnil
  | cons listMember rest ih =>
    cases hmember : keyValue? listMember with
    | none =>
      rw [keyValues_cons_none rest hmember]
      exact ih.cons _
    | some kv =>
      obtain ⟨key, value⟩ := kv
      rw [keyValues_cons_some rest hmember, (keyValue?_eq_some_iff.mp hmember).1]
      exact ih.cons_cons _

/-- The header is validated at all: it is not empty, and has at most 32 members. -/
def HasFewMembers (traceState : String) : Prop :=
  traceState ≠ "" ∧ (traceState.toList.splitOn ',').length ≤ 32

/-- The text of the members with exactly one `=` is the header where it is as long. -/
theorem intercalate_keyValues_eq {traceState : String}
    (hlength : ([','].intercalate ((keyValues (traceState.toList.splitOn ',')).map
      memberText)).length = traceState.length) :
    [','].intercalate ((keyValues (traceState.toList.splitOn ',')).map memberText) =
      traceState.toList := by
  have hsub := List.intercalate_sublist [',']
    (map_memberText_keyValues (traceState.toList.splitOn ','))
  rw [List.intercalate_splitOn] at hsub
  exact hsub.eq_of_length (by rw [hlength, String.length_toList])

/-- What the validation returns. -/
theorem validateTracestate_eq_some_iff {traceState t : String} :
    validateTracestate traceState = some t ↔
      HasFewMembers traceState ∧ AreAccepted (keyValues (traceState.toList.splitOn ',')) [] ∧
        t.toList = [','].intercalate
          ((keyValues (traceState.toList.splitOn ',')).map memberText) := by
  have hempty : isNullOrEmpty (some traceState) = true ↔ traceState = "" := by
    simp [isNullOrEmpty]
  have hne : traceState.toList.splitOn ',' ≠ [] := List.splitOn_ne_nil _ _
  unfold validateTracestate HasFewMembers
  by_cases hnull : traceState = ""
  · rw [if_pos (hempty.mpr hnull)]
    exact ⟨nofun, fun h => absurd hnull h.1.1⟩
  · rw [if_neg (fun h => hnull (hempty.mp h))]
    simp only [decide_eq_false hne, Bool.false_or, decide_eq_true_eq]
    by_cases hmany : 32 < (traceState.toList.splitOn ',').length
    · rw [if_pos hmany]
      exact ⟨nofun, fun h => absurd h.1.2 (Nat.not_le.mpr hmany)⟩
    · rw [if_neg hmany, Option.map_eq_some_iff]
      simp only [validateMembers_eq_some_iff, foldl_appendMember]
      constructor
      · rintro ⟨sb, ⟨haccepted, rfl⟩, rfl⟩
        refine ⟨⟨hnull, Nat.not_lt.mp hmany⟩, haccepted, ?_⟩
        split
        · exact String.toList_ofList
        · next hlength => exact (intercalate_keyValues_eq (not_not.mp hlength)).symm
      · rintro ⟨-, haccepted, ht⟩
        refine ⟨_, ⟨haccepted, rfl⟩, ?_⟩
        rw [← String.toList_inj, ht]
        split
        · exact String.toList_ofList
        · next hlength => exact (intercalate_keyValues_eq (not_not.mp hlength)).symm

/-! ### Well-formed headers -/

/-- `t` is put together from members of `traceState`, given by their keys and values. -/
structure IsTracestateOf (traceState t : String) (kvs : List (List Char × List Char)) : Prop where
  text : t.toList = [','].intercalate (kvs.map memberText)
  members : (kvs.map memberText).Sublist (traceState.toList.splitOn ',')
  count : kvs.length ≤ 32
  oneEquals : ∀ kv ∈ kvs, '=' ∉ kv.1 ∧ '=' ∉ kv.2
  keys : ∀ kv ∈ kvs, kv.1 ≠ [] ∧ kv.1.length ≤ 256 ∧ isMemberKeyValid kv.1 = true
  values : ∀ kv ∈ kvs, kv.2 ≠ [] ∧ validateValue kv.2 = true
  distinct : (kvs.map Prod.fst).Nodup

/-- The validation throws nothing; a result that is neither null nor empty is put together from
    members of the header, and is its own result. -/
def WellFormedResult (traceState : String) : Prop :=
  ∃ result, validateTracestateByIndex traceState = .ok result ∧
    ∀ t, result = some t → t ≠ "" →
      (∃ kvs, IsTracestateOf traceState t kvs) ∧ validateTracestateByIndex t = .ok (some t)

/-- A header put together from members of another one has these members. -/
theorem splitOn_intercalate_members {traceState : String}
    {kvs : List (List Char × List Char)}
    (hmembers : (kvs.map memberText).Sublist (traceState.toList.splitOn ','))
    (hne : [','].intercalate (kvs.map memberText) ≠ []) :
    ([','].intercalate (kvs.map memberText)).splitOn ',' = kvs.map memberText := by
  refine List.splitOn_intercalate ',' (fun l hl => ?_) ?_
  · exact List.not_mem_of_mem_splitOn (hmembers.subset hl)
  · intro hnil
    rw [hnil] at hne
    exact hne rfl

theorem keyValue?_memberText {kv : List Char × List Char} (h : '=' ∉ kv.1 ∧ '=' ∉ kv.2) :
    keyValue? (memberText kv) = some kv :=
  keyValue?_eq_some_iff.mpr ⟨rfl, h⟩

theorem keyValues_map_memberText {kvs : List (List Char × List Char)}
    (h : ∀ kv ∈ kvs, '=' ∉ kv.1 ∧ '=' ∉ kv.2) : keyValues (kvs.map memberText) = kvs := by
  induction kvs with
  | nil => rfl
  | cons kv kvs ih =>
    obtain ⟨hkv, hkvs⟩ := List.forall_mem_cons.mp h
    rw [List.map_cons, keyValues_cons_some _ (keyValue?_memberText hkv), ih hkvs]

theorem oneEquals_of_mem_keyValues {listMembers : List (List Char)}
    {kv : List Char × List Char} (h : kv ∈ keyValues listMembers) : '=' ∉ kv.1 ∧ '=' ∉ kv.2 := by
  obtain ⟨listMember, -, hmember⟩ := List.mem_filterMap.mp h
  exact (keyValue?_eq_some_iff.mp hmember).2

/-- The result of the validation, where no key in it is empty. -/
theorem isTracestateOf_of_eq_some {traceState t : String}
    (h : validateTracestate traceState = some t)
    (hkeys : ∀ kv ∈ keyValues (traceState.toList.splitOn ','), kv.1 ≠ []) :
    IsTracestateOf traceState t (keyValues (traceState.toList.splitOn ',')) := by
  obtain ⟨⟨-, hfew⟩, ⟨haccepted, hnodup⟩, ht⟩ := validateTracestate_eq_some_iff.mp h
  have hmembers := map_memberText_keyValues (traceState.toList.splitOn ',')
  refine ⟨ht, hmembers, ?_, fun kv hkv => oneEquals_of_mem_keyValues hkv, fun kv hkv => ?_,
    fun kv hkv => ?_, hnodup⟩
  · have hlength := hmembers.length_le
    rw [List.length_map] at hlength
    exact hlength.trans hfew
  · obtain ⟨hlength, hkey, -⟩ := (haccepted kv hkv).1
    exact ⟨hkeys kv hkv, hlength, hkey⟩
  · obtain ⟨-, -, hvalue⟩ := (haccepted kv hkv).1
    refine ⟨?_, hvalue⟩
    intro hnil
    rw [hnil] at hvalue
    cases hvalue

/-- What was put together from accepted members is accepted as it is. -/
theorem validateTracestate_result {traceState t : String}
    (h : validateTracestate traceState = some t) (hne : t ≠ "") :
    validateTracestate t = some t := by
  obtain ⟨⟨-, hfew⟩, haccepted, ht⟩ := validateTracestate_eq_some_iff.mp h
  have hmembers := map_memberText_keyValues (traceState.toList.splitOn ',')
  have hsplit : t.toList.splitOn ',' =
      (keyValues (traceState.toList.splitOn ',')).map memberText := by
    rw [ht]
    refine splitOn_intercalate_members hmembers ?_
    rw [← ht]
    exact fun hnil => hne (String.toList_eq_nil_iff.mp hnil)
  rw [validateTracestate_eq_some_iff, hsplit,
    keyValues_map_memberText fun kv hkv => oneEquals_of_mem_keyValues hkv]
  refine ⟨⟨hne, ?_⟩, haccepted, ht⟩
  rw [hsplit]
  exact hmembers.length_le.trans hfew

/-- A well-formed header has no member with an empty key. -/
theorem IsTracestateOf.keys_ne_nil {traceState t : String}
    {kvs : List (List Char × List Char)} (h : IsTracestateOf traceState t kvs) (hne : t ≠ "")
    {kv : List Char × List Char} (hmember : memberText kv ∈ t.toList.splitOn ',') :
    kv.1 ≠ [] := by
  have hnil : [','].intercalate (kvs.map memberText) ≠ [] := by
    rw [← h.text]
    exact fun hnil => hne (String.toList_eq_nil_iff.mp hnil)
  rw [h.text, splitOn_intercalate_members h.members hnil] at hmember
  obtain ⟨kv', hkv', hsame⟩ := List.mem_map.mp hmember
  intro hempty
  -- The text of a member with a key does not start with an equals sign.
  cases hkey : kv'.1 with
  | nil => exact (h.keys kv' hkv').1 hkey
  | cons c key =>
    unfold memberText at hsame
    rw [hkey, hempty, List.cons_append, List.nil_append, List.cons.injEq] at hsame
    have hfree := (h.oneEquals kv' hkv').1
    rw [hkey, hsame.1] at hfree
    exact hfree List.mem_cons_self

/-- The result is well formed exactly for the headers that are given up, and those in which no
    member with exactly one `=` has an empty key. -/
theorem wellFormedResult_iff (traceState : String) :
    WellFormedResult traceState ↔
      (HasFewMembers traceState →
        AreAccepted (keyValues (traceState.toList.splitOn ',')) [] →
        ∀ kv ∈ keyValues (traceState.toList.splitOn ','), kv.1 ≠ []) := by
  unfold WellFormedResult
  simp only [validateTracestateByIndex_eq, Except.ok.injEq, exists_eq_left']
  constructor
  · intro h hfew haccepted kv hkv
    let members := (keyValues (traceState.toList.splitOn ',')).map memberText
    have hmembers := map_memberText_keyValues (traceState.toList.splitOn ',')
    have hresult : validateTracestate traceState =
        some (String.ofList ([','].intercalate members)) :=
      validateTracestate_eq_some_iff.mpr ⟨hfew, haccepted, String.toList_ofList⟩
    have hmem : memberText kv ∈ members := List.mem_map.mpr ⟨kv, hkv, rfl⟩
    have hnil : [','].intercalate members ≠ [] := by
      intro hnil
      have hsub := List.sublist_intercalate_of_mem [','] hmem
      rw [hnil, List.sublist_nil] at hsub
      exact List.append_ne_nil_of_right_ne_nil _ (List.cons_ne_nil _ _) hsub
    have hne : String.ofList ([','].intercalate members) ≠ "" := by
      intro hempty
      have htext := congrArg String.toList hempty
      rw [String.toList_ofList] at htext
      exact hnil htext
    obtain ⟨⟨kvs, hkvs⟩, -⟩ := h _ hresult hne
    refine hkvs.keys_ne_nil hne ?_
    rw [String.toList_ofList, splitOn_intercalate_members hmembers hnil]
    exact hmem
  · intro h t ht hne
    obtain ⟨hfew, haccepted, -⟩ := validateTracestate_eq_some_iff.mp ht
    exact ⟨⟨_, isTracestateOf_of_eq_some ht (h hfew haccepted)⟩, validateTracestate_result ht hne⟩

/-- A member with an empty key is accepted, and forwarded. -/
theorem wellFormedResult_counterexample : ¬WellFormedResult "=value" := by
  rintro ⟨result, hresult, h⟩
  have hvalue : validateTracestateByIndex "=value" = .ok (some "=value") := by
    rw [validateTracestateByIndex_eq]
    decide +kernel
  rw [hvalue] at hresult
  cases hresult
  obtain ⟨⟨kvs, hkvs⟩, -⟩ := h "=value" rfl (by decide)
  have hmember : memberText ([], "value".toList) ∈ "=value".toList.splitOn ',' := by
    decide +kernel
  exact hkvs.keys_ne_nil (by decide) hmember rfl

end TraceContext

end ApmAgent
