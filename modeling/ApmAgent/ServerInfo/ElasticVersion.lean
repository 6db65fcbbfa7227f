import ApmAgent.Framework.Comparing
import ApmAgent.Framework.Split
import ApmAgent.Helpers.Numbers
import ApmAgent.Helpers.Utf16
import Mathlib.Data.List.Lex
import Mathlib.Order.Nat

/-! # ElasticVersion

  The version of an Elastic product: three numbers and a pre-release text.
  Versions are compared by their parts, a pre-release by its identifiers, of
  which the numbers are compared as numbers. Equality and the hash code look at
  the text.

  `compare_comparesBy` gives the order of versions as one of keys.
  `isLawful_iff` says for which versions comparison, equality and hash code go
  together.
-/

namespace ApmAgent

open Comparing

/-- What versions take from the runtime. -/
class VersionRuntime where
  /-- `int.TryParse(s, out result)`, in the current culture. -/
  tryParse : String → Option Int32
  /-- `string.GetHashCode`, in one process. -/
  getHashCode : String → Int32

/-- `ElasticVersion`. The constructor that gets the parts takes them as they are, and so does
    `Change`. -/
structure ElasticVersion where
  major : Int32
  minor : Int32
  patch : Int32
  prerelease : Option String
  deriving DecidableEq

namespace ElasticVersion

/-! ### Parsing -/

/-- An optional group of the regular expression: the separator and at least one character. -/
def takeGroup (separator : Char) (p : Char → Bool) : List Char → Option (List Char) × List Char
  | [] => (none, [])
  | c :: cs =>
    if c = separator ∧ cs.takeWhile p ≠ [] then (some (cs.takeWhile p), cs.dropWhile p)
    else (none, c :: cs)

/-- The text up to the place of `$`, which may be in front of a line feed at the end. -/
def beforeEnd (cs : List Char) : List Char := if cs.getLast? = some '\n' then cs.dropLast else cs

/-- `int.Parse` on digits. -/
def parseNumber (digits : List Char) : Option Int32 :=
  if (digitsValue digits : Int) ≤ Int32.maxValue.toInt then some (Int32.ofNat (digitsValue digits))
  else none

/-- `TryParse`. Decimal digits outside ASCII match the regular expression, and then `int.Parse`
    throws. -/
def tryParse (version : String) : Option ElasticVersion :=
  let cs := beforeEnd version.toList
  let major := cs.takeWhile Char.isDigit
  let (minor, cs) := takeGroup '.' Char.isDigit (cs.dropWhile Char.isDigit)
  let (patch, cs) := takeGroup '.' Char.isDigit cs
  let (pre, cs) := takeGroup '-' Char.isAlphanum cs
  if major = [] ∨ cs ≠ [] then none
  else do
    let major ← parseNumber major
    let minor ← (minor.map parseNumber).getD (some 0)
    let patch ← (patch.map parseNumber).getD (some 0)
    pure ⟨major, minor, patch, some (String.ofList (pre.getD []))⟩

/-- `ToString`. -/
def toString (v : ElasticVersion) : String :=
  let version := s!"{v.major.toInt}.{v.minor.toInt}.{v.patch.toInt}"
  if !isNullOrEmpty v.prerelease then version ++ "-" ++ v.prerelease.getD "" else version

/-! ### Comparing -/

section

variable [VersionRuntime]

omit [VersionRuntime] in
/-- `int.CompareTo`, as all comparisons here by the sign of its result. -/
def compareInt (x y : Int32) : Ordering := ordering x.toInt y.toInt

/-- The body of the loop over the identifiers. -/
def compareIdentifier (ac bc : String) : Ordering :=
  match VersionRuntime.tryParse ac, VersionRuntime.tryParse bc with
  | some anum, some bnum => compareInt anum bnum
  | some _, none => .lt
  | none, some _ => .gt
  -- `string.CompareOrdinal`.
  | none, none => ordering (utf16 ac.toList) (utf16 bc.toList)

/-- The loop over the identifiers, and the comparison of their numbers behind it. -/
def compareIdentifiers : List String → List String → Ordering
  | ac :: aComps, bc :: bComps =>
    match compareIdentifier ac bc with
    | .eq => compareIdentifiers aComps bComps
    | r => r
  | aComps, bComps => ordering aComps.length bComps.length

/-- `CompareComponent`. -/
def compareComponent (a b : Option String) (lower : Bool) : Ordering :=
  if isNullOrEmpty a && isNullOrEmpty b then .eq
  else if isNullOrEmpty a then if lower then .gt else .lt
  else if isNullOrEmpty b then if lower then .lt else .gt
  else compareIdentifiers (split '.' (a.getD "")) (split '.' (b.getD ""))

/-- `Compare`, `CompareTo` and `CompareByPrecedence`. -/
def compare (a b : ElasticVersion) : Ordering :=
  (compareInt a.major b.major).then <| (compareInt a.minor b.minor).then <|
    (compareInt a.patch b.patch).then <| compareComponent a.prerelease b.prerelease true

omit [VersionRuntime] in
/-- `Equals`, and the operator `==`. -/
def equals (a b : ElasticVersion) : Bool :=
  a.major = b.major && a.minor = b.minor && a.patch = b.patch && a.prerelease = b.prerelease

/-- `GetHashCode`. -/
def getHashCode (v : ElasticVersion) : Except RuntimeException Int32 :=
  match v.prerelease with
  | none => .error (.other "NullReferenceException")
  | some prerelease =>
    .ok (((v.major * 31 + v.minor) * 31 + v.patch) * 31 + VersionRuntime.getHashCode prerelease)

/-- The operator `>`. -/
def gt (left right : ElasticVersion) : Bool := compare left right = .gt

/-- The operator `>=`. -/
def ge (left right : ElasticVersion) : Bool := left.equals right || left.gt right

/-- The operator `<`. -/
def lt (left right : ElasticVersion) : Bool := compare left right = .lt

/-- The operator `<=`. -/
def le (left right : ElasticVersion) : Bool := left.equals right || left.lt right

/-! ### The order of the keys -/

/-- Numbers come before texts. -/
def identifierKey (c : String) : Int ⊕ₗ List Nat :=
  match VersionRuntime.tryParse c with
  | some n => Sum.inlₗ n.toInt
  | none => Sum.inrₗ (utf16 c.toList)

omit [VersionRuntime] in
/-- The identifiers of a pre-release, `none` if the version is not a pre-release. -/
def identifiers (prerelease : Option String) : Option (List String) :=
  if isNullOrEmpty prerelease then none else some (split '.' (prerelease.getD ""))

/-- A version that is not a pre-release comes after its pre-releases. -/
def prereleaseKey (prerelease : Option String) : WithTop (List (Int ⊕ₗ List Nat)) :=
  match identifiers prerelease with
  | none => ⊤
  | some comps => (comps.map identifierKey : List (Int ⊕ₗ List Nat))

/-- What a version is ordered by. -/
def key (v : ElasticVersion) : Int ×ₗ Int ×ₗ Int ×ₗ WithTop (List (Int ⊕ₗ List Nat)) :=
  toLex (v.major.toInt, toLex (v.minor.toInt, toLex (v.patch.toInt, prereleaseKey v.prerelease)))

theorem compareIdentifier_eq (ac bc : String) :
    compareIdentifier ac bc = ordering (identifierKey ac) (identifierKey bc) := by
  unfold compareIdentifier identifierKey
  cases VersionRuntime.tryParse ac with
  | none =>
    cases VersionRuntime.tryParse bc with
    | none => exact (ordering_inr _ _).symm
    | some n => exact (ordering_inr_inl _ _).symm
  | some m =>
    cases VersionRuntime.tryParse bc with
    | none => exact (ordering_inl_inr _ _).symm
    | some n => exact (ordering_inl _ _).symm

theorem compareIdentifiers_eq (aComps bComps : List String) :
    compareIdentifiers aComps bComps =
      ordering (aComps.map identifierKey) (bComps.map identifierKey) := by
  induction aComps generalizing bComps with
  | nil =>
    cases bComps with
    | nil => rfl
    | cons bc bComps =>
      rw [List.map_nil, List.map_cons, ordering_nil_cons]
      exact ordering_eq_lt_iff.mpr (Nat.succ_pos _)
  | cons ac aComps ih =>
    cases bComps with
    | nil =>
      rw [List.map_nil, List.map_cons, ordering_cons_nil]
      exact ordering_eq_gt_iff.mpr (Nat.succ_pos _)
    | cons bc bComps =>
      rw [List.map_cons, List.map_cons, ordering_cons, ← compareIdentifier_eq, ← ih,
        compareIdentifiers]
      cases compareIdentifier ac bc <;> rfl

theorem compareComponent_eq (a b : Option String) :
    compareComponent a b true = ordering (prereleaseKey a) (prereleaseKey b) := by
  unfold compareComponent prereleaseKey identifiers
  cases isNullOrEmpty a with
  | true =>
    cases isNullOrEmpty b with
    | true => exact (ordering_self _).symm
    | false => exact (ordering_top_coe _).symm
  | false =>
    cases isNullOrEmpty b with
    | true => exact (ordering_coe_top _).symm
    | false => exact (compareIdentifiers_eq _ _).trans (ordering_coe _ _).symm

/-- Versions are compared by their keys. -/
theorem compare_comparesBy : ComparesBy compare key := by
  intro a b
  unfold compare key compareInt
  rw [ordering_pair, ordering_pair, ordering_pair, compareComponent_eq]

/-! ### The law -/

/-- Comparison, equality, the operators and the hash code go together, for a version and two
    others. -/
structure IsLawful (a b c : ElasticVersion) : Prop where
  refl : compare a a = .eq
  antisymm : (compare a b).swap = compare b a
  trans : compare a b ≠ .gt → compare b c ≠ .gt → compare a c ≠ .gt
  eq_iff : compare a b = .eq ↔ a.equals b = true
  /-- Exactly one of the operators holds. -/
  trichotomy : (a.lt b = true ∧ a.equals b = false ∧ a.gt b = false) ∨
    (a.lt b = false ∧ a.equals b = true ∧ a.gt b = false) ∨
    (a.lt b = false ∧ a.equals b = false ∧ a.gt b = true)
  le_iff : a.le b = true ↔ a.gt b = false
  ge_iff : a.ge b = true ↔ a.lt b = false
  getHashCode_defined : ∃ h, a.getHashCode = .ok h
  getHashCode_eq : a.equals b = true → a.getHashCode = b.getHashCode
  roundTrip : ∀ version, tryParse version = some a →
    ∃ v, tryParse a.toString = some v ∧ v.equals a = true

/-- The same identifier, a number counting as the same however it is written. -/
def SameIdentifier (c d : String) : Prop :=
  c = d ∨ ∃ n, VersionRuntime.tryParse c = some n ∧ VersionRuntime.tryParse d = some n

/-- The same numbers, and the same identifiers. -/
structure SameButForSpelling (a b : ElasticVersion) : Prop where
  major_eq : a.major = b.major
  minor_eq : a.minor = b.minor
  patch_eq : a.patch = b.patch
  identifiers_rel : Option.Rel (List.Forall₂ SameIdentifier) (identifiers a.prerelease)
    (identifiers b.prerelease)

variable {a b : ElasticVersion}

theorem identifierKey_eq_iff {c d : String} :
    identifierKey c = identifierKey d ↔ SameIdentifier c d := by
  rw [← ordering_eq_eq_iff, ← compareIdentifier_eq, compareIdentifier, SameIdentifier]
  cases hc : VersionRuntime.tryParse c with
  | none =>
    cases hd : VersionRuntime.tryParse d with
    | none =>
      -- Two texts.
      simp only [ordering_eq_eq_iff, utf16_injective.eq_iff, String.toList_inj]
      simp
    | some n =>
      refine iff_of_false (by simp) ?_
      rintro (rfl | ⟨m, hm, -⟩)
      · simp [hc] at hd
      · simp at hm
  | some m =>
    cases hd : VersionRuntime.tryParse d with
    | none =>
      refine iff_of_false (by simp) ?_
      rintro (rfl | ⟨n, -, hn⟩)
      · simp [hc] at hd
      · simp at hn
    | some n =>
      simp only [compareInt, ordering_eq_eq_iff, Int32.toInt_inj, Option.some_inj]
      constructor
      · rintro rfl
        exact .inr ⟨m, rfl, rfl⟩
      · rintro (rfl | ⟨k, rfl, rfl⟩)
        · exact Option.some_inj.mp (hc.symm.trans hd)
        · rfl

theorem prereleaseKey_eq_iff {p q : Option String} :
    prereleaseKey p = prereleaseKey q ↔
      Option.Rel (List.Forall₂ SameIdentifier) (identifiers p) (identifiers q) := by
  unfold prereleaseKey
  cases identifiers p with
  | none =>
    cases identifiers q with
    | none => exact iff_of_true rfl .none
    | some ds => exact iff_of_false WithTop.top_ne_coe (fun h => nomatch h)
  | some cs =>
    cases identifiers q with
    | none => exact iff_of_false WithTop.coe_ne_top (fun h => nomatch h)
    | some ds =>
      rw [WithTop.coe_eq_coe, ← List.forall₂_eq_eq_eq, List.forall₂_map_left_iff,
        List.forall₂_map_right_iff, Option.rel_some_some]
      simp only [identifierKey_eq_iff]

/-- Versions that compare alike differ in spelling only. -/
theorem key_eq_iff : a.key = b.key ↔ SameButForSpelling a b := by
  simp only [key, toLex_inj, Prod.mk.injEq, Int32.toInt_inj, prereleaseKey_eq_iff]
  constructor
  · rintro ⟨hmajor, hminor, hpatch, hidentifiers⟩
    exact ⟨hmajor, hminor, hpatch, hidentifiers⟩
  · intro h
    exact ⟨h.major_eq, h.minor_eq, h.patch_eq, h.identifiers_rel⟩

omit [VersionRuntime] in
theorem equals_iff : a.equals b = true ↔ a = b := by
  cases a
  cases b
  simp [equals, and_assoc]

/-! ### Reading a version back -/

omit [VersionRuntime] in
/-- A group is read back from the text that it is followed by. -/
theorem takeGroup_append {separator : Char} {p : Char → Bool} {cs rest : List Char} (hne : cs ≠ [])
    (hcs : ∀ c ∈ cs, p c = true) (hrest : ∀ c ∈ rest.head?, p c = false) :
    takeGroup separator p (separator :: (cs ++ rest)) = (some cs, rest) := by
  rw [takeGroup, List.takeWhile_append_of_head hcs hrest, List.dropWhile_append_of_head hcs hrest,
    if_pos ⟨rfl, hne⟩]

omit [VersionRuntime] in
theorem takeGroup_mem {separator : Char} {p : Char → Bool} {cs group : List Char}
    (h : group ∈ (takeGroup separator p cs).1) : ∀ c ∈ group, p c = true := by
  cases cs with
  | nil => cases h
  | cons c cs =>
    rw [takeGroup] at h
    split at h
    · obtain rfl : cs.takeWhile p = group := by simpa using h
      exact List.all_eq_true.mp List.all_takeWhile
    · cases h

omit [VersionRuntime] in
theorem parseNumber_nonneg {digits : List Char} {n : Int32} (h : parseNumber digits = some n) :
    0 ≤ n.toInt := by
  rw [parseNumber, Option.ite_none_right_eq_some, Option.some_inj] at h
  obtain ⟨hle, rfl⟩ := h
  have hmax : Int32.maxValue.toInt = 2 ^ 31 - 1 := by decide
  rw [Int32.toInt_ofNat_of_lt (by omega)]
  exact Int.natCast_nonneg _

omit [VersionRuntime] in
theorem parseNumber_toDigits {n : Int32} (hn : 0 ≤ n.toInt) :
    parseNumber (Nat.toDigits 10 n.toInt.toNat) = some n := by
  have hlt : n.toInt < 2 ^ 31 := n.toInt_lt
  have hmax : Int32.maxValue.toInt = 2 ^ 31 - 1 := by decide
  rw [parseNumber, digitsValue_toDigits, if_pos (by omega), Option.some_inj, ← Int32.toInt_inj,
    Int32.toInt_ofNat_of_lt (by omega), Int.toNat_of_nonneg hn]

/-- What parsing gives: numbers that are not negative, and letters and digits behind them. -/
structure IsParsed (v : ElasticVersion) (pre : List Char) : Prop where
  major_nonneg : 0 ≤ v.major.toInt
  minor_nonneg : 0 ≤ v.minor.toInt
  patch_nonneg : 0 ≤ v.patch.toInt
  prerelease_eq : v.prerelease = some (String.ofList pre)
  isAlphanum : ∀ c ∈ pre, c.isAlphanum = true

omit [VersionRuntime] in
theorem parseGroup_nonneg {group : Option (List Char)} {n : Int32}
    (h : (group.map parseNumber).getD (some 0) = some n) : 0 ≤ n.toInt := by
  cases group with
  | none =>
    cases h
    decide
  | some digits => exact parseNumber_nonneg h

omit [VersionRuntime] in
theorem isParsed_of_tryParse {version : String} {v : ElasticVersion}
    (h : tryParse version = some v) : ∃ pre, v.IsParsed pre := by
  simp only [tryParse] at h
  split at h
  · cases h
  · obtain ⟨major, hmajor, h⟩ := Option.bind_eq_some_iff.mp h
    obtain ⟨minor, hminor, h⟩ := Option.bind_eq_some_iff.mp h
    obtain ⟨patch, hpatch, h⟩ := Option.bind_eq_some_iff.mp h
    cases h
    refine ⟨_, parseNumber_nonneg hmajor, parseGroup_nonneg hminor, parseGroup_nonneg hpatch, rfl,
      ?_⟩
    intro c hc
    generalize hpre : (takeGroup '-' Char.isAlphanum _).1 = pre at hc
    cases pre with
    | none => cases hc
    | some pre => exact takeGroup_mem hpre c hc

omit [VersionRuntime] in
/-- The text of a version that was parsed. -/
theorem toList_toString {v : ElasticVersion} {pre : List Char} (hv : v.IsParsed pre) :
    v.toString.toList = Nat.toDigits 10 v.major.toInt.toNat ++
      '.' :: (Nat.toDigits 10 v.minor.toInt.toNat ++
        '.' :: (Nat.toDigits 10 v.patch.toInt.toNat ++ if pre = [] then [] else '-' :: pre)) := by
  have hrepr : ∀ n : Int, 0 ≤ n → (ToString.toString n).toList = Nat.toDigits 10 n.toNat := by
    intro n hn
    rw [Int.toString_eq_repr, Int.repr_eq_if, if_pos hn, Nat.toList_repr]
  have hdot : (ToString.toString ".").toList = ['.'] := rfl
  have hversion : s!"{v.major.toInt}.{v.minor.toInt}.{v.patch.toInt}".toList =
      Nat.toDigits 10 v.major.toInt.toNat ++ '.' :: (Nat.toDigits 10 v.minor.toInt.toNat ++
        '.' :: Nat.toDigits 10 v.patch.toInt.toNat) := by
    simp only [String.toList_append, hdot, hrepr _ hv.major_nonneg, hrepr _ hv.minor_nonneg,
      hrepr _ hv.patch_nonneg, List.append_assoc, List.cons_append, List.nil_append]
  unfold toString
  rw [hv.prerelease_eq]
  cases pre with
  | nil => simpa [isNullOrEmpty] using hversion
  | cons c pre =>
    have hne : isNullOrEmpty (some (String.ofList (c :: pre))) = false := by simp [isNullOrEmpty]
    simp only [hne, Bool.not_false, if_true, String.toList_append, hversion]
    simp

omit [VersionRuntime] in
/-- Its text has no line feed. -/
theorem beforeEnd_toString {v : ElasticVersion} {pre : List Char} (hv : v.IsParsed pre) :
    beforeEnd v.toString.toList = v.toString.toList := by
  have hnot : ∀ n, '\n' ∉ Nat.toDigits 10 n := fun n h =>
    absurd (isDigit_of_mem_toDigits n _ h) (by decide)
  have hpre : '\n' ∉ pre := fun h => absurd (hv.isAlphanum _ h) (by decide)
  have hend : '\n' ∉ if pre = [] then [] else '-' :: pre := by
    split
    · exact List.not_mem_nil
    · simp [hpre]
  have hmem : '\n' ∉ v.toString.toList := by
    rw [toList_toString hv]
    simp [hnot, hend]
  rw [beforeEnd, if_neg]
  exact fun h => hmem (List.mem_of_getLast? h)

omit [VersionRuntime] in
/-- A version that was parsed is read back from its text. -/
theorem tryParse_toString {v : ElasticVersion} {pre : List Char} (hv : v.IsParsed pre) :
    tryParse v.toString = some v := by
  have hdigit := isDigit_of_mem_toDigits
  have hne : ∀ n, Nat.toDigits 10 n ≠ [] := fun n => Nat.toDigits_ne_nil
  -- A number ends at the separator of the next group.
  have hdot : ∀ rest : List Char, ∀ c ∈ ('.' :: rest).head?, c.isDigit = false := fun _ =>
    List.forall_mem_head?_cons.mpr rfl
  have hdash : ∀ c ∈ (if pre = [] then [] else '-' :: pre).head?, c.isDigit = false := by
    split
    · exact fun _ hc => nomatch hc
    · exact List.forall_mem_head?_cons.mpr rfl
  have hlast : takeGroup '-' Char.isAlphanum (if pre = [] then [] else '-' :: pre) =
      (if pre = [] then none else some pre, []) := by
    by_cases hpre : pre = []
    · rw [if_pos hpre, if_pos hpre, takeGroup]
    · have hgroup : takeGroup '-' Char.isAlphanum ('-' :: (pre ++ [])) = (some pre, []) :=
        takeGroup_append hpre hv.isAlphanum (fun _ hc => nomatch hc)
      rw [if_neg hpre, if_neg hpre, ← hgroup, List.append_nil]
  have hgroup : (if pre = [] then none else some pre).getD [] = pre := by
    by_cases hpre : pre = []
    · rw [if_pos hpre, hpre, Option.getD_none]
    · rw [if_neg hpre, Option.getD_some]
  simp only [tryParse, beforeEnd_toString hv]
  rw [toList_toString hv]
  simp only [List.takeWhile_append_of_head (hdigit _) (hdot _),
    List.dropWhile_append_of_head (hdigit _) (hdot _),
    takeGroup_append (hne _) (hdigit _) (hdot _), takeGroup_append (hne _) (hdigit _) hdash, hlast,
    hgroup, hne, parseNumber_toDigits hv.major_nonneg, parseNumber_toDigits hv.minor_nonneg,
    parseNumber_toDigits hv.patch_nonneg, Option.map_some, Option.getD_some]
  rw [← hv.prerelease_eq]
  simp

/-! ### When the law holds -/

theorem getHashCode_defined_iff {v : ElasticVersion} :
    (∃ h, v.getHashCode = .ok h) ↔ v.prerelease ≠ none := by
  unfold getHashCode
  cases v.prerelease with
  | none => exact iff_of_false (by simp) (by simp)
  | some prerelease => exact iff_of_true ⟨_, rfl⟩ (by simp)

/-- Versions compare alike if and only if they differ in spelling only. -/
theorem compare_eq_iff : compare a b = .eq ↔ SameButForSpelling a b := by
  rw [compare_comparesBy.eq_iff, key_eq_iff]

/-- Equal versions compare alike. -/
theorem compare_of_equals (h : a.equals b = true) : compare a b = .eq := by
  rw [equals_iff.mp h]
  exact compare_comparesBy.refl b

/-- Comparison and equality agree on versions with the same spelling. -/
theorem compare_eq_iff_equals (hspelling : SameButForSpelling a b → a.prerelease = b.prerelease) :
    compare a b = .eq ↔ a.equals b = true := by
  constructor
  · intro h
    have hsame := compare_eq_iff.mp h
    rw [equals_iff]
    cases a
    cases b
    obtain rfl := hsame.major_eq
    obtain rfl := hsame.minor_eq
    obtain rfl := hsame.patch_eq
    obtain rfl := hspelling hsame
    rfl
  · exact compare_of_equals

/-- Where comparison and equality agree, exactly one of the operators holds. -/
theorem trichotomy_of_eq_iff (h : compare a b = .eq ↔ a.equals b = true) :
    (a.lt b = true ∧ a.equals b = false ∧ a.gt b = false) ∨
      (a.lt b = false ∧ a.equals b = true ∧ a.gt b = false) ∨
      (a.lt b = false ∧ a.equals b = false ∧ a.gt b = true) := by
  unfold lt gt
  cases hcompare : compare a b with
  | lt => simp [Bool.eq_false_iff, ← h, hcompare]
  | eq => simp [← h, hcompare]
  | gt => simp [Bool.eq_false_iff, ← h, hcompare]

theorem le_iff_of_eq_iff (h : compare a b = .eq ↔ a.equals b = true) :
    a.le b = true ↔ a.gt b = false := by
  unfold le lt gt
  cases hcompare : compare a b with
  | lt => simp
  | eq => simp [← h, hcompare]
  | gt => simp [Bool.eq_false_iff, ← h, hcompare]

theorem ge_iff_of_eq_iff (h : compare a b = .eq ↔ a.equals b = true) :
    a.ge b = true ↔ a.lt b = false := by
  unfold ge lt gt
  cases hcompare : compare a b with
  | lt => simp [Bool.eq_false_iff, ← h, hcompare]
  | eq => simp [← h, hcompare]
  | gt => simp

/-- Comparison, equality, the operators and the hash code go together exactly if the version has a
    pre-release text, which may be empty, and the other version has the same one unless its numbers
    or its identifiers are different. -/
theorem isLawful_iff (a b c : ElasticVersion) :
    IsLawful a b c ↔
      a.prerelease ≠ none ∧ (SameButForSpelling a b → a.prerelease = b.prerelease) := by
  constructor
  · intro h
    refine ⟨getHashCode_defined_iff.mp h.getHashCode_defined, fun hsame => ?_⟩
    rw [equals_iff.mp (h.eq_iff.mp (compare_eq_iff.mpr hsame))]
  · rintro ⟨hprerelease, hspelling⟩
    have hiff := compare_eq_iff_equals hspelling
    exact
      { refl := compare_comparesBy.refl a
        antisymm := compare_comparesBy.swap a b
        trans := compare_comparesBy.trans
        eq_iff := hiff
        trichotomy := trichotomy_of_eq_iff hiff
        le_iff := le_iff_of_eq_iff hiff
        ge_iff := ge_iff_of_eq_iff hiff
        getHashCode_defined := getHashCode_defined_iff.mpr hprerelease
        getHashCode_eq := fun h => by rw [equals_iff.mp h]
        roundTrip := by
          intro version hparse
          obtain ⟨pre, hv⟩ := isParsed_of_tryParse hparse
          exact ⟨a, tryParse_toString hv, equals_iff.mpr rfl⟩ }

end
/-- A version that is written in two ways. -/
theorem isLawful_counterexample :
    ¬ ∀ a b c, tryParse "1.0.0-05" = some a → tryParse "1.0.0-5" = some b →
      @IsLawful ⟨tryParseInt, fun s => Int32.ofNat s.length⟩ a b c := by
  let _ : VersionRuntime := ⟨tryParseInt, fun s => Int32.ofNat s.length⟩
  intro h
  have hlawful := h ⟨1, 0, 0, some "05"⟩ ⟨1, 0, 0, some "5"⟩ ⟨1, 0, 0, some "5"⟩ (by decide)
    (by decide)
  exact absurd hlawful.eq_iff (by decide)


end ElasticVersion

end ApmAgent
