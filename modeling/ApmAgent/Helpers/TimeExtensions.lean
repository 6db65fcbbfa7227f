import ApmAgent.Helpers.Numbers

/-! # Durations as texts

  `ToHms` writes the components of a time span one after the other and leaves
  out those that are zero. It takes the absolute value of the ticks, which the
  smallest number of ticks does not have.

  * `isHmsLawful_iff`: every time span but the smallest one is written, and
    exactly.
-/

namespace ApmAgent

namespace TimeSpan

def ticksPerHour : Int := 36000000000

def ticksPerDay : Int := 864000000000

/-! ### The components of a time span; they have its sign -/

def days (t : TimeSpan) : Int := t.tdiv ticksPerDay

def hours (t : TimeSpan) : Int := (t.tdiv ticksPerHour).tmod 24

def minutes (t : TimeSpan) : Int := (t.tdiv ticksPerMinute).tmod 60

def seconds (t : TimeSpan) : Int := (t.tdiv ticksPerSecond).tmod 60

def milliseconds (t : TimeSpan) : Int := (t.tdiv ticksPerMillisecond).tmod 1000

end TimeSpan

namespace TimeExtensions

/-! ### `ToHms` -/

/-- `strBuilder` and `hasParts`. -/
structure HmsBuilder where
  strBuilder : String
  hasParts : Bool
  deriving DecidableEq

/-- `AppendIfNotZero`. -/
def appendIfNotZero (count : Int) (unitsSuffix : String) (b : HmsBuilder) : HmsBuilder :=
  if count = 0 then b
  else
    { strBuilder := (if b.hasParts then b.strBuilder ++ " " else b.strBuilder) ++
        toString count.natAbs ++ unitsSuffix
      hasParts := true }

/-- `Math.Abs` of a `long`. -/
def mathAbs (value : Int) : Except RuntimeException Int :=
  if value = TimeSpan.minTicks then .error .overflow else .ok value.natAbs

/-- `Assertion.IfEnabled?.That(condition, …)`; assertions are enabled. -/
def assertThat (condition : Bool) : Except RuntimeException Unit :=
  if condition then .ok () else .error (.other "AssertionFailedException")

/-- `ToHms`. -/
def toHms (timeSpan : Int64) : Except RuntimeException String :=
  let t : TimeSpan := timeSpan.toInt
  if t = 0 then .ok "0"
  else do
    let b : HmsBuilder := ⟨if t < 0 then "-" else "", false⟩
    let b := appendIfNotZero t.days "d" b
    let b := appendIfNotZero t.hours "h" b
    let b := appendIfNotZero t.minutes "m" b
    let b := appendIfNotZero t.seconds "s" b
    let b := appendIfNotZero t.milliseconds "ms" b
    -- 1 tick is 100 nanoseconds
    let ticks ← mathAbs t
    let nanoseconds := ticks.tmod 10 * 100
    let microseconds := ((ticks - nanoseconds.tdiv 100).tmod 10000).tdiv 10
    assertThat (0 ≤ microseconds && microseconds ≤ 999)
    let b := appendIfNotZero microseconds "us" b
    assertThat (0 ≤ nanoseconds && nanoseconds ≤ 900)
    let b := appendIfNotZero nanoseconds "ns" b
    return b.strBuilder

/-- `TruncateToSeconds`. -/
def truncateToSeconds (timeSpan : Int64) : Except RuntimeException Int64 := do
  let ticks ← mathAbs timeSpan.toInt
  return Int64.ofInt (timeSpan.toInt.sign * ticks.tdiv TimeSpan.ticksPerSecond *
    TimeSpan.ticksPerSecond)

/-- `ToHmsInSeconds`. -/
def toHmsInSeconds (timeSpan : Int64) : Except RuntimeException String :=
  if timeSpan = 0 then .ok "0s"
  else do
    let truncated ← truncateToSeconds timeSpan
    if truncated ≠ 0 then toHms truncated
    else return if 0 < timeSpan then "<1s" else ">-1s"

/-! ### What a text says -/

inductive HmsUnit where
  | days
  | hours
  | minutes
  | seconds
  | milliseconds
  | microseconds
  | nanoseconds
  deriving DecidableEq, Repr

namespace HmsUnit

/-- The units in the order in which they are written. -/
def all : List HmsUnit := [days, hours, minutes, seconds, milliseconds, microseconds, nanoseconds]

def suffix : HmsUnit → String
  | days => "d"
  | hours => "h"
  | minutes => "m"
  | seconds => "s"
  | milliseconds => "ms"
  | microseconds => "us"
  | nanoseconds => "ns"

/-- The number of nanoseconds in one unit. -/
def length : HmsUnit → Nat
  | days => 86400000000000
  | hours => 3600000000000
  | minutes => 60000000000
  | seconds => 1000000000
  | milliseconds => 1000000
  | microseconds => 1000
  | nanoseconds => 1

/-- How many of a unit are one of the next larger one. -/
def overflow : HmsUnit → Option Nat
  | days => none
  | hours => some 24
  | minutes => some 60
  | seconds => some 60
  | milliseconds => some 1000
  | microseconds => some 1000
  | nanoseconds => some 1000

end HmsUnit

/-- The components that are written, each with its unit. -/
abbrev HmsParts := List (Nat × HmsUnit)

namespace HmsParts

def partText (part : Nat × HmsUnit) : String := toString part.1 ++ part.2.suffix

def joined (parts : HmsParts) : String := " ".intercalate (parts.map partText)

/-- The text of the components. -/
def text (negative : Bool) (parts : HmsParts) : String :=
  if parts = [] then "0" else (if negative then "-" else "") ++ parts.joined

def sum (parts : HmsParts) : Nat := (parts.map fun part => part.1 * part.2.length).sum

/-- Components of different units, from larger to smaller ones, each below the overflow of its
    unit. -/
structure WellFormed (parts : HmsParts) : Prop where
  units : (parts.map Prod.snd).Sublist HmsUnit.all
  overflow : ∀ part ∈ parts, ∀ n ∈ part.2.overflow, part.1 < n

end HmsParts

/-- The components in the text are well formed, and their signed sum is a number of
    nanoseconds. -/
def IsHmsText (text : String) (nanoseconds : Int) : Prop :=
  ∃ (negative : Bool) (parts : HmsParts), text = parts.text negative ∧ parts.WellFormed ∧
    nanoseconds = if negative then -(parts.sum : Int) else parts.sum

/-- A time span is written exactly, and so are its whole seconds if it has some. -/
structure IsHmsLawful (timeSpan : Int64) : Prop where
  toHms : ∃ text, toHms timeSpan = .ok text ∧ IsHmsText text (timeSpan.toInt * 100)
  toHmsInSeconds : ∃ text, toHmsInSeconds timeSpan = .ok text ∧
    (TimeSpan.ticksPerSecond ≤ timeSpan.toInt.natAbs →
      IsHmsText text (timeSpan.toInt.tdiv TimeSpan.ticksPerSecond * 1000000000))

/-! ### The components -/

/-- The component of a unit in a number of ticks. -/
def component (ticks : Nat) : HmsUnit → Nat
  | .days => ticks / 864000000000
  | .hours => ticks / 36000000000 % 24
  | .minutes => ticks / 600000000 % 60
  | .seconds => ticks / 10000000 % 60
  | .milliseconds => ticks / 10000 % 1000
  | .microseconds => ticks % 10000 / 10
  | .nanoseconds => ticks % 10 * 100

def part (count : Nat) (unit : HmsUnit) : HmsParts := if count = 0 then [] else [(count, unit)]

def components (ticks : Nat) : HmsParts := HmsUnit.all.flatMap fun unit =>
  part (component ticks unit) unit

theorem sum_append (parts parts' : HmsParts) :
    HmsParts.sum (parts ++ parts') = parts.sum + parts'.sum := by
  unfold HmsParts.sum
  rw [List.map_append, List.sum_append]

theorem sum_part (count : Nat) (unit : HmsUnit) :
    (part count unit).sum = count * unit.length := by
  unfold part
  by_cases h : count = 0
  · rw [if_pos h, h, Nat.zero_mul]
    rfl
  · rw [if_neg h]
    exact Nat.add_zero _

theorem sum_flatMap_part (count : HmsUnit → Nat) (units : List HmsUnit) :
    HmsParts.sum (units.flatMap fun unit => part (count unit) unit) =
      (units.map fun unit => count unit * unit.length).sum := by
  induction units with
  | nil => rfl
  | cons unit units ih =>
    rw [List.flatMap_cons, sum_append, sum_part, ih, List.map_cons, List.sum_cons]

theorem sum_map_all (f : HmsUnit → Nat) :
    (HmsUnit.all.map f).sum = f .days + (f .hours + (f .minutes + (f .seconds +
      (f .milliseconds + (f .microseconds + f .nanoseconds))))) := by
  simp only [HmsUnit.all, List.map_cons, List.map_nil, List.sum_cons, List.sum_nil, Nat.add_zero]

/-- The components add up to the ticks. -/
theorem sum_components (ticks : Nat) : (components ticks).sum = ticks * 100 := by
  unfold components
  rw [sum_flatMap_part, sum_map_all]
  simp only [component, HmsUnit.length]
  -- From one unit to the next larger one.
  have hdays : ticks / 864000000000 = ticks / 36000000000 / 24 := by omega
  have hhours : ticks / 36000000000 = ticks / 600000000 / 60 := by omega
  have hminutes : ticks / 600000000 = ticks / 10000000 / 60 := by omega
  have hseconds : ticks / 10000000 = ticks / 10000 / 1000 := by omega
  omega

theorem wellFormed_components (ticks : Nat) : (components ticks).WellFormed := by
  have hunits (units : List HmsUnit) :
      ((units.flatMap fun unit => part (component ticks unit) unit).map Prod.snd).Sublist
        units := by
    induction units with
    | nil => exact List.Sublist.refl _
    | cons unit units ih =>
      rw [List.flatMap_cons, List.map_append]
      by_cases h : component ticks unit = 0
      · rw [part, if_pos h]
        exact ih.cons unit
      · rw [part, if_neg h]
        exact ih.cons_cons unit
  refine ⟨hunits _, fun p hp n hn => ?_⟩
  obtain ⟨unit, -, hp⟩ := List.mem_flatMap.mp hp
  unfold part at hp
  split at hp
  · cases hp
  · rw [List.mem_singleton] at hp
    subst hp
    cases unit with
    | days => cases hn
    | hours | minutes | seconds | milliseconds =>
      cases hn
      exact Nat.mod_lt _ (by decide)
    | microseconds =>
      cases hn
      show ticks % 10000 / 10 < 1000
      omega
    | nanoseconds =>
      cases hn
      show ticks % 10 * 100 < 1000
      omega

/-! ### What is written -/

/-- The builder when the components have been written. -/
def builder (sign : String) (parts : HmsParts) : HmsBuilder := ⟨sign ++ parts.joined, parts ≠ []⟩

theorem joined_append_singleton {parts : HmsParts} (h : parts ≠ []) (p : Nat × HmsUnit) :
    HmsParts.joined (parts ++ [p]) = parts.joined ++ " " ++ HmsParts.partText p := by
  have hne : parts.map HmsParts.partText ≠ [] := by
    rw [ne_eq, List.map_eq_nil_iff]
    exact h
  unfold HmsParts.joined
  rw [List.map_append, List.map_singleton,
    String.intercalate_append_of_ne_nil hne (List.cons_ne_nil _ _), String.intercalate_singleton]

/-- One component more, if it is not zero. -/
theorem appendIfNotZero_eq {count : Int} {n : Nat} (hcount : count.natAbs = n) (unit : HmsUnit)
    (sign : String) (parts : HmsParts) :
    appendIfNotZero count unit.suffix (builder sign parts) =
      builder sign (parts ++ part n unit) := by
  unfold appendIfNotZero part
  by_cases hzero : n = 0
  · have hcount' : count = 0 := by omega
    rw [if_pos hcount', if_pos hzero, List.append_nil]
  · have hcount' : count ≠ 0 := by omega
    rw [if_neg hcount', if_neg hzero, hcount]
    by_cases hnil : parts = []
    · subst hnil
      show HmsBuilder.mk ((sign ++ "") ++ toString n ++ unit.suffix) true =
        HmsBuilder.mk (sign ++ (toString n ++ unit.suffix)) true
      rw [String.append_empty, String.append_assoc]
    · have hparts : builder sign parts = ⟨sign ++ parts.joined, true⟩ := by
        simp [builder, hnil]
      have hparts' : builder sign (parts ++ [(n, unit)]) =
          ⟨sign ++ HmsParts.joined (parts ++ [(n, unit)]), true⟩ := by
        simp [builder]
      rw [hparts, hparts', joined_append_singleton hnil]
      simp only [HmsParts.partText, String.append_assoc, if_true]

/-- The components of a time span without its sign. -/
theorem natAbs_components (t : TimeSpan) :
    t.days.natAbs = component t.natAbs .days ∧ t.hours.natAbs = component t.natAbs .hours ∧
      t.minutes.natAbs = component t.natAbs .minutes ∧
      t.seconds.natAbs = component t.natAbs .seconds ∧
      t.milliseconds.natAbs = component t.natAbs .milliseconds := by
  unfold TimeSpan.days TimeSpan.hours TimeSpan.minutes TimeSpan.seconds TimeSpan.milliseconds
  simp only [Int.natAbs_tmod, Int.natAbs_tdiv]
  exact ⟨rfl, rfl, rfl, rfl, rfl⟩

theorem nanoseconds_eq (ticks : Nat) :
    (ticks : Int).tmod 10 * 100 = component ticks .nanoseconds := by
  show (ticks : Int).tmod 10 * 100 = (ticks % 10 * 100 : Nat)
  rw [Int.tmod_eq_emod_of_nonneg (Int.natCast_nonneg ticks)]
  omega

theorem microseconds_eq (ticks : Nat) :
    (((ticks : Int) - (component ticks .nanoseconds : Int).tdiv 100).tmod 10000).tdiv 10 =
      component ticks .microseconds := by
  have hlast : (component ticks .nanoseconds : Int).tdiv 100 = (ticks % 10 : Nat) := by
    rw [Int.tdiv_eq_ediv_of_nonneg (Int.natCast_nonneg _)]
    show ((ticks % 10 * 100 : Nat) : Int) / 100 = _
    omega
  rw [hlast, Int.tmod_eq_emod_of_nonneg (by omega), Int.tdiv_eq_ediv_of_nonneg (by omega)]
  show _ = ((ticks % 10000 / 10 : Nat) : Int)
  omega

theorem components_ne_nil {ticks : Nat} (h : ticks ≠ 0) : components ticks ≠ [] := by
  intro hnil
  have hsum := sum_components ticks
  rw [hnil] at hsum
  have hzero : HmsParts.sum [] = 0 := rfl
  omega

/-- A time span that has an absolute value is written by its components. -/
theorem toHms_eq {timeSpan : Int64} (hzero : timeSpan.toInt ≠ 0)
    (hmin : timeSpan.toInt ≠ TimeSpan.minTicks) :
    toHms timeSpan =
      .ok ((components timeSpan.toInt.natAbs).text (decide (timeSpan.toInt < 0))) := by
  unfold toHms
  generalize timeSpan.toInt = t at *
  obtain ⟨hdays, hhours, hminutes, hseconds, hmilliseconds⟩ := natAbs_components t
  have hticks : mathAbs t = .ok (t.natAbs : Int) := if_neg hmin
  have hmicros : assertThat ((0 : Int) ≤ component t.natAbs .microseconds &&
      (component t.natAbs .microseconds : Int) ≤ 999) = .ok () := by
    have hle : component t.natAbs .microseconds ≤ 999 := by
      show t.natAbs % 10000 / 10 ≤ 999
      omega
    rw [assertThat, if_pos (by simp; omega)]
  have hnanos : assertThat ((0 : Int) ≤ component t.natAbs .nanoseconds &&
      (component t.natAbs .nanoseconds : Int) ≤ 900) = .ok () := by
    have hle : component t.natAbs .nanoseconds ≤ 900 := by
      show t.natAbs % 10 * 100 ≤ 900
      omega
    rw [assertThat, if_pos (by simp; omega)]
  have htext : (components t.natAbs).text (decide (t < 0)) =
      (builder (if t < 0 then "-" else "") (components t.natAbs)).strBuilder := by
    rw [HmsParts.text, if_neg (components_ne_nil (Int.natAbs_ne_zero.mpr hzero))]
    simp only [decide_eq_true_eq]
    rfl
  have hstart : HmsBuilder.mk (if t < 0 then "-" else "") false =
      builder (if t < 0 then "-" else "") [] := by
    show _ = HmsBuilder.mk (_ ++ "") false
    rw [String.append_empty]
  simp only [if_neg hzero, hticks, bind, Except.bind, nanoseconds_eq, microseconds_eq, hmicros,
    hnanos, hstart]
  generalize (if t < 0 then "-" else "") = sign at *
  have hunit (unit : HmsUnit) {count : Int} (hcount : count.natAbs = component t.natAbs unit)
      (parts : HmsParts) := appendIfNotZero_eq hcount unit sign parts
  rw [show "d" = HmsUnit.suffix .days from rfl, show "h" = HmsUnit.suffix .hours from rfl,
    show "m" = HmsUnit.suffix .minutes from rfl, show "s" = HmsUnit.suffix .seconds from rfl,
    show "ms" = HmsUnit.suffix .milliseconds from rfl,
    show "us" = HmsUnit.suffix .microseconds from rfl,
    show "ns" = HmsUnit.suffix .nanoseconds from rfl,
    hunit .days hdays, hunit .hours hhours, hunit .minutes hminutes, hunit .seconds hseconds,
    hunit .milliseconds hmilliseconds, hunit .microseconds (Int.natAbs_natCast _),
    hunit .nanoseconds (Int.natAbs_natCast _), htext]
  simp only [components, HmsUnit.all, List.flatMap_cons, List.flatMap_nil, List.append_assoc,
    List.nil_append, List.append_nil]
  rfl

theorem isHmsText_components (t : Int) :
    IsHmsText ((components t.natAbs).text (decide (t < 0))) (t * 100) := by
  refine ⟨decide (t < 0), components t.natAbs, rfl, wellFormed_components t.natAbs, ?_⟩
  rw [sum_components]
  by_cases hneg : t < 0
  · rw [if_pos (decide_eq_true hneg)]
    omega
  · rw [if_neg (by simpa using hneg)]
    omega

/-- Zero included. -/
theorem exists_toHms {timeSpan : Int64} (hmin : timeSpan.toInt ≠ TimeSpan.minTicks) :
    ∃ text, toHms timeSpan = .ok text ∧ IsHmsText text (timeSpan.toInt * 100) := by
  refine ⟨_, ?_, isHmsText_components timeSpan.toInt⟩
  by_cases hzero : timeSpan.toInt = 0
  · unfold toHms
    simp only [hzero, if_true]
    rfl
  · exact toHms_eq hzero hmin

/-! ### Whole seconds -/

theorem sign_mul_tdiv_natAbs (t n : Int) : t.sign * (t.natAbs : Int).tdiv n = t.tdiv n := by
  obtain h | h | h := Int.lt_trichotomy t 0
  · have hneg : t = -(t.natAbs : Int) := by omega
    rw [Int.sign_eq_neg_one_of_neg h]
    conv_rhs => rw [hneg, Int.neg_tdiv]
    omega
  · subst h
    simp
  · have hpos : t = (t.natAbs : Int) := by omega
    rw [Int.sign_eq_one_of_pos h, Int.one_mul, ← hpos]

/-- A time span that has an absolute value is cut to whole seconds. -/
theorem truncateToSeconds_eq {timeSpan : Int64} (hmin : timeSpan.toInt ≠ TimeSpan.minTicks) :
    ∃ truncated, truncateToSeconds timeSpan = .ok truncated ∧
      truncated.toInt =
        timeSpan.toInt.tdiv TimeSpan.ticksPerSecond * TimeSpan.ticksPerSecond := by
  have hticks : mathAbs timeSpan.toInt = .ok (timeSpan.toInt.natAbs : Int) := if_neg hmin
  refine ⟨Int64.ofInt (timeSpan.toInt.tdiv TimeSpan.ticksPerSecond * TimeSpan.ticksPerSecond),
    ?_, ?_⟩
  · unfold truncateToSeconds
    rw [hticks]
    show Except.ok (Int64.ofInt (_ * (timeSpan.toInt.natAbs : Int).tdiv _ * _)) = _
    rw [sign_mul_tdiv_natAbs]
  · have hle := timeSpan.le_toInt
    have hlt := timeSpan.toInt_lt
    have hwhole : (timeSpan.toInt.tdiv TimeSpan.ticksPerSecond * TimeSpan.ticksPerSecond).natAbs ≤
        timeSpan.toInt.natAbs := by
      rw [Int.natAbs_mul, Int.natAbs_tdiv]
      exact Nat.div_mul_le_self _ _
    unfold TimeSpan.minTicks at hmin
    exact Int64.toInt_ofInt_of_le (by omega) (by omega)

/-- Less than a second is written, and more is written exactly. -/
theorem exists_toHmsInSeconds {timeSpan : Int64} (hmin : timeSpan.toInt ≠ TimeSpan.minTicks) :
    ∃ text, toHmsInSeconds timeSpan = .ok text ∧
      (TimeSpan.ticksPerSecond ≤ timeSpan.toInt.natAbs →
        IsHmsText text (timeSpan.toInt.tdiv TimeSpan.ticksPerSecond * 1000000000)) := by
  obtain ⟨truncated, htruncated, hvalue⟩ := truncateToSeconds_eq hmin
  unfold toHmsInSeconds
  rw [htruncated]
  by_cases hsecond : truncated = 0
  · have hless : timeSpan.toInt.natAbs < TimeSpan.ticksPerSecond := by
      have hnone := congrArg Int.natAbs hvalue
      rw [hsecond, Int.natAbs_mul, Int.natAbs_tdiv] at hnone
      have hnone' : 0 = timeSpan.toInt.natAbs / 10000000 * 10000000 := hnone
      unfold TimeSpan.ticksPerSecond
      omega
    refine ⟨if timeSpan = 0 then "0s" else if 0 < timeSpan then "<1s" else ">-1s", ?_,
      fun hle => absurd hle (not_le.mpr hless)⟩
    rw [hsecond]
    split_ifs
    · rfl
    · rfl
    · rfl
  · have hzero : timeSpan ≠ 0 := by
      rintro rfl
      exact hsecond (Int64.toInt_inj.mp hvalue)
    have hmin' : truncated.toInt ≠ TimeSpan.minTicks := by
      rw [hvalue]
      unfold TimeSpan.ticksPerSecond TimeSpan.minTicks
      omega
    obtain ⟨text, htext, hexact⟩ := exists_toHms hmin'
    have hexact' : truncated.toInt * 100 =
        timeSpan.toInt.tdiv TimeSpan.ticksPerSecond * 1000000000 := by
      rw [hvalue]
      unfold TimeSpan.ticksPerSecond
      omega
    refine ⟨text, ?_, fun _ => hexact' ▸ hexact⟩
    rw [if_neg hzero]
    show (if truncated ≠ 0 then toHms truncated else _) = _
    rw [if_pos hsecond, htext]

/-- Every time span but the smallest one is written exactly. -/
theorem isHmsLawful_iff (timeSpan : Int64) :
    IsHmsLawful timeSpan ↔ timeSpan ≠ Int64.minValue := by
  have hmin : timeSpan.toInt = TimeSpan.minTicks ↔ timeSpan = Int64.minValue := by
    rw [← Int64.toInt_inj]
    rfl
  rw [ne_eq, ← hmin]
  constructor
  · rintro ⟨⟨text, htext, -⟩, -⟩ h
    rw [hmin.mp h] at htext
    exact nomatch htext
  · intro h
    exact ⟨exists_toHms h, exists_toHmsInSeconds h⟩

/-- The smallest time span. -/
theorem isHmsLawful_counterexample : ¬IsHmsLawful Int64.minValue := by
  rintro ⟨⟨text, htext, -⟩, -⟩
  exact nomatch htext

end TimeExtensions

end ApmAgent
