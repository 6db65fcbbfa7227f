import ApmAgent.Config.OptionParsers
import Mathlib.Algebra.Order.Field.Rat
import Mathlib.Tactic.Linarith

/-! # Time intervals

  Three options are time intervals. A number with the suffix `ms` is taken as
  it is, a number with another suffix or without one goes through a `TimeSpan`.
  What makes no `TimeSpan` throws, and one of the exceptions is caught; no
  option has an upper bound.

  * `timeIntervals_usable_iff`: for which texts the three options are read and
    can be used: by a delay of a task, by a timer, and as a number.
-/

namespace ApmAgent

/-! ### What an option is used for -/

/-- `Int32.MaxValue`, the largest number of milliseconds of a delay and of a timer. -/
def maxMilliseconds : Int := 2147483647

/-- The flush interval is read and `Task.Delay` takes it. -/
def FlushIntervalUsable (result : Except RuntimeException TimeSpan) : Prop :=
  ∃ t, result = .ok t ∧ 0 ≤ t ∧ t ≤ maxMilliseconds * TimeSpan.ticksPerMillisecond

/-- The metrics interval is read, and it is zero or a `Timer` takes it. -/
def MetricsIntervalUsable (result : Except RuntimeException Double) : Prop :=
  result = .ok 0 ∨ ∃ q : ℚ, result = .ok (.finite q) ∧ 1000 ≤ q ∧ q ≤ maxMilliseconds

/-- The duration is read and it is finite. -/
def SpanFramesMinDurationUsable (result : Except RuntimeException Double) : Prop :=
  ∃ q : ℚ, result = .ok (.finite q)

/-! ### What a text says -/

/-- A text of a time interval. -/
inductive IntervalText where
  /-- It is blank or no number. -/
  | noNumber
  /-- A number with the suffix `ms`. -/
  | milliseconds (number : Double)
  /-- A number with another suffix, or without one where `unit` is meant. -/
  | units (number : Double) (unit : TimeSuffix)

section

variable [InvariantCulture]

namespace IntervalText

def ofNumber (cs : List Char) (kind : Double → IntervalText) : IntervalText :=
  match tryParseDouble (String.ofList cs) with
  | some number => kind number
  | none => noNumber

/-- The number of a text and how it is given. -/
def read (text : String) (defaultSuffix : TimeSuffix) : IntervalText :=
  let cs := text.toList
  if cs.length ≥ 2 ∧ (cs.drop (cs.length - 2)).map toLowerInvariant = "ms".toList then
    ofNumber (cs.take (cs.length - 2)) milliseconds
  else
    match cs.getLast? with
    | none => noNumber
    | some last =>
      if toLowerInvariant last = 's' then ofNumber cs.dropLast (units · .s)
      else if toLowerInvariant last = 'm' then ofNumber cs.dropLast (units · .m)
      else ofNumber cs (units · defaultSuffix)

/-- What is given for an option. -/
def ofOption (value : Option String) (defaultSuffix : TimeSuffix) : IntervalText :=
  if isNullOrWhiteSpace value then noNumber else read (value.getD "") defaultSuffix

omit [InvariantCulture] in
/-- The milliseconds `TryParseTimeInterval` makes of it. -/
def toMilliseconds : IntervalText → Except RuntimeException (Option Double)
  | noNumber => .ok none
  | milliseconds number => .ok (some number)
  | units number unit =>
    (TimeSpan.interval number unit.scale).map fun t => some (TimeSpan.totalMilliseconds t)

end IntervalText

theorem parseInterval_eq (number : List Char) (unit : TimeSuffix) :
    parseInterval number unit =
      (IntervalText.ofNumber number (.units · unit)).toMilliseconds := by
  unfold parseInterval IntervalText.ofNumber
  cases tryParseDouble (String.ofList number) with
  | none => rfl
  | some value =>
    simp only [IntervalText.toMilliseconds]
    cases TimeSpan.interval value unit.scale with
    | error e => rfl
    | ok t => rfl

/-- A text that is not empty is read as what it says. -/
theorem tryParseTimeInterval_eq {text : String} (h : text ≠ "") (defaultSuffix : TimeSuffix) :
    tryParseTimeInterval text defaultSuffix =
      (IntervalText.read text defaultSuffix).toMilliseconds := by
  unfold tryParseTimeInterval IntervalText.read
  extract_lets cs
  split
  · unfold IntervalText.ofNumber
    cases tryParseDouble (String.ofList (cs.take (cs.length - 2))) with
    | none => rfl
    | some number => rfl
  · cases hlast : cs.getLast? with
    | none =>
      have hempty : cs = [] := List.getLast?_eq_none_iff.mp hlast
      exact absurd (String.toList_eq_nil_iff.mp hempty) h
    | some last =>
      by_cases hs : toLowerInvariant last = 's'
      · simp only [if_pos hs]
        exact parseInterval_eq _ _
      · by_cases hm : toLowerInvariant last = 'm'
        · simp only [if_neg hs, if_pos hm]
          exact parseInterval_eq _ _
        · simp only [if_neg hs, if_neg hm]
          exact parseInterval_eq _ _

end

/-! ### Time spans -/

namespace TimeSpan

/-- A number of ticks without its fraction. -/
def wholeTicks (r : ℚ) : Int := r.num.tdiv r.den

theorem wholeTicks_of_nonneg {r : ℚ} (h : 0 ≤ r) : wholeTicks r = ⌊r⌋ := by
  rw [wholeTicks, Int.tdiv_eq_ediv_of_nonneg (Rat.num_nonneg.mpr h), Rat.floor_def']

theorem wholeTicks_neg (r : ℚ) : wholeTicks (-r) = -wholeTicks r := by
  rw [wholeTicks, wholeTicks, Rat.num_neg_eq_neg_num, Rat.den_neg_eq_den, Int.neg_tdiv]

/-- Below a bound that is not negative, the fraction apart. -/
theorem wholeTicks_le_iff {r : ℚ} {limit : Int} (hlimit : 0 ≤ limit) :
    wholeTicks r ≤ limit ↔ r < limit + 1 := by
  rcases le_total 0 r with hr | hr
  · rw [wholeTicks_of_nonneg hr, ← Int.lt_add_one_iff, Int.floor_lt]
    push_cast
    rfl
  · -- Cutting the fraction off a negative number leaves it negative or zero.
    have hneg : 0 ≤ wholeTicks (-r) := by
      rw [wholeTicks_of_nonneg (neg_nonneg.mpr hr)]
      exact Int.floor_nonneg.mpr (neg_nonneg.mpr hr)
    rw [wholeTicks_neg] at hneg
    have hlimit' : (0 : ℚ) ≤ limit := by exact_mod_cast hlimit
    exact iff_of_true (by omega) (by linarith)

/-- Above a bound that is not positive. -/
theorem le_wholeTicks {r : ℚ} {limit : Int} (hlimit : limit ≤ 0) (h : (limit : ℚ) ≤ r) :
    limit ≤ wholeTicks r := by
  have hneg : wholeTicks (-r) ≤ -limit := by
    rw [wholeTicks_le_iff (by omega)]
    push_cast
    linarith
  rw [wholeTicks_neg] at hneg
  omega

theorem wholeTicks_intCast (t : Int) : wholeTicks (t : ℚ) = t := by
  simp [wholeTicks]

/-- A finite number of units is a time span if it is within the range. -/
theorem interval_finite (q : ℚ) (scale : Int) :
    interval (.finite q) scale =
      if (minTicks : ℚ) ≤ q * scale ∧ q * scale ≤ maxTicks then .ok (wholeTicks (q * scale))
      else .error .overflow := by
  show (if q * scale > maxTicks ∨ q * scale < minTicks then _ else _) = _
  by_cases hrange : (minTicks : ℚ) ≤ q * scale ∧ q * scale ≤ maxTicks
  · rw [if_pos hrange, if_neg (by simpa [and_comm] using hrange)]
    rfl
  · rw [if_neg hrange, if_pos]
    rw [not_and_or, not_le, not_le] at hrange
    exact hrange.symm

/-- A time span is in the range. -/
theorem range_of_interval {x : Double} {scale : Int} {t : TimeSpan}
    (h : interval x scale = .ok t) : minTicks ≤ t ∧ t ≤ maxTicks := by
  cases x with
  | nan | posInfinity | negInfinity => exact nomatch h
  | finite q =>
    rw [interval_finite] at h
    split at h
    · next hrange =>
      cases h
      refine ⟨le_wholeTicks (by decide) hrange.1, ?_⟩
      rw [wholeTicks_le_iff (by decide)]
      linarith [hrange.2]
    · exact nomatch h

/-- A time span that is made milliseconds of and then a time span. -/
theorem interval_totalMilliseconds {t : TimeSpan} (hmin : minTicks ≤ t) (hmax : t ≤ maxTicks) :
    interval (totalMilliseconds t) ticksPerMillisecond = .ok t := by
  have hticks : (t / ticksPerMillisecond * ticksPerMillisecond : ℚ) = t :=
    div_mul_cancel₀ _ (by decide)
  rw [totalMilliseconds, interval_finite, hticks, wholeTicks_intCast, if_pos]
  exact ⟨by exact_mod_cast hmin, by exact_mod_cast hmax⟩

end TimeSpan

/-! ### Which texts can be used -/

/-- A number of units that is within the range of a time span, and with its whole ticks not above
    the largest number of milliseconds. -/
def Double.FitsTimer (number : Double) (unit : TimeSuffix) : Prop :=
  ∃ q : ℚ, number = .finite q ∧ (TimeSpan.minTicks : ℚ) ≤ q * unit.scale ∧
    q * unit.scale < maxMilliseconds * TimeSpan.ticksPerMillisecond + 1

/-- A finite number fits if it makes a time span, and one that is not too long. -/
theorem Double.fitsTimer_finite {q : ℚ} {unit : TimeSuffix} :
    Double.FitsTimer (.finite q) unit ↔
      ((TimeSpan.minTicks : ℚ) ≤ q * unit.scale ∧ q * unit.scale ≤ TimeSpan.maxTicks) ∧
        TimeSpan.wholeTicks (q * unit.scale) ≤ maxMilliseconds * TimeSpan.ticksPerMillisecond := by
  have hlimit : (maxMilliseconds * TimeSpan.ticksPerMillisecond + 1 : ℚ) ≤ TimeSpan.maxTicks := by
    exact_mod_cast (by decide :
      maxMilliseconds * TimeSpan.ticksPerMillisecond + 1 ≤ TimeSpan.maxTicks)
  rw [TimeSpan.wholeTicks_le_iff (by decide)]
  push_cast
  constructor
  · rintro ⟨q', hq, hmin, hlt⟩
    cases hq
    exact ⟨⟨hmin, by linarith⟩, hlt⟩
  · rintro ⟨⟨hmin, -⟩, hlt⟩
    exact ⟨q, rfl, hmin, hlt⟩

namespace IntervalText

/-- The flush interval: no infinity, no NaN with the suffix `ms`, and nothing too large. -/
def FlushIntervalFits : IntervalText → Prop
  | noNumber => True
  | milliseconds number => number.FitsTimer .ms
  | units number unit => number = .nan ∨ number.FitsTimer unit

/-- The metrics interval. A number of milliseconds may be as small as it likes. -/
def MetricsIntervalFits : IntervalText → Prop
  | noNumber => True
  | milliseconds number =>
    number = .negInfinity ∨ ∃ q : ℚ, number = .finite q ∧ q ≤ maxMilliseconds
  | units number unit => number = .nan ∨ number.FitsTimer unit

/-- The duration: finite, and a time span if it is not given in milliseconds. -/
def SpanFramesMinDurationFits : IntervalText → Prop
  | noNumber => True
  | milliseconds number => ∃ q : ℚ, number = .finite q
  | units number unit => number = .nan ∨ ∃ q : ℚ, number = .finite q ∧
      (TimeSpan.minTicks : ℚ) ≤ q * unit.scale ∧ q * unit.scale ≤ TimeSpan.maxTicks

/-- The milliseconds a parser goes on with: the default if there is no number or NaN makes no time
    span. -/
def orDefault (defaultValue : Double) : IntervalText → Except RuntimeException Double
  | noNumber => .ok defaultValue
  | milliseconds number => .ok number
  | units number unit =>
    if number = .nan then .ok defaultValue
    else (TimeSpan.interval number unit.scale).map TimeSpan.totalMilliseconds

/-- The exception that is caught is the one for NaN. -/
theorem orDefault_eq (text : IntervalText) (defaultValue : Double) :
    text.orDefault defaultValue =
      match text.toMilliseconds with
      | .ok (some valueInMilliseconds) => .ok valueInMilliseconds
      | .ok none => .ok defaultValue
      | .error .argument => .ok defaultValue
      | .error e => .error e := by
  cases text with
  | noNumber => rfl
  | milliseconds number => rfl
  | units number unit =>
    cases number with
    | nan | posInfinity | negInfinity => rfl
    | finite q =>
      rw [orDefault, if_neg nofun, toMilliseconds, TimeSpan.interval_finite]
      split_ifs
      · rfl
      · rfl

end IntervalText

section

variable [InvariantCulture]

omit [InvariantCulture] in
theorem getD_ne_empty {value : Option String} (h : ¬isNullOrWhiteSpace value = true) :
    value.getD "" ≠ "" := by
  intro hempty
  rw [isNullOrWhiteSpace, hempty] at h
  exact h rfl

/-! ### The flush interval -/

theorem parseTimeIntervalImpl_eq (value : Option String) (defaultSuffix : TimeSuffix)
    (defaultValue : TimeSpan) :
    parseTimeIntervalImpl value defaultSuffix defaultValue =
      match IntervalText.ofOption value defaultSuffix with
      | .noNumber => .ok defaultValue
      | .milliseconds number => TimeSpan.interval number TimeSpan.ticksPerMillisecond
      | .units number unit =>
        if number = .nan then .ok defaultValue else TimeSpan.interval number unit.scale := by
  unfold parseTimeIntervalImpl IntervalText.ofOption
  by_cases hblank : isNullOrWhiteSpace value = true
  · rw [if_pos hblank, if_pos hblank]
  · rw [if_neg hblank, if_neg hblank, tryParseTimeInterval_eq (getD_ne_empty hblank)]
    cases IntervalText.read (value.getD "") defaultSuffix with
    | noNumber => rfl
    | milliseconds number => rfl
    | units number unit =>
      cases number with
      | nan | posInfinity | negInfinity => rfl
      | finite q =>
        -- The milliseconds of the time span are made the same time span.
        simp only [IntervalText.toMilliseconds, reduceCtorEq, if_false]
        cases hinterval : TimeSpan.interval (.finite q) unit.scale with
        | error e =>
          rw [TimeSpan.interval_finite] at hinterval
          split at hinterval
          · exact nomatch hinterval
          · cases hinterval
            rfl
        | ok t =>
          obtain ⟨hmin, hmax⟩ := TimeSpan.range_of_interval hinterval
          exact TimeSpan.interval_totalMilliseconds hmin hmax

omit [InvariantCulture] in
/-- A negative interval is replaced by the default, and the default can be used. -/
theorem flushIntervalUsable_ok (t : Int) :
    FlushIntervalUsable (.ok (if t < 0 then
        DefaultValues.flushIntervalInMilliseconds * TimeSpan.ticksPerMillisecond else t)) ↔
      t ≤ maxMilliseconds * TimeSpan.ticksPerMillisecond := by
  by_cases hneg : t < 0
  · rw [if_pos hneg]
    have hlimit : (0 : Int) ≤ maxMilliseconds * TimeSpan.ticksPerMillisecond := by decide
    exact iff_of_true ⟨_, rfl, by decide, by decide⟩ (by omega)
  · rw [if_neg hneg]
    constructor
    · rintro ⟨t', ht, -, hle⟩
      cases ht
      exact hle
    · intro hle
      exact ⟨t, rfl, not_lt.mp hneg, hle⟩

omit [InvariantCulture] in
theorem flushIntervalUsable_interval (number : Double) (unit : TimeSuffix) :
    FlushIntervalUsable ((TimeSpan.interval number unit.scale).map fun t => if t < 0 then
        DefaultValues.flushIntervalInMilliseconds * TimeSpan.ticksPerMillisecond else t) ↔
      number.FitsTimer unit := by
  have hfalse : ∀ e, ¬FlushIntervalUsable (.error e) := fun e h => by
    obtain ⟨t, ht, -⟩ := h
    exact nomatch ht
  cases number with
  | nan | posInfinity | negInfinity =>
    exact iff_of_false (hfalse _) fun ⟨q, hq, _⟩ => nomatch hq
  | finite q =>
    rw [TimeSpan.interval_finite, Double.fitsTimer_finite]
    by_cases hrange : (TimeSpan.minTicks : ℚ) ≤ q * unit.scale ∧ q * unit.scale ≤ TimeSpan.maxTicks
    · rw [if_pos hrange]
      show FlushIntervalUsable (.ok _) ↔ _
      rw [flushIntervalUsable_ok]
      exact (and_iff_right hrange).symm
    · rw [if_neg hrange]
      exact iff_of_false (hfalse _) fun h => hrange h.1

theorem flushInterval_usable_iff (value : Option String) :
    FlushIntervalUsable (parseFlushInterval value) ↔
      (IntervalText.ofOption value .s).FlushIntervalFits := by
  have hdefault : FlushIntervalUsable (.ok
      (DefaultValues.flushIntervalInMilliseconds * TimeSpan.ticksPerMillisecond)) :=
    ⟨_, rfl, by decide, by decide⟩
  have hparse : parseFlushInterval value =
      (parseTimeIntervalImpl value .s (DefaultValues.flushIntervalInMilliseconds *
        TimeSpan.ticksPerMillisecond)).map fun t => if t < 0 then
          DefaultValues.flushIntervalInMilliseconds * TimeSpan.ticksPerMillisecond else t := by
    unfold parseFlushInterval parsePositiveOrZeroTimeInterval
    cases parseTimeIntervalImpl value .s _ with
    | error e => rfl
    | ok t => rfl
  rw [hparse, parseTimeIntervalImpl_eq]
  cases IntervalText.ofOption value .s with
  | noNumber => exact iff_of_true hdefault trivial
  | milliseconds number => exact flushIntervalUsable_interval number .ms
  | units number unit =>
    by_cases hnan : number = .nan
    · simp only [if_pos hnan]
      exact iff_of_true hdefault (Or.inl hnan)
    · simp only [if_neg hnan]
      rw [flushIntervalUsable_interval]
      exact (or_iff_right hnan).symm

/-! ### The metrics interval and the duration -/

omit [InvariantCulture] in
theorem Double.lt_finite (p q : ℚ) : Double.lt (.finite p) (.finite q) = decide (p < q) := by
  show (decide (p ≤ q) && !decide (q ≤ p)) = decide (p < q)
  rw [Bool.eq_iff_iff]
  simp only [Bool.and_eq_true, decide_eq_true_eq, Bool.not_eq_true', decide_eq_false_iff_not,
    not_le]
  exact and_iff_right_of_imp le_of_lt

omit [InvariantCulture] in
/-- What `ParseMetricsInterval` makes of a number of milliseconds. -/
def boundMetricsInterval (x : Double) : Double :=
  if x = 0 then x
  else if Double.lt x 0 then 0
  else if Double.lt x minMetricsIntervalInMilliseconds then 0
  else x

omit [InvariantCulture] in
/-- It bounds it from below only. -/
theorem metricsIntervalUsable_ok (x : Double) :
    MetricsIntervalUsable (.ok (boundMetricsInterval x)) ↔
      x = .negInfinity ∨ ∃ q : ℚ, x = .finite q ∧ q ≤ maxMilliseconds := by
  have hzero : MetricsIntervalUsable (.ok 0) := Or.inl rfl
  have hlimit : (1000 : ℚ) ≤ maxMilliseconds := by
    exact_mod_cast (by decide : (1000 : Int) ≤ maxMilliseconds)
  have hdisabled : ∀ q : ℚ, q < 1000 → (MetricsIntervalUsable (.ok 0) ↔
      Double.finite q = .negInfinity ∨ ∃ q' : ℚ, Double.finite q = .finite q' ∧
        q' ≤ maxMilliseconds) := fun q hq =>
    iff_of_true hzero (Or.inr ⟨q, rfl, by linarith⟩)
  cases x with
  | nan => exact iff_of_false (by rintro (h | ⟨q, h, -⟩) <;> exact nomatch h) (by simp)
  | posInfinity => exact iff_of_false (by rintro (h | ⟨q, h, -⟩) <;> exact nomatch h) (by simp)
  | negInfinity => exact iff_of_true hzero (Or.inl rfl)
  | finite q =>
    have hmin : Double.lt (.finite q) minMetricsIntervalInMilliseconds = decide (q < 1000) :=
      Double.lt_finite q 1000
    have hneg : Double.lt (.finite q) 0 = decide (q < 0) := Double.lt_finite q 0
    rw [boundMetricsInterval, hmin, hneg]
    by_cases hq : Double.finite q = 0
    · have hq' : q = 0 := Double.finite.inj hq
      rw [if_pos hq, hq]
      exact hq ▸ hdisabled q (by linarith)
    · rw [if_neg hq]
      by_cases hnegative : q < 0
      · rw [if_pos (decide_eq_true hnegative)]
        exact hdisabled q (by linarith)
      · rw [if_neg (by simpa using hnegative)]
        by_cases hsmall : q < 1000
        · rw [if_pos (decide_eq_true hsmall)]
          exact hdisabled q hsmall
        · rw [if_neg (by simpa using hsmall)]
          constructor
          · rintro (h | ⟨q', h, -, hmax⟩)
            · exact absurd (Except.ok.inj h) hq
            · exact Or.inr ⟨q', Except.ok.inj h, hmax⟩
          · rintro (h | ⟨q', h, hmax⟩)
            · exact nomatch h
            · cases h
              exact Or.inr ⟨q, rfl, not_lt.mp hsmall, hmax⟩

theorem tryParseTimeInterval_defaultMetricsInterval :
    tryParseTimeInterval DefaultValues.metricsInterval .s =
      .ok (some DefaultValues.metricsIntervalInMilliseconds) := by
  have hs : toLowerInvariant 's' = 's' := InvariantCulture.toLowerInvariant_ascii 's' (by decide)
  have hzero : toLowerInvariant '0' = '0' := InvariantCulture.toLowerInvariant_ascii '0' (by decide)
  have hnumber : tryParseNumber "30".toList = some 30 := by decide +kernel
  have hdouble : tryParseDouble "30" = some (.finite 30) := by
    unfold tryParseDouble
    rw [hnumber]
  have hinterval : TimeSpan.interval (.finite 30) TimeSuffix.s.scale = .ok 300000000 := by
    decide +kernel
  have htext : IntervalText.read DefaultValues.metricsInterval .s = .units (.finite 30) .s := by
    unfold IntervalText.read
    extract_lets cs
    have hcs : cs = ['3', '0', 's'] := by decide
    rw [hcs]
    simp [hs, hzero, IntervalText.ofNumber, hdouble]
  have htotal : TimeSpan.totalMilliseconds 300000000 = 30000 := by decide +kernel
  rw [tryParseTimeInterval_eq (by decide), htext, IntervalText.toMilliseconds, hinterval]
  show Except.ok (some (TimeSpan.totalMilliseconds 300000000)) = _
  rw [htotal]
  rfl

theorem parseMetricsInterval_eq (value : Option String) :
    parseMetricsInterval value =
      ((IntervalText.ofOption value .s).orDefault DefaultValues.metricsIntervalInMilliseconds).map
        boundMetricsInterval := by
  have hdefault : boundMetricsInterval DefaultValues.metricsIntervalInMilliseconds =
      DefaultValues.metricsIntervalInMilliseconds := by decide +kernel
  unfold parseMetricsInterval IntervalText.ofOption
  by_cases hblank : isNullOrWhiteSpace value = true
  · simp only [if_pos hblank, tryParseTimeInterval_defaultMetricsInterval]
    rfl
  · simp only [if_neg hblank, IntervalText.orDefault_eq,
      tryParseTimeInterval_eq (getD_ne_empty hblank)]
    cases (IntervalText.read (value.getD "") .s).toMilliseconds with
    | ok valueInMilliseconds =>
      cases valueInMilliseconds with
      | none => exact congrArg Except.ok hdefault.symm
      | some x =>
        show (if x = 0 then Except.ok x else if Double.lt x 0 then .ok 0
          else if Double.lt x minMetricsIntervalInMilliseconds then .ok 0 else .ok x) =
            .ok (boundMetricsInterval x)
        unfold boundMetricsInterval
        split_ifs
        · rfl
        · rfl
        · rfl
        · rfl
    | error e =>
      cases e with
      | argument => exact congrArg Except.ok hdefault.symm
      | _ => rfl

theorem metricsInterval_usable_iff (value : Option String) :
    MetricsIntervalUsable (parseMetricsInterval value) ↔
      (IntervalText.ofOption value .s).MetricsIntervalFits := by
  have hfalse : ∀ e, ¬MetricsIntervalUsable (.error e) := by
    rintro e (h | ⟨q, h, -⟩)
    · exact nomatch h
    · exact nomatch h
  have hdefault : ∃ q : ℚ, DefaultValues.metricsIntervalInMilliseconds = .finite q ∧
      q ≤ maxMilliseconds := ⟨30000, rfl, by decide +kernel⟩
  rw [parseMetricsInterval_eq]
  cases IntervalText.ofOption value .s with
  | noNumber => exact iff_of_true ((metricsIntervalUsable_ok _).mpr (Or.inr hdefault)) trivial
  | milliseconds number => exact metricsIntervalUsable_ok number
  | units number unit =>
    cases number with
    | nan =>
      exact iff_of_true ((metricsIntervalUsable_ok _).mpr (Or.inr hdefault)) (Or.inl rfl)
    | posInfinity | negInfinity =>
      refine iff_of_false (hfalse _) ?_
      rintro (hnan | ⟨q, hq, -⟩)
      · exact nomatch hnan
      · exact nomatch hq
    | finite q =>
      show _ ↔ Double.finite q = .nan ∨ Double.FitsTimer (.finite q) unit
      rw [IntervalText.orDefault, if_neg nofun, TimeSpan.interval_finite, or_iff_right nofun,
        Double.fitsTimer_finite]
      by_cases hrange : (TimeSpan.minTicks : ℚ) ≤ q * unit.scale ∧
          q * unit.scale ≤ TimeSpan.maxTicks
      · rw [if_pos hrange, and_iff_right hrange]
        refine (metricsIntervalUsable_ok _).trans ?_
        rw [or_iff_right nofun]
        have hticks : (0 : ℚ) < TimeSpan.ticksPerMillisecond := by decide +kernel
        constructor
        · rintro ⟨q', hq, hle⟩
          cases hq
          rw [div_le_iff₀ hticks] at hle
          exact_mod_cast hle
        · intro hle
          refine ⟨_, rfl, ?_⟩
          rw [div_le_iff₀ hticks]
          exact_mod_cast hle
      · rw [if_neg hrange]
        exact iff_of_false (hfalse _) fun h => hrange h.1

theorem parseSpanFramesMinDurationInMilliseconds_eq (value : Option String) :
    parseSpanFramesMinDurationInMilliseconds value =
      (IntervalText.ofOption value .ms).orDefault
        DefaultValues.spanFramesMinDurationInMilliseconds := by
  unfold parseSpanFramesMinDurationInMilliseconds IntervalText.ofOption
  by_cases hblank : isNullOrWhiteSpace value = true
  · simp only [if_pos hblank, tryParseTimeInterval_default]
    rfl
  · simp only [if_neg hblank]
    rw [tryParseTimeInterval_eq (getD_ne_empty hblank)]
    exact (IntervalText.orDefault_eq _ _).symm

theorem spanFramesMinDuration_usable_iff (value : Option String) :
    SpanFramesMinDurationUsable (parseSpanFramesMinDurationInMilliseconds value) ↔
      (IntervalText.ofOption value .ms).SpanFramesMinDurationFits := by
  have hfinite : ∀ q, SpanFramesMinDurationUsable (.ok (.finite q)) := fun q => ⟨q, rfl⟩
  have herror : ∀ e, ¬SpanFramesMinDurationUsable (.error e) := fun e ⟨q, hq⟩ => nomatch hq
  rw [parseSpanFramesMinDurationInMilliseconds_eq]
  cases IntervalText.ofOption value .ms with
  | noNumber => exact iff_of_true (hfinite _) trivial
  | milliseconds number =>
    constructor
    · rintro ⟨q, hq⟩
      exact ⟨q, Except.ok.inj hq⟩
    · rintro ⟨q, rfl⟩
      exact hfinite q
  | units number unit =>
    cases number with
    | nan => exact iff_of_true (hfinite _) (Or.inl rfl)
    | posInfinity | negInfinity =>
      exact iff_of_false (herror _) (by simp [IntervalText.SpanFramesMinDurationFits])
    | finite q =>
      rw [IntervalText.orDefault, if_neg nofun, TimeSpan.interval_finite]
      by_cases hrange : (TimeSpan.minTicks : ℚ) ≤ q * unit.scale ∧
          q * unit.scale ≤ TimeSpan.maxTicks
      · rw [if_pos hrange]
        exact iff_of_true (hfinite _) (Or.inr ⟨q, rfl, hrange⟩)
      · rw [if_neg hrange]
        refine iff_of_false (herror _) ?_
        rintro (hnan | ⟨q', hq, hrange'⟩)
        · exact nomatch hnan
        · cases hq
          exact hrange hrange'

/-- The three options are read and can be used exactly as far as the number that is given is in
    their range. -/
theorem timeIntervals_usable_iff (value : Option String) :
    (FlushIntervalUsable (parseFlushInterval value) ↔
      (IntervalText.ofOption value .s).FlushIntervalFits) ∧
    (MetricsIntervalUsable (parseMetricsInterval value) ↔
      (IntervalText.ofOption value .s).MetricsIntervalFits) ∧
    (SpanFramesMinDurationUsable (parseSpanFramesMinDurationInMilliseconds value) ↔
      (IntervalText.ofOption value .ms).SpanFramesMinDurationFits) :=
  ⟨flushInterval_usable_iff value, metricsInterval_usable_iff value,
    spanFramesMinDuration_usable_iff value⟩

end

section
attribute [local instance] InvariantCulture.ascii

/-- A number of seconds that is no time span, and numbers of milliseconds that are none. -/
theorem timeIntervals_usable_counterexample :
    ¬FlushIntervalUsable (parseFlushInterval (some "1e300")) ∧
      ¬MetricsIntervalUsable (parseMetricsInterval (some "NaNms")) ∧
      ¬SpanFramesMinDurationUsable (parseSpanFramesMinDurationInMilliseconds (some "Infinityms")) := by
  have hflush : parseFlushInterval (some "1e300") = .error .overflow := by decide +kernel
  have hmetrics : parseMetricsInterval (some "NaNms") = .ok .nan := by decide +kernel
  have hframes : parseSpanFramesMinDurationInMilliseconds (some "Infinityms") =
      .ok .posInfinity := by decide +kernel
  rw [hflush, hmetrics, hframes]
  refine ⟨?_, ?_, ?_⟩
  · rintro ⟨t, ht, -⟩
    exact nomatch ht
  · rintro (h | ⟨q, h, -⟩)
    · exact nomatch h
    · exact nomatch h
  · rintro ⟨q, h⟩
    exact nomatch h

end

end ApmAgent
