import ApmAgent.Config.ConfigurationReader
import Mathlib.Algebra.Order.Field.Rat
import Mathlib.Tactic.Linarith
import Mathlib.Tactic.Positivity

/-! # Sampler

  Whether a transaction is sampled: random bytes, read as a signed 64-bit
  number, are compared with bounds that depend on the sampling rate. The rate
  that is reported is rounded to four decimal places, the bounds are computed
  from the rate as it was given.

  * `samplingLaw_iff`: the decisions of two samplers follow from their reported
    rates exactly where rates that are rounded to the same one have the same
    bounds.
-/

namespace ApmAgent

/-- `Math.Round(value, digits, MidpointRounding.AwayFromZero)`. -/
def roundAwayFromZero (value : ℚ) (digits : Nat) : ℚ :=
  if value < 0 then -(⌊-value * 10 ^ digits + 1 / 2⌋ / 10 ^ digits)
  else ⌊value * 10 ^ digits + 1 / 2⌋ / 10 ^ digits

/-- `long.MaxValue` as a `double`. -/
def longMaxValueAsDouble : ℚ := 2 ^ 63

/-- The number that little-endian bytes are. -/
def littleEndian : List UInt8 → Nat
  | [] => 0
  | b :: bytes => b.toNat + 256 * littleEndian bytes

/-- `BitConverter.ToInt64(bytes, 0)`. -/
def toInt64 (bytes : List UInt8) : Except RuntimeException Int64 :=
  if bytes.length < 8 then .error .argument
  else .ok (UInt64.ofNat (littleEndian (bytes.take 8))).toInt64

structure Sampler where
  /-- `Rate`, the rate that is reported. -/
  rate : ℚ
  constant : Option Bool
  higherBound : Int64
  lowerBound : Int64
  deriving DecidableEq

namespace Sampler

/-- `RoundToPrecision`. -/
def roundToPrecision (rate : ℚ) : ℚ :=
  if 0 < rate ∧ rate < 1 / 10000 then 1 / 10000 else roundAwayFromZero rate 4

/-- The constructor. -/
def new (rate : ℚ) : Except RuntimeException Sampler :=
  if !isValidRate (.finite rate) then .error .argumentOutOfRange
  else
    let reported := roundToPrecision rate
    if reported = 0 then .ok ⟨reported, some false, 0, 0⟩
    else if reported = 1 then .ok ⟨reported, some true, Int64.maxValue, Int64.minValue⟩
    else
      -- The rate is the given one here, not the reported one; the cast cuts off.
      let higherBound := Int64.ofInt ⌊longMaxValueAsDouble * rate⌋
      .ok ⟨reported, none, higherBound, -higherBound⟩

/-- `DecideIfToSample`. -/
def decideIfToSample (s : Sampler) (randomBytes : List UInt8) : Except RuntimeException Bool := do
  let longVal ← toInt64 randomBytes
  return s.constant.getD (s.lowerBound < longVal && longVal < s.higherBound)

end Sampler

/-- A rate that `IsValidRate` accepts. -/
abbrev SamplingRate := { rate : ℚ // 0 ≤ rate ∧ rate ≤ 1 }

namespace Sampler

/-! ### Rounding -/

theorem roundToPrecision_of_le {rate : ℚ} (h : 1 / 10000 ≤ rate) :
    roundToPrecision rate = ⌊rate * 10000 + 1 / 2⌋ / 10000 := by
  unfold roundToPrecision roundAwayFromZero
  rw [if_neg (by rintro ⟨-, hlt⟩; linarith), if_neg (by linarith)]
  norm_num

theorem roundToPrecision_zero : roundToPrecision 0 = 0 := by decide +kernel

theorem roundToPrecision_one : roundToPrecision 1 = 1 := by decide +kernel

/-- The least rate that is reported, zero apart. -/
theorem le_roundToPrecision {rate : ℚ} (h : 0 < rate) : 1 / 10000 ≤ roundToPrecision rate := by
  by_cases hsmall : rate < 1 / 10000
  · unfold roundToPrecision
    rw [if_pos ⟨h, hsmall⟩]
  · rw [roundToPrecision_of_le (not_lt.mp hsmall)]
    have hone : (1 : ℤ) ≤ ⌊rate * 10000 + 1 / 2⌋ := by
      rw [Int.le_floor]
      push_cast
      linarith [not_lt.mp hsmall]
    have hone' : (1 : ℚ) ≤ ⌊rate * 10000 + 1 / 2⌋ := by exact_mod_cast hone
    linarith

/-- A greater rate is not reported as a smaller one. -/
theorem roundToPrecision_mono {r₁ r₂ : ℚ} (h₁ : 0 ≤ r₁) (hle : r₁ ≤ r₂) :
    roundToPrecision r₁ ≤ roundToPrecision r₂ := by
  rcases h₁.eq_or_lt with rfl | hpos
  · rw [roundToPrecision_zero]
    rcases hle.eq_or_lt with rfl | hpos
    · rw [roundToPrecision_zero]
    · exact le_trans (by norm_num) (le_roundToPrecision hpos)
  · by_cases hsmall : r₁ < 1 / 10000
    · have hleast : roundToPrecision r₁ = 1 / 10000 := by
        unfold roundToPrecision
        rw [if_pos ⟨hpos, hsmall⟩]
      rw [hleast]
      exact le_roundToPrecision (hpos.trans_le hle)
    · have hlarge := not_lt.mp hsmall
      rw [roundToPrecision_of_le hlarge, roundToPrecision_of_le (hlarge.trans hle)]
      have hfloor : ⌊r₁ * 10000 + 1 / 2⌋ ≤ ⌊r₂ * 10000 + 1 / 2⌋ :=
        Int.floor_le_floor (by linarith)
      have hfloor' : (⌊r₁ * 10000 + 1 / 2⌋ : ℚ) ≤ ⌊r₂ * 10000 + 1 / 2⌋ := by
        exact_mod_cast hfloor
      linarith

/-! ### Decisions -/

/-- The bound computed from a rate. -/
def bound (rate : ℚ) : Int := ⌊longMaxValueAsDouble * rate⌋

theorem bound_mono {r₁ r₂ : ℚ} (h : r₁ ≤ r₂) : bound r₁ ≤ bound r₂ :=
  Int.floor_le_floor (mul_le_mul_of_nonneg_left h (by unfold longMaxValueAsDouble; positivity))

theorem bound_nonneg (r : SamplingRate) : 0 ≤ bound r := by
  have hpos : 0 ≤ longMaxValueAsDouble * r.1 :=
    mul_nonneg (by unfold longMaxValueAsDouble; positivity) r.2.1
  exact Int.floor_nonneg.mpr hpos

/-- Unless the rate is reported as 1, the bound is a `long`. -/
theorem bound_lt (r : SamplingRate) (h : roundToPrecision r ≠ 1) : bound r < 2 ^ 63 := by
  have hlt : r.1 < 1 := by
    refine lt_of_le_of_ne r.2.2 fun hone => h ?_
    rw [hone]
    exact roundToPrecision_one
  unfold bound
  rw [Int.floor_lt]
  unfold longMaxValueAsDouble
  push_cast
  linarith

theorem isValidRate_finite (r : SamplingRate) : isValidRate (.finite r.1) = true := by
  have hzero : Double.le 0 (.finite r.1) = decide ((0 : ℚ) ≤ r.1) := rfl
  have hone : Double.le (.finite r.1) 1 = decide (r.1 ≤ ((1 : ℕ) : ℚ)) := rfl
  unfold isValidRate
  rw [hzero, hone, decide_eq_true r.2.1, decide_eq_true (by exact_mod_cast r.2.2)]
  rfl

/-- What the sampler of a rate reports. -/
theorem new_rate (r : SamplingRate) {s : Sampler} (h : new r = .ok s) :
    s.rate = roundToPrecision r := by
  unfold new at h
  rw [isValidRate_finite] at h
  simp only [Bool.not_true, Bool.false_eq_true, if_false] at h
  split at h
  · cases h
    rfl
  · split at h
    · cases h
      rfl
    · cases h
      rfl

/-- The numbers that the sampler of a rate samples. -/
def Samples (r : SamplingRate) (longVal : Int) : Prop :=
  roundToPrecision r = 1 ∨
    (roundToPrecision r ≠ 0 ∧ -bound r < longVal ∧ longVal < bound r)

instance (r : SamplingRate) (longVal : Int) : Decidable (Samples r longVal) :=
  inferInstanceAs (Decidable (_ ∨ _))

/-- What the sampler of a rate decides. -/
theorem decideIfToSample_eq (r : SamplingRate) {s : Sampler} (h : new r = .ok s)
    {randomBytes : List UInt8} {longVal : Int64} (hbytes : toInt64 randomBytes = .ok longVal) :
    s.decideIfToSample randomBytes = .ok (decide (Samples r longVal.toInt)) := by
  unfold decideIfToSample
  rw [hbytes]
  unfold new at h
  rw [isValidRate_finite] at h
  simp only [Bool.not_true, Bool.false_eq_true, if_false] at h
  split at h
  · next hzero =>
    cases h
    simp [Samples, hzero]
  · next hzero =>
    split at h
    · next hone =>
      cases h
      simp [Samples, hone]
    · next hone =>
      cases h
      have hlt := bound_lt r hone
      have hnonneg := bound_nonneg r
      have hhigher : (Int64.ofInt (bound r)).toInt = bound r :=
        Int64.toInt_ofInt_of_le (by omega) hlt
      have hlower : (-Int64.ofInt (bound r)).toInt = -bound r := by
        rw [← Int64.ofInt_neg]
        exact Int64.toInt_ofInt_of_le (by omega) (by omega)
      show Except.ok (decide (-Int64.ofInt (bound r) < longVal) &&
        decide (longVal < Int64.ofInt (bound r))) = _
      simp [Samples, Int64.lt_iff_toInt_lt, hhigher, hlower, hzero, hone]

/-! ### Random bytes -/

/-- The lowest `n` bytes of a number. -/
def bytesOf : (n value : Nat) → List UInt8
  | 0, _ => []
  | n + 1, value => UInt8.ofNat (value % 256) :: bytesOf n (value / 256)

theorem length_bytesOf (n value : Nat) : (bytesOf n value).length = n := by
  induction n generalizing value with
  | zero => rfl
  | succ n ih => rw [bytesOf, List.length_cons, ih]

theorem littleEndian_bytesOf (n value : Nat) :
    littleEndian (bytesOf n value) = value % 256 ^ n := by
  induction n generalizing value with
  | zero => rw [bytesOf, littleEndian, pow_zero, Nat.mod_one]
  | succ n ih =>
    have hbyte : (UInt8.ofNat (value % 256)).toNat = value % 256 := by
      rw [UInt8.toNat_ofNat']
      omega
    rw [bytesOf, littleEndian, hbyte, ih, pow_succ', Nat.mod_mul]

/-- Random bytes can be every number. -/
theorem exists_toInt64_eq (longVal : Int64) :
    ∃ randomBytes, randomBytes.length = 8 ∧ toInt64 randomBytes = .ok longVal := by
  refine ⟨bytesOf 8 longVal.toUInt64.toNat, length_bytesOf _ _, ?_⟩
  have hlength := length_bytesOf 8 longVal.toUInt64.toNat
  have hall : (bytesOf 8 longVal.toUInt64.toNat).take 8 = bytesOf 8 longVal.toUInt64.toNat :=
    List.take_of_length_le (Nat.le_of_eq hlength)
  have hvalue : longVal.toUInt64.toNat % 256 ^ 8 = longVal.toUInt64.toNat :=
    Nat.mod_eq_of_lt longVal.toUInt64.toNat_lt
  unfold toInt64
  rw [if_neg (by omega), hall, littleEndian_bytesOf, hvalue, UInt64.ofNat_toNat,
    Int64.toInt64_toUInt64]

theorem exists_longVal {randomBytes : List UInt8} (h : randomBytes.length = 8) :
    ∃ longVal, toInt64 randomBytes = .ok longVal := by
  unfold toInt64
  rw [if_neg (by omega)]
  exact ⟨_, rfl⟩

/-! ### Decisions and reported rates -/

/-- The decisions of the samplers of two rates follow from the rates they report, for all
    random bytes. -/
structure SamplingLaw (r₁ r₂ : SamplingRate) : Prop where
  monotone : ∀ s₁ s₂, new r₁ = .ok s₁ → new r₂ = .ok s₂ → s₁.rate ≤ s₂.rate →
    ∀ randomBytes, randomBytes.length = 8 →
      s₁.decideIfToSample randomBytes = .ok true → s₂.decideIfToSample randomBytes = .ok true
  sameDecision : ∀ s₁ s₂, new r₁ = .ok s₁ → new r₂ = .ok s₂ → s₁.rate = s₂.rate →
    ∀ randomBytes, randomBytes.length = 8 →
      s₁.decideIfToSample randomBytes = s₂.decideIfToSample randomBytes
  nothing : ∃ s, new 0 = .ok s ∧ ∀ randomBytes, randomBytes.length = 8 →
    s.decideIfToSample randomBytes = .ok false
  everything : ∃ s, new 1 = .ok s ∧ ∀ randomBytes, randomBytes.length = 8 →
    s.decideIfToSample randomBytes = .ok true

theorem exists_new (r : SamplingRate) : ∃ s, new r = .ok s := by
  unfold new
  rw [isValidRate_finite]
  simp only [Bool.not_true, Bool.false_eq_true, if_false]
  split
  · exact ⟨_, rfl⟩
  · split
    · exact ⟨_, rfl⟩
    · exact ⟨_, rfl⟩

/-- Rates that are reported as different ones are not decided the other way round. -/
theorem monotone_of_lt {r₁ r₂ : SamplingRate}
    (hlt : roundToPrecision r₁ < roundToPrecision r₂) {longVal : Int} (h : Samples r₁ longVal) :
    Samples r₂ longVal := by
  have hle : r₁.1 ≤ r₂.1 := by
    by_contra hgt
    exact absurd (roundToPrecision_mono r₂.2.1 (le_of_not_ge hgt)) (not_le.mpr hlt)
  have hmono := bound_mono hle
  have hone : roundToPrecision r₂ ≤ 1 :=
    (roundToPrecision_mono r₂.2.1 r₂.2.2).trans_eq roundToPrecision_one
  obtain h | ⟨hne, hlower, hupper⟩ := h
  · rw [h] at hlt
    exact absurd hlt (not_lt.mpr hone)
  · have hnonneg : 0 ≤ roundToPrecision r₁ :=
      roundToPrecision_zero.symm.trans_le (roundToPrecision_mono (le_refl 0) r₁.2.1)
    exact .inr ⟨ne_of_gt (hnonneg.trans_lt hlt), by omega, by omega⟩

/-- A bound that is not passed by a number below another bound is not below that one. -/
theorem bound_le_of_forall {r₁ r₂ : SamplingRate} (hne : roundToPrecision r₂ ≠ 1)
    (h : ∀ longVal : Int64, -bound r₁ < longVal.toInt ∧ longVal.toInt < bound r₁ →
      -bound r₂ < longVal.toInt ∧ longVal.toInt < bound r₂) : bound r₁ ≤ bound r₂ := by
  have hnonneg := bound_nonneg r₂
  have hvalue : (Int64.ofInt (bound r₂)).toInt = bound r₂ :=
    Int64.toInt_ofInt_of_le (by omega) (bound_lt r₂ hne)
  have hbound := h (Int64.ofInt (bound r₂))
  rw [hvalue] at hbound
  omega

/-- The samplers of two rates decide the same where both bounds are passed by the same numbers. -/
theorem bound_eq_of_sameDecision {r₁ r₂ : SamplingRate} (h : SamplingLaw r₁ r₂)
    (hsame : roundToPrecision r₁ = roundToPrecision r₂) (hzero : roundToPrecision r₁ ≠ 0)
    (hone : roundToPrecision r₁ ≠ 1) : bound r₁ = bound r₂ := by
  obtain ⟨s₁, hs₁⟩ := exists_new r₁
  obtain ⟨s₂, hs₂⟩ := exists_new r₂
  have hrate : s₁.rate = s₂.rate := by rw [new_rate r₁ hs₁, new_rate r₂ hs₂, hsame]
  have hzero₂ : roundToPrecision r₂ ≠ 0 := hsame ▸ hzero
  have hone₂ : roundToPrecision r₂ ≠ 1 := hsame ▸ hone
  have hiff (longVal : Int64) : (-bound r₁ < longVal.toInt ∧ longVal.toInt < bound r₁) ↔
      (-bound r₂ < longVal.toInt ∧ longVal.toInt < bound r₂) := by
    obtain ⟨randomBytes, hlength, hbytes⟩ := exists_toInt64_eq longVal
    have hdecision := h.sameDecision s₁ s₂ hs₁ hs₂ hrate randomBytes hlength
    rw [decideIfToSample_eq r₁ hs₁ hbytes, decideIfToSample_eq r₂ hs₂ hbytes,
      Except.ok.injEq, decide_eq_decide] at hdecision
    simpa only [Samples, hone, hone₂, hzero, hzero₂, false_or, ne_eq, not_false_eq_true,
      true_and] using hdecision
  exact le_antisymm (bound_le_of_forall hone₂ fun longVal => (hiff longVal).mp)
    (bound_le_of_forall hone fun longVal => (hiff longVal).mpr)

/-- Rates that are reported as the same one, and have the same bounds unless they are reported
    as 0 or 1, sample the same numbers. -/
theorem samples_congr {r₁ r₂ : SamplingRate} (hrate : roundToPrecision r₁ = roundToPrecision r₂)
    (h : roundToPrecision r₁ = 0 ∨ roundToPrecision r₁ = 1 ∨ bound r₁ = bound r₂)
    (longVal : Int) : Samples r₁ longVal ↔ Samples r₂ longVal := by
  unfold Samples
  rw [← hrate]
  obtain hzero | hone | hbound := h
  · simp [hzero]
  · simp [hone]
  · rw [hbound]

theorem decideIfToSample_zero : ∃ s, new 0 = .ok s ∧ ∀ randomBytes, randomBytes.length = 8 →
    s.decideIfToSample randomBytes = .ok false := by
  obtain ⟨s, hs⟩ := exists_new ⟨0, le_refl 0, zero_le_one⟩
  refine ⟨s, hs, fun randomBytes hlength => ?_⟩
  obtain ⟨longVal, hbytes⟩ := exists_longVal hlength
  rw [decideIfToSample_eq _ hs hbytes]
  simp [Samples, roundToPrecision_zero]

theorem decideIfToSample_one : ∃ s, new 1 = .ok s ∧ ∀ randomBytes, randomBytes.length = 8 →
    s.decideIfToSample randomBytes = .ok true := by
  obtain ⟨s, hs⟩ := exists_new ⟨1, zero_le_one, le_refl 1⟩
  refine ⟨s, hs, fun randomBytes hlength => ?_⟩
  obtain ⟨longVal, hbytes⟩ := exists_longVal hlength
  rw [decideIfToSample_eq _ hs hbytes]
  simp [Samples, roundToPrecision_one]

/-- The law holds exactly for rates that are not rounded to the same one, to 0 or to 1, or have
    the same bounds. -/
theorem samplingLaw_iff (r₁ r₂ : SamplingRate) :
    SamplingLaw r₁ r₂ ↔
      (roundToPrecision r₁ = roundToPrecision r₂ →
        roundToPrecision r₁ = 0 ∨ roundToPrecision r₁ = 1 ∨
          ⌊longMaxValueAsDouble * r₁⌋ = ⌊longMaxValueAsDouble * r₂⌋) := by
  constructor
  · intro h hsame
    by_cases hzero : roundToPrecision r₁ = 0
    · exact .inl hzero
    · by_cases hone : roundToPrecision r₁ = 1
      · exact .inr (.inl hone)
      · exact .inr (.inr (bound_eq_of_sameDecision h hsame hzero hone))
  · intro h
    have hsame (hrate : roundToPrecision r₁ = roundToPrecision r₂) (longVal : Int) :
        Samples r₁ longVal ↔ Samples r₂ longVal := samples_congr hrate (h hrate) longVal
    refine ⟨?_, ?_, decideIfToSample_zero, decideIfToSample_one⟩
    · intro s₁ s₂ hs₁ hs₂ hle randomBytes hlength
      obtain ⟨longVal, hbytes⟩ := exists_longVal hlength
      rw [new_rate r₁ hs₁, new_rate r₂ hs₂] at hle
      rw [decideIfToSample_eq r₁ hs₁ hbytes, decideIfToSample_eq r₂ hs₂ hbytes]
      simp only [Except.ok.injEq, decide_eq_true_eq]
      rcases hle.lt_or_eq with hlt | heq
      · exact monotone_of_lt hlt
      · exact (hsame heq longVal.toInt).mp
    · intro s₁ s₂ hs₁ hs₂ hrate randomBytes hlength
      obtain ⟨longVal, hbytes⟩ := exists_longVal hlength
      rw [new_rate r₁ hs₁, new_rate r₂ hs₂] at hrate
      rw [decideIfToSample_eq r₁ hs₁ hbytes, decideIfToSample_eq r₂ hs₂ hbytes]
      exact congrArg Except.ok (decide_eq_decide.mpr (hsame hrate longVal.toInt))

/-- Both rates are reported as 0.5, but only the second one samples 2 ^ 62. -/
theorem samplingLaw_counterexample :
    ¬SamplingLaw ⟨1 / 2, by norm_num⟩ ⟨50001 / 100000, by norm_num⟩ := by
  intro h
  obtain ⟨s₁, hs₁⟩ := exists_new ⟨1 / 2, by norm_num⟩
  obtain ⟨s₂, hs₂⟩ := exists_new ⟨50001 / 100000, by norm_num⟩
  have hrate : s₁.rate = s₂.rate := by
    rw [new_rate _ hs₁, new_rate _ hs₂]
    decide +kernel
  have hbytes : toInt64 [0, 0, 0, 0, 0, 0, 0, 0x40] = .ok (2 ^ 62) := by decide +kernel
  have hdecision := h.sameDecision s₁ s₂ hs₁ hs₂ hrate [0, 0, 0, 0, 0, 0, 0, 0x40] rfl
  rw [decideIfToSample_eq _ hs₁ hbytes, decideIfToSample_eq _ hs₂ hbytes] at hdecision
  revert hdecision
  decide +kernel

end Sampler

end ApmAgent
