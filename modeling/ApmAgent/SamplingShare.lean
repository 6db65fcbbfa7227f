import ApmAgent.Sampler
import Mathlib.Data.Int.Interval
import Mathlib.Data.Set.Card

/-! # How much is sampled

  The sampling rate is meant as a share of the transactions: of all random
  bytes, as many are sampled as the rate says.

  The bytes are counted by the numbers they are read as. Each number is read
  from exactly one array of bytes, and the numbers that are sampled are an
  interval around zero without its ends. `sampledShare` says how far from the
  rate the share is.
-/

namespace ApmAgent

namespace Sampler

/-- The random bytes that are sampled. -/
def sampled (s : Sampler) : Set (List UInt8) :=
  { randomBytes | randomBytes.length = 8 ∧ s.decideIfToSample randomBytes = .ok true }

/-- The share of all random bytes that are sampled. -/
noncomputable def share (s : Sampler) : ℚ := s.sampled.ncard / 256 ^ 8

/-! ### Bytes and numbers -/

theorem littleEndian_lt (bytes : List UInt8) : littleEndian bytes < 256 ^ bytes.length := by
  induction bytes with
  | nil => exact Nat.one_pos
  | cons b bytes ih =>
    have hb : b.toNat < 256 := b.toNat_lt
    rw [littleEndian, List.length_cons, pow_succ']
    omega

theorem bytesOf_littleEndian (bytes : List UInt8) :
    bytesOf bytes.length (littleEndian bytes) = bytes := by
  induction bytes with
  | nil => rfl
  | cons b bytes ih =>
    have hb : b.toNat < 256 := b.toNat_lt
    have hmod : (b.toNat + 256 * littleEndian bytes) % 256 = b.toNat := by omega
    have hdiv : (b.toNat + 256 * littleEndian bytes) / 256 = littleEndian bytes := by omega
    rw [littleEndian, List.length_cons, bytesOf, hmod, hdiv, ih, UInt8.ofNat_toNat]

/-- The number that eight bytes are read as. -/
def readNumber (randomBytes : List UInt8) : Int :=
  (UInt64.ofNat (littleEndian randomBytes)).toInt64.toInt

theorem toInt64_of_length {randomBytes : List UInt8} (h : randomBytes.length = 8) :
    toInt64 randomBytes = .ok (UInt64.ofNat (littleEndian randomBytes)).toInt64 := by
  rw [toInt64, if_neg (by omega), List.take_of_length_le (Nat.le_of_eq h)]

theorem readNumber_injOn : Set.InjOn readNumber { randomBytes | randomBytes.length = 8 } := by
  intro b₁ h₁ b₂ h₂ h
  have hnumber := Int64.toInt_inj.mp h
  have hlt₁ := littleEndian_lt b₁
  have hlt₂ := littleEndian_lt b₂
  have hsize : 256 ^ 8 = 2 ^ 64 := rfl
  rw [h₁, hsize] at hlt₁
  rw [h₂, hsize] at hlt₂
  have heq : littleEndian b₁ = littleEndian b₂ := by
    have hbits := congrArg (fun longVal => longVal.toUInt64.toNat) hnumber
    simp only [UInt64.toUInt64_toInt64, UInt64.toNat_ofNat'] at hbits
    rwa [Nat.mod_eq_of_lt hlt₁, Nat.mod_eq_of_lt hlt₂] at hbits
  rw [← bytesOf_littleEndian b₁, ← bytesOf_littleEndian b₂, h₁, h₂, heq]

/-- The numbers that are sampled, each read from some bytes. -/
theorem image_sampled (r : SamplingRate) {s : Sampler} (h : new r = .ok s) :
    readNumber '' s.sampled = { n | (-2 ^ 63 ≤ n ∧ n < 2 ^ 63) ∧ Samples r n } := by
  ext n
  constructor
  · rintro ⟨randomBytes, ⟨hlength, hdecision⟩, rfl⟩
    rw [decideIfToSample_eq r h (toInt64_of_length hlength)] at hdecision
    simp only [Except.ok.injEq, decide_eq_true_eq] at hdecision
    exact ⟨⟨Int64.le_toInt _, Int64.toInt_lt _⟩, hdecision⟩
  · rintro ⟨⟨hle, hlt⟩, hsamples⟩
    obtain ⟨randomBytes, hlength, hbytes⟩ := exists_toInt64_eq (Int64.ofInt n)
    have hvalue : (Int64.ofInt n).toInt = n := Int64.toInt_ofInt_of_le hle hlt
    refine ⟨randomBytes, ⟨hlength, ?_⟩, ?_⟩
    · rw [decideIfToSample_eq r h hbytes, hvalue, decide_eq_true hsamples]
    · rw [toInt64_of_length hlength, Except.ok.injEq] at hbytes
      rw [readNumber, hbytes, hvalue]

theorem ncard_sampled (r : SamplingRate) {s : Sampler} (h : new r = .ok s) :
    s.sampled.ncard = { n | (-2 ^ 63 ≤ n ∧ n < 2 ^ 63) ∧ Samples r n }.ncard := by
  rw [← image_sampled r h]
  exact (Set.InjOn.ncard_image (readNumber_injOn.mono fun _ hb => hb.1)).symm

/-! ### The share -/

/-- A rate that is reported as 1 samples every number. -/
theorem ncard_of_one (r : SamplingRate) (hone : roundToPrecision r = 1) :
    { n | (-2 ^ 63 ≤ n ∧ n < 2 ^ 63) ∧ Samples r n }.ncard = 2 ^ 64 := by
  have hset : { n | (-2 ^ 63 ≤ n ∧ n < 2 ^ 63) ∧ Samples r n } =
      (Finset.Ico (-2 ^ 63 : ℤ) (2 ^ 63) : Set ℤ) := by
    ext n
    simp [Samples, hone]
  rw [hset, Set.ncard_coe_finset, Int.card_Ico]
  rfl

/-- Only a rate of 0 is reported as 0. -/
theorem eq_zero_of_roundToPrecision {r : SamplingRate} (h : roundToPrecision r = 0) :
    r.1 = 0 := by
  by_contra hne
  have hpos := le_roundToPrecision (lt_of_le_of_ne r.2.1 (Ne.symm hne))
  rw [h] at hpos
  norm_num at hpos

/-- Other rates sample the numbers between the bounds. -/
theorem ncard_of_ne_one (r : SamplingRate) (hone : roundToPrecision r ≠ 1) :
    { n | (-2 ^ 63 ≤ n ∧ n < 2 ^ 63) ∧ Samples r n }.ncard = (2 * bound r - 1).toNat := by
  have hlt := bound_lt r hone
  have hset : { n | (-2 ^ 63 ≤ n ∧ n < 2 ^ 63) ∧ Samples r n } =
      (Finset.Ioo (-bound r) (bound r) : Set ℤ) := by
    ext n
    simp only [Samples, hone, false_or, Set.mem_ofPred_eq, Finset.coe_Ioo, Set.mem_Ioo]
    by_cases hzero : roundToPrecision r = 0
    · have hbound : bound r = 0 := by
        rw [eq_zero_of_roundToPrecision hzero, bound, mul_zero, Int.floor_zero]
      simp only [hzero, hbound]
      omega
    · simp only [ne_eq, hzero, not_false_eq_true, true_and]
      omega
  rw [hset, Set.ncard_coe_finset, Int.card_Ioo]
  congr 1
  omega

/-- Only rates close to 1 are reported as 1. -/
theorem le_of_roundToPrecision {r : SamplingRate} (hone : roundToPrecision r = 1) :
    19999 / 20000 ≤ r.1 := by
  by_cases hlarge : 1 / 10000 ≤ r.1
  · rw [roundToPrecision_of_le hlarge] at hone
    have hfloor : (⌊r.1 * 10000 + 1 / 2⌋ : ℚ) ≤ r.1 * 10000 + 1 / 2 := Int.floor_le _
    linarith
  · have hle := roundToPrecision_mono r.2.1 (not_le.mp hlarge).le
    rw [hone] at hle
    exact absurd hle (by decide +kernel)

theorem share_of_ne_one (r : SamplingRate) {s : Sampler} (h : new r = .ok s)
    (hone : roundToPrecision r ≠ 1) : r.1 - 3 / 2 ^ 64 < s.share ∧ s.share ≤ r.1 := by
  have hnonneg := bound_nonneg r
  have hle : (bound r : ℚ) ≤ 2 ^ 63 * r.1 := Int.floor_le _
  have hlt : 2 ^ 63 * r.1 < bound r + 1 := Int.lt_floor_add_one _
  have hcard : s.share = ((2 * bound r - 1).toNat : ℚ) / 2 ^ 64 := by
    rw [share, ncard_sampled r h, ncard_of_ne_one r hone]
    norm_num
  rw [hcard]
  constructor
  · have hself : ((2 * bound r - 1 : ℤ) : ℚ) ≤ ((2 * bound r - 1).toNat : ℚ) := by
      exact_mod_cast Int.self_le_toNat _
    push_cast at hself
    rw [lt_div_iff₀ (by positivity)]
    linarith
  · rw [div_le_iff₀ (by positivity)]
    by_cases hpos : 1 ≤ bound r
    · have hself : ((2 * bound r - 1).toNat : ℚ) = 2 * bound r - 1 := by
        have hint : ((2 * bound r - 1).toNat : ℤ) = 2 * bound r - 1 := by omega
        exact_mod_cast hint
      rw [hself]
      linarith
    · have hzero : (2 * bound r - 1).toNat = 0 := by omega
      rw [hzero]
      have hrate := r.2.1
      push_cast
      positivity

/-- As much is sampled as the rate says, up to what a number is worth, unless the rate is
    rounded to 1. -/
theorem sampledShare (r : SamplingRate) :
    ∃ s, new r = .ok s ∧
      ((s.rate = 1 ∧ 19999 / 20000 ≤ r.1 ∧ s.share = 1) ∨
        (s.rate ≠ 1 ∧ r.1 - 3 / 2 ^ 64 < s.share ∧ s.share ≤ r.1)) := by
  obtain ⟨s, hs⟩ := exists_new r
  refine ⟨s, hs, ?_⟩
  rw [new_rate r hs]
  by_cases hone : roundToPrecision r = 1
  · refine .inl ⟨hone, le_of_roundToPrecision hone, ?_⟩
    rw [share, ncard_sampled r hs, ncard_of_one r hone]
    norm_num
  · exact .inr ⟨hone, share_of_ne_one r hs hone⟩

end Sampler

end ApmAgent
