import Mathlib.Algebra.Ring.Int.Defs
import Mathlib.Algebra.Ring.Nat

/-! # Machine integers

  Sums and differences of `Int32`s wrap around, and are exact where the result
  fits: `toInt_add` and `toInt_sub`. Counting up is exact below any other
  number. A sum of numbers that are not negative is never too large, whether it
  wraps around or not.
-/

namespace MachineInt

variable {a b n : Int32}

/-- A sum that fits is exact. -/
theorem toInt_add (hge : -2 ^ 31 ≤ a.toInt + b.toInt) (hlt : a.toInt + b.toInt < 2 ^ 31) :
    (a + b).toInt = a.toInt + b.toInt := by
  rw [Int32.toInt_add]
  exact Int.bmod_eq_of_le (by omega) (by omega)

/-- A difference that fits is exact. -/
theorem toInt_sub (hge : -2 ^ 31 ≤ a.toInt - b.toInt) (hlt : a.toInt - b.toInt < 2 ^ 31) :
    (a - b).toInt = a.toInt - b.toInt := by
  rw [Int32.toInt_sub]
  exact Int.bmod_eq_of_le (by omega) (by omega)

/-- Numbers that are not negative: the sum is exact, or it wraps around to a negative number. -/
theorem toInt_add_le (ha : 0 ≤ a.toInt) (hb : 0 ≤ b.toInt) :
    (a + b).toInt ≤ a.toInt + b.toInt := by
  rw [Int32.toInt_add, Int.bmod_def]
  split <;> omega

/-! ### Counting up -/

theorem maxValue_add_one : Int32.maxValue + 1 = Int32.minValue := by decide

/-- Below another number there is room for one more. -/
theorem toInt_add_one_of_lt (h : a < b) : (a + 1).toInt = a.toInt + 1 := by
  have ha := a.le_toInt
  have hb := b.toInt_lt
  rw [Int32.lt_iff_toInt_lt] at h
  have hone := Int32.toInt_one
  rw [toInt_add (by omega) (by omega), hone]

/-- Short of the largest value, an `Int32` that stands for a natural number counts on. -/
theorem toInt_add_one {k : Nat} (h : n.toInt = k) (hk : k + 1 < 2 ^ 31) :
    (n + 1).toInt = (k + 1 : Nat) := by
  have hlt : n < Int32.maxValue := by
    rw [Int32.lt_iff_toInt_lt, Int32.toInt_maxValue]
    omega
  rw [toInt_add_one_of_lt hlt, h, Int.natCast_succ]

/-- Short of the largest value, counting up keeps a bound below. -/
theorem lt_add_one (hab : a < b) (hb : b ≠ Int32.maxValue) : a < b + 1 := by
  have hlt := Int32.lt_of_le_of_ne (Int32.le_maxValue b) hb
  rw [Int32.lt_iff_toInt_lt] at hab ⊢
  rw [toInt_add_one_of_lt hlt]
  omega

end MachineInt
