import Mathlib.Algebra.Order.Field.Rat
import Mathlib.Tactic.FieldSimp
import Mathlib.Tactic.Positivity
import ReportRelay.Decimal.Basic

/-!
# Values of decimals

Decimals are compared by the rational numbers that they stand for, and so the laws of an order hold of them.
-/

namespace ReportRelay.Decimal

variable {a b c : Decimal}

/-- The number that the decimal stands for. -/
def value (a : Decimal) : ℚ :=
  a.coefficient / 10 ^ a.scale

theorem cast_ten_pow (n : Nat) : (((10 : Int) ^ n : Int) : ℚ) = 10 ^ n :=
  Int.cast_pow 10 n

theorem value_lt_value_iff {m n : Int} {s t : Nat} :
    (m : ℚ) / 10 ^ s < n / 10 ^ t ↔ m * (10 : Int) ^ t < n * (10 : Int) ^ s := by
  rw [div_lt_div_iff₀ (by positivity) (by positivity), ← cast_ten_pow, ← cast_ten_pow]
  exact_mod_cast Iff.rfl

theorem lt_iff : a < b ↔ a.value < b.value :=
  value_lt_value_iff.symm

theorem le_iff : a ≤ b ↔ a.value ≤ b.value := by
  rw [← not_lt, ← lt_iff]
  exact Iff.rfl

theorem sameValue_iff : a.sameValue b = true ↔ a.value = b.value := by
  rw [sameValue, decide_eq_true_eq, value, value, div_eq_div_iff (by positivity) (by positivity), ← cast_ten_pow,
    ← cast_ten_pow]
  exact_mod_cast Iff.rfl

theorem value_min : (a.min b).value = Min.min a.value b.value := by
  unfold Decimal.min
  split
  next h => exact (min_eq_right (lt_iff.1 h).le).symm
  next h => exact (min_eq_left (le_iff.1 h)).symm

theorem value_max : (a.max b).value = Max.max a.value b.value := by
  unfold Decimal.max
  split
  next h => exact (max_eq_right (lt_iff.1 h).le).symm
  next h => exact (max_eq_left (le_iff.1 h)).symm

theorem value_zero : zero.value = 0 := by
  simp [value, zero, coefficient, withSign]

theorem isZero_iff : a.isZero = true ↔ a.value = 0 := by
  have hpow : (10 : ℚ) ^ a.scale ≠ 0 := by positivity
  simp only [isZero, value, coefficient, withSign, decide_eq_true_eq, div_eq_zero_iff, hpow, or_false, Int.cast_eq_zero]
  split <;> simp

theorem withSign_eq (negative : Bool) (n : Nat) : withSign negative n = if negative then -(n : Int) else n := rfl

/-- A decimal that is not below zero stands for its mantissa, even if it is the negative zero. -/
theorem coefficient_of_nonneg (h : 0 ≤ a.value) : a.coefficient = a.mantissa := by
  have hcoefficient : 0 ≤ a.coefficient := by
    rw [value, le_div_iff₀ (by positivity), zero_mul] at h
    exact_mod_cast h
  rw [coefficient, withSign_eq] at hcoefficient ⊢
  split at hcoefficient
  next hnegative =>
    rw [if_pos hnegative]
    omega
  next hpositive => rw [if_neg hpositive]

theorem value_nonneg_of_coefficient (h : 0 ≤ a.coefficient) : 0 ≤ a.value :=
  div_nonneg (by exact_mod_cast h) (by positivity)

end ReportRelay.Decimal
