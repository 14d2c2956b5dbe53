import Mathlib.Tactic.Common
import ReportRelay.Decimal.Binary64

/-!
# Comparing with one

A comparison of bits stands for one of sizes. What is no number is not below one, and not at least one either.
-/

namespace ReportRelay.Binary64

variable {x : Binary64}

/-- The number is one or more; what is no number is not. -/
def AtLeastOne (x : Binary64) : Prop :=
  x.isNaN = false ∧ x.isNegative = false ∧ (x.isFinite = true → one.units ≤ x.units)

theorem fractionField_lt (x : Binary64) : x.fractionField < 2 ^ 52 :=
  Nat.mod_lt _ (Nat.two_pow_pos 52)

/-- A number has at least the size of the first one with its exponent, -/
theorem le_units (h : 1 ≤ x.exponentField) : 2 ^ 52 * 2 ^ (x.exponentField - 1) ≤ x.units := by
  have hmantissa : x.mantissa = x.fractionField + 2 ^ 52 := if_neg (Nat.ne_of_gt h)
  rw [units, power, hmantissa]
  exact Nat.mul_le_mul_right _ (Nat.le_add_left _ _)

/-- and less than the first one with the next exponent. -/
theorem units_lt (x : Binary64) : x.units < 2 ^ 52 * 2 ^ x.exponentField := by
  have hfraction := x.fractionField_lt
  rw [units, power, mantissa]
  split
  next hzero =>
    rw [hzero, Nat.zero_sub, Nat.pow_zero, Nat.mul_one, Nat.mul_one]
    exact hfraction
  next hpos =>
    obtain ⟨e, he⟩ := Nat.exists_eq_add_one_of_ne_zero hpos
    rw [he, Nat.add_sub_cancel]
    calc (x.fractionField + 2 ^ 52) * 2 ^ e < (2 ^ 52 * 2) * 2 ^ e :=
          Nat.mul_lt_mul_of_pos_right (by omega) (Nat.two_pow_pos e)
      _ = 2 ^ 52 * (2 * 2 ^ e) := Nat.mul_assoc _ _ _
      _ = 2 ^ 52 * 2 ^ (e + 1) := congrArg (2 ^ 52 * ·) (Nat.pow_succ' (m := 2)).symm

theorem units_one : one.units = 2 ^ 52 * 2 ^ one.power := by
  have hmantissa : one.mantissa = 2 ^ 52 := by decide
  rw [units, hmantissa]

theorem one_units_le_iff : one.units ≤ x.units ↔ 1023 ≤ x.exponentField := by
  have hpower : one.power = 1022 := by decide
  rw [units_one]
  generalize one.power = p at hpower ⊢
  constructor
  · intro h
    by_contra hlt
    have hpow : (2 : Nat) ^ x.exponentField ≤ 2 ^ p := Nat.pow_le_pow_right Nat.two_pos (by omega)
    exact absurd (Nat.lt_of_le_of_lt h x.units_lt) (Nat.not_lt.2 (Nat.mul_le_mul_left _ hpow))
  · intro h
    have hpow : (2 : Nat) ^ p ≤ 2 ^ (x.exponentField - 1) := Nat.pow_le_pow_right Nat.two_pos (by omega)
    exact Nat.le_trans (Nat.mul_le_mul_left _ hpow) (le_units (by omega))

theorem one_bits_le_iff (h : x.isNegative = false) : one.bits.toNat ≤ x.bits.toNat ↔ 1023 ≤ x.exponentField := by
  have hbits : x.bits.toNat < 2 ^ 63 := Nat.not_le.1 (of_decide_eq_false h)
  have hone : one.bits.toNat = 1023 * 2 ^ 52 := by decide
  rw [hone, exponentField]
  omega

/-- A number is not below one if and only if it is at least one, or is none. -/
theorem isBelowOne_eq_false_iff : x.isBelowOne = false ↔ x.isNaN = true ∨ x.AtLeastOne := by
  rw [isBelowOne, AtLeastOne]
  cases hnan : x.isNaN
  · cases hnegative : x.isNegative
    · simp only [Bool.not_false, Bool.true_and, Bool.false_or, decide_eq_false_iff_not, Nat.not_lt,
        Bool.false_eq_true, false_or, true_and]
      rw [one_bits_le_iff hnegative, one_units_le_iff]
      -- an infinite number has the largest exponent
      refine ⟨fun h _ => h, fun h => ?_⟩
      by_cases hfinite : x.isFinite = true
      · exact h hfinite
      · have hexponent : 2047 ≤ x.exponentField := Nat.not_lt.1 fun hlt => hfinite (decide_eq_true hlt)
        omega
    · simp
  · simp

end ReportRelay.Binary64
