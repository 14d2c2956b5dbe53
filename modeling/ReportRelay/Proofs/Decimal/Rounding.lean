import Mathlib.Tactic.Linarith
import ReportRelay.Decimal.Arithmetic
import ReportRelay.Proofs.Decimal.Value

/-!
# Rounding does not undo an addition

A sum that does not fit loses digits from the right, and is then at least as large as a mantissa can be. So what is
added to a decimal may vanish, but the sum is never rounded below the decimal.
-/

namespace ReportRelay.Decimal

variable {n d m k scale : Nat} {a b c : Decimal}

/-! ## The nearest integer -/

/-- The quotient is half a unit away at most. -/
theorem divideToEven_nearest (n : Nat) (hd : 0 < d) :
    2 * n ≤ 2 * (d * divideToEven n d) + d ∧ 2 * (d * divideToEven n d) ≤ 2 * n + d := by
  have hdivision := Nat.div_add_mod n d
  have hrest := Nat.mod_lt n hd
  unfold divideToEven
  dsimp only
  split
  · rw [Nat.mul_add]
    omega
  · omega

theorem le_divideToEven (hd : 0 < d) (h : d * m ≤ n) : m ≤ divideToEven n d := by
  have hquotient : m ≤ n / d := (Nat.le_div_iff_mul_le hd).2 (by rwa [Nat.mul_comm])
  unfold divideToEven
  dsimp only
  split <;> omega

/-- A quotient that does not fit is still as large with one digit less. -/
theorem le_mul_divideToEven (hd : 0 < d) (h : mantissaBound ≤ divideToEven n d) :
    mantissaBound ≤ 10 * divideToEven n (10 * d) := by
  have hlarge := (divideToEven_nearest n hd).2
  have hsmall := (divideToEven_nearest n (Nat.mul_pos (by decide : 0 < 10) hd)).1
  have hmul : d * mantissaBound ≤ d * divideToEven n d := Nat.mul_le_mul_left d h
  have hcancel : d * (2 * mantissaBound) ≤ d * (20 * divideToEven n (10 * d) + 11) := by
    linarith
  have hle := Nat.le_of_mul_le_mul_left hcancel hd
  unfold mantissaBound at hle ⊢
  omega

/-! ## Losing digits -/

theorem mk?_eq_some_iff : mk? (m : Int) scale = some c ↔ c.negative = false ∧ c.mantissa = m ∧ c.scale = scale := by
  have hsign : decide ((m : Int) < 0) = false := by simp
  obtain ⟨negative, mantissa, s, hmantissa, hs⟩ := c
  rw [mk?, hsign, ofParts?, Int.natAbs_natCast]
  split
  next hfits => simp [eq_comm]
  next hfits =>
    refine iff_of_false (Option.some_ne_none _).symm ?_
    rintro ⟨_, rfl, rfl⟩
    exact hfits ⟨hmantissa, hs⟩

theorem le_of_mk?_eq_none (h : mk? (m : Int) scale = none) (hscale : scale ≤ maxScale) : mantissaBound ≤ m := by
  by_contra hlt
  have hsome : mk? (m : Int) scale = some ⟨false, m, scale, Nat.not_le.1 hlt, hscale⟩ :=
    mk?_eq_some_iff.2 ⟨rfl, rfl, rfl⟩
  rw [h] at hsome
  cases hsome

/-- A number that is not negative keeps its sign, and loses as few digits as are needed for the others to fit. -/
theorem of_fit? (h : fit? (n : Int) scale = some c) : c.negative = false ∧ ∃ dropped ≤ scale,
    c.scale = scale - dropped ∧ c.mantissa = divideToEven n (10 ^ dropped) ∧
      ∀ fewer < dropped, scale - fewer ≤ maxScale → mantissaBound ≤ divideToEven n (10 ^ fewer) := by
  obtain ⟨front, dropped, back, hrange, hfits, hfront⟩ := List.findSome?_eq_some_iff.1 h
  rw [List.range_eq_range', List.range'_eq_append_iff] at hrange
  obtain ⟨k, hk, rfl, hback⟩ := hrange
  obtain ⟨hdropped, hmore, _⟩ := List.range'_eq_cons_iff.1 hback.symm
  obtain rfl : k = dropped := by omega
  have hsign : ∀ m : Nat, withSign (decide ((n : Int) < 0)) m = m := by
    intro m
    simp [withSign_eq]
  simp only [hsign, Int.natAbs_natCast] at hfits hfront
  obtain ⟨hnegative, hmantissa, hscale⟩ := mk?_eq_some_iff.1 hfits
  refine ⟨hnegative, k, by omega, hscale, hmantissa, fun fewer hfewer hroom => ?_⟩
  exact le_of_mk?_eq_none (hfront fewer (List.mem_range'_1.2 ⟨Nat.zero_le fewer, by omega⟩)) hroom

theorem value_nonneg_of_fit? (h : fit? (n : Int) scale = some c) : 0 ≤ c.value := by
  apply value_nonneg_of_coefficient
  rw [coefficient, (of_fit? h).1, withSign_eq]
  exact Int.natCast_nonneg _

theorem ten_pow_eq_mul {i j : Nat} (h : i ≤ j) : (10 : Nat) ^ j = 10 ^ i * 10 ^ (j - i) := by
  have hpow := Nat.pow_add 10 i (j - i)
  rw [Nat.add_sub_cancel' h] at hpow
  exact hpow

/-- The digits that are lost of a number are not those of a mantissa that is part of it. -/
theorem le_of_fit? {t : Nat} (hm : m < mantissaBound) (ht : t ≤ scale) (hscale : scale ≤ maxScale)
    (hpart : m * 10 ^ (scale - t) ≤ n) (h : fit? (n : Int) scale = some c) :
    m * 10 ^ c.scale ≤ c.mantissa * 10 ^ t := by
  obtain ⟨_, k, hk, hcscale, hmantissa, hfewer⟩ := of_fit? h
  rw [hcscale, hmantissa]
  rcases Nat.lt_or_ge (scale - t) k with hlost | hkept
  · -- One digit less did not fit, so that the result is larger than any mantissa with one digit less.
    obtain ⟨k, rfl⟩ := Nat.exists_eq_add_one.2 (Nat.zero_lt_of_lt hlost)
    have hlarge := le_mul_divideToEven (Nat.pow_pos (by decide)) (hfewer k (Nat.lt_succ_self k) (by omega))
    have hpow : (10 : Nat) ^ t = 10 ^ (scale - (k + 1)) * 10 ^ (t - (scale - (k + 1))) := ten_pow_eq_mul (by omega)
    have hten : 10 ≤ (10 : Nat) ^ (t - (scale - (k + 1))) := Nat.le_self_pow (by omega) 10
    have hdigit : (10 : Nat) ^ (k + 1) = 10 * 10 ^ k := Nat.pow_succ'
    rw [hdigit, hpow]
    generalize divideToEven n (10 * 10 ^ k) = q at hlarge
    calc m * 10 ^ (scale - (k + 1))
        ≤ q * 10 * 10 ^ (scale - (k + 1)) := Nat.mul_le_mul_right _ (by omega)
      _ ≤ q * 10 ^ (t - (scale - (k + 1))) * 10 ^ (scale - (k + 1)) :=
        Nat.mul_le_mul_right _ (Nat.mul_le_mul_left q hten)
      _ = q * (10 ^ (scale - (k + 1)) * 10 ^ (t - (scale - (k + 1)))) := by
        rw [Nat.mul_assoc, Nat.mul_comm (10 ^ (t - (scale - (k + 1))))]
  · -- The mantissa is whole at the scale of the result.
    have hwhole : 10 ^ k * (m * 10 ^ (scale - t - k)) ≤ n := by
      rwa [Nat.mul_left_comm, ← ten_pow_eq_mul hkept]
    have hpow : (10 : Nat) ^ (scale - k) = 10 ^ t * 10 ^ (scale - t - k) := by
      rw [ten_pow_eq_mul (show t ≤ scale - k by omega), Nat.sub_right_comm]
    calc m * 10 ^ (scale - k)
        = m * 10 ^ (scale - t - k) * 10 ^ t := by rw [hpow, Nat.mul_comm (10 ^ t), Nat.mul_assoc]
      _ ≤ divideToEven n (10 ^ k) * 10 ^ t :=
        Nat.mul_le_mul_right _ (le_divideToEven (Nat.pow_pos (by decide)) hwhole)

/-! ## Results that are not negative -/

theorem value_nonneg_of_mul? (ha : 0 ≤ a.value) (hb : 0 ≤ b.value) (h : a.mul? b = some c) : 0 ≤ c.value := by
  unfold mul? at h
  split at h
  next =>
    cases h
    exact value_zero.ge
  next =>
    rw [coefficient_of_nonneg ha, coefficient_of_nonneg hb, ← Int.natCast_mul] at h
    exact value_nonneg_of_fit? h

theorem value_nonneg_of_hundredth? (ha : 0 ≤ a.value) (h : a.hundredth? = some c) : 0 ≤ c.value := by
  unfold hundredth? at h
  split at h
  next =>
    cases h
    exact value_zero.ge
  next hzero =>
    have hpositive : a.negative = false := by
      have hcoefficient := coefficient_of_nonneg ha
      rw [coefficient, withSign_eq] at hcoefficient
      have hmantissa : a.mantissa ≠ 0 := by simpa [isZero] using hzero
      split at hcoefficient
      next => omega
      next hnot => exact Bool.eq_false_of_not_eq_true hnot
    rw [hpositive] at h
    exact value_nonneg_of_fit? h

theorem value_nonneg_of_percent? (ha : 0 ≤ a.value) (hb : 0 ≤ b.value) (h : a.percent? b = some c) : 0 ≤ c.value := by
  obtain ⟨product, hproduct, hpart⟩ := Option.bind_eq_some_iff.1 h
  exact value_nonneg_of_hundredth? (value_nonneg_of_mul? ha hb hproduct) hpart

/-- What is added to a decimal never makes it smaller, even where the sum loses digits. -/
theorem value_le_of_add? (ha : 0 ≤ a.value) (hb : 0 ≤ b.value) (h : a.add? b = some c) : b.value ≤ c.value := by
  unfold add? at h
  split at h
  next =>
    cases h
    exact le_rfl
  next =>
    split at h
    next hzero =>
      cases h
      rwa [isZero_iff.1 hzero]
    next =>
      rw [coefficient_of_nonneg ha, coefficient_of_nonneg hb] at h
      dsimp only at h
      generalize hs : Nat.max a.scale b.scale = s at h
      have hsum : (a.mantissa : Int) * 10 ^ (s - a.scale) + b.mantissa * 10 ^ (s - b.scale) =
          ((a.mantissa * 10 ^ (s - a.scale) + b.mantissa * 10 ^ (s - b.scale) : Nat) : Int) := by
        push_cast
        rfl
      have hbs : b.scale ≤ s := hs ▸ Nat.le_max_right _ _
      have hroom : s ≤ maxScale := hs ▸ Nat.max_le.2 ⟨a.scale_le, b.scale_le⟩
      rw [hsum] at h
      have hle := le_of_fit? b.mantissa_lt hbs hroom (Nat.le_add_left _ _) h
      have hc : c.coefficient = c.mantissa := coefficient_of_nonneg (value_nonneg_of_fit? h)
      rw [← le_iff]
      change ¬c.coefficient * 10 ^ b.scale < b.coefficient * 10 ^ c.scale
      rw [hc, coefficient_of_nonneg hb, not_lt]
      exact_mod_cast hle

end ReportRelay.Decimal
