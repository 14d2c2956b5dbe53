import Mathlib.Tactic.Common
import ReportRelay.Retry

/-!
# Delays

The delays of a policy never get shorter. An exponential delay is twice the one before it until the cap is reached, for
as long as its factor fits into 32 bits: from the thirty-third attempt on the delays stand still below a cap that is
too far away.
-/

namespace ReportRelay.RetryPolicy

variable {policy : RetryPolicy} {longest attempt m n : Nat}

/-! ## Factors -/

/-- The largest factor. -/
def fullFactor : Nat := 2 ^ 32 - 1

theorem doublings_of_lt (h : n < 32) : doublings n = 2 ^ n :=
  if_pos h

theorem doublings_of_le (h : 32 ≤ n) : doublings n = fullFactor :=
  if_neg (Nat.not_lt.2 h)

theorem doublings_succ (h : n < 31) : doublings (n + 1) = 2 * doublings n := by
  rw [doublings_of_lt (by omega), doublings_of_lt (by omega), Nat.pow_succ']

theorem doublings_le (n : Nat) : doublings n ≤ fullFactor := by
  rcases Nat.lt_or_ge n 32 with h | h
  · rw [doublings_of_lt h]
    exact Nat.le_trans (Nat.pow_le_pow_right Nat.two_pos (Nat.le_of_lt_succ h)) (by decide)
  · exact Nat.le_of_eq (doublings_of_le h)

theorem doublings_mono (h : m ≤ n) : doublings m ≤ doublings n := by
  rcases Nat.lt_or_ge n 32 with hn | hn
  · rw [doublings_of_lt hn, doublings_of_lt (by omega)]
    exact Nat.pow_le_pow_right Nat.two_pos h
  · rw [doublings_of_le hn]
    exact doublings_le m

/-- Two factors in a row double only as long as there is room. -/
theorem two_mul_doublings_of_le (h : 31 ≤ n) : doublings (n + 1) = fullFactor ∧ fullFactor < 2 * doublings n := by
  refine ⟨doublings_of_le (by omega), ?_⟩
  calc fullFactor < 2 * doublings 31 := by decide
    _ ≤ 2 * doublings n := Nat.mul_le_mul_left 2 (doublings_mono h)

/-! ## Delays -/

theorem delayFor_mono (policy : RetryPolicy) (h : m ≤ n) : policy.delayFor m ≤ policy.delayFor n := by
  unfold delayFor
  split
  · exact Nat.le_refl _
  · have hfactor : doublings (m - 1) ≤ doublings (n - 1) := doublings_mono (Nat.sub_le_sub_right h 1)
    have hproduct := Nat.mul_le_mul_left policy.interval hfactor
    omega

theorem delayFor_le (h : policy.backoff = .exponential longest) (attempt : Nat) :
    policy.delayFor attempt ≤ longest := by
  rw [delayFor, h]
  exact Nat.min_le_right _ _

/-- A cap that is a duration is reached before durations end. -/
theorem delayFor_eq (h : policy.backoff = .exponential longest) (hlongest : longest ≤ Duration.longest)
    (attempt : Nat) : policy.delayFor attempt = min (policy.interval * doublings (attempt - 1)) longest := by
  rw [delayFor, h]
  dsimp only
  omega

theorem delayFor_one (h : policy.backoff = .exponential longest) (hlongest : longest ≤ Duration.longest) :
    policy.delayFor 1 = min policy.interval longest := by
  rw [delayFor_eq h hlongest, doublings_of_lt (by decide), Nat.sub_self, Nat.pow_zero, Nat.mul_one]

/-! ## Doubling -/

/-- The delay behind the next attempt is twice as long, as far as durations and the cap admit. -/
def DoublesAt (policy : RetryPolicy) (longest attempt : Nat) : Prop :=
  policy.delayFor (attempt + 1) = min (min (2 * policy.delayFor attempt) Duration.longest) longest

theorem doublesAt_iff_factors (h : policy.backoff = .exponential longest) (hlongest : longest ≤ Duration.longest) :
    policy.DoublesAt longest attempt ↔ min (policy.interval * doublings attempt) longest =
      min (policy.interval * (2 * doublings (attempt - 1))) longest := by
  have hdouble : policy.interval * (2 * doublings (attempt - 1)) = 2 * (policy.interval * doublings (attempt - 1)) :=
    Nat.mul_left_comm _ _ _
  rw [DoublesAt, delayFor_eq h hlongest, delayFor_eq h hlongest, Nat.add_sub_cancel, hdouble]
  omega

/-- An exponential delay begins with the interval. It doubles behind the first 31 attempts, and behind later ones
exactly if there is nothing to double or the largest factor leads up to the cap. -/
theorem doublesAt_iff (h : policy.backoff = .exponential longest) (hlongest : longest ≤ Duration.longest)
    (hattempt : 1 ≤ attempt) : policy.delayFor 1 = min policy.interval longest ∧
      (policy.DoublesAt longest attempt ↔
        attempt < 32 ∨ policy.interval = 0 ∨ longest ≤ policy.interval * fullFactor) := by
  refine ⟨delayFor_one h hlongest, ?_⟩
  obtain ⟨before, rfl⟩ := Nat.exists_eq_add_of_le' hattempt
  rw [doublesAt_iff_factors h hlongest, Nat.add_sub_cancel]
  rcases Nat.lt_or_ge before 31 with hbefore | hbefore
  · rw [doublings_succ hbefore]
    exact iff_of_true rfl (.inl (Nat.succ_lt_succ hbefore))
  · obtain ⟨hfull, hmore⟩ := two_mul_doublings_of_le hbefore
    rw [hfull]
    rcases Nat.eq_zero_or_pos policy.interval with hzero | hpos
    · rw [hzero, Nat.zero_mul, Nat.zero_mul]
      exact iff_of_true rfl (.inr (.inl rfl))
    · have hproduct := Nat.mul_lt_mul_of_pos_left hmore hpos
      generalize policy.interval * fullFactor = full at hproduct ⊢
      generalize policy.interval * (2 * doublings before) = twice at hproduct ⊢
      omega

/-- Forty attempts, with a millisecond behind the first of them. -/
def fromOneMillisecond (longest : Nat) : RetryPolicy :=
  ⟨40, Duration.ofMillis 1, .exponential longest⟩

/-- A cap of a day hides that the factor has come to its end. -/
theorem doublesAt_iff_of_oneDay :
    (fromOneMillisecond (Duration.ofSeconds 86400)).delayFor 1 = Duration.ofMillis 1 ∧
      (fromOneMillisecond (Duration.ofSeconds 86400)).DoublesAt (Duration.ofSeconds 86400) 32 := by
  obtain ⟨hfirst, hdoubles⟩ := @doublesAt_iff (fromOneMillisecond (Duration.ofSeconds 86400))
    (Duration.ofSeconds 86400) 32 rfl (by decide) (by decide)
  exact ⟨hfirst.trans (by decide), hdoubles.2 (.inr (.inr (by decide)))⟩

/-- A cap of fifty days does not: the delay grows by one millisecond less than itself, and then no more. -/
theorem not_doublesAt_of_fiftyDays :
    (fromOneMillisecond (Duration.ofSeconds 4320000)).delayFor 32 = Duration.ofMillis 2147483648 ∧
      (fromOneMillisecond (Duration.ofSeconds 4320000)).delayFor 33 = Duration.ofMillis 4294967295 ∧
      (fromOneMillisecond (Duration.ofSeconds 4320000)).delayFor 34 = Duration.ofMillis 4294967295 ∧
      ¬(fromOneMillisecond (Duration.ofSeconds 4320000)).DoublesAt (Duration.ofSeconds 4320000) 32 ∧
      ¬(fromOneMillisecond (Duration.ofSeconds 4320000)).DoublesAt (Duration.ofSeconds 4320000) 33 := by
  unfold DoublesAt
  decide

end ReportRelay.RetryPolicy
