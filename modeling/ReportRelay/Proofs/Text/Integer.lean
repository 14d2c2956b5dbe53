import ReportRelay.Text.Integer

/-!
# Bounded numbers read back

A bounded number is read from exactly the texts that write it: digits, with a plus sign before them or without,
whose value is below the bound. Leading zeros do not matter.
-/

namespace ReportRelay.Text

/-- The text has digits, with a plus sign before them or without, and they say the number. -/
def Numeral (n : Nat) (text : String) : Prop :=
  ∃ digits, digits ≠ [] ∧ (∀ c ∈ digits, c.isDigit) ∧ (text.toList = digits ∨ text.toList = '+' :: digits) ∧
    Nat.ofDigitChars 10 digits 0 = n

theorem le_ofDigitChars (digits : List Char) (n : Nat) : n ≤ Nat.ofDigitChars 10 digits n := by
  induction digits generalizing n with
  | nil => exact Nat.le_refl n
  | cons c digits ih =>
    rw [Nat.ofDigitChars_cons]
    have hrest := ih (10 * n + (c.toNat - '0'.toNat))
    omega

/-- No digit makes a number smaller, so the bound holds along the way if it holds at the end. -/
theorem appendDigits_eq_ok_iff {bound n m : Nat} {digits : List Char} (hn : n < bound) :
    appendDigits bound n digits = .ok m ↔
      (∀ c ∈ digits, c.isDigit) ∧ Nat.ofDigitChars 10 digits n = m ∧ m < bound := by
  induction digits generalizing n with
  | nil =>
    constructor
    · rintro ⟨⟩
      exact ⟨nofun, rfl, hn⟩
    · rintro ⟨-, rfl, -⟩
      rfl
  | cons c digits ih =>
    rw [appendDigits, digitValue?, Nat.ofDigitChars_cons, List.forall_mem_cons]
    by_cases hc : c.isDigit
    · rw [if_pos hc]
      dsimp only
      by_cases hnext : 10 * n + (c.toNat - 48) < bound
      · rw [if_pos hnext, ih hnext]
        exact ⟨fun ⟨hdigits, hvalue, hm⟩ => ⟨⟨hc, hdigits⟩, hvalue, hm⟩,
          fun ⟨⟨_, hdigits⟩, hvalue, hm⟩ => ⟨hdigits, hvalue, hm⟩⟩
      · rw [if_neg hnext]
        refine iff_of_false nofun fun ⟨_, hvalue, hm⟩ => hnext ?_
        exact Nat.lt_of_le_of_lt (le_ofDigitChars digits _) (hvalue ▸ hm)
    · rw [if_neg hc]
      exact iff_of_false nofun fun ⟨⟨hc', _⟩, _⟩ => hc hc'

theorem isDigit_plus : '+'.isDigit = false := rfl

/-- A number is read from the numerals below the bound, and from nothing else. -/
theorem readNat_eq_ok_iff {bound n : Nat} {text : String} (hbound : 0 < bound) :
    readNat bound text = .ok n ↔ Numeral n text ∧ n < bound := by
  unfold readNat Numeral
  split
  next hempty =>
    rw [hempty]
    refine iff_of_false nofun ?_
    rintro ⟨⟨digits, hne, -, hdigits | hdigits, -⟩, -⟩
    · exact hne hdigits.symm
    · cases hdigits
  next hsign =>
    rw [hsign]
    refine iff_of_false nofun ?_
    rintro ⟨⟨digits, hne, hall, hdigits | hdigits, -⟩, -⟩
    · exact nomatch isDigit_plus.symm.trans (hall '+' (hdigits ▸ List.mem_singleton_self _))
    · exact hne (List.cons.inj hdigits).2.symm
  next digits hne hsign =>
    rw [hsign, appendDigits_eq_ok_iff hbound]
    constructor
    · rintro ⟨hall, hvalue, hn⟩
      exact ⟨⟨digits, fun h => hne (h ▸ rfl), hall, .inr rfl, hvalue⟩, hn⟩
    · rintro ⟨⟨digits', -, hall, hdigits | hdigits, hvalue⟩, hn⟩
      · exact nomatch isDigit_plus.symm.trans (hall '+' (hdigits ▸ List.mem_cons_self))
      · cases hdigits
        exact ⟨hall, hvalue, hn⟩
  next digits hne hplus hsign =>
    rw [appendDigits_eq_ok_iff hbound]
    constructor
    · rintro ⟨hall, hvalue, hn⟩
      exact ⟨⟨_, hne, hall, .inl rfl, hvalue⟩, hn⟩
    · rintro ⟨⟨digits', -, hall, hdigits | hdigits, hvalue⟩, hn⟩
      · cases hdigits
        exact ⟨hall, hvalue, hn⟩
      · exact absurd hdigits (hsign digits')

theorem Numeral.unique {n m : Nat} {text : String} (hn : Numeral n text) (hm : Numeral m text) : n = m := by
  have hbound : 0 < n + m + 1 := by omega
  have hread := (readNat_eq_ok_iff hbound).2 ⟨hn, by omega⟩
  exact Except.ok.inj (hread.symm.trans ((readNat_eq_ok_iff hbound).2 ⟨hm, by omega⟩))

end ReportRelay.Text
