import ReportRelay.GasPrice
import ReportRelay.Proofs.Decimal.Rounding
import ReportRelay.Proofs.Except

/-!
# A bumped price is higher

Neither the percentage nor the sum that it enters can make a price lower, so a bump that is accepted is a higher price,
unless nothing is left of it after rounding, and then it is refused.
-/

namespace ReportRelay.GasPrice

variable {denom : String} {current base max maxBump cap byPercent byLeast price : Decimal} {bump : Bump}

theorem value_le_of_byPercent? (hbase : 0 ≤ base.value) (h : bump.byPercent? base = some byPercent) :
    base.value ≤ byPercent.value := by
  obtain ⟨part, hpart, hsum⟩ := Option.bind_eq_some_iff.1 h
  have hpercentage : 0 ≤ bump.percentage.value := Decimal.value_nonneg_of_coefficient (Int.natCast_nonneg _)
  exact Decimal.value_le_of_add? (Decimal.value_nonneg_of_percent? hbase hpercentage hpart) hbase hsum

/-- The price that a bump comes to: the higher candidate, or the current price where it is above both and within the
cap. -/
def wanted (current cap byPercent byLeast : Decimal) : Decimal :=
  if byPercent < current ∧ byLeast < current ∧ current ≤ cap then current else byPercent.max byLeast

theorem chosen_max : (chosen current cap (byPercent.max byLeast)).1 = wanted current cap byPercent byLeast := by
  have hboth : byPercent.max byLeast < current ↔ byPercent < current ∧ byLeast < current := by
    simp only [Decimal.lt_iff, Decimal.value_max, max_lt_iff]
  have hwithin : current ≤ cap ↔ ¬cap < current := Iff.rfl
  simp only [chosen, wanted, hboth, hwithin]
  split_ifs <;> first | rfl | tauto

theorem accepted_eq_ok_iff {amount : Decimal} :
    accepted base cap price = .ok amount ↔ price = amount ∧ price ≤ cap ∧ ¬price.sameValue base := by
  have hwithin : price ≤ cap ↔ ¬cap < price := Iff.rfl
  rw [accepted, hwithin]
  split_ifs with hcap hsame
  · exact iff_of_false nofun fun h => h.2.1 hcap
  · exact iff_of_false nofun fun h => h.2.2 hsame
  · simp [hcap, hsame]

/-- A bump succeeds with the wanted price if both candidates exist, it is within the cap and it is a new one. -/
theorem bumped_eq_ok_iff {coin : DecCoin} : (bumped denom current base max maxBump bump).1 = .ok coin ↔
    ∃ byPercent byLeast, bump.byPercent? base = some byPercent ∧ bump.byLeast? base = some byLeast ∧
      ⟨denom, wanted current (max.min maxBump) byPercent byLeast⟩ = coin ∧ coin.amount ≤ max.min maxBump ∧
      ¬coin.amount.sameValue base := by
  unfold bumped
  split
  next byPercent byLeast hpercent hleast =>
    simp only [chosen_max, hpercent, hleast, map_eq_ok_iff, accepted_eq_ok_iff, Option.some.injEq]
    constructor
    · rintro ⟨_, ⟨rfl, hcap, hnew⟩, rfl⟩
      exact ⟨byPercent, byLeast, rfl, rfl, rfl, hcap, hnew⟩
    · rintro ⟨_, _, rfl, rfl, rfl, hcap, hnew⟩
      exact ⟨_, ⟨rfl, hcap, hnew⟩, rfl⟩
  next hmissing =>
    refine iff_of_false nofun ?_
    rintro ⟨byPercent, byLeast, hpercent, hleast, _⟩
    exact hmissing byPercent byLeast hpercent hleast

/-- A price above the base and within the cap, not below either candidate, nor below a current price that the cap
allows. -/
structure IsBump (current base cap : Decimal) (bump : Bump) (price : Decimal) : Prop where
  above : base < price
  within : price ≤ cap
  byPercent : ∃ byPercent, bump.byPercent? base = some byPercent ∧ byPercent ≤ price
  byLeast : ∃ byLeast, bump.byLeast? base = some byLeast ∧ byLeast ≤ price
  kept : current ≤ cap → current ≤ price

/-- What stands against a bump: a candidate that overflows, or a price that is too high or no other. -/
inductive Refused (current base cap : Decimal) (bump : Bump) : Prop
  | percentOverflows (none : bump.byPercent? base = none)
  | leastOverflows (none : bump.byLeast? base = none)
  | tooHigh {byPercent byLeast : Decimal} (percent : bump.byPercent? base = some byPercent)
    (least : bump.byLeast? base = some byLeast) (above : cap < wanted current cap byPercent byLeast)
  | unchanged {byPercent byLeast : Decimal} (percent : bump.byPercent? base = some byPercent)
    (least : bump.byLeast? base = some byLeast) (same : (wanted current cap byPercent byLeast).sameValue base)

theorem wanted_ge : byPercent ≤ wanted current cap byPercent byLeast ∧ byLeast ≤ wanted current cap byPercent byLeast ∧
    (current ≤ cap → current ≤ wanted current cap byPercent byLeast) := by
  unfold wanted
  simp only [Decimal.le_iff, Decimal.lt_iff]
  split
  next h => exact ⟨h.1.le, h.2.1.le, fun _ => le_rfl⟩
  next h =>
    rw [Decimal.value_max]
    refine ⟨le_max_left _ _, le_max_right _ _, fun hcap => ?_⟩
    by_contra hlt
    obtain ⟨hpercent, hleast⟩ := max_lt_iff.1 (not_le.1 hlt)
    exact h ⟨hpercent, hleast, hcap⟩

theorem isBump_wanted (hbase : 0 ≤ base.value) (hpercent : bump.byPercent? base = some byPercent)
    (hleast : bump.byLeast? base = some byLeast) (hcap : wanted current cap byPercent byLeast ≤ cap)
    (hnew : ¬(wanted current cap byPercent byLeast).sameValue base) :
    IsBump current base cap bump (wanted current cap byPercent byLeast) := by
  obtain ⟨hbyPercent, hbyLeast, hkept⟩ : byPercent ≤ wanted current cap byPercent byLeast ∧ _ := wanted_ge
  have hle := (value_le_of_byPercent? hbase hpercent).trans (Decimal.le_iff.1 hbyPercent)
  rw [Decimal.sameValue_iff] at hnew
  have habove : base < wanted current cap byPercent byLeast := Decimal.lt_iff.2 (lt_of_le_of_ne hle (Ne.symm hnew))
  exact ⟨habove, hcap, ⟨_, hpercent, hbyPercent⟩, ⟨_, hleast, hbyLeast⟩, hkept⟩

/-- Whatever the other prices are, a price that is not negative is bumped to a higher one within the cap, or refused for
a reason. -/
theorem bump_of_nonneg (denom : String) (current base max maxBump : Decimal) (bump : Bump) (h : Decimal.zero ≤ base) :
    (∀ coin, (bumped denom current base max maxBump bump).1 = .ok coin →
      coin.denom = denom ∧ coin.amount ≤ max ∧ coin.amount ≤ maxBump ∧
        IsBump current base (max.min maxBump) bump coin.amount) ∧
    ((∃ e, (bumped denom current base max maxBump bump).1 = .error e) ↔
      Refused current base (max.min maxBump) bump) := by
  have hbase : 0 ≤ base.value := by
    rwa [Decimal.le_iff, Decimal.value_zero] at h
  constructor
  · intro coin hcoin
    obtain ⟨byPercent, byLeast, hpercent, hleast, rfl, hcap, hnew⟩ := bumped_eq_ok_iff.1 hcoin
    have hvalue := Decimal.le_iff.1 hcap
    rw [Decimal.value_min, le_min_iff] at hvalue
    exact ⟨rfl, Decimal.le_iff.2 hvalue.1, Decimal.le_iff.2 hvalue.2, isBump_wanted hbase hpercent hleast hcap hnew⟩
  · rw [exists_error_iff]
    simp only [bumped_eq_ok_iff]
    constructor
    · intro hnone
      cases hpercent : bump.byPercent? base with
      | none => exact .percentOverflows hpercent
      | some byPercent =>
        cases hleast : bump.byLeast? base with
        | none => exact .leastOverflows hleast
        | some byLeast =>
          by_contra hallowed
          refine hnone ⟨_, byPercent, byLeast, hpercent, hleast, rfl, ?_, ?_⟩
          · exact fun habove => hallowed (.tooHigh hpercent hleast habove)
          · exact fun hsame => hallowed (.unchanged hpercent hleast hsame)
    · rintro hrefused ⟨coin, byPercent, byLeast, hpercent, hleast, rfl, hcap, hnew⟩
      cases hrefused with
      | percentOverflows none => cases hpercent.symm.trans none
      | leastOverflows none => cases hleast.symm.trans none
      | tooHigh percent least above =>
        cases hpercent.symm.trans percent
        cases hleast.symm.trans least
        exact hcap above
      | unchanged percent least same =>
        cases hpercent.symm.trans percent
        cases hleast.symm.trans least
        exact hnew same

/-- The largest mantissa, with all digits behind the point but one. -/
def fullPrice : Decimal :=
  ⟨false, 2 ^ 96 - 1, 28, by decide, by decide⟩

/-- One in the last place, and no percentage. -/
def leastBump : Bump :=
  ⟨0, by decide, { Decimal.one with scale := fullPrice.scale, scale_le := fullPrice.scale_le }⟩

/-- The sum loses a digit, and is rounded up. -/
theorem bump_of_nonneg_of_fullPrice :
    IsBump .zero fullPrice
      (Decimal.min ⟨false, 8, 0, by decide, by decide⟩ ⟨false, 9, 0, by decide, by decide⟩) leastBump
      ⟨false, 7922816251426433759354395034, 27, by decide, by decide⟩ := by
  have hbump := bump_of_nonneg "ucosm" .zero fullPrice ⟨false, 8, 0, by decide, by decide⟩
    ⟨false, 9, 0, by decide, by decide⟩ leastBump (by decide +kernel)
  exact (hbump.1 ⟨"ucosm", _⟩ (by decide +kernel)).2.2.2

end ReportRelay.GasPrice
