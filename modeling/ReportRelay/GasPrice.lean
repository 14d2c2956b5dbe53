import ReportRelay.Decimal.Text
import ReportRelay.Error
import ReportRelay.Log

/-!
# Gas prices

A price per unit of gas in some denomination. The price used is the lowest of what is asked and what is
allowed; a price is bumped by a percentage or a least amount, whichever gives more, within a cap.
-/

namespace ReportRelay

structure DecCoin where
  denom : String
  amount : Decimal
  deriving DecidableEq, Repr

/-- Prices by key, at most one per key. -/
structure Prices where
  entries : List (String × DecCoin)
  deriving DecidableEq, Repr

namespace Prices

def empty : Prices := ⟨[]⟩

def find? (prices : Prices) (denom : String) : Option DecCoin :=
  prices.entries.lookup denom

/-- A later price of the same key replaces the earlier one. -/
def insert (prices : Prices) (key : String) (price : DecCoin) : Prices :=
  ⟨prices.entries.filter (fun entry => entry.1 ≠ key) ++ [(key, price)]⟩

/-- The price under its own denomination. -/
def set (prices : Prices) (price : DecCoin) : Prices :=
  prices.insert price.denom price

def single (price : DecCoin) : Prices :=
  empty.set price

end Prices

namespace GasPrice

/-- The lowest of the default price and the two maxima. -/
def lowest (denom : String) (max default maxConfigured : DecCoin) : DecCoin :=
  ⟨denom, default.amount.min (max.amount.min maxConfigured.amount)⟩

/-- What a price is bumped by. -/
structure Bump where
  percent : Nat
  percent_lt : percent < 2 ^ 16
  least : Decimal

def Bump.percentage (bump : Bump) : Decimal :=
  { Decimal.zero with
    mantissa := bump.percent
    mantissa_lt := Nat.lt_trans bump.percent_lt (by decide) }

/-- The price raised by the percentage. -/
def Bump.byPercent? (bump : Bump) (base : Decimal) : Option Decimal :=
  (base.percent? bump.percentage).bind fun part => part.add? base

/-- The price raised by the least amount. -/
def Bump.byLeast? (bump : Bump) (base : Decimal) : Option Decimal :=
  base.add? bump.least

/-- A current price above the bumped one is kept while it stays under the cap. -/
def chosen (current cap bumped : Decimal) : Decimal × List LogLine :=
  if bumped < current then
    if cap < current then
      (bumped, [.warn
        s!"Current gas price {current.text} exceeds max gas price {cap.text}, using bumped price {bumped.text}"])
    else (current, [])
  else (bumped, [])

/-- Refuses a price above the cap, and one that is no bump. -/
def accepted (base cap price : Decimal) : Except Error Decimal :=
  if cap < price then
    .error (.gasPrice
      (s!"bumped gas price of {price.text} would exceed configured max gas price of "
        ++ s!"{cap.text} (original price was {base.text})"))
  else if price.sameValue base then
    .error (.gasPrice
      (s!"bumped gas price of {price.text} is equal to original gas price of "
        ++ s!"{base.text}: increase the bump percent or bump min"))
  else .ok price

def bumped (denom : String) (current base max maxBump : Decimal) (bump : Bump) :
    Except Error DecCoin × List LogLine :=
  let cap := max.min maxBump
  match bump.byPercent? base, bump.byLeast? base with
  | some byPercent, some byLeast =>
    let (price, warnings) := chosen current cap (byPercent.max byLeast)
    ((accepted base cap price).map (⟨denom, ·⟩), warnings)
  | _, _ => (.error (.gasPrice s!"bumping gas price {base.text} overflows"), [])

end GasPrice

end ReportRelay
