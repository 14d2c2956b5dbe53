import ReportRelay.Decimal.Basic

/-!
# Checked arithmetic on decimals

Sums and products are exact when they fit. Otherwise digits are given up from the right, as few as are
needed, rounding a half to the even neighbour; what does not fit without any fraction overflows. A zero that
is computed is not negative.
-/

namespace ReportRelay.Decimal

/-- `n / d` to the nearest integer, a half to the even one. -/
def divideToEven (n d : Nat) : Nat :=
  let q := n / d
  let r := n % d
  if d < 2 * r ∨ (d = 2 * r ∧ q % 2 = 1) then q + 1 else q

/-- The decimal for `n / 10 ^ scale`, with as many of its digits as fit. -/
def fit? (n : Int) (scale : Nat) : Option Decimal :=
  (List.range (scale + 1)).findSome? fun dropped =>
    mk? (withSign (n < 0) (divideToEven n.natAbs (10 ^ dropped))) (scale - dropped)

/-- A zero operand leaves the other one as it is. -/
def add? (a b : Decimal) : Option Decimal :=
  if a.isZero then some b
  else if b.isZero then some a
  else
    let scale := Nat.max a.scale b.scale
    fit? (a.coefficient * 10 ^ (scale - a.scale) + b.coefficient * 10 ^ (scale - b.scale)) scale

def mul? (a b : Decimal) : Option Decimal :=
  if a.isZero ∨ b.isZero then some zero
  else fit? (a.coefficient * b.coefficient) (a.scale + b.scale)

/-! ## A hundredth

The quotient is extended by up to nine digits at a time while there is a remainder and room for digits,
and then loses trailing zeros once, in steps of eight, four, two and one. -/

/-- The largest number of digits, at most nine, by which the quotient may grow. -/
def growth (quotient scale : Nat) : Nat :=
  ((List.range 10).reverse.find? fun x =>
    scale + x ≤ maxScale ∧ quotient * 10 ^ x < mantissaBound).getD 0

/-- Extends a quotient with its remainder of a division by a hundred. Each step adds a digit at least, so
as many steps as there may be digits are enough. -/
def extend : Nat → Nat → Nat → Nat → Nat × Nat
  | 0, quotient, _, scale => (quotient, scale)
  | steps + 1, quotient, remainder, scale =>
    if remainder = 0 then (quotient, scale)
    else
      match growth quotient scale with
      | 0 => (divideToEven (100 * quotient + remainder) 100, scale)
      | x =>
        let next := remainder * 10 ^ x
        extend steps (quotient * 10 ^ x + next / 100) (next % 100) (scale + x)

def shortenBy (digits : Nat) (possible : Nat → Bool) (number : Nat × Nat) : Nat × Nat :=
  if possible number.1 ∧ digits ≤ number.2 ∧ number.1 % 10 ^ digits = 0 then
    (number.1 / 10 ^ digits, number.2 - digits)
  else number

/-- Loses some trailing zeros of the fraction, not all of them. -/
def shorten (number : Nat × Nat) : Nat × Nat :=
  let eight := shortenBy 8 (· % 2 ^ 32 = 0)
  let number := eight (eight (eight number))
  let number := shortenBy 4 (· % 16 = 0) number
  let number := shortenBy 2 (· % 4 = 0) number
  shortenBy 1 (· % 2 = 0) number

def hundredth? (a : Decimal) : Option Decimal :=
  if a.isZero then some zero
  else
    let n := a.mantissa
    let (quotient, scale) :=
      if n % 100 = 0 then (n / 100, a.scale)
      else shorten (extend (maxScale + 1) (n / 100) (n % 100) a.scale)
    fit? (withSign a.negative quotient) scale

def percent? (a : Decimal) (percent : Decimal) : Option Decimal :=
  (a.mul? percent).bind hundredth?

end ReportRelay.Decimal
