import ReportRelay.Power

/-!
# Decimals

A decimal is a sign, a mantissa below 2^96, and a scale of at most 28: the mantissa is divided by ten to the
power of the scale. The scale is part of the number: equal values of different scales are shown with
different numbers of digits, so comparisons look at the value and selections say which operand they keep.
A zero may be negative. It is equal to the other zero, but it is shown with its sign.
-/

namespace ReportRelay

structure Decimal where
  negative : Bool
  mantissa : Nat
  scale : Nat
  mantissa_lt : mantissa < 2 ^ 96
  scale_le : scale ≤ 28
  deriving DecidableEq, Repr

namespace Decimal

def maxScale : Nat := 28

def mantissaBound : Nat := 2 ^ 96

def ofParts? (negative : Bool) (mantissa scale : Nat) : Option Decimal :=
  if h : mantissa < 2 ^ 96 ∧ scale ≤ 28 then some ⟨negative, mantissa, scale, h.1, h.2⟩ else none

/-- The decimal for `n / 10 ^ scale`. Its sign is the sign of `n`, so a zero is not negative. -/
def mk? (n : Int) (scale : Nat) : Option Decimal :=
  ofParts? (n < 0) n.natAbs scale

def withSign (negative : Bool) (n : Nat) : Int :=
  if negative then -Int.ofNat n else Int.ofNat n

def coefficient (a : Decimal) : Int :=
  withSign a.negative a.mantissa

def zero : Decimal := ⟨false, 0, 0, by decide, by decide⟩

def one : Decimal := ⟨false, 1, 0, by decide, by decide⟩

/-- The scale does not matter for the order. -/
instance : LT Decimal :=
  ⟨fun a b => a.coefficient * 10 ^ b.scale < b.coefficient * 10 ^ a.scale⟩

instance : LE Decimal :=
  ⟨fun a b => ¬ b < a⟩

instance (a b : Decimal) : Decidable (a < b) :=
  inferInstanceAs (Decidable (a.coefficient * 10 ^ b.scale < b.coefficient * 10 ^ a.scale))

instance (a b : Decimal) : Decidable (a ≤ b) :=
  inferInstanceAs (Decidable (¬ b < a))

/-- Equal in value. -/
def sameValue (a b : Decimal) : Bool :=
  a.coefficient * 10 ^ b.scale = b.coefficient * 10 ^ a.scale

/-- The smaller operand, the first when both have the same value. -/
def min (a b : Decimal) : Decimal :=
  if b < a then b else a

/-- The larger operand, the first when both have the same value. -/
def max (a b : Decimal) : Decimal :=
  if a < b then b else a

def isZero (a : Decimal) : Bool :=
  a.mantissa = 0

end Decimal

end ReportRelay
